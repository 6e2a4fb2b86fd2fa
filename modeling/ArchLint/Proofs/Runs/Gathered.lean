import ArchLint.Proofs.Visits.Decoration

/-!
# What a run gathers

A run fails at the first file that it refuses, and otherwise sorts what the files hold, one after another. Which
files it refuses does not depend on the rules.
-/

namespace ArchLint

namespace Analyzer

section

variable (a : Analyzer) (read : Path → Except ReadError String)

/-- Why the run stops at a file. -/
def refusal? (path : Path) : Option AnalysisError :=
  match read path with
  | .error cause => some (.unreadable cause)
  | .ok content =>
    match a.language.parse path content with
    | .ok _ => none
    | .error e => if a.failOnParseError then some (.unparsable path e) else none

def tree? (path : Path) : Option (String × SyntaxTree) :=
  match read path with
  | .error _ => none
  | .ok content =>
    match a.language.parse path content with
    | .ok tree => some (content, tree)
    | .error _ => none

/-- What a file holds: nothing if it is passed over. -/
def foundIn (path : Path) : FileReport :=
  match a.tree? read path with
  | some (content, tree) => a.checkTree (.within a.projectRoot path content) tree
  | none => .empty

/-- What the files hold, before it is sorted. -/
def gathered (files : List Path) : Report where
  violations := files.flatMap fun path => (a.foundIn read path).violations
  filesChecked := files.countP fun path => (a.tree? read path).isSome
  faults := files.flatMap fun path => (a.foundIn read path).faults

theorem addFile_eq (r : Report) (path : Path) :
    a.addFile read r path =
      match a.refusal? read path with
      | some e => .error e
      | none => .ok ⟨r.violations ++ (a.foundIn read path).violations,
          r.filesChecked + (a.tree? read path).isSome.toNat, r.faults ++ (a.foundIn read path).faults⟩ := by
  unfold addFile refusal? foundIn tree? checkSource
  cases read path with
  | error cause => rfl
  | ok content =>
    dsimp only
    cases a.language.parse path content with
    | ok tree => rfl
    | error e =>
      simp only [Except.map]
      split
      · rfl
      · simp [FileReport.empty]

theorem foldlM_addFile (files : List Path) (r : Report) :
    files.foldlM (a.addFile read) r =
      match files.findSome? (a.refusal? read) with
      | some e => .error e
      | none => .ok ⟨r.violations ++ (a.gathered read files).violations,
          r.filesChecked + (a.gathered read files).filesChecked, r.faults ++ (a.gathered read files).faults⟩ := by
  induction files generalizing r with
  | nil => simp [gathered, pure, Except.pure]
  | cons path files ih =>
    rw [List.foldlM_cons, addFile_eq, List.findSome?_cons]
    cases a.refusal? read path with
    | some e => rfl
    | none =>
      refine (ih _).trans ?_
      have counted : (a.gathered read (path :: files)).filesChecked =
          (a.tree? read path).isSome.toNat + (a.gathered read files).filesChecked := by
        unfold gathered
        rw [List.countP_cons, Nat.add_comm]
        cases (a.tree? read path).isSome <;> rfl
      rw [counted]
      simp only [gathered, List.flatMap_cons, List.append_assoc, Nat.add_assoc]

theorem analyzeFiles_eq (files : List Path) :
    a.analyzeFiles read files =
      match files.findSome? (a.refusal? read) with
      | some e => .error e
      | none => .ok (a.gathered read files).sort := by
  rw [analyzeFiles, foldlM_addFile]
  cases files.findSome? (a.refusal? read) with
  | some e => rfl
  | none => simp [Except.map, Report.empty]

end

variable {a : Analyzer} {read : Path → Except ReadError String}

theorem tree?_eq_some_iff {path : Path} {content : String} {tree : SyntaxTree} :
    a.tree? read path = some (content, tree) ↔ read path = .ok content ∧ a.language.parse path content = .ok tree := by
  unfold tree?
  constructor
  · intro found
    split at found
    · cases found
    · next text readable =>
      split at found
      · next inner parsed =>
        obtain ⟨rfl, rfl⟩ := Prod.mk.inj (Option.some.inj found)
        exact ⟨readable, parsed⟩
      · cases found
  · rintro ⟨readable, parsed⟩
    rw [readable]
    dsimp only
    rw [parsed]

theorem checkSource_eq_ok_iff {path : Path} {content : String} {found : FileReport} :
    a.checkSource path content = .ok found ↔
      ∃ tree, a.language.parse path content = .ok tree ∧
        a.checkTree (.within a.projectRoot path content) tree = found := by
  unfold checkSource
  cases a.language.parse path content <;> simp [Except.map]

theorem analyzeFiles_of_accepted {files : List Path} (accepted : ∀ path ∈ files, a.refusal? read path = none) :
    a.analyzeFiles read files = .ok (a.gathered read files).sort := by
  rw [analyzeFiles_eq, List.findSome?_eq_none_iff.mpr accepted]

theorem analyzeFiles_of_refused {files : List Path} {path : Path} (inside : path ∈ files)
    (refused : a.refusal? read path ≠ none) : ∃ e, a.analyzeFiles read files = .error e := by
  rw [analyzeFiles_eq]
  cases first : files.findSome? (a.refusal? read) with
  | some e => exact ⟨e, rfl⟩
  | none => exact absurd (List.findSome?_eq_none_iff.mp first path inside) refused

theorem accepted_of_analyzeFiles {files : List Path} {report : Report}
    (succeeded : a.analyzeFiles read files = .ok report) :
    (∀ path ∈ files, a.refusal? read path = none) ∧ report = (a.gathered read files).sort := by
  rw [analyzeFiles_eq] at succeeded
  cases first : files.findSome? (a.refusal? read) with
  | some e =>
    rw [first] at succeeded
    exact absurd succeeded (by simp)
  | none =>
    rw [first] at succeeded
    exact ⟨List.findSome?_eq_none_iff.mp first, (Except.ok.inj succeeded).symm⟩

/-- Files without a tree leave nothing behind. -/
theorem gathered_filter {files : List Path} {p : Path → Bool}
    (passed : ∀ path ∈ files, p path = false → a.tree? read path = none) :
    a.gathered read (files.filter p) = a.gathered read files := by
  induction files with
  | nil => rfl
  | cons path files ih =>
    obtain ⟨first, others⟩ := List.forall_mem_cons.mp passed
    have rest := ih others
    rw [gathered, gathered, Report.mk.injEq] at rest
    obtain ⟨violations, checked, faults⟩ := rest
    cases kept : p path with
    | true =>
      rw [List.filter_cons_of_pos kept, gathered, gathered, Report.mk.injEq]
      simp only [List.flatMap_cons, List.countP_cons, violations, checked, faults, and_self]
    | false =>
      have treeless := first kept
      have found : a.foundIn read path = .empty := by rw [foundIn, treeless]
      rw [List.filter_cons_of_neg (Bool.eq_false_iff.mp kept), gathered, gathered, Report.mk.injEq]
      refine ⟨?_, ?_, ?_⟩
      · rw [List.flatMap_cons, found]
        exact violations
      · rw [List.countP_cons_of_neg (by simp [treeless])]
        exact checked
      · rw [List.flatMap_cons, found]
        exact faults

/-! ### Rule by rule -/

/-- What one rule finds in a file. -/
def foundBy (a : Analyzer) (read : Path → Except ReadError String) (path : Path) (rule : Rule) : FileReport :=
  match a.tree? read path with
  | some (content, tree) => rule.check (a.severityOf rule) (.within a.projectRoot path content) tree
  | none => .empty

theorem violations_foundIn (a : Analyzer) (read : Path → Except ReadError String) (path : Path) :
    (a.foundIn read path).violations = a.rules.flatMap fun rule => (a.foundBy read path rule).violations := by
  unfold foundIn foundBy
  cases a.tree? read path with
  | none => exact (List.flatMap_eq_nil_iff.mpr fun _ _ => rfl).symm
  | some found =>
    dsimp only
    rw [checkTree_eq_flatMap]

theorem faults_foundIn (a : Analyzer) (read : Path → Except ReadError String) (path : Path) :
    (a.foundIn read path).faults = a.rules.flatMap fun rule => (a.foundBy read path rule).faults := by
  unfold foundIn foundBy
  cases a.tree? read path with
  | none => exact (List.flatMap_eq_nil_iff.mpr fun _ _ => rfl).symm
  | some found =>
    dsimp only
    rw [checkTree_eq_flatMap]

theorem gathered_eq (a : Analyzer) (read : Path → Except ReadError String) (files : List Path) :
    a.gathered read files =
      ⟨files.flatMap fun path => a.rules.flatMap fun rule => (a.foundBy read path rule).violations,
        files.countP fun path => (a.tree? read path).isSome,
        files.flatMap fun path => a.rules.flatMap fun rule => (a.foundBy read path rule).faults⟩ := by
  unfold gathered
  simp only [violations_foundIn, faults_foundIn]

theorem relativePath_within (root path : Path) (content : String) :
    (SourceFile.within root path content).relativePath = path.relativeTo root := by
  rw [SourceFile.within]

/-- Violations of a rule that decorates bear its names and lie in the file that was checked. -/
theorem bears_of_mem {path : Path} {rule : Rule} (decorates : rule.Decorates) :
    ∀ v ∈ (a.foundBy read path rule).violations, v.Bears (path.relativeTo a.projectRoot) rule.descriptor := by
  unfold foundBy
  cases a.tree? read path with
  | none => exact fun _ inside => absurd inside List.not_mem_nil
  | some found =>
    intro v inside
    dsimp only at inside
    rw [check_eq] at inside
    rw [← relativePath_within a.projectRoot path found.1]
    exact (a.stamped_finishOf (.within a.projectRoot path found.1) found.2 decorates).named v inside

theorem file_and_rule_of_mem {path : Path} {rule : Rule} :
    ∀ f ∈ (a.foundBy read path rule).faults, f.file = path.relativeTo a.projectRoot ∧ f.rule = rule.name := by
  unfold foundBy
  cases a.tree? read path with
  | none => exact fun _ inside => absurd inside List.not_mem_nil
  | some found =>
    intro f inside
    dsimp only at inside
    rw [check_eq] at inside
    rw [← relativePath_within a.projectRoot path found.1]
    exact a.file_and_rule_of_grid (.within a.projectRoot path found.1) found.2 rule
      (List.reduceOption_mem_iff.mp inside)

end Analyzer

end ArchLint
