import ArchLint.Proofs.Findings.UnifiedCalls
import ArchLint.Proofs.Runs.Gathered
import ArchLint.Proofs.Walks.Roots

/-!
# Discovered files and the files that the language handles

Which extensions are discovered can be configured, and which files have a dialect cannot. A discovered file without one
is passed over, or fails the run. If no extensions are configured there are no such files.
-/

namespace ArchLint

namespace TypeScript

/-- The grammar has a tree for the text in the dialect of the file, if the file has a dialect. -/
def Grammar.Reads (grammar : Grammar) (path : Path) (source : String) : Prop :=
  ∀ dialect, dialect? path = some dialect → ∃ tree, grammar dialect source = some tree

/-- The file can be read, and then the grammar reads its text. -/
def Grammar.ReadsFile (grammar : Grammar) (read : Path → Except ReadError String) (path : Path) : Prop :=
  ∃ content, read path = .ok content ∧ grammar.Reads path content

/-! ### Paths that have a dialect -/

section

variable {grammar : Grammar} {path : Path} {source : String}

theorem exists_dialect_iff_handles :
    (∃ dialect, dialect? path = some dialect) ↔ (language grammar).handles path = true := by
  refine ⟨?_, dialect?_of_handles⟩
  rintro ⟨dialect, known⟩
  have listed : ∃ extension, path.extension? = some extension ∧ extension ∈ extensions := by
    unfold dialect? at known
    split at known
    · next markup => exact ⟨_, markup, by decide⟩
    · next markup => exact ⟨_, markup, by decide⟩
    · next extension _ _ here =>
      refine ⟨extension, here, ?_⟩
      by_contra foreign
      rw [if_neg foreign] at known
      cases known
    · cases known
  obtain ⟨extension, here, inside⟩ := listed
  exact (Option.any_eq_true _ _).mpr ⟨extension, here, List.contains_iff_mem.mpr inside⟩

theorem parse_of_not_handles (foreign : (language grammar).handles path = false) :
    (language grammar).parse path source = .error (.unsupported path) := by
  have nothing : dialect? path = none := by
    cases known : dialect? path with
    | none => rfl
    | some dialect =>
      rw [exists_dialect_iff_handles.mp ⟨dialect, known⟩] at foreign
      cases foreign
  change parse grammar path source = _
  rw [parse, nothing]

theorem exists_parse_iff_handles (reads : grammar.Reads path source) :
    (∃ tree, (language grammar).parse path source = .ok tree) ↔ (language grammar).handles path = true := by
  constructor
  · rintro ⟨tree, parsed⟩
    by_contra foreign
    rw [parse_of_not_handles (Bool.eq_false_iff.mpr foreign)] at parsed
    cases parsed
  · intro supported
    obtain ⟨dialect, known⟩ := dialect?_of_handles supported
    obtain ⟨tree, read⟩ := reads dialect known
    refine ⟨lower source tree, ?_⟩
    change parse grammar path source = _
    rw [parse, known]
    dsimp only
    rw [read]

end

end TypeScript

/-! ### Runs -/

namespace TypeScript

section

variable {a : Analyzer} {grammar : Grammar} {read : Path → Except ReadError String}

variable (own : a.language = language grammar)

include own

theorem isSome_tree? {path : Path} (readable : grammar.ReadsFile read path) :
    (a.tree? read path).isSome = (language grammar).handles path := by
  obtain ⟨content, there, reads⟩ := readable
  rw [Bool.eq_iff_iff, ← exists_parse_iff_handles reads, Option.isSome_iff_exists, ← own]
  constructor
  · rintro ⟨⟨text, tree⟩, found⟩
    obtain ⟨again, parsed⟩ := Analyzer.tree?_eq_some_iff.mp found
    obtain rfl := Except.ok.inj (there.symm.trans again)
    exact ⟨tree, parsed⟩
  · rintro ⟨tree, parsed⟩
    exact ⟨(content, tree), Analyzer.tree?_eq_some_iff.mpr ⟨there, parsed⟩⟩

theorem refusal?_of_handles {path : Path} (readable : grammar.ReadsFile read path)
    (supported : (language grammar).handles path = true) : a.refusal? read path = none := by
  obtain ⟨content, there, reads⟩ := readable
  obtain ⟨tree, parsed⟩ := (exists_parse_iff_handles reads).mpr supported
  unfold Analyzer.refusal?
  rw [there, own]
  dsimp only
  rw [parsed]

theorem refusal?_of_not_handles {path : Path} (readable : grammar.ReadsFile read path)
    (foreign : (language grammar).handles path = false) : a.refusal? read path =
      if a.failOnParseError then some (.unparsable path (.unsupported path)) else none := by
  obtain ⟨content, there, -⟩ := readable
  unfold Analyzer.refusal?
  rw [there, own]
  dsimp only
  rw [parse_of_not_handles foreign]

theorem filesChecked_gathered {files : List Path} (readable : ∀ path ∈ files, grammar.ReadsFile read path) :
    (a.gathered read files).filesChecked = files.countP (language grammar).handles :=
  List.countP_congr fun path inside => by rw [isSome_tree? own (readable path inside)]

/-- Files that the language does not handle leave nothing in the report of a run that passes them over. -/
theorem analyzeFiles_of_lenient (lenient : a.failOnParseError = false) {files : List Path}
    (readable : ∀ path ∈ files, grammar.ReadsFile read path) :
    ∃ report, a.analyzeFiles read files = .ok report ∧
      report.filesChecked = files.countP (language grammar).handles ∧
      a.analyzeFiles read (files.filter (language grammar).handles) = .ok report := by
  have accepted : ∀ path ∈ files, a.refusal? read path = none := by
    intro path inside
    cases supported : (language grammar).handles path with
    | true => exact refusal?_of_handles own (readable path inside) supported
    | false => rw [refusal?_of_not_handles own (readable path inside) supported, lenient, if_neg Bool.false_ne_true]
  have passed : ∀ path ∈ files, (language grammar).handles path = false → a.tree? read path = none := by
    intro path inside foreign
    rw [← Option.not_isSome_iff_eq_none, isSome_tree? own (readable path inside), foreign]
    exact Bool.false_ne_true
  refine ⟨_, Analyzer.analyzeFiles_of_accepted accepted, filesChecked_gathered own readable, ?_⟩
  rw [← Analyzer.gathered_filter passed]
  exact Analyzer.analyzeFiles_of_accepted fun path inside => accepted path (List.mem_of_mem_filter inside)

theorem analyzeFiles_of_strict (strict : a.failOnParseError = true) {before after : List Path} {path : Path}
    (readable : ∀ other ∈ before ++ path :: after, grammar.ReadsFile read other)
    (fine : ∀ earlier ∈ before, (language grammar).handles earlier = true)
    (foreign : (language grammar).handles path = false) :
    a.analyzeFiles read (before ++ path :: after) = .error (.unparsable path (.unsupported path)) := by
  have earlier : before.findSome? (a.refusal? read) = none :=
    List.findSome?_eq_none_iff.mpr fun first inside =>
      refusal?_of_handles own (readable first (List.mem_append_left _ inside)) (fine first inside)
  have here := refusal?_of_not_handles own (readable path (List.mem_append_right _ List.mem_cons_self)) foreign
  rw [Analyzer.analyzeFiles_eq, List.findSome?_append, earlier, Option.none_or, List.findSome?_cons, here, strict]
  rfl

theorem analyzeFiles_of_handled {files : List Path} (readable : ∀ path ∈ files, grammar.ReadsFile read path)
    (supported : ∀ path ∈ files, (language grammar).handles path = true) :
    ∃ report, a.analyzeFiles read files = .ok report ∧ report.filesChecked = files.length := by
  have accepted : ∀ path ∈ files, a.refusal? read path = none :=
    fun path inside => refusal?_of_handles own (readable path inside) (supported path inside)
  refine ⟨_, Analyzer.analyzeFiles_of_accepted accepted, ?_⟩
  exact (filesChecked_gathered own readable).trans (List.countP_eq_length.mpr supported)

end

end TypeScript

theorem AnalysisPlan.handles_of_mem_discover {plan : AnalysisPlan} {a : Analyzer} (built : plan.build = .ok a)
    (unconfigured : plan.settings.files.extensions = []) {t : FileTree} {files : List Path}
    (discovered : a.discover t = .ok files) {path : Path} (inside : path ∈ files) : a.language.handles path = true := by
  have start : (plan.startingAt plan.start).build = .ok a := built
  have wanted := Analyzer.wants_of_mem_discover discovered inside
  obtain ⟨⟨extension, there, admitted⟩, -⟩ := (wants_iff start path).mp wanted
  unfold Admits at admitted
  rw [if_pos unconfigured] at admitted
  exact (Option.any_eq_true _ _).mpr ⟨extension, there, List.contains_iff_mem.mpr admitted⟩

/-- A path has a dialect just if the language handles it. Of the discovered files, a run that passes over what it cannot
parse checks just the ones that are handled, and the others leave nothing in its report. A run that does not fails at
the first of the others, if there is one. There is none where no extensions are configured. -/
theorem analyze_handled (grammar : TypeScript.Grammar) :
    (∀ path, ((∃ dialect, TypeScript.dialect? path = some dialect) ↔
        (TypeScript.language grammar).handles path = true) ∧
      ∀ source, grammar.Reads path source →
        ((∃ tree, (TypeScript.language grammar).parse path source = .ok tree) ↔
          (TypeScript.language grammar).handles path = true)) ∧
    ∀ (plan : AnalysisPlan) (a : Analyzer), plan.language = some (TypeScript.language grammar) → plan.build = .ok a →
      ∀ (t : FileTree) (files : List Path), a.discover t = .ok files →
        (∀ path ∈ files, grammar.ReadsFile t.read path) →
        (plan.failOnParseError = false → ∃ report, a.analyze t = .ok report ∧
          report.filesChecked = files.countP (TypeScript.language grammar).handles ∧
          a.analyzeFiles t.read (files.filter (TypeScript.language grammar).handles) = .ok report) ∧
        (plan.failOnParseError = true →
          ((∃ e, a.analyze t = .error e) ↔ ∃ path ∈ files, (TypeScript.language grammar).handles path = false) ∧
          ∀ before path after, files = before ++ path :: after →
            (∀ earlier ∈ before, (TypeScript.language grammar).handles earlier = true) →
            (TypeScript.language grammar).handles path = false →
            a.analyze t = .error (.unparsable path (.unsupported path))) ∧
        (plan.settings.files.extensions = [] →
          (∀ path ∈ files, (TypeScript.language grammar).handles path = true) ∧
          ∃ report, a.analyze t = .ok report ∧ report.filesChecked = files.length) := by
  refine ⟨fun path => ⟨TypeScript.exists_dialect_iff_handles, fun _ => TypeScript.exists_parse_iff_handles⟩, ?_⟩
  intro plan a spoken built t files discovered readable
  have run : a.analyze t = a.analyzeFiles t.read files := Analyzer.analyze_of_discover discovered
  obtain ⟨own, mode⟩ : a.language = TypeScript.language grammar ∧ a.failOnParseError = plan.failOnParseError := by
    obtain ⟨language, exclusions, known, -, rfl⟩ := AnalysisPlan.build_eq_ok_iff.mp built
    exact ⟨Option.some.inj (known.symm.trans spoken), rfl⟩
  rw [run]
  refine ⟨?_, ?_, ?_⟩
  · intro lenient
    exact TypeScript.analyzeFiles_of_lenient own (mode.trans lenient) readable
  · intro strict
    refine ⟨⟨?_, ?_⟩, ?_⟩
    · rintro ⟨e, failed⟩
      by_contra handled
      have supported : ∀ path ∈ files, (TypeScript.language grammar).handles path = true := by
        intro path inside
        by_contra foreign
        exact handled ⟨path, inside, Bool.eq_false_iff.mpr foreign⟩
      obtain ⟨report, succeeded, -⟩ := TypeScript.analyzeFiles_of_handled own readable supported
      cases failed.symm.trans succeeded
    · rintro ⟨path, inside, foreign⟩
      refine Analyzer.analyzeFiles_of_refused inside ?_
      rw [TypeScript.refusal?_of_not_handles own (readable path inside) foreign, mode.trans strict]
      exact Option.some_ne_none _
    · rintro before path after rfl fine foreign
      exact TypeScript.analyzeFiles_of_strict own (mode.trans strict) readable fine foreign
  · intro unconfigured
    have supported : ∀ path ∈ files, (TypeScript.language grammar).handles path = true := by
      intro path inside
      rw [← own]
      exact plan.handles_of_mem_discover built unconfigured discovered inside
    exact ⟨supported, TypeScript.analyzeFiles_of_handled own readable supported⟩

/-- A source beside some notes. -/
def sourceAndNotes : FileTree where
  files := [(["p", "a.ts"], "Date.now()".toUTF8), (["p", "notes.md"], "Date.now()".toUTF8)]
  directories := []
  named := by decide
  distinct := by decide

def notesPlan (strict : Bool) : AnalysisPlan where
  directory := ⟨"/p"⟩
  projectRoot := ⟨"."⟩
  start := none
  rules := [Rules.UnifiedTime.toRule ⟨"tests", .word "tests"⟩]
  language := some (TypeScript.language fun _ _ => some TypeScript.clockTree)
  exclude := []
  settings := { Settings.default with files := { FileSettings.default with extensions := ["ts", ".md"] } }
  failOnParseError := strict

theorem discover_notesPlan (strict : Bool) : ∃ a files, (notesPlan strict).build = .ok a ∧
    a.discover sourceAndNotes = .ok files ∧ files.Perm [⟨"/p/a.ts"⟩, ⟨"/p/notes.md"⟩] := by
  have plain : sourceAndNotes.HidesNothing := by
    unfold FileTree.HidesNothing
    decide
  have seen : (notesPlan strict).build.toOption.map (fun a => (a.start, sourceAndNotes.holds a.start,
      (sourceAndNotes.pathsIn ["p"]).filter a.wants)) = some (⟨"/p"⟩, true, [⟨"/p/a.ts"⟩, ⟨"/p/notes.md"⟩]) := by
    cases strict <;> decide +kernel
  obtain ⟨a, built, seen⟩ := of_map_toOption seen
  simp only [Prod.mk.injEq] at seen
  obtain ⟨start, there, wanted⟩ := seen
  have starts : a.start = .ofPlace ["p"] := start.trans (by decide)
  exact ⟨a, _, built, Analyzer.discover_eq plain (by decide) starts there, wanted ▸ perm_sorted _⟩

theorem analyze_handled_notes : ∃ a b files report, (notesPlan false).build = .ok a ∧ (notesPlan true).build = .ok b ∧
    a.discover sourceAndNotes = .ok files ∧ files.Perm [⟨"/p/a.ts"⟩, ⟨"/p/notes.md"⟩] ∧
    a.analyze sourceAndNotes = .ok report ∧ report.filesChecked = 1 ∧ ∃ e, b.analyze sourceAndNotes = .error e := by
  let grammar : TypeScript.Grammar := fun _ _ => some TypeScript.clockTree
  have readable {files : List Path} (perm : files.Perm [⟨"/p/a.ts"⟩, ⟨"/p/notes.md"⟩]) :
      ∀ path ∈ files, grammar.ReadsFile sourceAndNotes.read path := by
    have read : ∀ path ∈ ([⟨"/p/a.ts"⟩, ⟨"/p/notes.md"⟩] : List Path),
        (sourceAndNotes.read path).toOption = some "Date.now()" := by
      decide +kernel
    intro path inside
    refine ⟨"Date.now()", ?_, fun _ _ => ⟨TypeScript.clockTree, rfl⟩⟩
    have text := read path (perm.mem_iff.mp inside)
    cases found : sourceAndNotes.read path with
    | error cause => simp [found, Except.toOption] at text
    | ok content => simpa [found, Except.toOption] using text
  obtain ⟨-, runs⟩ := analyze_handled grammar
  obtain ⟨a, files, builtA, discoveredA, filesA⟩ := discover_notesPlan false
  obtain ⟨b, others, builtB, discoveredB, filesB⟩ := discover_notesPlan true
  obtain ⟨lenient, -, -⟩ := runs _ a rfl builtA _ files discoveredA (readable filesA)
  obtain ⟨-, strict, -⟩ := runs _ b rfl builtB _ others discoveredB (readable filesB)
  obtain ⟨report, analyzed, checked, -⟩ := lenient rfl
  refine ⟨a, b, files, report, builtA, builtB, discoveredA, filesA, analyzed, ?_, ?_⟩
  · rw [checked, filesA.countP_eq]
    decide +kernel
  · exact (strict rfl).1.mpr ⟨⟨"/p/notes.md"⟩, filesB.mem_iff.mpr (by simp), by decide +kernel⟩

end ArchLint
