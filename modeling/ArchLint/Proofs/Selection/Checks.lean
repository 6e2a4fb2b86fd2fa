import ArchLint.Command.Run
import ArchLint.Proofs.Selection.Restriction

/-!
# Checks with a selection

A check reads its settings before it looks at the selection, so a selection that can be read changes the rules of the
analyzer and nothing else.
-/

namespace ArchLint

namespace AnalysisPlan

theorem build_withRules (plan : AnalysisPlan) (rules : List Rule) :
    { plan with rules := rules }.build = plan.build.map (·.withRules rules) := by
  unfold build
  dsimp only
  cases plan.language with
  | none => rfl
  | some language =>
    dsimp only
    cases Exclusions.ofSources (plan.exclude ++ plan.settings.files.exclude) <;> rfl

end AnalysisPlan

namespace Command

theorem picks_eq_of_same_rules {names others : List String}
    (same : ∀ e ∈ Rules.builtin, (∃ name ∈ names, e.descriptor.isCalled name = true) ↔
      ∃ name ∈ others, e.descriptor.isCalled name = true) :
    Rules.builtin.picks names = Rules.builtin.picks others := by
  have agree : ∀ e ∈ Rules.builtin, names.any e.descriptor.isCalled = others.any e.descriptor.isCalled := by
    intro e inside
    rw [Bool.eq_iff_iff, List.any_eq_true, List.any_eq_true]
    exact same e inside
  funext id
  unfold Registry.picks
  rw [Bool.eq_iff_iff, List.any_eq_true, List.any_eq_true]
  exact exists_congr fun e => and_congr_right fun inside => by rw [agree e inside]

section

variable [Pattern.Reader]

section

variable (w : Workspace) (t : FileTree) (language : Language) (settingsFile path : Option Path) (exclude : List String)

/-- The report of a check on given files, and the severity at which it fails. -/
def reportOn (selection : Option String) (read : Path → Except ReadError String) (files : List Path) :
    Except RunError (Except AnalysisError Report × Severity) :=
  (prepare w t language settingsFile path selection exclude).map fun (a, threshold) =>
    (a.analyzeFiles read files, threshold)

/-- What a check plans before it has rules. -/
def planOf (loaded : LoadedSettings) : AnalysisPlan where
  directory := w.directory
  projectRoot := loaded.projectRoot
  start := path.map w.absolute
  rules := []
  language := some language
  exclude := exclude
  settings := loaded.settings
  failOnParseError := false

theorem prepare_eq (selection : Option String) :
    prepare w t language settingsFile path selection exclude =
      match w.load t (path.getD w.directory) settingsFile with
      | .error cause => .error (.settings cause)
      | .ok loaded =>
        match Rules.builtin.select loaded.settings (selection.map selectedNames) with
        | .error cause => .error (.selection cause)
        | .ok rules =>
          match (planOf w language path exclude loaded).build with
          | .error cause => .error (.setup cause)
          | .ok a => .ok (a.withRules rules, loaded.settings.threshold) := by
  unfold prepare
  cases w.load t (path.getD w.directory) settingsFile with
  | error cause => rfl
  | ok loaded =>
    dsimp only [bind, Except.bind, Except.mapError]
    cases Rules.builtin.select loaded.settings (selection.map selectedNames) with
    | error cause => rfl
    | ok rules =>
      dsimp only
      have built := (planOf w language path exclude loaded).build_withRules rules
      cases outcome : (planOf w language path exclude loaded).build with
      | error cause =>
        rw [outcome] at built
        simp only [planOf] at built
        rw [built]
        rfl
      | ok a =>
        rw [outcome] at built
        simp only [planOf] at built
        rw [built]
        rfl

theorem select_of_load {loaded : LoadedSettings} {start : Path} {explicit : Option Path}
    (succeeded : w.load t start explicit = .ok loaded) :
    ∃ rules, Rules.builtin.select loaded.settings none = .ok rules := by
  obtain ⟨settings, -, checked⟩ := of_bind succeeded
  split at checked
  · cases checked
  · next rules selected =>
    obtain rfl := Except.ok.inj checked
    exact ⟨rules, selected⟩

theorem prepare_selection {selection : String} (known : Rules.builtin.Knows (selectedNames selection)) :
    (∃ e, prepare w t language settingsFile path none exclude = .error e ∧
      prepare w t language settingsFile path (some selection) exclude = .error e) ∨
    ∃ whole threshold part, prepare w t language settingsFile path none exclude = .ok (whole, threshold) ∧
      prepare w t language settingsFile path (some selection) exclude = .ok (whole.withRules part, threshold) ∧
      ∀ read files, (whole.withRules part).analyzeFiles read files =
        (whole.analyzeFiles read files).map (·.only (Rules.builtin.picks (selectedNames selection))) := by
  rw [prepare_eq, prepare_eq]
  cases loading : w.load t (path.getD w.directory) settingsFile with
  | error cause => exact Or.inl ⟨_, rfl, rfl⟩
  | ok loaded =>
    obtain ⟨rules, all⟩ := select_of_load w t loading
    obtain ⟨part, some, restricted⟩ := Rules.analyzeFiles_select all known
    simp only [Option.map_none, Option.map_some, all, some]
    cases (planOf w language path exclude loaded).build with
    | error cause => exact Or.inl ⟨_, rfl, rfl⟩
    | ok a => exact Or.inr ⟨a.withRules rules, _, part, rfl, rfl, restricted a⟩

theorem reportOn_some {selection : String} (known : Rules.builtin.Knows (selectedNames selection))
    (read : Path → Except ReadError String) (files : List Path) :
    reportOn w t language settingsFile path exclude (some selection) read files =
      (reportOn w t language settingsFile path exclude none read files).map fun (report, threshold) =>
        (report.map (·.only (Rules.builtin.picks (selectedNames selection))), threshold) := by
  unfold reportOn
  rcases prepare_selection w t language settingsFile path exclude known with
    ⟨e, whole, part⟩ | ⟨a, threshold, rules, whole, part, restricted⟩
  · rw [whole, part]
    rfl
  · rw [whole, part]
    simp only [Except.map, restricted]

theorem discover_some {selection : String} (known : Rules.builtin.Knows (selectedNames selection)) :
    (prepare w t language settingsFile path (some selection) exclude).map (·.1.discover) =
      (prepare w t language settingsFile path none exclude).map (·.1.discover) := by
  rcases prepare_selection w t language settingsFile path exclude known with
    ⟨e, whole, part⟩ | ⟨a, threshold, rules, whole, part, -⟩
  · rw [whole, part]
  · rw [whole, part]
    rfl

end

section

variable {w : Workspace} {t : FileTree} {language : Language} {settingsFile path : Option Path} {exclude : List String}
  {selection : Option String}

theorem of_prepare {a : Analyzer} {threshold : Severity}
    (prepared : prepare w t language settingsFile path selection exclude = .ok (a, threshold)) :
    ∃ loaded rules whole, w.load t (path.getD w.directory) settingsFile = .ok loaded ∧
      Rules.builtin.select loaded.settings (selection.map selectedNames) = .ok rules ∧
      (planOf w language path exclude loaded).build = .ok whole ∧ a = whole.withRules rules ∧
      threshold = loaded.settings.threshold := by
  rw [prepare_eq] at prepared
  split at prepared
  · cases prepared
  · next loaded loading =>
    split at prepared
    · cases prepared
    · next rules selected =>
      split at prepared
      · cases prepared
      · next whole built =>
        obtain ⟨rfl, rfl⟩ := Prod.mk.inj (Except.ok.inj prepared)
        exact ⟨loaded, rules, whole, loading, selected, built, rfl, rfl⟩

theorem error_of_prepare {e : RunError}
    (failed : prepare w t language settingsFile path selection exclude = .error e) :
    (∃ cause, e = .settings cause) ∨ (∃ cause, e = .selection cause) ∨ ∃ cause, e = .setup cause := by
  rw [prepare_eq] at failed
  split at failed
  · exact Or.inl ⟨_, (Except.error.inj failed).symm⟩
  · split at failed
    · exact Or.inr (Or.inl ⟨_, (Except.error.inj failed).symm⟩)
    · split at failed
      · exact Or.inr (Or.inr ⟨_, (Except.error.inj failed).symm⟩)
      · cases failed

end

/-- A check with a selection reports what the whole check reports of the selected rules, and two selections of the
same rules report alike. -/
theorem reportOn_selection (selection : String) (known : Rules.builtin.Knows (selectedNames selection)) :
    (∀ settings rules, Rules.builtin.select settings none = .ok rules →
      ∃ part, Rules.builtin.select settings (some (selectedNames selection)) = .ok part ∧
        ∀ (a : Analyzer) read files, (a.withRules part).analyzeFiles read files =
          ((a.withRules rules).analyzeFiles read files).map
            (·.only (Rules.builtin.picks (selectedNames selection)))) ∧
    ∀ w t language settingsFile path exclude,
      (∀ read files, reportOn w t language settingsFile path exclude (some selection) read files =
        (reportOn w t language settingsFile path exclude none read files).map fun (report, threshold) =>
          (report.map (·.only (Rules.builtin.picks (selectedNames selection))), threshold)) ∧
      (prepare w t language settingsFile path (some selection) exclude).map (·.1.discover) =
        (prepare w t language settingsFile path none exclude).map (·.1.discover) ∧
      ∀ other, Rules.builtin.Knows (selectedNames other) →
        (∀ e ∈ Rules.builtin, (∃ name ∈ selectedNames selection, e.descriptor.isCalled name = true) ↔
          ∃ name ∈ selectedNames other, e.descriptor.isCalled name = true) →
        ∀ read files, reportOn w t language settingsFile path exclude (some selection) read files =
          reportOn w t language settingsFile path exclude (some other) read files := by
  refine ⟨fun settings rules whole => Rules.analyzeFiles_select whole known, ?_⟩
  intro w t language settingsFile path exclude
  have restricted := reportOn_some w t language settingsFile path exclude known
  refine ⟨restricted, discover_some w t language settingsFile path exclude known, ?_⟩
  intro other otherKnown same read files
  rw [restricted, reportOn_some w t language settingsFile path exclude otherKnown, picks_eq_of_same_rules same]

end

/-- A language in which every text is one call without a callee. -/
def callLanguage : Language where
  id := "typescript"
  extensions := ["ts"]
  parse _ _ := .ok ((SyntaxTree.root ⟨0, 4, 1, 1⟩).push 0 .callExpression "call_expression" none ⟨0, 3, 1, 1⟩)

theorem reportOn_selection_aliases :
    reportOn ⟨⟨"/p"⟩, none⟩ .empty callLanguage none none [] (some " CG002 ,prefer-unified-time,, CG001")
        (fun _ => .ok "f();") [⟨"/p/b.ts"⟩, ⟨"/p/a.ts"⟩] =
      reportOn ⟨⟨"/p"⟩, none⟩ .empty callLanguage none none [] (some "no-parallel-cache,CG002")
        (fun _ => .ok "f();") [⟨"/p/b.ts"⟩, ⟨"/p/a.ts"⟩] := by
  have aliases : selectedNames " CG002 ,prefer-unified-time,, CG001" = ["CG002", "prefer-unified-time", "CG001"] := by
    decide +kernel
  have plain : selectedNames "no-parallel-cache,CG002" = ["no-parallel-cache", "CG002"] := by decide +kernel
  obtain ⟨-, checks⟩ := reportOn_selection " CG002 ,prefer-unified-time,, CG001" (by
    rw [aliases]
    unfold Registry.Knows
    decide)
  obtain ⟨-, -, alike⟩ := checks ⟨⟨"/p"⟩, none⟩ .empty callLanguage none none []
  refine alike "no-parallel-cache,CG002" ?_ ?_ _ _
  · rw [plain]
    unfold Registry.Knows
    decide
  · rw [aliases, plain]
    decide

end Command

end ArchLint
