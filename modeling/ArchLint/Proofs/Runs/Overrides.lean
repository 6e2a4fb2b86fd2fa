import ArchLint.Proofs.Findings.FileIndependence
import ArchLint.Proofs.Findings.ParallelCache
import ArchLint.Proofs.Findings.UnifiedCalls
import ArchLint.Proofs.Runs.Gathered
import ArchLint.Proofs.Runs.Plan

/-!
# Severities in the settings

A severity in the settings is a label. The built-in rules write it on their violations and make no other use of it, and
the order of a report does not look at it, so settings that differ in severities give reports that differ in them.
-/

namespace ArchLint

def Violation.withSeverity (v : Violation) (severity : Severity) : Violation :=
  { v with severity := severity }

def FileReport.withSeverity (r : FileReport) (severity : Severity) : FileReport :=
  ⟨r.violations.map (·.withSeverity severity), r.faults⟩

/-! ### Checks under two severities -/

namespace Verdict

variable {α : Type} {objects : α → Bool} {violation : Violation} {answer : Except ShapeError α}

theorem violation?_ofAnswer_map (f : Violation → Violation) :
    (ofAnswer objects (f violation) answer).violation? = (ofAnswer objects violation answer).violation?.map f := by
  cases answer with
  | error e => rfl
  | ok a =>
    unfold ofAnswer
    dsimp only
    split <;> rfl

theorem error?_ofAnswer_congr (other : Violation) :
    (ofAnswer objects other answer).error? = (ofAnswer objects violation answer).error? := by
  cases answer with
  | error e => rfl
  | ok a =>
    unfold ofAnswer
    dsimp only
    split <;> rfl

end Verdict

section

variable {rule : Rule} {file : SourceFile} {tree : SyntaxTree}

theorem Rule.check_withSeverity_of_quiet
    (table : ∀ severity, rule.visitors (.fresh file tree rule.descriptor severity) = .empty) (s t : Severity) :
    rule.check t file tree = (rule.check s file tree).withSeverity t := by
  rw [check_without_handlers t file tree (table t), check_without_handlers s file tree (table s)]
  rfl

theorem Rule.check_withSeverity_of_asks {α : Type} {kind : NodeKind} {h : Handler}
    {question : NodeRef → Except ShapeError α} {objects : NodeRef → α → Bool} {messageId template : String}
    {decorate : NodeRef → RuleContext → Violation → Violation}
    (table : ∀ severity,
      rule.visitors (.fresh file tree rule.descriptor severity) = VisitorTable.empty.on kind h)
    (asks : ∀ severity,
      h.Asks (.fresh file tree rule.descriptor severity) question objects messageId template decorate)
    (decorating : ∀ s t node v, decorate node (.fresh file tree rule.descriptor t) (v.withSeverity t) =
      (decorate node (.fresh file tree rule.descriptor s) v).withSeverity t) (s t : Severity) :
    rule.check t file tree = (rule.check s file tree).withSeverity t := by
  rw [check_settled t file tree (table t) (asks t).settles, check_settled s file tree (table s) (asks s).settles]
  have decorated : ∀ node, decorate node (.fresh file tree rule.descriptor t)
      ((RuleContext.fresh file tree rule.descriptor t).violation node messageId template) =
        (decorate node (.fresh file tree rule.descriptor s)
          ((RuleContext.fresh file tree rule.descriptor s).violation node messageId template)).withSeverity t :=
    fun node => decorating s t node ((RuleContext.fresh file tree rule.descriptor s).violation node messageId template)
  unfold FileReport.withSeverity
  rw [FileReport.mk.injEq]
  constructor
  · dsimp only
    rw [List.map_filterMap]
    refine List.filterMap_congr fun node _ => ?_
    rw [decorated]
    exact Verdict.violation?_ofAnswer_map (·.withSeverity t)
  · refine List.filterMap_congr fun node _ => ?_
    rw [Verdict.error?_ofAnswer_congr]

end

namespace Rules

theorem ParallelCache.withSeverity_decorate (file : SourceFile) (tree : SyntaxTree) (s t : Severity) (node : NodeRef)
    (v : Violation) : decorate node (.fresh file tree descriptor t) (v.withSeverity t) =
      (decorate node (.fresh file tree descriptor s) v).withSeverity t := by
  unfold decorate RuleContext.fresh
  dsimp only
  cases tree.retainingHolder? node <;> rfl

theorem check_withSeverity_of_ban {rule : Rule} {file : SourceFile} {tree : SyntaxTree} (ban : TypeScript.Ban)
    (banned : rule.descriptor = ban.descriptor)
    (table : ∀ severity, rule.visitors (.fresh file tree rule.descriptor severity) =
      reportCallsOf ban.object ban.property ban.messageId ban.suggestion) (s t : Severity) :
    rule.check t file tree = (rule.check s file tree).withSeverity t :=
  Rule.check_withSeverity_of_asks table (fun severity => banned ▸ ban.asks_visit severity file tree)
    (fun _ _ _ _ => rfl) s t

theorem check_withSeverity_of_exempting {rule : Rule} {exempt : Pattern.Exemption}
    {visitors : RuleContext → VisitorTable} (exempting : rule.visitors = unlessExempt exempt visitors)
    {file : SourceFile} {tree : SyntaxTree} (s t : Severity)
    (outside : (∀ severity, rule.visitors (.fresh file tree rule.descriptor severity) =
        visitors (.fresh file tree rule.descriptor severity)) →
      rule.check t file tree = (rule.check s file tree).withSeverity t) :
    rule.check t file tree = (rule.check s file tree).withSeverity t := by
  cases covered : exempt.covers file.relativePath with
  | true =>
    refine Rule.check_withSeverity_of_quiet (fun severity => ?_) s t
    rw [exempting]
    exact if_pos covered
  | false =>
    refine outside fun severity => ?_
    rw [exempting]
    exact if_neg (Bool.eq_false_iff.mp covered)

/-- A built-in rule does nothing with its severity but label violations. -/
theorem BuiltIn.check_withSeverity {rule : Rule} (builtIn : BuiltIn rule) (file : SourceFile) (tree : SyntaxTree)
    (s t : Severity) : rule.check t file tree = (rule.check s file tree).withSeverity t := by
  cases builtIn with
  | parallelCache rule =>
    refine check_withSeverity_of_exempting rfl s t fun table => ?_
    exact Rule.check_withSeverity_of_asks table (fun severity => rule.asks_visit severity file tree)
      (ParallelCache.withSeverity_decorate file tree) s t
  | unifiedTime rule =>
    refine check_withSeverity_of_exempting rfl s t fun table => ?_
    exact check_withSeverity_of_ban TypeScript.timeBan rfl table s t
  | unifiedId rule =>
    refine check_withSeverity_of_exempting rfl s t fun table => ?_
    cases gate : UnifiedId.keywordPattern.isMatch file.content with
    | true =>
      have gated := fun severity => (table severity).trans (if_pos gate)
      exact check_withSeverity_of_ban TypeScript.idBan rfl gated s t
    | false =>
      have gated := fun severity => (table severity).trans (if_neg (Bool.eq_false_iff.mp gate))
      exact Rule.check_withSeverity_of_quiet gated s t

/-! ### Labels of violations -/

/-- The severity of a category's violations that the settings leave alone, by the id of a built-in rule. -/
def defaultFor (id : String) : Severity :=
  ((builtin.find id).map (·.descriptor.category.defaultSeverity)).getD .error

theorem BuiltIn.defaultFor_name {rule : Rule} (builtIn : BuiltIn rule) :
    defaultFor rule.name = rule.defaultSeverity := by
  cases builtIn <;> rfl

end Rules

namespace Settings

/-- The violation with the severity that the settings make of its rule. -/
def relabel (settings : Settings) (v : Violation) : Violation :=
  v.withSeverity ((settings.severity? v.rule).getD (Rules.defaultFor v.rule))

/-- The violation has the severity that is configured for its rule. If there is none, it is an error of a rule against
problems or a warning of a rule that makes suggestions. -/
def Labels (settings : Settings) (v : Violation) : Prop :=
  ∃ e ∈ Rules.builtin, v.rule = e.descriptor.id ∧
    v.severity =
      match settings.severity? v.rule, e.descriptor.category with
      | some severity, _ => severity
      | none, .problem => .error
      | none, .suggestion => .warning

theorem labels_of_relabel {settings : Settings} {v : Violation} {rule : Rule} (builtIn : Rules.BuiltIn rule)
    (named : v.rule = rule.name) (same : settings.relabel v = v) : settings.Labels v := by
  obtain ⟨e, inside, descriptor⟩ := builtIn.exists_entry
  have severity : (settings.severity? v.rule).getD (Rules.defaultFor v.rule) = v.severity :=
    congrArg Violation.severity same
  refine ⟨e, inside, named.trans (congrArg Descriptor.id descriptor), ?_⟩
  rw [← severity]
  cases settings.severity? v.rule with
  | some severity => rfl
  | none =>
    rw [Option.getD_none, named, builtIn.defaultFor_name, Rule.defaultSeverity, descriptor]
    cases e.descriptor.category <;> rfl

end Settings

/-! ### Runs under two settings -/

namespace Analyzer

def withSettings (a : Analyzer) (settings : Settings) : Analyzer :=
  { a with settings := settings }

variable {a : Analyzer} {read : Path → Except ReadError String}

theorem foundBy_withSettings (settings : Settings) {rule : Rule} (builtIn : Rules.BuiltIn rule) (path : Path) :
    (a.withSettings settings).foundBy read path rule =
      ⟨(a.foundBy read path rule).violations.map settings.relabel, (a.foundBy read path rule).faults⟩ := by
  have labelled : (a.withSettings settings).foundBy read path rule =
      (a.foundBy read path rule).withSeverity ((a.withSettings settings).severityOf rule) := by
    have trees : (a.withSettings settings).tree? read path = a.tree? read path := rfl
    unfold foundBy
    rw [trees]
    cases a.tree? read path with
    | none => rfl
    | some found => exact builtIn.check_withSeverity _ found.2 _ _
  rw [labelled, FileReport.withSeverity, FileReport.mk.injEq]
  refine ⟨List.map_congr_left fun v inside => ?_, rfl⟩
  have named : v.rule = rule.name := (bears_of_mem builtIn.decorates v inside).rule
  rw [Settings.relabel, named, builtIn.defaultFor_name]
  rfl

theorem gathered_withSettings (builtIn : ∀ rule ∈ a.rules, Rules.BuiltIn rule) (settings : Settings)
    (files : List Path) : (a.withSettings settings).gathered read files =
      { a.gathered read files with violations := (a.gathered read files).violations.map settings.relabel } := by
  have found : ∀ path, ∀ rule ∈ a.rules, (a.withSettings settings).foundBy read path rule =
      ⟨(a.foundBy read path rule).violations.map settings.relabel, (a.foundBy read path rule).faults⟩ :=
    fun path rule inside => foundBy_withSettings settings (builtIn rule inside) path
  rw [gathered_eq, gathered_eq, Report.mk.injEq]
  refine ⟨?_, rfl, ?_⟩
  · rw [List.map_flatMap]
    refine List.flatMap_congr fun path _ => ?_
    rw [List.map_flatMap]
    exact List.flatMap_congr fun rule inside => by rw [found path rule inside]
  · refine List.flatMap_congr fun path _ => ?_
    exact List.flatMap_congr fun rule inside => by rw [found path rule inside]

theorem sort_relabelled (settings : Settings) (r : Report) :
    ({ r with violations := r.violations.map settings.relabel } : Report).sort =
      { r.sort with violations := r.sort.violations.map settings.relabel } := by
  -- The keys of a violation leave its severity out.
  have sorted : (r.violations.mergeSort fun a b => (a.compareKeys b).isLE).map settings.relabel =
      (r.violations.map settings.relabel).mergeSort fun a b => (a.compareKeys b).isLE :=
    List.map_mergeSort fun _ _ _ _ => rfl
  unfold Report.sort
  rw [sorted]

/-- The analyzer makes the same report under other settings, but for the labels. -/
theorem analyzeFiles_withSettings (builtIn : ∀ rule ∈ a.rules, Rules.BuiltIn rule) (settings : Settings)
    (files : List Path) : (a.withSettings settings).analyzeFiles read files =
      (a.analyzeFiles read files).map fun r => { r with violations := r.violations.map settings.relabel } := by
  have refusals : (a.withSettings settings).refusal? read = a.refusal? read := rfl
  rw [analyzeFiles_eq, analyzeFiles_eq, refusals, gathered_withSettings builtIn, sort_relabelled]
  cases files.findSome? (a.refusal? read) <;> rfl

theorem builtIn_of_mem_report (builtIn : ∀ rule ∈ a.rules, Rules.BuiltIn rule) {files : List Path} {r : Report}
    (succeeded : a.analyzeFiles read files = .ok r) :
    ∀ v ∈ r.violations, ∃ rule, Rules.BuiltIn rule ∧ v.rule = rule.name := by
  obtain ⟨-, rfl⟩ := accepted_of_analyzeFiles succeeded
  intro v inside
  rw [Report.sort, List.mem_mergeSort, gathered_eq] at inside
  obtain ⟨path, -, inside⟩ := List.mem_flatMap.mp inside
  obtain ⟨rule, there, inside⟩ := List.mem_flatMap.mp inside
  exact ⟨rule, builtIn rule there, (bears_of_mem (builtIn rule there).decorates v inside).rule⟩

theorem relabelled_of_analyzeFiles (builtIn : ∀ rule ∈ a.rules, Rules.BuiltIn rule) {files : List Path} {r : Report}
    (succeeded : a.analyzeFiles read files = .ok r) : ∀ v ∈ r.violations, a.settings.relabel v = v := by
  have again : a.analyzeFiles read files = _ := analyzeFiles_withSettings builtIn a.settings files
  rw [succeeded] at again
  have same : r.violations = r.violations.map a.settings.relabel :=
    congrArg Report.violations (Except.ok.inj again)
  refine List.map_inj_left.mp ?_
  exact same.symm.trans (List.map_id' r.violations).symm

end Analyzer

/-! ### Settings that differ in severities -/

namespace Settings

/-- What the settings say of a rule besides its severity: whether it is enabled, and its options. -/
def apart (settings : Settings) (id : String) : Option Bool × Toml.Table :=
  match settings.rule? id with
  | some rule => (rule.enabled, rule.options)
  | none => (none, [])

/-- The settings differ in the severities of rules only. A rule that has no more than a severity in one of them may be
missing from the other, unless no built-in rule has its id. -/
structure SameButSeverity (s t : Settings) : Prop where
  failOn : t.failOn = s.failOn
  files : t.files = s.files
  apart : ∀ id, t.apart id = s.apart id
  strangers : ∀ id, Registry.Unregistered Rules.builtin id → (id ∈ s.rules.map (·.1) ↔ id ∈ t.rules.map (·.1))

variable {s t : Settings}

theorem isEnabled_eq_apart (settings : Settings) (id : String) :
    settings.isEnabled id = (settings.apart id).1.getD true := by
  unfold isEnabled apart
  cases settings.rule? id <;> rfl

theorem options?_eq_apart (settings : Settings) (id : String) :
    (settings.options? id).getD [] = (settings.apart id).2 := by
  unfold options? apart
  cases settings.rule? id <;> rfl

theorem SameButSeverity.select [Pattern.Reader] (alike : s.SameButSeverity t) (only : Option (List String)) :
    Registry.select Rules.builtin t only = Registry.select Rules.builtin s only := by
  refine Rules.clear_builtin.makesOwn.select_congr_of_strangers alike.strangers ?_ ?_
  · intro id
    rw [isEnabled_eq_apart, isEnabled_eq_apart, alike.apart]
  · intro e _
    rw [RuleEntry.instantiate, RuleEntry.instantiate, options?_eq_apart, options?_eq_apart, alike.apart]

end Settings

namespace AnalysisPlan

/-- The run of a plan under other settings, on given files. -/
def runUnder (plan : AnalysisPlan) (read : Path → Except ReadError String) (files : List Path) (settings : Settings) :
    Except AnalysisError Report :=
  ({ plan with settings := settings } : AnalysisPlan).build >>= fun a => a.analyzeFiles read files

variable {s t : Settings} {plan : AnalysisPlan}

theorem build_sameButSeverity (alike : s.SameButSeverity t) :
    ({ plan with settings := t } : AnalysisPlan).build =
      (({ plan with settings := s } : AnalysisPlan).build).map (·.withSettings t) := by
  unfold build wholeStart effectiveExtensions wholeProjectRoot
  dsimp only
  rw [alike.files]
  cases plan.language with
  | none => rfl
  | some language => cases Exclusions.ofSources (plan.exclude ++ s.files.exclude) <;> rfl

theorem runUnder_sameButSeverity (alike : s.SameButSeverity t) (builtIn : ∀ rule ∈ plan.rules, Rules.BuiltIn rule)
    (read : Path → Except ReadError String) (files : List Path) :
    plan.runUnder read files t =
      (plan.runUnder read files s).map fun r => { r with violations := r.violations.map t.relabel } := by
  unfold runUnder
  rw [build_sameButSeverity alike]
  cases built : ({ plan with settings := s } : AnalysisPlan).build with
  | error e => rfl
  | ok a =>
    obtain ⟨language, exclusions, -, -, rfl⟩ := build_eq_ok_iff.mp built
    exact Analyzer.analyzeFiles_withSettings builtIn t files

theorem of_runUnder (builtIn : ∀ rule ∈ plan.rules, Rules.BuiltIn rule) {read : Path → Except ReadError String}
    {files : List Path} {r : Report} (succeeded : plan.runUnder read files s = .ok r) :
    ∀ v ∈ r.violations, s.relabel v = v ∧ ∃ rule, Rules.BuiltIn rule ∧ v.rule = rule.name := by
  obtain ⟨a, built, run⟩ := of_bind succeeded
  obtain ⟨language, exclusions, -, -, rfl⟩ := build_eq_ok_iff.mp built
  intro v inside
  exact ⟨Analyzer.relabelled_of_analyzeFiles builtIn run v inside, Analyzer.builtIn_of_mem_report builtIn run v inside⟩

end AnalysisPlan

/-- Settings that differ in severities only select the same rules. Runs of these rules fail with the same errors, and
otherwise their reports differ at most in the severities of violations: each violation has the one that is configured
for its rule, or the default of the rule's category, and keeps it where that rule's severity is the same. -/
theorem runs_of_sameButSeverity [Pattern.Reader] {s t : Settings} (alike : s.SameButSeverity t) :
    (∀ only, Registry.select Rules.builtin t only = Registry.select Rules.builtin s only ∧
      ∀ rules, Registry.select Rules.builtin s only = .ok rules → ∀ rule ∈ rules, Rules.BuiltIn rule) ∧
    ∀ plan : AnalysisPlan, (∀ rule ∈ plan.rules, Rules.BuiltIn rule) → ∀ read files,
      (∀ e, plan.runUnder read files s = .error e ↔ plan.runUnder read files t = .error e) ∧
      ∀ before, plan.runUnder read files s = .ok before → ∃ after, plan.runUnder read files t = .ok after ∧
        after.faults = before.faults ∧ after.filesChecked = before.filesChecked ∧
        List.Forall₂
          (fun v w => w = { v with severity := w.severity } ∧ s.Labels v ∧ t.Labels w ∧
            (t.severity? v.rule = s.severity? v.rule → w = v))
          before.violations after.violations := by
  refine ⟨fun only => ⟨alike.select only, fun _ => Rules.builtIn_of_select⟩, ?_⟩
  intro plan builtIn read files
  have runs := AnalysisPlan.runUnder_sameButSeverity alike builtIn read files
  constructor
  · intro e
    rw [runs]
    cases plan.runUnder read files s <;> simp [Except.map]
  · intro before succeeded
    rw [succeeded] at runs
    refine ⟨_, runs, rfl, rfl, ?_⟩
    rw [List.forall₂_map_right_iff, List.forall₂_same]
    intro v inside
    obtain ⟨own, rule, listed, named⟩ := AnalysisPlan.of_runUnder builtIn succeeded v inside
    refine ⟨rfl, Settings.labels_of_relabel listed named own, Settings.labels_of_relabel listed named rfl, ?_⟩
    intro same
    rw [Settings.relabel, same]
    exact own

def plainSettings : Settings :=
  ⟨none, ⟨⟨"."⟩, [], [], true⟩, []⟩

/-- The plain settings with a severity for one rule. -/
def overriding (id : String) (severity : Severity) : Settings :=
  { plainSettings with rules := [(id, ⟨none, some severity, []⟩)] }

theorem sameButSeverity_overriding {e : RuleEntry} (inside : e ∈ Rules.builtin) (severity : Severity) :
    plainSettings.SameButSeverity (overriding e.descriptor.id severity) where
  failOn := rfl
  files := rfl
  apart id := by
    unfold Settings.apart Settings.rule? overriding plainSettings
    cases same : id == e.descriptor.id <;> simp [List.lookup_cons, same]
  strangers id stranger := by
    refine iff_of_false List.not_mem_nil ?_
    intro listed
    exact stranger e inside (List.mem_singleton.mp listed).symm

/-- Two rules for a file with a call of `Date.now`. -/
def clockPlan : AnalysisPlan where
  directory := ⟨"/p"⟩
  projectRoot := ⟨"/p"⟩
  start := none
  rules := [Rules.ParallelCache.toRule ⟨true, ⟨"tests", .word "tests"⟩⟩,
    Rules.UnifiedTime.toRule ⟨"tests", .word "tests"⟩]
  language := some (TypeScript.language fun _ _ => some TypeScript.clockTree)
  exclude := []
  settings := .default
  failOnParseError := true

theorem runs_of_sameButSeverity_clockPlan :
    let run := clockPlan.runUnder (fun _ => .ok "Date.now()") [⟨"/p/a.ts"⟩]
    ∃ before after other, run plainSettings = .ok before ∧
      run (overriding "prefer-unified-time" .error) = .ok after ∧
      run (overriding "no-parallel-cache" .info) = .ok other ∧
      before.violations.map (·.severity) = [.warning] ∧ after.violations.map (·.severity) = [.error] ∧
      other.violations = before.violations := by
  intro run
  have builtIn : ∀ rule ∈ clockPlan.rules, Rules.BuiltIn rule := by
    intro rule inside
    simp only [clockPlan, List.mem_cons, List.not_mem_nil, or_false] at inside
    rcases inside with rfl | rfl
    · exact .parallelCache _
    · exact .unifiedTime _
  have seen : (run plainSettings).toOption.map (fun r => r.violations.map fun v => (v.rule, v.severity)) =
      some [("prefer-unified-time", .warning)] := by
    decide +kernel
  obtain ⟨before, first, seen⟩ := of_map_toOption seen
  obtain ⟨v, rest, violations, named, nothing⟩ := List.map_eq_cons_iff.mp seen
  obtain rfl := List.map_eq_nil_iff.mp nothing
  obtain ⟨rule, severity⟩ := Prod.mk.inj named
  have time := sameButSeverity_overriding (List.mem_cons_of_mem _ List.mem_cons_self) .error
  obtain ⟨-, runs⟩ := runs_of_sameButSeverity time
  obtain ⟨after, second, -, -, labels⟩ := (runs clockPlan builtIn _ _).2 before first
  have cache := sameButSeverity_overriding List.mem_cons_self .info
  obtain ⟨-, quiet⟩ := runs_of_sameButSeverity cache
  obtain ⟨other, third, -, -, keeps⟩ := (quiet clockPlan builtIn _ _).2 before first
  rw [violations] at labels keeps
  obtain ⟨w, more, ⟨same, -, ⟨e, -, -, label⟩, -⟩, none, list⟩ := List.forall₂_cons_left_iff.mp labels
  obtain rfl := List.forall₂_nil_left_iff.mp none
  obtain ⟨w', more', ⟨-, -, -, kept⟩, none', list'⟩ := List.forall₂_cons_left_iff.mp keeps
  obtain rfl := List.forall₂_nil_left_iff.mp none'
  have named : w.rule = "prefer-unified-time" := by
    rw [same]
    exact rule
  rw [named] at label
  refine ⟨before, after, other, first, second, third, ?_, ?_, ?_⟩
  · rw [violations, List.map_singleton, severity]
  · rw [list, List.map_singleton, label]
    rfl
  · rw [list', violations, kept]
    rw [rule]
    rfl

end ArchLint
