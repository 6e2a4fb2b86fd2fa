import ArchLint.Proofs.Findings.Verdicts
import ArchLint.Proofs.Selection.Validated
import ArchLint.Proofs.Visits.Elsewhere

/-!
# What built-in rules see of a file

A built-in rule keeps out of the files that its configured pattern finds. Of any other file it sees the tree, and the
rule for identifiers sees whether the text speaks of them; the path is no more than the name in its findings.
-/

namespace ArchLint

namespace FileReport

def of (r : FileReport) (rule : String) : FileReport :=
  ⟨r.violations.filter (·.rule = rule), r.faults.filter (·.rule = rule)⟩

end FileReport

namespace Rules

/-- The rule is a built-in one, as the settings make it. -/
def MadeFrom [Pattern.Reader] (settings : Settings) (rule : Rule) : Prop :=
  ∃ e ∈ builtin, e.instantiate settings = .ok rule

/-- The text of the pattern for the files that a rule leaves alone: the configured one, or the default. -/
def exemptionSource (settings : Settings) (id : String) : String :=
  match ((settings.options? id).getD []).lookup exemptionOption with
  | some (.string source) => source
  | _ => Pattern.Exemption.defaultSource

inductive BuiltIn : Rule → Prop
  | parallelCache (rule : ParallelCache) : BuiltIn rule.toRule
  | unifiedTime (rule : UnifiedTime) : BuiltIn rule.toRule
  | unifiedId (rule : UnifiedId) : BuiltIn rule.toRule

/-- All that a rule's table takes from the file. -/
structure LooksAt (rule : Rule) (exempt : Pattern.Exemption) : Prop where
  exempted : ∀ ctx, exempt.covers ctx.file.relativePath = true → rule.visitors ctx = .empty
  same : ∀ ctx other, exempt.covers ctx.file.relativePath = false → exempt.covers other.file.relativePath = false →
    (rule.name = UnifiedId.descriptor.id →
      UnifiedId.keywordPattern.isMatch ctx.file.content = UnifiedId.keywordPattern.isMatch other.file.content) →
    rule.visitors ctx = rule.visitors other
  portable : ∀ ctx, (rule.visitors ctx).Portable

/-! ### Tables of built-in rules -/

theorem portable_unlessExempt (exempt : Pattern.Exemption) {visitors : RuleContext → VisitorTable}
    (portable : ∀ ctx, (visitors ctx).Portable) (ctx : RuleContext) : (unlessExempt exempt visitors ctx).Portable := by
  unfold unlessExempt
  split
  · exact fun _ inside => absurd inside List.not_mem_nil
  · exact portable ctx

theorem looksAt_of_table {rule : Rule} {exempt : Pattern.Exemption} {table : VisitorTable} (portable : table.Portable)
    (visitors : rule.visitors = unlessExempt exempt fun _ => table) : LooksAt rule exempt where
  exempted ctx covered := by rw [visitors, unlessExempt, if_pos covered]
  same ctx other outside outsideOther _ := by
    rw [visitors, unlessExempt, unlessExempt, if_neg (by simp [outside]), if_neg (by simp [outsideOther])]
  portable := by
    rw [visitors]
    exact portable_unlessExempt exempt fun _ => portable

theorem ParallelCache.looksAt (rule : ParallelCache) : LooksAt rule.toRule rule.exempt :=
  looksAt_of_table (portable_on_empty .newExpression rule.portable_visit) rfl

theorem UnifiedTime.looksAt (rule : UnifiedTime) : LooksAt rule.toRule rule.exempt :=
  looksAt_of_table (portable_reportCallsOf _ _ _ _) rfl

theorem UnifiedId.looksAt (rule : UnifiedId) : LooksAt rule.toRule rule.exempt where
  exempted ctx covered := by
    dsimp only [toRule]
    rw [unlessExempt, if_pos covered]
  same ctx other outside outsideOther agree := by
    have gate := agree rfl
    dsimp only [toRule]
    rw [unlessExempt, unlessExempt, outside, outsideOther, gate]
  portable := by
    refine portable_unlessExempt rule.exempt fun ctx => ?_
    split
    · exact portable_reportCallsOf _ _ _ _
    · exact fun _ inside => absurd inside List.not_mem_nil

theorem BuiltIn.looksAt {rule : Rule} (builtIn : BuiltIn rule) : ∃ exempt, LooksAt rule exempt := by
  cases builtIn with
  | parallelCache rule => exact ⟨_, rule.looksAt⟩
  | unifiedTime rule => exact ⟨_, rule.looksAt⟩
  | unifiedId rule => exact ⟨_, rule.looksAt⟩

/-! ### Built-in rules -/

theorem BuiltIn.decorates {rule : Rule} (builtIn : BuiltIn rule) : rule.Decorates := by
  cases builtIn with
  | parallelCache rule => exact rule.decorates
  | unifiedTime rule => exact rule.decorates
  | unifiedId rule => exact rule.decorates

theorem BuiltIn.exists_entry {rule : Rule} (builtIn : BuiltIn rule) :
    ∃ e ∈ builtin, rule.descriptor = e.descriptor := by
  cases builtIn with
  | parallelCache rule => exact ⟨ParallelCache.entry, by simp [builtin], rfl⟩
  | unifiedTime rule => exact ⟨UnifiedTime.entry, by simp [builtin], rfl⟩
  | unifiedId rule => exact ⟨UnifiedId.entry, by simp [builtin], rfl⟩

theorem builtIn_of_select [Pattern.Reader] {settings : Settings} {only : Option (List String)} {rules : List Rule}
    (selected : Registry.select builtin settings only = .ok rules) : ∀ rule ∈ rules, BuiltIn rule := by
  intro rule inside
  obtain ⟨e, there, made⟩ := Registry.of_mem_select clear_builtin.makesOwn selected inside
  obtain ⟨values, carries, -⟩ := configured_of_instantiate there made
  cases carries with
  | parallelCache rule => exact .parallelCache rule
  | unifiedTime rule => exact .unifiedTime rule
  | unifiedId rule => exact .unifiedId rule

/-! ### The configured pattern -/

theorem ofSource?_of_configures [Pattern.Reader] {settings : Settings} {id : String} {exempt : Pattern.Exemption}
    (configures : Configures settings id exemptionSpec (.pattern exempt)) :
    Pattern.Exemption.ofSource? (exemptionSource settings id) = some exempt := by
  have named : exemptionSpec.name = exemptionOption := rfl
  unfold Configures at configures
  unfold exemptionSource
  rw [named] at configures
  cases found : ((settings.options? id).getD []).lookup exemptionOption with
  | none =>
    rw [found] at configures
    cases configures with
    | pattern read => exact read
  | some given =>
    rw [found, Option.getD_some] at configures
    cases configures with
    | pattern read => exact read

theorem looksAt_of_madeFrom [Pattern.Reader] {settings : Settings} {rule : Rule} (made : MadeFrom settings rule) :
    ∃ exempt, Pattern.Exemption.ofSource? (exemptionSource settings rule.name) = some exempt ∧ LooksAt rule exempt := by
  obtain ⟨e, inside, instantiated⟩ := made
  obtain ⟨values, carries, configured⟩ := configured_of_instantiate inside instantiated
  cases carries with
  | parallelCache rule =>
    obtain ⟨-, others⟩ := List.forall₂_cons.mp configured
    exact ⟨rule.exempt, ofSource?_of_configures (List.forall₂_cons.mp others).1, rule.looksAt⟩
  | unifiedTime rule =>
    exact ⟨rule.exempt, ofSource?_of_configures (List.forall₂_cons.mp configured).1, rule.looksAt⟩
  | unifiedId rule =>
    exact ⟨rule.exempt, ofSource?_of_configures (List.forall₂_cons.mp configured).1, rule.looksAt⟩

theorem LooksAt.check_eq {rule : Rule} {exempt : Pattern.Exemption} (looksAt : LooksAt rule exempt)
    {here there : SourceFile} (path : here.relativePath = there.relativePath) (content : here.content = there.content)
    (severity : Severity) (tree : SyntaxTree) : rule.check severity here tree = rule.check severity there tree := by
  let start := fun file => RuleContext.fresh file tree rule.descriptor severity
  have table : rule.visitors (start here) = rule.visitors (start there) := by
    cases covered : exempt.covers here.relativePath with
    | true =>
      rw [looksAt.exempted (start here) covered, looksAt.exempted (start there) (path ▸ covered)]
    | false =>
      exact looksAt.same (start here) (start there) covered (path ▸ covered) fun _ => congrArg _ content
  have moved := rule.check_inFile here there severity tree (looksAt.portable _) table rfl
  have still := rule.check_inFile here here severity tree (looksAt.portable _) rfl rfl
  rw [moved, ← path, ← still]

theorem eq_of_madeFrom [Pattern.Reader] {settings : Settings} {rule other : Rule} (made : MadeFrom settings rule)
    (madeOther : MadeFrom settings other) (same : other.name = rule.name) : other = rule := by
  obtain ⟨e, inside, instantiated⟩ := made
  obtain ⟨k, insideOther, instantiatedOther⟩ := madeOther
  have named : ∀ {e : RuleEntry} {rule : Rule}, e ∈ builtin → e.instantiate settings = .ok rule →
      rule.name = e.descriptor.id := by
    intro e rule inside instantiated
    obtain ⟨options, made⟩ := Registry.instantiate_eq_ok instantiated
    exact congrArg Descriptor.id (of_make_builtin inside made).1
  rw [named insideOther instantiatedOther, named inside instantiated] at same
  obtain rfl := clear_builtin.eq_of_id insideOther inside same
  exact Except.ok.inj (instantiatedOther.symm.trans instantiated)

end Rules

/-! ### One rule among others -/

namespace Analyzer

variable {settings : Settings} {a : Analyzer}

theorem rule_of_mem_check (file : SourceFile) (tree : SyntaxTree) {rule : Rule} (decorates : rule.Decorates) :
    (∀ v ∈ (rule.check (a.severityOf rule) file tree).violations, v.rule = rule.name) ∧
      ∀ f ∈ (rule.check (a.severityOf rule) file tree).faults, f.rule = rule.name := by
  rw [check_eq]
  constructor
  · intro v found
    exact ((a.stamped_finishOf file tree decorates).named v found).rule
  · intro f found
    exact (a.file_and_rule_of_grid file tree rule (List.reduceOption_mem_iff.mp found)).2

theorem of_checkTree [Pattern.Reader] (made : ∀ rule ∈ a.rules, Rules.MadeFrom settings rule) {rule : Rule}
    (inside : rule ∈ a.rules) (file : SourceFile) (tree : SyntaxTree) :
    (a.checkTree file tree).of rule.name =
      ⟨(a.rules.filter (·.name = rule.name)).flatMap fun _ => (rule.check (a.severityOf rule) file tree).violations,
        (a.rules.filter (·.name = rule.name)).flatMap fun _ => (rule.check (a.severityOf rule) file tree).faults⟩ := by
  have own : ∀ other ∈ a.rules, other.Decorates := by
    intro other there
    obtain ⟨e, listed, instantiated⟩ := made other there
    exact Rules.decorates_of_instantiate listed instantiated
  have only : ∀ other ∈ a.rules.filter (·.name = rule.name), other = rule := by
    intro other there
    obtain ⟨listed, same⟩ := List.mem_filter.mp there
    exact Rules.eq_of_madeFrom (made rule inside) (made other listed) (of_decide_eq_true same)
  rw [checkTree_eq_flatMap, FileReport.of, FileReport.mk.injEq]
  constructor
  · rw [filter_flatMap_of_parts (q := fun other => decide (other.name = rule.name))]
    · exact List.flatMap_congr fun other there => by rw [only other there]
    · intro other there v found
      rw [(rule_of_mem_check file tree (own other there)).1 v found]
  · rw [filter_flatMap_of_parts (q := fun other => decide (other.name = rule.name))]
    · exact List.flatMap_congr fun other there => by rw [only other there]
    · intro other there f found
      rw [(rule_of_mem_check file tree (own other there)).2 f found]

/-- A built-in rule finds nothing in files that its pattern exempts. In two other files it finds the same in the same
tree, whatever their paths and texts are; for identifiers the texts have to agree on whether they speak of them. -/
theorem checkTree_fileIndependent [Pattern.Reader] (made : ∀ rule ∈ a.rules, Rules.MadeFrom settings rule)
    {rule : Rule} (inside : rule ∈ a.rules) :
    ∃ exempt, Pattern.Exemption.ofSource? (Rules.exemptionSource settings rule.name) = some exempt ∧
      (∀ root path content tree, exempt.regex.isMatch (path.relativeTo root).slashForm = true →
        (a.checkTree (.within root path content) tree).of rule.name = .empty) ∧
      ∀ root₁ path₁ content₁ root₂ path₂ content₂ tree,
        exempt.regex.isMatch (path₁.relativeTo root₁).slashForm = false →
        exempt.regex.isMatch (path₂.relativeTo root₂).slashForm = false →
        (rule.name = "prefer-unified-id" → Rules.UnifiedId.keywordPattern.isMatch content₁ =
          Rules.UnifiedId.keywordPattern.isMatch content₂) →
        ∀ common, ((a.checkTree (.within root₁ path₁ content₁) tree).of rule.name).inFile common =
          ((a.checkTree (.within root₂ path₂ content₂) tree).of rule.name).inFile common := by
  obtain ⟨exempt, configured, looksAt⟩ := Rules.looksAt_of_madeFrom (made rule inside)
  refine ⟨exempt, configured, ?_, ?_⟩
  · intro root path content tree covered
    have table := looksAt.exempted (.fresh (.within root path content) tree rule.descriptor (a.severityOf rule)) covered
    rw [of_checkTree made inside, rule.check_without_handlers _ _ tree table]
    simp [FileReport.empty]
  · intro root₁ path₁ content₁ root₂ path₂ content₂ tree outside₁ outside₂ agree common
    let start := fun file => RuleContext.fresh file tree rule.descriptor (a.severityOf rule)
    have tables := looksAt.same (start (.within root₁ path₁ content₁)) (start (.within root₂ path₂ content₂))
      outside₁ outside₂ agree
    have moved := rule.check_inFile (.within root₁ path₁ content₁) (.within root₂ path₂ content₂) (a.severityOf rule)
      tree (looksAt.portable _) tables rfl
    have alike : (rule.check (a.severityOf rule) (.within root₁ path₁ content₁) tree).inFile common =
        (rule.check (a.severityOf rule) (.within root₂ path₂ content₂) tree).inFile common := by
      rw [moved, FileReport.inFile_inFile]
    rw [of_checkTree made inside, of_checkTree made inside]
    unfold FileReport.inFile at alike ⊢
    obtain ⟨violations, faults⟩ := FileReport.mk.inj alike
    simp only [List.map_flatMap, violations, faults]

/-- Identifiers may be made in any way below `spec`. -/
def specSettings : Settings :=
  { Settings.default with
    rules := [("prefer-unified-id", ⟨none, none, [("allowFilesPattern", .string "spec/")]⟩)] }

def specRule : Rule :=
  Rules.UnifiedId.toRule ⟨"spec/", .word "spec/"⟩

theorem madeFrom_specSettings : Rules.MadeFrom specSettings specRule := by
  refine ⟨Rules.UnifiedId.entry, by simp [Rules.builtin], ?_⟩
  have resolved : RuleOptions.resolve "prefer-unified-id" [Rules.exemptionSpec]
      ((specSettings.options? "prefer-unified-id").getD []) =
        .ok ⟨"prefer-unified-id", [("allowFilesPattern", .pattern ⟨"spec/", .word "spec/"⟩)]⟩ := by
    decide +kernel
  change (do Rules.UnifiedId.entry.make (← RuleOptions.resolve "prefer-unified-id" [Rules.exemptionSpec]
    ((specSettings.options? "prefer-unified-id").getD []))) = _
  rw [resolved]
  rfl

/-- A call of `Math.random` and a call of nothing. -/
def randomTree : SyntaxTree :=
  let call := (SyntaxTree.root ⟨0, 18, 1, 1⟩).push 0 .callExpression "call_expression" none ⟨0, 13, 1, 1⟩
  let member := call.push 1 .memberExpression "member_expression" (some "function") ⟨0, 11, 1, 1⟩
  let object := (member.push 2 .identifier "identifier" (some "object") ⟨0, 4, 1, 1⟩).setText 3 "Math"
  let property := (object.push 2 .identifier "property_identifier" (some "property") ⟨5, 11, 1, 6⟩).setText 4 "random"
  property.push 0 .callExpression "call_expression" none ⟨15, 17, 2, 1⟩

def specAnalyzer : Analyzer where
  start := ⟨"/p"⟩
  projectRoot := ⟨"/p"⟩
  rules := [specRule]
  language := ⟨"typescript", ["ts"], fun _ _ => .ok randomTree⟩
  exclusions := []
  extensions := ["ts"]
  settings := specSettings
  failOnParseError := true

theorem checkTree_fileIndependent_spec :
    let report := fun (root path content : String) =>
      (specAnalyzer.checkTree (.within ⟨root⟩ ⟨path⟩ content) randomTree).of specRule.name
    report "/p" "/p/spec/a.ts" "let id" = .empty ∧
      (report "/p" "/p/src/a.ts" "let id").inFile ⟨"any"⟩ =
        (report "/spec" "/spec/lib/../b.ts" "requestId()").inFile ⟨"any"⟩ ∧
      (report "/p" "/p/src/a.ts" "let id").violations.map (·.location.offset) = [0] ∧
      (report "/p" "/p/src/a.ts" "let id").faults.map (·.line) = [2] := by
  intro report
  have made : ∀ rule ∈ specAnalyzer.rules, Rules.MadeFrom specSettings rule := by
    intro rule inside
    rw [List.mem_singleton.mp inside]
    exact madeFrom_specSettings
  obtain ⟨exempt, configured, exempted, alike⟩ := checkTree_fileIndependent made (List.mem_singleton.mpr rfl)
  have read : Pattern.Exemption.ofSource? (Rules.exemptionSource specSettings specRule.name) =
      some ⟨"spec/", .word "spec/"⟩ := by
    decide +kernel
  obtain rfl := Option.some.inj (configured.symm.trans read)
  refine ⟨exempted ⟨"/p"⟩ ⟨"/p/spec/a.ts"⟩ "let id" randomTree (by decide +kernel), ?_, by decide +kernel,
    by decide +kernel⟩
  exact alike ⟨"/p"⟩ ⟨"/p/src/a.ts"⟩ "let id" ⟨"/spec"⟩ ⟨"/spec/lib/../b.ts"⟩ "requestId()" randomTree
    (by decide +kernel) (by decide +kernel) (fun _ => by decide +kernel) ⟨"any"⟩

end Analyzer

end ArchLint
