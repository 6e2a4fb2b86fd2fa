import ArchLint.Proofs.Findings.FileIndependence
import ArchLint.Proofs.Findings.UnifiedCalls
import ArchLint.Proofs.Runs.Gathered
import ArchLint.Proofs.Runs.Plan

/-!
# Projects that are moved

A file inside a project is seen by the names that lead to it from the project root. So it does not matter where the
root is or how it is spelled: the same files are left out, and the built-in rules find the same in them.
-/

namespace ArchLint

/-- Analyzers with the same built-in rules and severities report the same on sources with the same tree that they see by
the same name. -/
theorem Analyzer.checkSource_eq {a b : Analyzer} (builtIn : ∀ rule ∈ a.rules, Rules.BuiltIn rule)
    (rules : a.rules = b.rules) (settings : a.settings = b.settings) {p q : Path}
    (seen : p.relativeTo a.projectRoot = q.relativeTo b.projectRoot) {content : String}
    (parsed : a.language.parse p content = b.language.parse q content) :
    a.checkSource p content = b.checkSource q content := by
  have path : (SourceFile.within a.projectRoot p content).relativePath =
      (SourceFile.within b.projectRoot q content).relativePath := by
    rw [relativePath_within, relativePath_within, seen]
  have each : ∀ tree, ∀ rule ∈ a.rules, rule.check (a.severityOf rule) (.within a.projectRoot p content) tree =
      rule.check (b.severityOf rule) (.within b.projectRoot q content) tree := by
    intro tree rule inside
    obtain ⟨exempt, looksAt⟩ := (builtIn rule inside).looksAt
    have severity : a.severityOf rule = b.severityOf rule := by rw [severityOf, severityOf, settings]
    rw [severity, looksAt.check_eq path rfl]
  have found : a.checkTree (.within a.projectRoot p content) = b.checkTree (.within b.projectRoot q content) := by
    funext tree
    rw [checkTree_eq_flatMap, checkTree_eq_flatMap, FileReport.mk.injEq, ← rules]
    constructor
    · exact List.flatMap_congr fun rule inside => by rw [each tree rule inside]
    · exact List.flatMap_congr fun rule inside => by rw [each tree rule inside]
  rw [checkSource, checkSource, parsed, found]

theorem Path.fileName?_of_handles {language : Language} {p : Path} (handled : language.handles p = true) :
    ∃ name, p.fileName? = some name := by
  obtain ⟨extension, found, -⟩ := (Option.any_eq_true _ _).mp handled
  exact fileName?_of_extension? found

theorem TypeScript.parse_eq_of_fileName? (grammar : Grammar) {p q : Path}
    (handled : (language grammar).handles p = true) (same : p.fileName? = q.fileName?) (source : String) :
    parse grammar p source = parse grammar q source := by
  have dialects : dialect? p = dialect? q := by rw [dialect?, dialect?, Path.extension?_eq_of_fileName? same]
  obtain ⟨dialect, known⟩ := dialect?_of_handles handled
  rw [parse, parse, ← dialects, known]

namespace AnalysisPlan

def rootedAt (plan : AnalysisPlan) (root : Path) : AnalysisPlan :=
  { plan with projectRoot := root }

section

variable {plan : AnalysisPlan} {root : Path} {a : Analyzer} (built : (plan.rootedAt root).build = .ok a)

include built

theorem rules_of_build : a.rules = plan.rules := by
  obtain ⟨language, exclusions, -, -, rfl⟩ := build_eq_ok_iff.mp built
  rfl

theorem language_of_build {language : Language} (known : plan.language = some language) : a.language = language := by
  obtain ⟨other, exclusions, found, -, rfl⟩ := build_eq_ok_iff.mp built
  exact Option.some.inj (found.symm.trans known)

theorem build_rootedAt (other : Path) :
    ∃ b, (plan.rootedAt other).build = .ok b ∧ a.rules = b.rules ∧ a.settings = b.settings ∧
      a.exclusions = b.exclusions ∧ a.language = b.language := by
  obtain ⟨language, exclusions, known, read, rfl⟩ := build_eq_ok_iff.mp built
  exact ⟨_, build_eq_ok_iff.mpr ⟨language, exclusions, known, read, rfl⟩, rfl, rfl, rfl, rfl⟩

end

/-- The names lead from a root to a path, however the two are spelled. -/
def Leads (root : Path) (names : Place) (p : Path) : Prop :=
  p.normalize.components = root.normalize.components ++ names.map .name

section

variable {plan : AnalysisPlan} {root p : Path} {names : Place} (further : names ≠ []) (leads : Leads root names p)

include further leads

theorem relativeTo_of_build (absolute : root.isAbsolute = true) {a : Analyzer}
    (built : (plan.rootedAt root).build = .ok a) : p.relativeTo a.projectRoot = .ofComponents (names.map .name) := by
  obtain ⟨language, exclusions, -, -, rfl⟩ := build_eq_ok_iff.mp built
  have rooted : (plan.rootedAt root).wholeProjectRoot = root.normalize :=
    Path.absoluteFrom_of_absolute absolute plan.directory
  change p.relativeTo (plan.rootedAt root).wholeProjectRoot = _
  rw [rooted]
  refine Path.relativeTo_of_below (by simpa using further) ?_
  rw [Path.normalize_normalize]
  exact leads

theorem fileName?_of_leads {language : Language} (handled : language.handles p = true) :
    p.fileName? = names.getLast? := by
  obtain ⟨name, named⟩ := Path.fileName?_of_handles handled
  have last := Path.fileName?_normalize named
  obtain ⟨front, final, rfl⟩ := (List.eq_nil_or_concat names).resolve_left further
  rw [Path.fileName?, leads] at last
  rw [named, List.concat_eq_append, List.getLast?_concat, ← last]
  simp

end

/-- The place of the project root is of no account: plans that differ in it come to analyzers together, and for a file
inside the project these make the same of the same tree. TypeScript finds the same tree if it takes both files. -/
theorem build_relocated {plan : AnalysisPlan} (builtIn : ∀ rule ∈ plan.rules, Rules.BuiltIn rule) {root₁ root₂ : Path}
    (absolute₁ : root₁.isAbsolute = true) (absolute₂ : root₂.isAbsolute = true) {a₁ : Analyzer}
    (built₁ : (plan.rootedAt root₁).build = .ok a₁) {names : Place} (further : names ≠ []) {p₁ p₂ : Path}
    (leads₁ : Leads root₁ names p₁) (leads₂ : Leads root₂ names p₂) :
    ∃ a₂, (plan.rootedAt root₂).build = .ok a₂ ∧
      a₁.exclusions.cover a₁.projectRoot p₁ = a₂.exclusions.cover a₂.projectRoot p₂ ∧
      (∀ content tree, a₁.language.parse p₁ content = .ok tree → a₂.language.parse p₂ content = .ok tree →
        ∃ report, a₁.checkSource p₁ content = .ok report ∧ a₂.checkSource p₂ content = .ok report) ∧
      ∀ grammar, plan.language = some (TypeScript.language grammar) →
        (TypeScript.language grammar).handles p₁ = true → (TypeScript.language grammar).handles p₂ = true →
        ∀ content, a₁.checkSource p₁ content = a₂.checkSource p₂ content := by
  obtain ⟨a₂, built₂, rules, settings, exclusions, language⟩ := build_rootedAt built₁ root₂
  have seen : p₁.relativeTo a₁.projectRoot = p₂.relativeTo a₂.projectRoot :=
    (relativeTo_of_build further leads₁ absolute₁ built₁).trans
      (relativeTo_of_build further leads₂ absolute₂ built₂).symm
  rw [← rules_of_build built₁] at builtIn
  refine ⟨a₂, built₂, ?_, ?_, ?_⟩
  · rw [Exclusions.cover, Exclusions.cover, seen, exclusions]
  · intro content tree parsed₁ parsed₂
    have same := Analyzer.checkSource_eq builtIn rules settings seen (parsed₁.trans parsed₂.symm)
    have checked := Analyzer.checkSource_eq_ok_iff.mpr ⟨tree, parsed₁, rfl⟩
    exact ⟨_, checked, same.symm.trans checked⟩
  · intro grammar typescript handled₁ handled₂ content
    refine Analyzer.checkSource_eq builtIn rules settings seen ?_
    rw [← language, language_of_build built₁ typescript]
    have names₁ := fileName?_of_leads further leads₁ handled₁
    have names₂ := fileName?_of_leads further leads₂ handled₂
    exact TypeScript.parse_eq_of_fileName? grammar handled₁ (names₁.trans names₂.symm) content

/-- A project in which tests may read clocks and distributed files are left out. -/
def clockProject : AnalysisPlan where
  directory := ⟨"/"⟩
  projectRoot := ⟨"."⟩
  start := none
  rules := [Rules.UnifiedTime.toRule ⟨"tests", .word "tests"⟩]
  language := some (TypeScript.language fun _ _ => some TypeScript.clockTree)
  exclude := ["**/dist/**"]
  settings := .default
  failOnParseError := false

theorem build_relocated_clockProject :
    let p₁ : Path := ⟨"/dist/tests/proj/src/../src/a.ts"⟩
    let p₂ : Path := ⟨"/home/y//src/./a.ts"⟩
    ∃ a₁ a₂ report, (clockProject.rootedAt ⟨"/dist//tests/./proj"⟩).build = .ok a₁ ∧
      (clockProject.rootedAt ⟨"/home/x/../y"⟩).build = .ok a₂ ∧
      a₁.exclusions.cover a₁.projectRoot p₁ = false ∧ a₂.exclusions.cover a₂.projectRoot p₂ = false ∧
      a₁.checkSource p₁ "Date.now()" = .ok report ∧ a₂.checkSource p₂ "Date.now()" = .ok report ∧
      report.violations.map (·.location.file) = [⟨"src/a.ts"⟩] := by
  intro p₁ p₂
  have seen : (clockProject.rootedAt ⟨"/dist//tests/./proj"⟩).build.toOption.map (fun a =>
      (a.exclusions.cover a.projectRoot p₁, (a.checkSource p₁ "Date.now()").toOption.map fun report =>
        report.violations.map (·.location.file))) = some (false, some [⟨"src/a.ts"⟩]) := by
    decide +kernel
  obtain ⟨a₁, built₁, seen⟩ := of_map_toOption seen
  have builtIn : ∀ rule ∈ clockProject.rules, Rules.BuiltIn rule := by
    intro rule inside
    rw [List.mem_singleton.mp inside]
    exact .unifiedTime _
  have leads₁ : Leads ⟨"/dist//tests/./proj"⟩ ["src", "a.ts"] p₁ := by
    unfold Leads
    decide +kernel
  have leads₂ : Leads ⟨"/home/x/../y"⟩ ["src", "a.ts"] p₂ := by
    unfold Leads
    decide +kernel
  obtain ⟨a₂, built₂, covers, -, reports⟩ :=
    build_relocated builtIn (by decide) (by decide) built₁ (List.cons_ne_nil _ _) leads₁ leads₂
  have same := reports _ rfl (by decide +kernel) (by decide +kernel) "Date.now()"
  obtain ⟨kept, found⟩ := Prod.mk.inj seen
  obtain ⟨report, checked, files⟩ := of_map_toOption found
  exact ⟨a₁, a₂, report, built₁, built₂, kept, covers ▸ kept, checked, same ▸ checked, files⟩

end AnalysisPlan

end ArchLint
