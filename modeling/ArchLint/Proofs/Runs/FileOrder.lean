import ArchLint.Proofs.Order.Keys
import ArchLint.Proofs.Runs.Gathered
import Mathlib.Data.List.Nodup

/-!
# The order of files

Findings of one file tie with findings of the same file only, so the order in which files are given does not matter,
and a run over some of the files finds just what the whole run finds in them.
-/

namespace ArchLint

namespace Analyzer

variable {a : Analyzer} {read : Path → Except ReadError String}

theorem file_of_mem_violations (decorates : ∀ rule ∈ a.rules, rule.Decorates) {path : Path} :
    ∀ v ∈ (a.foundIn read path).violations, v.location.file = path.relativeTo a.projectRoot := by
  intro v inside
  rw [violations_foundIn] at inside
  obtain ⟨rule, there, found⟩ := List.mem_flatMap.mp inside
  exact (bears_of_mem (decorates rule there) v found).file

theorem file_of_mem_faults {path : Path} :
    ∀ f ∈ (a.foundIn read path).faults, f.file = path.relativeTo a.projectRoot := by
  intro f inside
  rw [faults_foundIn] at inside
  obtain ⟨rule, -, found⟩ := List.mem_flatMap.mp inside
  exact (file_and_rule_of_mem f found).1

theorem eq_of_components {files : List Path} (distinct : (files.map (·.relativeTo a.projectRoot)).Nodup) :
    ∀ p ∈ files, ∀ q ∈ files,
      (p.relativeTo a.projectRoot).components = (q.relativeTo a.projectRoot).components → p = q := by
  intro p inP q inQ same
  exact List.inj_on_of_nodup_map distinct inP inQ (Path.relativeTo_eq_of_components same)

theorem apart_violations (read : Path → Except ReadError String) (decorates : ∀ rule ∈ a.rules, rule.Decorates)
    {files : List Path} (distinct : (files.map (·.relativeTo a.projectRoot)).Nodup) :
    Apart Violation.compareKeys (fun path => (a.foundIn read path).violations) files := by
  refine apart_of_key (fun v => v.location.file.components)
    (fun path => (path.relativeTo a.projectRoot).components) ?_ ?_ (eq_of_components distinct)
  · intro path _ v inside
    rw [file_of_mem_violations decorates v inside]
  · intro v w tie
    exact (Violation.tie tie).1

theorem apart_faults (read : Path → Except ReadError String) {files : List Path}
    (distinct : (files.map (·.relativeTo a.projectRoot)).Nodup) :
    Apart Fault.compareKeys (fun path => (a.foundIn read path).faults) files := by
  refine apart_of_key (fun f => f.file.components)
    (fun path => (path.relativeTo a.projectRoot).components) ?_ ?_ (eq_of_components distinct)
  · intro path _ f inside
    rw [file_of_mem_faults f inside]
  · intro f g tie
    exact (Fault.tie tie).1

theorem sort_gathered_of_perm (decorates : ∀ rule ∈ a.rules, rule.Decorates) {files other : List Path}
    (distinct : (files.map (·.relativeTo a.projectRoot)).Nodup) (perm : files.Perm other) :
    (a.gathered read files).sort = (a.gathered read other).sort := by
  have violations := sorted_flatMap_of_perm perm (apart_violations read decorates distinct)
  have faults := sorted_flatMap_of_perm perm (apart_faults read distinct)
  rw [Report.sort_eq, Report.sort_eq]
  exact (Report.mk.injEq ..).mpr ⟨violations, perm.countP_eq _, faults⟩

/-- The file is among those given, as seen from the project root. -/
def names (a : Analyzer) (files : List Path) (file : Path) : Bool :=
  file ∈ files.map (·.relativeTo a.projectRoot)

theorem names_relativeTo {files sub : List Path} (distinct : (files.map (·.relativeTo a.projectRoot)).Nodup)
    (part : sub.Subperm files) {path : Path} (inside : path ∈ files) :
    a.names sub (path.relativeTo a.projectRoot) = decide (path ∈ sub) := by
  unfold names
  apply decide_eq_decide.mpr
  refine ⟨?_, fun there => List.mem_map_of_mem there⟩
  intro named
  obtain ⟨other, there, same⟩ := List.mem_map.mp named
  have equal := List.inj_on_of_nodup_map distinct (part.subset there) inside same
  exact equal ▸ there

/-- The run does not depend on the order of the files, and finds in each of them what it would find in any smaller
run. -/
theorem analyzeFiles_fileOrder (a : Analyzer) (read : Path → Except ReadError String) (files : List Path)
    (decorates : ∀ rule ∈ a.rules, rule.Decorates) (distinct : (files.map (·.relativeTo a.projectRoot)).Nodup) :
    (∀ other, other.Perm files →
      (∃ report, a.analyzeFiles read files = .ok report ∧ a.analyzeFiles read other = .ok report) ∨
      ((∃ e, a.analyzeFiles read files = .error e) ∧ ∃ e, a.analyzeFiles read other = .error e)) ∧
    ∀ sub report, sub.Subperm files → a.analyzeFiles read files = .ok report →
      ∃ part, a.analyzeFiles read sub = .ok part ∧
        part.violations = report.violations.filter (fun v => a.names sub v.location.file) ∧
        part.faults = report.faults.filter (fun f => a.names sub f.file) := by
  refine ⟨?_, ?_⟩
  · intro other perm
    by_cases accepted : ∀ path ∈ files, a.refusal? read path = none
    · have whole := analyzeFiles_of_accepted accepted
      have moved := analyzeFiles_of_accepted fun path inside => accepted path (perm.mem_iff.mp inside)
      rw [← sort_gathered_of_perm decorates distinct perm.symm] at moved
      exact Or.inl ⟨_, whole, moved⟩
    · obtain ⟨path, inside, refused⟩ : ∃ path, path ∈ files ∧ a.refusal? read path ≠ none := by
        simpa only [not_forall, exists_prop] using accepted
      exact Or.inr ⟨analyzeFiles_of_refused inside refused,
        analyzeFiles_of_refused (perm.mem_iff.mpr inside) refused⟩
  · intro sub report part succeeded
    obtain ⟨accepted, rfl⟩ := accepted_of_analyzeFiles succeeded
    have once : files.Nodup := List.Nodup.of_map _ distinct
    refine ⟨_, analyzeFiles_of_accepted fun path inside => accepted path (part.subset inside), ?_, ?_⟩
    · refine sorted_flatMap_of_subperm part once (apart_violations read decorates distinct) ?_
      intro path inside v found
      rw [file_of_mem_violations decorates v found, names_relativeTo distinct part inside]
    · refine sorted_flatMap_of_subperm part once (apart_faults read distinct) ?_
      intro path inside f found
      rw [file_of_mem_faults f found, names_relativeTo distinct part inside]

/-- Every file holds one call without a callee, which no rule can make sense of. -/
def clockAnalyzer : Analyzer where
  start := ⟨"/p"⟩
  projectRoot := ⟨"/p"⟩
  rules := [Rules.UnifiedTime.toRule ⟨"tests", .word "tests"⟩]
  language := ⟨"typescript", ["ts"], fun _ _ =>
    .ok ((SyntaxTree.root ⟨0, 4, 1, 1⟩).push 0 .callExpression "call_expression" none ⟨0, 3, 1, 1⟩)⟩
  exclusions := []
  extensions := ["ts"]
  settings := .default
  failOnParseError := true

theorem analyzeFiles_fileOrder_two : ∃ report,
    clockAnalyzer.analyzeFiles (fun _ => .ok "f();") [⟨"/p/b.ts"⟩, ⟨"/p/a.ts"⟩] = .ok report ∧
      clockAnalyzer.analyzeFiles (fun _ => .ok "f();") [⟨"/p/a.ts"⟩, ⟨"/p/b.ts"⟩] = .ok report := by
  have decorates : ∀ rule ∈ clockAnalyzer.rules, rule.Decorates := by
    intro rule inside
    rw [List.mem_singleton.mp inside]
    exact Rules.UnifiedTime.decorates _
  have seen : ([⟨"/p/b.ts"⟩, ⟨"/p/a.ts"⟩] : List Path).map (·.relativeTo clockAnalyzer.projectRoot) =
      [⟨"b.ts"⟩, ⟨"a.ts"⟩] := by
    decide +kernel
  have distinct : (([⟨"/p/b.ts"⟩, ⟨"/p/a.ts"⟩] : List Path).map (·.relativeTo clockAnalyzer.projectRoot)).Nodup := by
    rw [seen]
    decide
  obtain ⟨either, -⟩ := analyzeFiles_fileOrder clockAnalyzer (fun _ => .ok "f();") _ decorates distinct
  rcases either [⟨"/p/a.ts"⟩, ⟨"/p/b.ts"⟩] (List.Perm.swap ..) with both | ⟨⟨e, failed⟩, -⟩
  · exact both
  · exact absurd (failed.symm.trans (analyzeFiles_of_accepted fun _ _ => rfl)) (by simp)

end Analyzer

end ArchLint
