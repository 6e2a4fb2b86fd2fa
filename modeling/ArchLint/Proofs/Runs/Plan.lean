import ArchLint.Analysis.Analyzer
import ArchLint.Proofs.Path.Relative

/-!
# Plans that can be set up

A plan comes to an analyzer if it has a language and its globs can be read, and then to one analyzer only. Its project
root is an absolute path in normal form.
-/

namespace ArchLint

namespace Analyzer

variable {a : Analyzer}

structure Rooted (a : Analyzer) : Prop where
  absolute : a.projectRoot.isAbsolute = true
  normal : a.projectRoot.normalize = a.projectRoot

theorem Rooted.join_relativeTo (rooted : a.Rooted) {p : Path} (absolute : p.isAbsolute = true) :
    a.projectRoot.join (p.relativeTo a.projectRoot) = p.normalize := by
  have back := Path.join_relativeTo rooted.absolute absolute
  rwa [rooted.normal] at back

end Analyzer

namespace AnalysisPlan

/-- The analyzer of a plan with this language and these exclusions. -/
def analyzer (plan : AnalysisPlan) (language : Language) (exclusions : Exclusions) : Analyzer where
  start := plan.wholeStart
  projectRoot := plan.wholeProjectRoot
  rules := plan.rules
  language := language
  exclusions := exclusions
  extensions := plan.effectiveExtensions language
  settings := plan.settings
  failOnParseError := plan.failOnParseError

theorem build_eq_ok_iff {plan : AnalysisPlan} {a : Analyzer} :
    plan.build = .ok a ↔ ∃ language exclusions, plan.language = some language ∧
      Exclusions.ofSources (plan.exclude ++ plan.settings.files.exclude) = .ok exclusions ∧
        a = plan.analyzer language exclusions := by
  unfold build
  cases plan.language with
  | none => simp
  | some language =>
    cases Exclusions.ofSources (plan.exclude ++ plan.settings.files.exclude) with
    | error e => simp
    | ok exclusions => simp [analyzer, eq_comm]

theorem exclusions_of_build {plan : AnalysisPlan} {a : Analyzer} (built : plan.build = .ok a) :
    Exclusions.ofSources (plan.exclude ++ plan.settings.files.exclude) = .ok a.exclusions := by
  obtain ⟨language, exclusions, -, read, rfl⟩ := build_eq_ok_iff.mp built
  exact read

theorem rooted_of_build {plan : AnalysisPlan} (absolute : plan.directory.isAbsolute = true) {a : Analyzer}
    (built : plan.build = .ok a) : a.Rooted := by
  obtain ⟨language, exclusions, -, -, rfl⟩ := build_eq_ok_iff.mp built
  exact ⟨(Path.isAbsolute_normalize _).trans (Path.isAbsolute_join absolute _), Path.normalize_normalize _⟩

end AnalysisPlan

end ArchLint
