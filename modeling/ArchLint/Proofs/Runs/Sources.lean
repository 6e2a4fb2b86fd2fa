import ArchLint.Proofs.Findings.UnifiedCalls
import ArchLint.Proofs.Runs.FileOrder
import ArchLint.Proofs.Runs.Plan
import ArchLint.Proofs.Selection.Checks
import ArchLint.Proofs.Selection.Validated
import ArchLint.Proofs.Walks.Following

/-!
# From violations back to sources

The path that a violation names, joined to the project root, leads to the file that the violation was found in. So a
report can be printed with its sources.
-/

namespace ArchLint

/-! ### What is read for a violation -/

theorem exists_guarded_iff {ε α : Type} {c : Bool} {a : α} {e : ε} :
    (∃ b, (if c = true then pure a else throw e : Except ε α) = .ok b) ↔ c = true := by
  cases c <;> simp [throw, throwThe, MonadExceptOf.throw, pure, Except.pure]

theorem guarded_eq_error_iff {ε α : Type} {c : Bool} {a : α} {e cause : ε} :
    (if c = true then pure a else throw e : Except ε α) = .error cause ↔ c = false ∧ cause = e := by
  cases c <;> simp [throw, throwThe, MonadExceptOf.throw, pure, Except.pure, eq_comm]

namespace Report

variable {r : Report} {readable : Path → Bool} {root : Path}

/-- Printing stops at the first violation whose file, seen from the root, cannot be read. -/
theorem renderPretty_eq_error_iff {cause : RenderError} : r.renderPretty readable root = .error cause ↔
    ∃ before v after, r.violations = before ++ v :: after ∧
      (∀ u ∈ before, readable (root.join u.location.file) = true) ∧
      readable (root.join v.location.file) = false ∧ cause = ⟨root.join v.location.file⟩ := by
  rw [renderPretty, bind_return_eq_error_iff, mapM_eq_error_iff]
  simp only [exists_guarded_iff, guarded_eq_error_iff]

theorem exists_renderPretty_iff : (∃ text, r.renderPretty readable root = .ok text) ↔
    ∀ v ∈ r.violations, readable (root.join v.location.file) = true := by
  constructor
  · rintro ⟨text, printed⟩ v inside
    obtain ⟨blocks, each, -⟩ := of_bind_return printed
    obtain ⟨block, -, passed⟩ := exists_of_forall₂ (mapM_eq_ok_iff.mp each) inside
    exact exists_guarded_iff.mp ⟨block, passed⟩
  · intro all
    cases printed : r.renderPretty readable root with
    | ok text => exact ⟨text, rfl⟩
    | error cause =>
      obtain ⟨before, v, after, split, -, missing, -⟩ := renderPretty_eq_error_iff.mp printed
      have inside : v ∈ r.violations := by
        rw [split]
        exact List.mem_append_right _ List.mem_cons_self
      exact absurd (all v inside) (ne_true_of_eq_false missing)

end Report

/-! ### What is found in a file -/

namespace Analyzer

variable {a : Analyzer}

theorem checkSource_of_mem_foundIn {read : Path → Except ReadError String} {p : Path} {v : Violation}
    (inside : v ∈ (a.foundIn read p).violations) :
    ∃ content found, read p = .ok content ∧ a.checkSource p content = .ok found ∧ v ∈ found.violations := by
  unfold foundIn at inside
  split at inside
  · next content tree found =>
    obtain ⟨readable, parsed⟩ := tree?_eq_some_iff.mp found
    exact ⟨content, _, readable, checkSource_eq_ok_iff.mpr ⟨tree, parsed, rfl⟩, inside⟩
  · cases inside

theorem file_of_checkSource (decorates : ∀ rule ∈ a.rules, rule.Decorates) {p : Path} {content : String}
    {found : FileReport} (checked : a.checkSource p content = .ok found) :
    ∀ v ∈ found.violations, v.location.file = p.relativeTo a.projectRoot := by
  obtain ⟨tree, parsed, rfl⟩ := checkSource_eq_ok_iff.mp checked
  have here : a.tree? (fun _ => .ok content) p = some (content, tree) := tree?_eq_some_iff.mpr ⟨rfl, parsed⟩
  have same : a.foundIn (fun _ => .ok content) p = a.checkTree (.within a.projectRoot p content) tree := by
    rw [foundIn, here]
  rw [← same]
  exact file_of_mem_violations decorates

/-- The violation was found in one of the files, and from the project root it leads there: to the normal form of the
path, where the same text is read. -/
def LeadsBack (a : Analyzer) (t : FileTree) (files : List Path) (v : Violation) : Prop :=
  ∃ p ∈ files, ∃ content found, t.read p = .ok content ∧ a.checkSource p content = .ok found ∧ v ∈ found.violations ∧
    a.projectRoot.join v.location.file = p.normalize ∧ t.read (a.projectRoot.join v.location.file) = .ok content

section

variable {t : FileTree} {files : List Path} {report : Report} (rooted : a.Rooted)
  (decorates : ∀ rule ∈ a.rules, rule.Decorates) (absolute : ∀ p ∈ files, p.isAbsolute = true)
  (analyzed : a.analyzeFiles t.read files = .ok report)

include rooted decorates absolute analyzed

theorem leadsBack_of_mem : ∀ v ∈ report.violations, a.LeadsBack t files v := by
  intro v inside
  obtain ⟨-, rfl⟩ := accepted_of_analyzeFiles analyzed
  have gathered : v ∈ (a.gathered t.read files).violations := by
    rw [Report.sort_eq] at inside
    exact (perm_sorted _).mem_iff.mp inside
  obtain ⟨p, there, own⟩ := List.mem_flatMap.mp gathered
  obtain ⟨content, found, readable, checked, reported⟩ := checkSource_of_mem_foundIn own
  have back : a.projectRoot.join v.location.file = p.normalize := by
    rw [file_of_mem_violations decorates v own, rooted.join_relativeTo (absolute p there)]
  refine ⟨p, there, content, found, readable, checked, reported, back, ?_⟩
  rw [back]
  exact FileTree.read_normalize (absolute p there) readable

theorem renderPretty_of_analyzeFiles :
    ∃ text, report.renderPretty (fun path => (t.read path).isOk) a.projectRoot = .ok text := by
  refine Report.exists_renderPretty_iff.mpr fun v inside => ?_
  obtain ⟨p, -, content, found, -, -, -, -, again⟩ := leadsBack_of_mem rooted decorates absolute analyzed v inside
  rw [again]
  rfl

end

end Analyzer

namespace Command

section

variable [Pattern.Reader] {w : Workspace} {t : FileTree} {language : Language} {settingsFile path : Option Path}
  {selection : Option String} {exclude : List String}

theorem rooted_and_decorates_of_prepare (absolute : w.directory.isAbsolute = true) {a : Analyzer} {threshold : Severity}
    (prepared : prepare w t language settingsFile path selection exclude = .ok (a, threshold)) :
    a.Rooted ∧ ∀ rule ∈ a.rules, rule.Decorates := by
  obtain ⟨loaded, rules, whole, -, selected, built, rfl, -⟩ := of_prepare prepared
  obtain ⟨root, normal⟩ := AnalysisPlan.rooted_of_build absolute built
  exact ⟨⟨root, normal⟩, Rules.decorates_of_select selected⟩

theorem check_ne_rendering (absolute : w.directory.isAbsolute = true) (cause : RenderError) :
    check w t language settingsFile path .pretty selection exclude ≠ .error (.rendering cause) := by
  intro failed
  rcases error_of_bind failed with prepared | ⟨⟨a, threshold⟩, prepared, failed⟩
  · rcases error_of_prepare prepared with ⟨_, other⟩ | ⟨_, other⟩ | ⟨_, other⟩ <;> cases other
  obtain ⟨rooted, decorates⟩ := rooted_and_decorates_of_prepare absolute prepared
  rcases error_of_bind failed with analysis | ⟨report, analyzed, failed⟩
  · obtain ⟨_, -, other⟩ := error_of_mapError analysis
    cases other
  · obtain ⟨files, discovered, run⟩ := Analyzer.discover_of_analyze (mapError_eq_ok_iff.mp analyzed)
    have absoluteFiles : ∀ p ∈ files, p.isAbsolute = true := by
      intro p inside
      obtain ⟨place, -, rfl⟩ := Analyzer.of_mem_discover discovered inside
      exact Path.isAbsolute_ofPlace place
    obtain ⟨text, printed⟩ := Analyzer.renderPretty_of_analyzeFiles rooted decorates absoluteFiles run
    have rendering := of_bind_return_error failed
    rw [Report.render, printed] at rendering
    cases rendering

end

end Command

/-- Paths seen from a root join back to the root, and so do the paths that reports name: different files have different
names, and under the name of a violation the file is read that it was found in. Printing reads just these, up to the
first that cannot be read. -/
theorem relativeTo_joinsBack [Pattern.Reader] :
    (∀ p root : Path, p.isAbsolute = true → root.isAbsolute = true →
      (root.join (p.relativeTo root)).normalize = p.normalize ∧
      ((p.relativeTo root).isAbsolute = false ↔ p.StrictlyBelow root) ∧
      (p.StrictlyBelow root → (p.relativeTo root).text ≠ "" ∧ ∃ names : Place, names ≠ [] ∧
        names.all Path.isName = true ∧ (p.relativeTo root).components = names.map .name) ∧
      (¬p.StrictlyBelow root → p.relativeTo root = p.normalize) ∧
      (p.relativeTo root).relativeTo root = p.relativeTo root ∧
      ∀ q : Path, q.isAbsolute = true → q.relativeTo root = p.relativeTo root → q.normalize = p.normalize) ∧
    (∀ (plan : AnalysisPlan) (a : Analyzer), plan.directory.isAbsolute = true →
      (∀ rule ∈ plan.rules, rule.Decorates) → plan.build = .ok a →
      (∀ p q content other found foundToo, p.isAbsolute = true → q.isAbsolute = true →
        a.checkSource p content = .ok found → a.checkSource q other = .ok foundToo →
        ∀ v ∈ found.violations, ∀ u ∈ foundToo.violations, v.location.file = u.location.file →
          p.normalize = q.normalize ∧
          ∀ (t : FileTree) place placeToo, t.locate p = .ok place → t.locate q = .ok placeToo → place = placeToo) ∧
      ∀ t : FileTree,
        (∀ files, a.discover t = .ok files → ∀ p ∈ files, p.isAbsolute = true ∧ p.normalize = p) ∧
        ∀ files report, (∀ p ∈ files, p.isAbsolute = true) → a.analyzeFiles t.read files = .ok report →
          (∀ v ∈ report.violations, a.LeadsBack t files v) ∧
          ∃ text, report.renderPretty (fun path => (t.read path).isOk) a.projectRoot = .ok text) ∧
    (∀ (r : Report) readable root,
      ((∃ text, r.renderPretty readable root = .ok text) ↔
        ∀ v ∈ r.violations, readable (root.join v.location.file) = true) ∧
      ∀ cause, r.renderPretty readable root = .error cause ↔
        ∃ before v after, r.violations = before ++ v :: after ∧
          (∀ u ∈ before, readable (root.join u.location.file) = true) ∧
          readable (root.join v.location.file) = false ∧ cause = ⟨root.join v.location.file⟩) ∧
    ∀ (w : Workspace) t language settingsFile path selection exclude cause, w.directory.isAbsolute = true →
      Command.check w t language settingsFile path .pretty selection exclude ≠ .error (.rendering cause) := by
  refine ⟨?_, ?_, fun r readable root => ⟨Report.exists_renderPretty_iff, fun cause =>
    Report.renderPretty_eq_error_iff⟩, ?_⟩
  · intro p root absolute absoluteRoot
    refine ⟨Path.normalize_join_relativeTo absoluteRoot absolute,
      Path.isAbsolute_relativeTo_iff absoluteRoot absolute, ?_, Path.relativeTo_of_outside,
      Path.relativeTo_relativeTo absoluteRoot absolute, ?_⟩
    · intro below
      obtain ⟨-, names, further, -, others, -, -, seen⟩ :=
        Path.relativeTo_of_strictlyBelow absoluteRoot absolute below
      rw [seen]
      exact ⟨(Path.ofComponents_names further others).1, names, further, others,
        Path.components_of_plain (Path.plain_names others)⟩
    · intro q absoluteToo same
      exact Path.normalize_eq_of_relativeTo absoluteRoot absoluteToo absolute same
  · intro plan a absoluteDirectory decorates built
    have rooted := AnalysisPlan.rooted_of_build absoluteDirectory built
    have own : ∀ rule ∈ a.rules, rule.Decorates := by
      obtain ⟨language, exclusions, -, -, rfl⟩ := AnalysisPlan.build_eq_ok_iff.mp built
      exact decorates
    refine ⟨?_, ?_⟩
    · intro p q content other found foundToo absolute absoluteToo checked checkedToo v inside u insideToo same
      rw [Analyzer.file_of_checkSource own checked v inside,
        Analyzer.file_of_checkSource own checkedToo u insideToo] at same
      have folded := Path.normalize_eq_of_relativeTo rooted.absolute absolute absoluteToo same
      refine ⟨folded, ?_⟩
      intro t place placeToo led ledToo
      exact FileTree.locate_eq_of_normalize absolute absoluteToo folded led ledToo
    · intro t
      refine ⟨?_, ?_⟩
      · intro files discovered p inside
        obtain ⟨place, named, rfl⟩ := Analyzer.of_mem_discover discovered inside
        exact ⟨Path.isAbsolute_ofPlace place, Path.normalize_ofPlace named⟩
      · intro files report absolute analyzed
        exact ⟨Analyzer.leadsBack_of_mem rooted own absolute analyzed,
          Analyzer.renderPretty_of_analyzeFiles rooted own absolute analyzed⟩
  · intro w t language settingsFile path selection exclude cause absolute
    exact Command.check_ne_rendering absolute cause

/-- Two files that read a clock, in directories of which one name starts with the other. -/
def neighbours : FileTree where
  files := [(["home", "y", "src", "a.ts"], "Date.now()".toUTF8), (["home", "yz", "b.ts"], "Date.now()".toUTF8)]
  directories := []
  named := by decide
  distinct := by decide

def neighbourPlan : AnalysisPlan where
  directory := ⟨"/home/x"⟩
  projectRoot := ⟨"..//y/src/.."⟩
  start := none
  rules := [Rules.UnifiedTime.toRule ⟨"tests", .word "tests"⟩]
  language := some (TypeScript.language fun _ _ => some TypeScript.clockTree)
  exclude := []
  settings := .default
  failOnParseError := false

theorem relativeTo_joinsBack_neighbours :
    (⟨"/home/x/../y/a.ts"⟩ : Path).relativeTo ⟨"/home//y"⟩ ≠ (⟨"/home/yz/b.ts"⟩ : Path).relativeTo ⟨"/home//y"⟩ ∧
    (∃ a report, neighbourPlan.build = .ok a ∧
      a.analyzeFiles neighbours.read [⟨"/home/y/../y//src/./a.ts"⟩] = .ok report ∧
      report.violations.map (·.location.file) = [⟨"src/a.ts"⟩] ∧
      ∀ v ∈ report.violations, a.LeadsBack neighbours [⟨"/home/y/../y//src/./a.ts"⟩] v) ∧
    ∀ cause, Command.check ⟨⟨"/home/y"⟩, none⟩ neighbours (TypeScript.language fun _ _ => some TypeScript.clockTree)
      none none .pretty none [] ≠ .error (.rendering cause) := by
  obtain ⟨paths, plans, -, checks⟩ := relativeTo_joinsBack
  refine ⟨?_, ?_, fun cause => checks _ _ _ _ _ _ _ cause (by decide)⟩
  · intro same
    obtain ⟨-, -, -, -, -, once⟩ := paths ⟨"/home/yz/b.ts"⟩ ⟨"/home//y"⟩ (by decide) (by decide)
    exact absurd (once ⟨"/home/x/../y/a.ts"⟩ (by decide) same) (by decide +kernel)
  · have seen : neighbourPlan.build.toOption.map (fun a =>
        (a.analyzeFiles neighbours.read [⟨"/home/y/../y//src/./a.ts"⟩]).toOption.map fun report =>
          report.violations.map (·.location.file)) = some (some [⟨"src/a.ts"⟩]) := by
      decide +kernel
    obtain ⟨a, built, seen⟩ := of_map_toOption seen
    obtain ⟨report, analyzed, seen⟩ := of_map_toOption seen
    have decorates : ∀ rule ∈ neighbourPlan.rules, rule.Decorates := by
      intro rule inside
      rw [List.mem_singleton.mp inside]
      exact Rules.UnifiedTime.decorates _
    obtain ⟨-, trees⟩ := plans neighbourPlan a (by decide) decorates built
    obtain ⟨-, runs⟩ := trees neighbours
    obtain ⟨back, -⟩ := runs _ report (by decide) analyzed
    exact ⟨a, report, built, analyzed, seen, back⟩

end ArchLint
