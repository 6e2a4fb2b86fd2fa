import ArchLint.Proofs.Runs.FileOrder
import ArchLint.Proofs.Runs.Plan
import ArchLint.Proofs.Walks.Reach

/-!
# Walks from different starts

Everything but the walk is seen from the project root. A walk that starts further down discovers those files of the
higher walk that lie there, and reports on them what the higher walk reports.
-/

namespace ArchLint

/-! ### Findings and their origins -/

section

variable {α : Type} (cmp : α → α → Ordering) (found : Path → List α)

/-- What is found in the files, sorted, each with the file that it was found in. -/
def attributed (files : List Path) : List (Path × α) :=
  sorted (fun x y => cmp x.2 y.2) (files.flatMap fun path => (found path).map (path, ·))

theorem map_attributed (files : List Path) :
    (attributed cmp found files).map (·.2) = sorted cmp (files.flatMap found) := by
  unfold attributed sorted
  rw [List.map_mergeSort (s := fun a b => (cmp a b).isLE) fun _ _ _ _ => rfl, List.map_flatMap]
  simp [Function.comp_def]

theorem attributed_filter [Std.TransCmp cmp] (files : List Path) (p : Path → Bool) :
    attributed cmp found (files.filter p) = (attributed cmp found files).filter (p ·.1) := by
  have trans : Std.TransCmp fun x y : Path × α => cmp x.2 y.2 :=
    { eq_swap := Std.OrientedCmp.eq_swap, isLE_trans := Std.TransCmp.isLE_trans }
  unfold attributed
  rw [filter_sorted, filter_flatMap_of_parts (q := p)]
  intro path _ x inside
  obtain ⟨_, -, rfl⟩ := List.mem_map.mp inside
  rfl

end

/-- One report holds what the other holds on some of the files. Where rules only decorate, the names of the files tell
which violations these are. -/
structure Analyzer.ReportsPart (a : Analyzer) (read : Path → Except ReadError String) (files : List Path)
    (here : Path → Bool) (report part : Report) : Prop where
  violations : ∃ origins : List (Path × Violation),
    origins.Perm (files.flatMap fun path => (a.foundIn read path).violations.map (path, ·)) ∧
      report.violations = origins.map (·.2) ∧ part.violations = (origins.filter (here ·.1)).map (·.2)
  violations_named : (∀ rule ∈ a.rules, rule.Decorates) →
    part.violations = report.violations.filter fun v => a.names (files.filter here) v.location.file
  faults : part.faults = report.faults.filter fun f => a.names (files.filter here) f.file

theorem Analyzer.reportsPart_filter {a : Analyzer} {read : Path → Except ReadError String} {files : List Path}
    (distinct : (files.map (·.relativeTo a.projectRoot)).Nodup) (here : Path → Bool) :
    a.ReportsPart read files here (a.gathered read files).sort (a.gathered read (files.filter here)).sort := by
  have once : files.Nodup := List.Nodup.of_map _ distinct
  have some : (files.filter here).Subperm files := List.filter_sublist.subperm
  constructor
  · refine ⟨attributed Violation.compareKeys (fun path => (a.foundIn read path).violations) files,
      List.mergeSort_perm _ _, ?_, ?_⟩
    · rw [map_attributed]
      rfl
    · rw [← attributed_filter, map_attributed]
      rfl
  · intro decorates
    refine sorted_flatMap_of_subperm some once (apart_violations read decorates distinct) ?_
    intro path inside v found
    rw [file_of_mem_violations decorates v found, names_relativeTo distinct some inside]
  · refine sorted_flatMap_of_subperm some once (apart_faults read distinct) ?_
    intro path inside f found
    rw [file_of_mem_faults f found, names_relativeTo distinct some inside]

namespace AnalysisPlan

def startingAt (plan : AnalysisPlan) (start : Option Path) : AnalysisPlan :=
  { plan with start := start }

/-- Files with this extension are to be analysed: one that is configured, or if none is, one of the language. -/
def Admits (plan : AnalysisPlan) (language : Language) (extension : String) : Prop :=
  if plan.settings.files.extensions = [] then extension ∈ language.extensions
  else ∃ written ∈ plan.settings.files.extensions, extension.toList = written.toList.dropWhile (· = '.')

theorem mem_effectiveExtensions {plan : AnalysisPlan} {language : Language} {extension : String} :
    extension ∈ plan.effectiveExtensions language ↔ plan.Admits language extension := by
  unfold effectiveExtensions Admits
  cases plan.settings.files.extensions with
  | nil => simp
  | cons first others =>
    simp only [List.isEmpty_cons, Bool.false_eq_true, if_false, reduceCtorEq, List.mem_map]
    refine exists_congr fun written => and_congr_right fun _ => ?_
    rw [← String.toList_inj, String.toList_ofList, eq_comm]

section

variable {plan : AnalysisPlan} {start : Option Path} {a : Analyzer}

theorem start_of_build (absolute : plan.directory.isAbsolute = true) (built : (plan.startingAt start).build = .ok a) :
    ∃ place : Place, place.all Path.isName = true ∧ a.start = .ofPlace place := by
  obtain ⟨language, exclusions, -, -, rfl⟩ := build_eq_ok_iff.mp built
  change ∃ place : Place, _ ∧ (plan.startingAt start).wholeStart = _
  unfold wholeStart
  cases start with
  | some start => exact Path.absoluteFrom_eq_ofPlace absolute start
  | none =>
    obtain ⟨root, -, whole⟩ := Path.absoluteFrom_eq_ofPlace absolute plan.projectRoot
    refine Path.absoluteFrom_eq_ofPlace ?_ plan.settings.files.root
    change (plan.projectRoot.absoluteFrom plan.directory).isAbsolute = true
    rw [whole]
    exact Path.isAbsolute_ofPlace root

theorem eq_of_build {other : Option Path} {b : Analyzer} (builtA : (plan.startingAt start).build = .ok a)
    (builtB : (plan.startingAt other).build = .ok b) : b = { a with start := b.start } := by
  obtain ⟨language, exclusions, known, read, rfl⟩ := build_eq_ok_iff.mp builtA
  obtain ⟨language', exclusions', known', read', rfl⟩ := build_eq_ok_iff.mp builtB
  obtain rfl := Option.some.inj (known.symm.trans known')
  obtain rfl := Except.ok.inj (read.symm.trans read')
  rfl

end

/-- The files are those that a plan's analyzer is to look at, in the order of their steps. -/
structure Discovers (plan : AnalysisPlan) (a : Analyzer) (t : FileTree) (files : List Path) : Prop where
  increasing : files.Pairwise fun p q => compare p q = .lt
  mem_iff : ∀ p, p ∈ files ↔ (∃ place, t.isFile place = true ∧ p = .ofPlace place) ∧
    a.start.components <+: p.components ∧
    (∃ extension, p.extension? = some extension ∧ plan.Admits a.language extension) ∧
    a.exclusions.cover a.projectRoot p = false

theorem wants_iff {plan : AnalysisPlan} {start : Option Path} {a : Analyzer}
    (built : (plan.startingAt start).build = .ok a) (p : Path) :
    a.wants p = true ↔ (∃ extension, p.extension? = some extension ∧ plan.Admits a.language extension) ∧
      a.exclusions.cover a.projectRoot p = false := by
  obtain ⟨language, exclusions, -, -, rfl⟩ := build_eq_ok_iff.mp built
  rw [Analyzer.wants, Bool.and_eq_true, Bool.not_eq_true', Option.any_eq_true]
  refine and_congr_left fun _ => exists_congr fun extension => and_congr_right fun _ => ?_
  rw [List.contains_iff_mem]
  exact mem_effectiveExtensions

theorem discovers_of_build {plan : AnalysisPlan} {start : Option Path} {a : Analyzer} {t : FileTree} {place : Place}
    (built : (plan.startingAt start).build = .ok a) (named : place.all Path.isName = true)
    (starts : a.start = .ofPlace place) : plan.Discovers a t (sorted compare ((t.pathsIn place).filter a.wants)) where
  increasing := by
    refine Analyzer.sorted_increasing ((FileTree.nodup_pathsIn place).filter _) ?_
    intro p inside
    obtain ⟨below, file, rfl, -⟩ := FileTree.mem_pathsIn.mp (List.mem_of_mem_filter inside)
    exact ⟨below, FileTree.named_of_mem (FileTree.isFile_iff.mp file), rfl⟩
  mem_iff := by
    intro p
    rw [(perm_sorted _).mem_iff, List.mem_filter, FileTree.mem_pathsIn, wants_iff built, starts]
    constructor
    · rintro ⟨⟨below, file, rfl, under⟩, wanted⟩
      have all := FileTree.named_of_mem (FileTree.isFile_iff.mp file)
      exact ⟨⟨below, file, rfl⟩, (Path.prefix_ofPlace named all).mpr under, wanted⟩
    · rintro ⟨⟨below, file, rfl⟩, under, wanted⟩
      have all := FileTree.named_of_mem (FileTree.isFile_iff.mp file)
      exact ⟨⟨below, file, rfl, (Path.prefix_ofPlace named all).mp under⟩, wanted⟩

section

variable {plan : AnalysisPlan} {t : FileTree} {start₁ start₂ : Option Path} {upper lower : Analyzer}

/-- The lower walk discovers those files of the higher walk that lie at or below its start. -/
theorem discover_below (absolute : plan.directory.isAbsolute = true) (plain : t.HidesNothing)
    (builtUpper : (plan.startingAt start₁).build = .ok upper) (builtLower : (plan.startingAt start₂).build = .ok lower)
    (thereUpper : t.holds upper.start = true) (thereLower : t.holds lower.start = true)
    (below : upper.start.components <+: lower.start.components) :
    ∃ files, upper.discover t = .ok files ∧ lower.discover t = .ok (files.filter (·.liesIn lower.start)) ∧
      plan.Discovers upper t files ∧ plan.Discovers lower t (files.filter (·.liesIn lower.start)) := by
  obtain ⟨high, namedHigh, startsHigh⟩ := start_of_build absolute builtUpper
  obtain ⟨low, namedLow, startsLow⟩ := start_of_build absolute builtLower
  have under : high <+: low := by
    rw [startsHigh, startsLow, Path.prefix_ofPlace namedHigh namedLow] at below
    exact below
  have wants : lower.wants = upper.wants := by
    rw [eq_of_build builtUpper builtLower]
    rfl
  have part : (sorted compare ((t.pathsIn high).filter upper.wants)).filter (·.liesIn lower.start) =
      sorted compare ((t.pathsIn low).filter lower.wants) := by
    rw [filter_sorted, List.filter_filter, startsLow, ← FileTree.filter_pathsIn namedLow under, List.filter_filter,
      wants]
    congr 1
    apply List.filter_congr
    intro p _
    exact Bool.and_comm _ _
  refine ⟨_, Analyzer.discover_eq plain namedHigh startsHigh thereUpper, ?_,
    discovers_of_build builtUpper namedHigh startsHigh, ?_⟩
  · rw [part]
    exact Analyzer.discover_eq plain namedLow startsLow thereLower
  · rw [part]
    exact discovers_of_build builtLower namedLow startsLow

theorem distinct_of_discovers {start : Option Path} {a : Analyzer} {files : List Path}
    (absolute : plan.directory.isAbsolute = true) (built : (plan.startingAt start).build = .ok a)
    (discovers : plan.Discovers a t files) : (files.map (·.relativeTo a.projectRoot)).Nodup := by
  have once : files.Nodup := by
    refine discovers.increasing.imp ?_
    rintro p q before rfl
    rw [show compare p p = .eq from Std.ReflCmp.compare_self] at before
    cases before
  refine List.Nodup.map_on ?_ once
  intro p inP q inQ same
  obtain ⟨⟨placeP, fileP, rfl⟩, -⟩ := (discovers.mem_iff p).mp inP
  obtain ⟨⟨placeQ, fileQ, rfl⟩, -⟩ := (discovers.mem_iff q).mp inQ
  have sameDirectory : (plan.startingAt start).directory.isAbsolute = true := absolute
  have rooted := rooted_of_build sameDirectory built
  have folded := Path.normalize_eq_of_relativeTo rooted.absolute (Path.isAbsolute_ofPlace placeP)
    (Path.isAbsolute_ofPlace placeQ) same
  rwa [Path.normalize_ofPlace (FileTree.named_of_mem (FileTree.isFile_iff.mp fileP)),
    Path.normalize_ofPlace (FileTree.named_of_mem (FileTree.isFile_iff.mp fileQ))] at folded

/-- The lower run reports what the higher run reports on the files at or below its start, under the same names. -/
theorem analyze_below (absolute : plan.directory.isAbsolute = true) (plain : t.HidesNothing)
    (builtUpper : (plan.startingAt start₁).build = .ok upper) (builtLower : (plan.startingAt start₂).build = .ok lower)
    (thereUpper : t.holds upper.start = true) (thereLower : t.holds lower.start = true)
    (below : upper.start.components <+: lower.start.components) :
    ∃ files, upper.discover t = .ok files ∧ lower.discover t = .ok (files.filter (·.liesIn lower.start)) ∧
      plan.Discovers upper t files ∧ plan.Discovers lower t (files.filter (·.liesIn lower.start)) ∧
      ∀ report, upper.analyze t = .ok report → ∃ part, lower.analyze t = .ok part ∧
        upper.ReportsPart t.read files (·.liesIn lower.start) report part := by
  obtain ⟨files, discovered, discoveredLow, discovers, discoversLow⟩ :=
    discover_below absolute plain builtUpper builtLower thereUpper thereLower below
  refine ⟨files, discovered, discoveredLow, discovers, discoversLow, ?_⟩
  intro report analyzed
  rw [Analyzer.analyze_of_discover discovered] at analyzed
  obtain ⟨accepted, rfl⟩ := Analyzer.accepted_of_analyzeFiles analyzed
  -- Neither what stops a run nor what it gathers from given files depends on the start.
  have same := eq_of_build builtUpper builtLower
  have refusal : lower.refusal? t.read = upper.refusal? t.read := by
    rw [same]
    rfl
  have gathered : lower.gathered t.read = upper.gathered t.read := by
    rw [same]
    rfl
  have acceptedLow : ∀ path ∈ files.filter (·.liesIn lower.start), lower.refusal? t.read path = none := by
    intro path inside
    rw [refusal]
    exact accepted path (List.mem_of_mem_filter inside)
  refine ⟨_, (Analyzer.analyze_of_discover discoveredLow).trans (Analyzer.analyzeFiles_of_accepted acceptedLow), ?_⟩
  rw [gathered]
  exact Analyzer.reportsPart_filter (distinct_of_discovers absolute builtUpper discovers) _

end

/-- A file that holds a call without a callee, in a directory beside some notes. -/
def clockFiles : FileTree where
  files := [(["p", "d", "b.ts"], "f();".toUTF8), (["p", "notes.md"], "f();".toUTF8)]
  directories := []
  named := by decide
  distinct := by decide

def clockPlan : AnalysisPlan where
  directory := ⟨"/p"⟩
  projectRoot := ⟨"."⟩
  start := none
  rules := [Rules.UnifiedTime.toRule ⟨"tests", .word "tests"⟩]
  language := some ⟨"typescript", ["ts"], fun _ _ =>
    .ok ((SyntaxTree.root ⟨0, 4, 1, 1⟩).push 0 .callExpression "call_expression" none ⟨0, 3, 1, 1⟩)⟩
  exclude := []
  settings := .default
  failOnParseError := true

theorem analyze_below_directory : ∃ upper lower files report part,
    (clockPlan.startingAt none).build = .ok upper ∧ (clockPlan.startingAt (some ⟨"d"⟩)).build = .ok lower ∧
      upper.discover clockFiles = .ok files ∧ lower.discover clockFiles = .ok (files.filter (·.liesIn lower.start)) ∧
      upper.analyze clockFiles = .ok report ∧ lower.analyze clockFiles = .ok part ∧
      upper.ReportsPart clockFiles.read files (·.liesIn lower.start) report part ∧
      part.faults.map (·.file) = [⟨"d/b.ts"⟩] := by
  have plain : clockFiles.HidesNothing := by
    unfold FileTree.HidesNothing
    decide
  have seenUpper : (clockPlan.startingAt none).build.toOption.map (fun a =>
      (a.start, clockFiles.holds a.start, (a.analyze clockFiles).toOption.isSome)) = some (⟨"/p"⟩, true, true) := by
    decide +kernel
  have seenLower : (clockPlan.startingAt (some ⟨"d"⟩)).build.toOption.map (fun a =>
      (a.start, clockFiles.holds a.start,
        (a.analyze clockFiles).toOption.map fun part => part.faults.map (·.file))) =
      some (⟨"/p/d"⟩, true, some [⟨"d/b.ts"⟩]) := by
    decide +kernel
  obtain ⟨upper, builtUpper, seenUpper⟩ := of_map_toOption seenUpper
  obtain ⟨lower, builtLower, seenLower⟩ := of_map_toOption seenLower
  simp only [Prod.mk.injEq] at seenUpper seenLower
  obtain ⟨startUpper, thereUpper, succeeds⟩ := seenUpper
  obtain ⟨startLower, thereLower, reported⟩ := seenLower
  have below : upper.start.components <+: lower.start.components := by
    rw [startUpper, startLower]
    decide +kernel
  obtain ⟨files, discovered, discoveredLow, -, -, reports⟩ :=
    analyze_below (by decide) plain builtUpper builtLower thereUpper thereLower below
  cases analyzed : upper.analyze clockFiles with
  | error e => simp [analyzed, Except.toOption] at succeeds
  | ok report =>
  obtain ⟨part, analyzedLow, holds⟩ := reports report analyzed
  obtain ⟨same, again, faults⟩ := of_map_toOption reported
  obtain rfl := Except.ok.inj (analyzedLow.symm.trans again)
  exact ⟨upper, lower, files, report, part, builtUpper, builtLower, discovered, discoveredLow, analyzed, analyzedLow,
    holds, faults⟩

end AnalysisPlan

end ArchLint
