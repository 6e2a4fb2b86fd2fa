import ArchLint.Proofs.Exclusion.Glob
import ArchLint.Proofs.Lists
import ArchLint.Proofs.Runs.Plan
import Mathlib.Data.List.Basic

/-!
# What exclusions promise and what they do

An exclusion promises to leave out what its glob stands for, and one of the form `**/name/**` every directory of that
name. `cover` keeps the promise, but the text that any other exclusion has beside its recursive wildcards leaves files
out as well.
-/

namespace ArchLint

/-! ### The text beside recursive wildcards -/

namespace Text

theorem erasePair_cons_of_ne {a b x : Char} (other : x ≠ a) (text : List Char) :
    erasePair a b (x :: text) = x :: erasePair a b text := by
  cases text with
  | nil => rfl
  | cons y rest => simp [erasePair, other]

theorem erasePair_append_of_not_mem {a b : Char} {front : List Char} (clear : a ∉ front) (text : List Char) :
    erasePair a b (front ++ text) = front ++ erasePair a b text := by
  induction front with
  | nil => rfl
  | cons x front ih =>
    rw [List.mem_cons, not_or] at clear
    rw [List.cons_append, erasePair_cons_of_ne (Ne.symm clear.1), ih clear.2, List.cons_append]

end Text

namespace Exclusions

open Pattern

/-- The text is `**/name/**`, and the name has no wildcard. -/
def NamesDirectory (source name : List Char) : Prop :=
  source = "**/".toList ++ (name ++ "/**".toList) ∧ name ≠ [] ∧ '*' ∉ name

/-- The text without its recursive wildcards. -/
def leftover (source : String) : List Char :=
  Text.erasePair '*' '*' source.toList

theorem leftover_of_namesDirectory {source : String} {name : List Char} (form : NamesDirectory source.toList name) :
    leftover source = '/' :: (name ++ ['/']) := by
  obtain ⟨text, -, clear⟩ := form
  have rest : Text.erasePair '*' '*' (name ++ "/**".toList) = name ++ ['/'] :=
    Text.erasePair_append_of_not_mem clear _
  have slash : Text.erasePair '*' '*' ('/' :: (name ++ "/**".toList)) = '/' :: (name ++ ['/']) := by
    rw [Text.erasePair_cons_of_ne (by decide), rest]
  rw [leftover, text]
  exact slash

/-- The exclusion with this text promises to leave the file out. -/
inductive Promises (source relative : String) : Prop
  | glob {g : Glob} : Glob.ofSource source = .ok g → g.Covers relative → Promises source relative
  | directory {name : List Char} : NamesDirectory source.toList name →
    '/' :: (name ++ ['/']) <:+: anchored relative → Promises source relative

/-- The exclusion has another form, and some text of its own that occurs in the path. -/
structure Leaks (source relative : String) : Prop where
  form : ∀ name, ¬NamesDirectory source.toList name
  text : leftover source ≠ []
  inside : leftover source <:+: anchored relative

theorem excludes_iff {source : String} {g : Glob} (read : Glob.ofSource source = .ok g) (relative : String) :
    excludes g relative = true ↔ Promises source relative ∨ Leaks source relative := by
  have text : needle g = leftover source := by rw [needle, Glob.source_ofSource read, leftover]
  have both : excludes g relative = true ↔
      g.Covers relative ∨ (leftover source ≠ [] ∧ leftover source <:+: anchored relative) := by
    simp [excludes, text, Glob.covers_iff, Text.occurs_iff_infix]
  rw [both]
  constructor
  · rintro (covers | ⟨some, inside⟩)
    · exact Or.inl (.glob read covers)
    · by_cases form : ∃ name, NamesDirectory source.toList name
      · obtain ⟨name, form⟩ := form
        rw [leftover_of_namesDirectory form] at inside
        exact Or.inl (.directory form inside)
      · exact Or.inr ⟨not_exists.mp form, some, inside⟩
  · rintro ((⟨read', covers⟩ | ⟨form, inside⟩) | ⟨-, some, inside⟩)
    · obtain rfl := Except.ok.inj (read.symm.trans read')
      exact Or.inl covers
    · rw [leftover_of_namesDirectory form]
      exact Or.inr ⟨List.cons_ne_nil _ _, inside⟩
    · exact Or.inr ⟨some, inside⟩

/-! ### Analyzers -/

theorem any_excludes_iff {sources : List String} {exclusions : Exclusions} (read : ofSources sources = .ok exclusions)
    (relative : String) :
    exclusions.any (excludes · relative) = true ↔
      ∃ source ∈ sources, Promises source relative ∨ Leaks source relative := by
  replace read := mapM_eq_ok_iff.mp read
  induction read with
  | nil => simp
  | cons first _ ih =>
    rw [List.any_cons, Bool.or_eq_true, excludes_iff first]
    simp [ih]

/-- A file is left out if some exclusion promises it or leaks to it. So the promise is kept as it stands exactly for
the files to which nothing leaks unless they are promised anyway. -/
theorem cover_iff_promises_or_leaks {plan : AnalysisPlan} {a : Analyzer} (built : plan.build = .ok a) (path : Path) :
    let sources := plan.exclude ++ plan.settings.files.exclude
    let relative := (path.relativeTo a.projectRoot).slashForm
    (a.exclusions.cover a.projectRoot path = true ↔
      ∃ source ∈ sources, Promises source relative ∨ Leaks source relative) ∧
    ((a.exclusions.cover a.projectRoot path = true ↔ ∃ source ∈ sources, Promises source relative) ↔
      ∀ source ∈ sources, Leaks source relative → ∃ other ∈ sources, Promises other relative) := by
  intro sources relative
  have all : a.exclusions.cover a.projectRoot path = true ↔
      ∃ source ∈ sources, Promises source relative ∨ Leaks source relative :=
    any_excludes_iff (AnalysisPlan.exclusions_of_build built) relative
  refine ⟨all, ?_⟩
  rw [all]
  constructor
  · intro kept source inside leaks
    exact kept.mp ⟨source, inside, Or.inr leaks⟩
  · intro tight
    constructor
    · rintro ⟨source, inside, promised | leaks⟩
      · exact ⟨source, inside, promised⟩
      · exact tight source inside leaks
    · rintro ⟨source, inside, promised⟩
      exact ⟨source, inside, Or.inl promised⟩

/-- A project that leaves out one glob and nothing else. -/
def oneGlob (source : String) : AnalysisPlan where
  directory := ⟨"/"⟩
  projectRoot := ⟨"/p"⟩
  start := none
  rules := []
  language := some ⟨"typescript", ["ts"], fun _ _ => .error .aborted⟩
  exclude := [source]
  settings := { Settings.default with files := { FileSettings.default with exclude := [] } }
  failOnParseError := false

theorem build_oneGlob {source : String} {g : Glob} (read : Glob.ofSource source = .ok g) :
    ∃ a, (oneGlob source).build = .ok a ∧ a.exclusions = [g] ∧ a.projectRoot = ⟨"/p"⟩ := by
  have sources : ofSources ((oneGlob source).exclude ++ (oneGlob source).settings.files.exclude) = .ok [g] := by
    simp [oneGlob, ofSources, read, bind, Except.bind, pure, Except.pure]
  have root : (oneGlob source).wholeProjectRoot = ⟨"/p"⟩ := by
    simp only [AnalysisPlan.wholeProjectRoot, oneGlob]
    decide +kernel
  refine ⟨_, AnalysisPlan.build_eq_ok_iff.mpr ⟨_, [g], rfl, sources, rfl⟩, ?_⟩
  simp [AnalysisPlan.analyzer, root]

theorem cover_dist_anywhere : ∃ a, (oneGlob "**/dist/**").build = .ok a ∧
    a.exclusions.cover a.projectRoot ⟨"/p/lib/dist/o.ts"⟩ = true := by
  have read : Glob.ofSource "**/dist/**" = .ok ⟨"**/dist/**",
      [.directories, .char 'd', .char 'i', .char 's', .char 't', .char '/', .directories]⟩ := by cbv
  obtain ⟨a, built, -, root⟩ := build_oneGlob read
  refine ⟨a, built, (cover_iff_promises_or_leaks built ⟨"/p/lib/dist/o.ts"⟩).1.mpr ?_⟩
  have seen : (Path.relativeTo ⟨"/p/lib/dist/o.ts"⟩ a.projectRoot).slashForm = "lib/dist/o.ts" := by
    rw [root]
    decide +kernel
  rw [seen]
  have form : NamesDirectory "**/dist/**".toList "dist".toList := by
    unfold NamesDirectory
    decide
  exact ⟨"**/dist/**", by simp [oneGlob], Or.inl (.directory form ⟨"/lib".toList, "o.ts".toList, by decide⟩)⟩

/-- The glob `dir/**` leaves out what is in `mydir`, although it does not stand for it. -/
theorem cover_unpromised : ∃ a, (oneGlob "dir/**").build = .ok a ∧
    ¬(a.exclusions.cover a.projectRoot ⟨"/p/mydir/clock.ts"⟩ = true ↔
      ∃ source ∈ (oneGlob "dir/**").exclude ++ (oneGlob "dir/**").settings.files.exclude,
        Promises source (Path.relativeTo ⟨"/p/mydir/clock.ts"⟩ a.projectRoot).slashForm) := by
  have read : Glob.ofSource "dir/**" = .ok ⟨"dir/**",
      [.char 'd', .char 'i', .char 'r', .char '/', .directories]⟩ := by cbv
  obtain ⟨a, built, exclusions, root⟩ := build_oneGlob read
  have seen : (Path.relativeTo ⟨"/p/mydir/clock.ts"⟩ a.projectRoot).slashForm = "mydir/clock.ts" := by
    rw [root]
    decide +kernel
  have covered : a.exclusions.cover a.projectRoot ⟨"/p/mydir/clock.ts"⟩ = true := by
    rw [cover, seen, exclusions]
    decide +kernel
  refine ⟨a, built, ?_⟩
  rw [seen]
  intro promise
  obtain ⟨source, inside, promised⟩ := promise.mp covered
  obtain rfl : source = "dir/**" := by simpa [oneGlob] using inside
  cases promised with
  | glob other covers =>
    obtain rfl := Except.ok.inj (read.symm.trans other)
    rw [← Glob.covers_iff] at covers
    exact absurd covers (by decide)
  | directory form _ =>
    have first := congrArg List.head? form.1
    simp at first

end Exclusions

end ArchLint
