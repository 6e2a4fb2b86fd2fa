import ArchLint.Analysis.Discovery
import ArchLint.Proofs.Lists
import ArchLint.Proofs.Order.Keys
import ArchLint.Proofs.Path.Places
import Mathlib.Data.List.Nodup

/-!
# What a walk reaches

Without ignore files a walk reaches every regular file at or below its start, and an analyzer discovers those that it
wants, each once and in the order of their steps.
-/

namespace ArchLint

namespace FileTree

/-- No file of the tree tells walks what to hide. -/
def HidesNothing (t : FileTree) : Prop :=
  ∀ file ∈ t.files, file.1.getLast? ≠ some ".ignore" ∧ file.1.getLast? ≠ some ".gitignore"

theorem isFile_iff {t : FileTree} {place : Place} : t.isFile place = true ↔ place ∈ t.files.map (·.1) := by
  unfold isFile bytes?
  rw [← Option.isNone_eq_false_iff, ← Bool.not_eq_true, Option.isNone_iff_eq_none, List.lookup_eq_none_iff]
  simp only [not_forall, List.mem_map]
  constructor
  · rintro ⟨file, inside, same⟩
    exact ⟨file, inside, (by simpa using same : place = file.1).symm⟩
  · rintro ⟨file, inside, rfl⟩
    exact ⟨file, inside, by simp⟩

theorem follow_name {t : FileTree} {name : String} (named : Path.isName name = true) (start : Place) :
    t.isDirectory start = true ∧ t.follow start name = .ok (start ++ [name]) ∨
      t.isDirectory start = false ∧ ∃ e, t.follow start name = .error e := by
  unfold follow
  split
  · next around =>
    left
    refine ⟨around, ?_⟩
    split
    · exact absurd named (by decide)
    · exact absurd named (by decide)
    · exact absurd named (by decide)
    · rfl
  · next missing =>
    right
    refine ⟨Bool.not_eq_true _ ▸ missing, ?_⟩
    split <;> exact ⟨_, rfl⟩

theorem foldlM_follow {t : FileTree} {names : List String} (named : names.all Path.isName = true) {start place : Place}
    (led : names.foldlM t.follow start = .ok place) : place = start ++ names := by
  induction names generalizing start with
  | nil =>
    obtain rfl := Except.ok.inj led
    simp
  | cons name names ih =>
    rw [List.all_cons, Bool.and_eq_true] at named
    rw [List.foldlM_cons] at led
    rcases follow_name (t := t) named.1 start with ⟨-, next⟩ | ⟨-, e, failed⟩
    · rw [next] at led
      rw [ih named.2 led, List.append_assoc]
      rfl
    · rw [failed] at led
      cases led

theorem locate_ofPlace {t : FileTree} {place : Place} (named : place.all Path.isName = true) :
    t.locate (.ofPlace place) = place.foldlM t.follow [] := by
  have root : t.follow [] "" = .ok [] := by
    simp [follow, isDirectory]
  rw [locate, Path.segments_ofPlace named, List.foldlM_cons, root]
  change (if place = [] then [""] else place).foldlM t.follow [] = _
  split
  · next none =>
    rw [List.foldlM_cons, root, none]
    rfl
  · rfl

theorem place_of_locate {t : FileTree} {place found : Place} (named : place.all Path.isName = true)
    (led : t.locate (.ofPlace place) = .ok found) : found = place := by
  rw [locate_ofPlace named] at led
  exact foldlM_follow named led

theorem isDirectory_of_isFile {t : FileTree} {directory below : Place} (some : below ≠ [])
    (there : t.isFile (directory ++ below) = true) : t.isDirectory directory = true := by
  obtain ⟨file, inside, same⟩ := List.mem_map.mp (isFile_iff.mp there)
  have around : (directory.isPrefixOf file.1 && directory ≠ file.1) = true := by
    rw [same, Bool.and_eq_true, List.isPrefixOf_iff_prefix, decide_eq_true_eq]
    exact ⟨List.prefix_append _ _, fun equal => some (List.self_eq_append_right.mp equal)⟩
  rw [isDirectory, List.any_eq_true.mpr ⟨file, inside, around⟩, Bool.or_true]

theorem foldlM_follow_of_isFile {t : FileTree} {names : List String} (named : names.all Path.isName = true)
    {start : Place} (there : t.isFile (start ++ names) = true) :
    names.foldlM t.follow start = .ok (start ++ names) := by
  induction names generalizing start with
  | nil =>
    rw [List.append_nil]
    rfl
  | cons name names ih =>
    rw [List.all_cons, Bool.and_eq_true] at named
    have around := isDirectory_of_isFile (List.cons_ne_nil _ _) there
    rcases follow_name (t := t) named.1 start with ⟨-, next⟩ | ⟨missing, -⟩
    · rw [← List.singleton_append, ← List.append_assoc] at there ⊢
      rw [List.singleton_append, List.foldlM_cons, next]
      exact ih named.2 there
    · exact absurd around (ne_true_of_eq_false missing)

theorem holdsFile_ofPlace {t : FileTree} {place : Place} (named : place.all Path.isName = true) :
    t.holdsFile (.ofPlace place) = t.isFile place := by
  rw [Bool.eq_iff_iff, holdsFile]
  constructor
  · intro holds
    cases led : t.locate (.ofPlace place) with
    | error e =>
      rw [led] at holds
      cases holds
    | ok found =>
      rw [led] at holds
      rwa [place_of_locate named led] at holds
  · intro there
    have led : t.locate (.ofPlace place) = .ok place :=
      (locate_ofPlace named).trans (foldlM_follow_of_isFile named there)
    rw [led]
    exact there

end FileTree

namespace Ignore

theorem named_of_hidesNothing {t : FileTree} (plain : t.HidesNothing) {name : String}
    (speaks : name = ".ignore" ∨ name = ".gitignore") : RuleFiles.named name t = [] := by
  rw [RuleFiles.named, List.filterMap_eq_nil_iff]
  rintro ⟨place, content⟩ inside
  have silent := plain _ inside
  rcases speaks with rfl | rfl
  · simp [silent.1]
  · simp [silent.2]

theorem verdict?_nil (entry : Place) (isDirectory : Bool) : RuleFiles.verdict? [] entry isDirectory = none := by
  rw [RuleFiles.verdict?, List.findSome?_eq_none_iff]
  intro depth _
  rfl

theorem walk_of_hidesNothing {t : FileTree} (plain : t.HidesNothing) (respectGitignore : Bool) (start : Place) :
    walk t respectGitignore start = (t.files.map (·.1)).filter start.isPrefixOf := by
  have silent : ∀ entry isDirectory, hides (RuleFiles.named ".ignore" t ::
      if respectGitignore then [RuleFiles.named ".gitignore" t] else []) entry isDirectory = false := by
    intro entry isDirectory
    rw [named_of_hidesNothing plain (Or.inl rfl), named_of_hidesNothing plain (Or.inr rfl)]
    cases respectGitignore <;> simp [hides, verdict?_nil]
  unfold walk
  dsimp only
  apply List.filter_congr
  intro file _
  simp [reaches, silent]

end Ignore

namespace Path

/-- Whether a path is at or below another, step by step. -/
def liesIn (p top : Path) : Bool :=
  top.components.isPrefixOf p.components

theorem liesIn_iff {p top : Path} : p.liesIn top = true ↔ top.components <+: p.components := by
  rw [liesIn, List.isPrefixOf_iff_prefix]

theorem liesIn_ofPlace {place top : Place} (named : place.all isName = true) (namedTop : top.all isName = true) :
    (ofPlace place).liesIn (ofPlace top) = top.isPrefixOf place := by
  rw [Bool.eq_iff_iff, liesIn_iff, prefix_ofPlace namedTop named, List.isPrefixOf_iff_prefix]

end Path

/-! ### Discovered files -/

namespace FileTree

variable {t : FileTree}

theorem named_of_mem {place : Place} (inside : place ∈ t.files.map (·.1)) : place.all Path.isName = true := by
  obtain ⟨file, there, rfl⟩ := List.mem_map.mp inside
  exact t.named file there

/-- The paths of the files at or below a place. -/
def pathsIn (t : FileTree) (start : Place) : List Path :=
  ((t.files.map (·.1)).filter start.isPrefixOf).map .ofPlace

theorem mem_pathsIn {start : Place} {p : Path} :
    p ∈ t.pathsIn start ↔ ∃ place, t.isFile place = true ∧ p = .ofPlace place ∧ start <+: place := by
  simp only [pathsIn, List.mem_map (l := List.filter _ _), List.mem_filter, List.isPrefixOf_iff_prefix, isFile_iff]
  constructor
  · rintro ⟨place, ⟨inside, below⟩, rfl⟩
    exact ⟨place, inside, rfl, below⟩
  · rintro ⟨place, inside, rfl, below⟩
    exact ⟨place, ⟨inside, below⟩, rfl⟩

theorem nodup_pathsIn (start : Place) : (t.pathsIn start).Nodup := by
  refine List.Nodup.map_on ?_ (t.distinct.filter _)
  intro p inP q inQ same
  exact Path.ofPlace_injective (named_of_mem (List.mem_of_mem_filter inP)) (named_of_mem (List.mem_of_mem_filter inQ))
    same

theorem filter_pathsIn {upper lower : Place} (named : lower.all Path.isName = true) (below : upper <+: lower) :
    (t.pathsIn upper).filter (·.liesIn (.ofPlace lower)) = t.pathsIn lower := by
  unfold pathsIn
  rw [List.filter_map, List.filter_filter]
  congr 1
  apply List.filter_congr
  intro place inside
  rw [Function.comp_apply, Path.liesIn_ofPlace (named_of_mem inside) named, Bool.eq_iff_iff, Bool.and_eq_true,
    List.isPrefixOf_iff_prefix, List.isPrefixOf_iff_prefix]
  exact and_iff_left_of_imp below.trans

end FileTree

namespace Analyzer

theorem analyze_of_discover {a : Analyzer} {t : FileTree} {files : List Path} (discovered : a.discover t = .ok files) :
    a.analyze t = a.analyzeFiles t.read files := by
  rw [analyze, discovered]
  rfl

theorem discover_of_analyze {a : Analyzer} {t : FileTree} {report : Report} (analyzed : a.analyze t = .ok report) :
    ∃ files, a.discover t = .ok files ∧ a.analyzeFiles t.read files = .ok report :=
  of_bind analyzed

theorem exists_reached_of_mem_discover {a : Analyzer} {t : FileTree} {files : List Path}
    (discovered : a.discover t = .ok files) {p : Path} (inside : p ∈ files) :
    ∃ start, ∃ place ∈ Ignore.walk t a.settings.files.respectGitignore start,
      p = .ofPlace place ∧ a.wants p = true := by
  unfold discover at discovered
  split at discovered
  · cases discovered
  · next start _ =>
    split at discovered
    · obtain rfl := Except.ok.inj discovered
      obtain ⟨reached, wanted⟩ := List.mem_filter.mp (List.mem_mergeSort.mp inside)
      obtain ⟨place, walked, rfl⟩ := List.mem_map.mp reached
      exact ⟨start, place, walked, rfl, wanted⟩
    · cases discovered

theorem of_mem_discover {a : Analyzer} {t : FileTree} {files : List Path}
    (discovered : a.discover t = .ok files) {p : Path} (inside : p ∈ files) :
    ∃ place : Place, place.all Path.isName = true ∧ p = .ofPlace place := by
  obtain ⟨start, place, walked, rfl, -⟩ := exists_reached_of_mem_discover discovered inside
  exact ⟨place, FileTree.named_of_mem (List.mem_of_mem_filter walked), rfl⟩

theorem wants_of_mem_discover {a : Analyzer} {t : FileTree} {files : List Path}
    (discovered : a.discover t = .ok files) {p : Path} (inside : p ∈ files) : a.wants p = true := by
  obtain ⟨-, -, -, -, wanted⟩ := exists_reached_of_mem_discover discovered inside
  exact wanted

/-- From a place that is there, the files that are wanted at or below it, sorted. -/
theorem discover_eq {a : Analyzer} {t : FileTree} {start : Place} (plain : t.HidesNothing)
    (named : start.all Path.isName = true) (starts : a.start = .ofPlace start) (there : t.holds a.start = true) :
    a.discover t = .ok (sorted compare ((t.pathsIn start).filter a.wants)) := by
  rw [FileTree.holds, starts] at there
  unfold discover
  rw [starts]
  cases led : t.locate (.ofPlace start) with
  | error e =>
    rw [led] at there
    cases there
  | ok found =>
    rw [led] at there
    obtain rfl := FileTree.place_of_locate named led
    dsimp only at there ⊢
    rw [if_pos there, Ignore.walk_of_hidesNothing plain]
    rfl

theorem sorted_increasing {files : List Path} (once : files.Nodup)
    (places : ∀ p ∈ files, ∃ place : Place, place.all Path.isName = true ∧ p = .ofPlace place) :
    (sorted compare files).Pairwise fun p q => compare p q = .lt := by
  have distinct : (sorted compare files).Nodup := (perm_sorted files).nodup_iff.mpr once
  refine (List.Pairwise.and (pairwise_sorted files) distinct).imp_of_mem ?_
  rintro p q inP inQ ⟨before, differ⟩
  obtain ⟨placeP, namedP, rfl⟩ := places p ((perm_sorted files).mem_iff.mp inP)
  obtain ⟨placeQ, namedQ, rfl⟩ := places q ((perm_sorted files).mem_iff.mp inQ)
  cases order : compare (Path.ofPlace placeP) (Path.ofPlace placeQ) with
  | lt => rfl
  | gt =>
    rw [order] at before
    cases before
  | eq =>
    have same := Path.components_eq_of_compare order
    rw [Path.components_ofPlace namedP, Path.components_ofPlace namedQ] at same
    exact absurd (congrArg Path.ofPlace (Path.map_name_injective (List.cons.inj same).2)) differ

end Analyzer

end ArchLint
