import ArchLint.FileTree
import ArchLint.Proofs.Path.Spelling

/-!
# Places and their paths

Every absolute path folds to the path of a place. Such paths are in normal form, and one of them is at or below another
if its place is.
-/

namespace ArchLint.Path

theorem plain_name {text : String} (named : isName text = true) : (Component.name text).Plain := by
  simp only [isName, Bool.and_eq_true, Bool.not_eq_true', decide_eq_true_eq] at named
  obtain ⟨⟨⟨full, undotted⟩, unparented⟩, clear⟩ := named
  refine ⟨?_, by simpa [Component.text] using clear⟩
  simp [Component.ofSegment?, Component.text, full, undotted, unparented]

theorem isName_of_plain {text : String} (plain : (Component.name text).Plain) : isName text = true := by
  have visible : text ≠ "" ∧ text ≠ "." := plain.not_blank
  have clear : '/' ∉ text.toList := plain.2
  have kept : text ≠ ".." := by
    rintro rfl
    exact absurd plain.1 (by decide)
  simp [isName, visible, kept, clear]

theorem named_append_iff {p q : Place} :
    (p ++ q).all isName = true ↔ p.all isName = true ∧ q.all isName = true := by
  rw [List.all_append, Bool.and_eq_true]

theorem named_concat {place : Place} (named : place.all isName = true) {name : String} (other : isName name = true) :
    (place ++ [name]).all isName = true :=
  named_append_iff.mpr ⟨named, by simpa using other⟩

theorem named_of_prefix {p q : Place} (before : p <+: q) (named : q.all isName = true) : p.all isName = true := by
  obtain ⟨rest, rfl⟩ := before
  exact (named_append_iff.mp named).1

theorem foldl_foldStep_names (names : Place) (kept : List Component) :
    (names.map Component.name).foldl foldStep kept = (names.map Component.name).reverse ++ kept := by
  induction names generalizing kept with
  | nil => rfl
  | cons name names ih =>
    rw [List.map_cons, List.foldl_cons, ih]
    simp [foldStep]

section

variable {place : Place} (named : place.all isName = true)

include named

theorem plain_names : ∀ c ∈ place.map Component.name, c.Plain := by
  intro c inside
  obtain ⟨text, there, rfl⟩ := List.mem_map.mp inside
  exact plain_name (List.all_eq_true.mp named text there)

theorem components_ofPlace : (ofPlace place).components = .root :: place.map .name :=
  components_of_root (plain_names named)

theorem segments_ofPlace : (ofPlace place).segments = "" :: if place = [] then [""] else place := by
  have text := toList_ofComponents_root (place.map .name)
  have fields := fieldsOf_text fun c inside => (plain_names named c inside).2
  have names : (place.map Component.name).map Component.text = place := by
    simp [Function.comp_def, Component.text]
  rw [segments, ofPlace, Text.fieldsOf, text, Text.fields_separator, List.map_cons]
  change _ :: Text.fieldsOf '/' _ = _
  rw [fields, names]
  simp

theorem normalize_ofPlace : (ofPlace place).normalize = ofPlace place := by
  rw [normalize, components_ofPlace named, foldDots, List.foldl_cons, foldl_foldStep_names]
  simp [foldStep, ofPlace]

end

theorem map_name_injective {p q : Place} (same : p.map Component.name = q.map Component.name) : p = q :=
  List.map_injective_iff.mpr (fun _ _ equal => Component.name.inj equal) same

theorem map_name_prefix_iff {p q : Place} : p.map Component.name <+: q.map Component.name ↔ p <+: q := by
  constructor
  · rintro ⟨rest, split⟩
    obtain ⟨front, back, rfl, first, -⟩ := List.map_eq_append_iff.mp split.symm
    rw [map_name_injective first]
    exact List.prefix_append _ _
  · exact fun before => before.map _

theorem ofPlace_injective {p q : Place} (namedP : p.all isName = true) (namedQ : q.all isName = true)
    (same : ofPlace p = ofPlace q) : p = q := by
  have steps := congrArg components same
  rw [components_ofPlace namedP, components_ofPlace namedQ] at steps
  exact map_name_injective (List.cons.inj steps).2

theorem prefix_ofPlace {p q : Place} (namedP : p.all isName = true) (namedQ : q.all isName = true) :
    (ofPlace p).components <+: (ofPlace q).components ↔ p <+: q := by
  rw [components_ofPlace namedP, components_ofPlace namedQ, List.cons_prefix_cons, map_name_prefix_iff]
  exact and_iff_right rfl

/-! ### Spelling a place -/

theorem toList_ofPlace (place : Place) :
    (ofPlace place).text.toList = '/' :: ['/'].intercalate (place.map String.toList) := by
  have names : (place.map Component.name).map Component.text = place := by
    simp [Function.comp_def, Component.text]
  rw [ofPlace, toList_ofComponents_root, names, Text.joinWith, String.toList_ofList]

/-- The path of a place does not end with a slash, unless it is the root's. -/
theorem getLast?_ofPlace {place : Place} (named : place.all isName = true) (below : place ≠ []) :
    (ofPlace place).text.toList.getLast? ≠ some '/' := by
  obtain ⟨front, last, rfl⟩ := (List.eq_nil_or_concat place).resolve_left below
  rw [List.concat_eq_append, named_append_iff] at named
  have lastNamed : isName last = true := by simpa using named.2
  have plain := plain_name lastNamed
  have letters : ∃ before, (ofPlace (front.concat last)).text.toList = before ++ last.toList := by
    rw [toList_ofPlace, List.concat_eq_append, List.map_append, List.map_singleton]
    by_cases single : front = []
    · exact ⟨['/'], by simp [single]⟩
    · rw [Text.intercalate_append (by simpa using single) (by simp), List.intercalate_singleton]
      exact ⟨_, (List.cons_append ..).symm⟩
  obtain ⟨before, split⟩ := letters
  have visible : last.toList ≠ [] := by
    intro blank
    exact plain.not_blank.1 (String.toList_inj.mp blank)
  rw [split, List.getLast?_append_of_ne_nil _ visible]
  intro ends
  exact plain.2 (List.mem_of_getLast? ends)

/-- Names spell a relative path that does not go up. -/
theorem ofComponents_names {names : Place} (some : names ≠ []) (named : names.all isName = true) :
    (ofComponents (names.map .name)).text ≠ "" ∧ (ofComponents (names.map .name)).isAbsolute = false ∧
      .parent ∉ (ofComponents (names.map .name)).components := by
  have steps := components_of_plain (plain_names named)
  refine ⟨?_, ?_, ?_⟩
  · intro blank
    rw [components_of_blank blank] at steps
    exact some (List.map_eq_nil_iff.mp steps.symm)
  · rw [← Bool.not_eq_true, isAbsolute_iff_root_mem, steps]
    simp
  · rw [steps]
    simp

theorem normalize_ofNames {names : Place} (named : names.all isName = true) :
    (ofComponents (names.map .name)).normalize = ofComponents (names.map .name) := by
  rw [normalize, components_of_plain (plain_names named), foldDots, foldl_foldStep_names, List.append_nil,
    List.reverse_reverse]

theorem toList_ofNames (names : Place) :
    (ofComponents (names.map .name)).text.toList = ['/'].intercalate (names.map String.toList) := by
  have text : ofComponents (names.map .name) = ⟨Text.joinWith '/' ((names.map Component.name).map Component.text)⟩ := by
    cases names <;> rfl
  rw [text, Text.joinWith, String.toList_ofList, List.map_map, List.map_map]
  rfl

/-- Names are followed from a place by joining them with its path. -/
theorem join_ofNames {place : Place} (named : place.all isName = true) {names : Place} (some : names ≠ [])
    (others : names.all isName = true) :
    (ofPlace place).join (ofComponents (names.map .name)) = ofPlace (place ++ names) := by
  have relative : ¬(ofComponents (names.map .name)).isAbsolute = true := by
    simp [(ofComponents_names some others).2.1]
  have full : (ofPlace place).text ≠ "" := by
    intro blank
    have letters := toList_ofPlace place
    rw [blank] at letters
    cases letters
  apply eq_of_letters
  rw [join, if_neg relative]
  by_cases top : place = []
  · subst top
    rw [if_pos (Or.inr (by decide)), String.toList_append, toList_ofPlace, toList_ofPlace, toList_ofNames]
    simp
  · rw [if_neg (not_or.mpr ⟨full, getLast?_ofPlace named top⟩), String.toList_append, String.toList_append,
      toList_ofPlace, toList_ofPlace, toList_ofNames, List.map_append,
      Text.intercalate_append (by simpa using top) (by simpa using some)]
    simp

theorem join_ofPlace {place : Place} (named : place.all isName = true) {name : String} (other : isName name = true) :
    (ofPlace place).join ⟨name⟩ = ofPlace (place ++ [name]) := by
  have spelled : ofComponents (List.map Component.name [name]) = ⟨name⟩ := by
    simp [ofComponents, Text.joinWith, Component.text]
  rw [← spelled]
  exact join_ofNames named (List.cons_ne_nil _ _) (by simpa using other)

theorem parent?_ofPlace {place : Place} (named : place.all isName = true) {name : String} (other : isName name = true) :
    (ofPlace (place ++ [name])).parent? = some (ofPlace place) := by
  have steps : (ofPlace (place ++ [name])).components = (.root :: place.map .name) ++ [.name name] := by
    rw [components_ofPlace (named_concat named other), List.map_append]
    rfl
  rw [parent?, steps, List.getLast?_concat, List.dropLast_concat]
  rfl

/-! ### Absolute paths -/

/-- Names after the root, or after a run of `..`. -/
def Canonical (absolute : Bool) (steps : List Component) : Prop :=
  ∃ (ups : Nat) (names : Place), names.all isName = true ∧
    steps = (if absolute then [.root] else List.replicate ups .parent) ++ names.map .name

theorem canonical_foldStep {absolute : Bool} {kept : List Component} {c : Component}
    (canonical : Canonical absolute kept.reverse) (plain : c.Plain) : Canonical absolute (foldStep kept c).reverse := by
  obtain ⟨ups, names, named, spelled⟩ := canonical
  cases c with
  | root => exact absurd plain Component.not_plain_root
  | current => exact ⟨ups, names, named, spelled⟩
  | name text =>
    refine ⟨ups, names ++ [text], named_concat named (isName_of_plain plain), ?_⟩
    rw [foldStep, List.reverse_cons, spelled, List.map_append, List.append_assoc]
    · rfl
    all_goals simp
  | parent =>
    rw [List.reverse_eq_iff] at spelled
    rcases List.eq_nil_or_concat names with rfl | ⟨front, last, rfl⟩
    · -- There is no name to take back: the root stays, a run of `..` grows.
      cases absolute with
      | true => exact ⟨ups, [], named, by simp [spelled, foldStep]⟩
      | false =>
        have run : kept = List.replicate ups .parent := by simpa using spelled
        have grown : foldStep (List.replicate ups .parent) .parent = List.replicate (ups + 1) .parent := by
          cases ups <;> rfl
        exact ⟨ups + 1, [], named, by simp [run, grown]⟩
    · rw [List.concat_eq_append, named_append_iff] at named
      exact ⟨ups, front, named.1, by simp [spelled, foldStep]⟩

theorem canonical_foldl {absolute : Bool} {steps : List Component} (plain : ∀ c ∈ steps, c.Plain)
    (kept : List Component) (canonical : Canonical absolute kept.reverse) :
    Canonical absolute (steps.foldl foldStep kept).reverse := by
  induction steps generalizing kept with
  | nil => exact canonical
  | cons c steps ih =>
    obtain ⟨first, others⟩ := List.forall_mem_cons.mp plain
    exact ih others _ (canonical_foldStep canonical first)

theorem canonical_normalize (p : Path) : Canonical p.isAbsolute p.normalize.components := by
  have plain := plain_filterMap_segments p
  rw [components_normalize]
  unfold components foldDots
  dsimp only
  split
  · next absolute =>
    rw [absolute]
    exact canonical_foldl plain [.root] ⟨0, [], rfl, rfl⟩
  · next relative =>
    rw [Bool.not_eq_true] at relative
    rw [relative]
    split
    · exact canonical_foldl plain [] ⟨0, [], rfl, rfl⟩
    · exact canonical_foldl plain [] ⟨0, [], rfl, rfl⟩

theorem normalize_of_absolute {p : Path} (absolute : p.isAbsolute = true) :
    ∃ place : Place, place.all isName = true ∧ p.normalize = ofPlace place := by
  obtain ⟨ups, place, named, spelled⟩ := canonical_normalize p
  refine ⟨place, named, ?_⟩
  rw [normalize_eq, spelled, absolute]
  rfl

/-- An absolute path stands by itself, wherever it is seen from. -/
theorem absoluteFrom_of_absolute {p : Path} (absolute : p.isAbsolute = true) (directory : Path) :
    p.absoluteFrom directory = p.normalize := by
  rw [absoluteFrom, join, if_pos absolute]

theorem isAbsolute_join {directory : Path} (absolute : directory.isAbsolute = true) (p : Path) :
    (directory.join p).isAbsolute = true := by
  have start : ∀ rest : String, (⟨directory.text ++ rest⟩ : Path).isAbsolute = true := by
    intro rest
    unfold isAbsolute at absolute ⊢
    rw [String.toList_append]
    cases letters : directory.text.toList with
    | nil => simp [letters] at absolute
    | cons c text => simpa [letters] using absolute
  unfold join
  split
  · next other => exact other
  · split
    · exact start _
    · rw [String.append_assoc]
      exact start _

theorem absoluteFrom_eq_ofPlace {directory : Path} (absolute : directory.isAbsolute = true) (p : Path) :
    ∃ place : Place, place.all isName = true ∧ p.absoluteFrom directory = ofPlace place :=
  normalize_of_absolute (isAbsolute_join absolute p)

theorem isAbsolute_ofPlace (place : Place) : (ofPlace place).isAbsolute = true := by
  rw [isAbsolute, ofPlace, toList_ofComponents_root]
  rfl

end ArchLint.Path
