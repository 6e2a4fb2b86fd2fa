import ArchLint.Path.Normal
import Mathlib.Data.List.Basic

/-!
# Steps and their spelling

`ofComponents` spells every list of steps that a path can have, and reading the spelling gives the steps back. Normal
forms and project-relative paths are spelled that way, so they are equal as soon as their steps are.
-/

namespace ArchLint

/-! ### Fields of joined pieces -/

namespace Text

theorem fields_of_not_mem {sep : Char} {piece : List Char} (clear : sep ∉ piece) : fields sep piece = [piece] := by
  induction piece with
  | nil => rfl
  | cons c rest ih =>
    have apart : c ≠ sep := fun same => clear (by simp [same])
    have below : sep ∉ rest := fun inside => clear (List.mem_cons_of_mem _ inside)
    rw [fields, if_neg apart, ih below]

theorem fields_append {sep : Char} {piece : List Char} (clear : sep ∉ piece) (rest : List Char) :
    fields sep (piece ++ sep :: rest) = piece :: fields sep rest := by
  induction piece with
  | nil => exact fields_separator sep rest
  | cons c piece ih =>
    have apart : c ≠ sep := fun same => clear (by simp [same])
    have below : sep ∉ piece := fun inside => clear (List.mem_cons_of_mem _ inside)
    rw [List.cons_append, fields, if_neg apart, ih below]

theorem fields_intercalate {sep : Char} {pieces : List (List Char)} (some : pieces ≠ [])
    (clear : ∀ piece ∈ pieces, sep ∉ piece) : fields sep (List.intercalate [sep] pieces) = pieces := by
  induction pieces with
  | nil => exact absurd rfl some
  | cons piece pieces ih =>
    have first := clear piece List.mem_cons_self
    cases pieces with
    | nil => rw [List.intercalate_singleton, fields_of_not_mem first]
    | cons next pieces =>
      rw [List.intercalate_cons_cons, List.append_assoc, List.singleton_append, fields_append first,
        ih (List.cons_ne_nil _ _) fun other inside => clear other (List.mem_cons_of_mem _ inside)]

theorem intercalate_append {α : Type} {sep : List α} {front rest : List (List α)} (some : front ≠ [])
    (more : rest ≠ []) : sep.intercalate (front ++ rest) = sep.intercalate front ++ sep ++ sep.intercalate rest := by
  induction front with
  | nil => exact absurd rfl some
  | cons piece front ih =>
    by_cases last : front = []
    · rw [last, List.singleton_append, List.intercalate_cons_of_ne_nil more, List.intercalate_singleton]
    · rw [List.cons_append, List.intercalate_cons_of_ne_nil (by simp [more]), List.intercalate_cons_of_ne_nil last,
        ih last]
      simp only [List.append_assoc]

theorem fieldsOf_joinWith {sep : Char} {pieces : List String} (some : pieces ≠ [])
    (clear : ∀ piece ∈ pieces, sep ∉ piece.toList) : fieldsOf sep (joinWith sep pieces) = pieces := by
  unfold fieldsOf joinWith
  rw [String.toList_ofList, fields_intercalate]
  · rw [List.map_map]
    simp [Function.comp_def]
  · simpa using some
  · intro piece inside
    obtain ⟨text, there, rfl⟩ := List.mem_map.mp inside
    exact clear text there

theorem fieldsOf_ne_nil (sep : Char) (text : String) : fieldsOf sep text ≠ [] := by
  rw [fieldsOf, ne_eq, List.map_eq_nil_iff]
  exact fields_ne_nil sep _

theorem toList_joinWith_append {sep : Char} {front rest : List String} (some : front ≠ []) (more : rest ≠ []) :
    (joinWith sep (front ++ rest)).toList = (joinWith sep front).toList ++ sep :: (joinWith sep rest).toList := by
  simp only [joinWith, String.toList_ofList, List.map_append]
  rw [intercalate_append (by simpa using some) (by simpa using more), List.append_assoc, List.singleton_append]

theorem mem_joinWith {sep c : Char} {pieces : List String} (inside : c ∈ (joinWith sep pieces).toList) :
    c = sep ∨ ∃ piece ∈ pieces, c ∈ piece.toList := by
  induction pieces with
  | nil => simp [joinWith] at inside
  | cons piece pieces ih =>
    by_cases last : pieces = []
    · rw [last, joinWith, String.toList_ofList, List.map_singleton, List.intercalate_singleton] at inside
      exact Or.inr ⟨piece, List.mem_cons_self, inside⟩
    · rw [← List.singleton_append, toList_joinWith_append (List.cons_ne_nil _ _) last, List.mem_append,
        List.mem_cons] at inside
      rcases inside with first | same | later
      · exact Or.inr ⟨piece, List.mem_cons_self, by simpa [joinWith] using first⟩
      · exact Or.inl same
      · refine (ih later).imp_right ?_
        rintro ⟨other, there, inside⟩
        exact ⟨other, List.mem_cons_of_mem _ there, inside⟩

theorem not_mem_of_mem_fields {sep : Char} {text piece : List Char} (inside : piece ∈ fields sep text) :
    sep ∉ piece := by
  induction text generalizing piece with
  | nil =>
    rw [fields, List.mem_singleton] at inside
    rw [inside]
    exact List.not_mem_nil
  | cons c rest ih =>
    rw [fields] at inside
    split at inside
    · rcases List.mem_cons.mp inside with rfl | later
      · exact List.not_mem_nil
      · exact ih later
    · next apart =>
      obtain ⟨first, more, found⟩ := List.exists_cons_of_ne_nil (fields_ne_nil sep rest)
      rw [found] at inside
      rcases List.mem_cons.mp inside with rfl | later
      · have clear : sep ∉ first := ih (by rw [found]; exact List.mem_cons_self)
        intro there
        rcases List.mem_cons.mp there with same | below
        · exact apart same.symm
        · exact clear below
      · exact ih (by rw [found]; exact List.mem_cons_of_mem _ later)

end Text

namespace Path

theorem eq_of_letters {p q : Path} (same : p.text.toList = q.text.toList) : p = q :=
  congrArg mk (String.toList_inj.mp same)

theorem components_of_blank {p : Path} (blank : p.text = "") : p.components = [] := by
  rw [show p = ⟨""⟩ from congrArg mk blank]
  decide

/-! ### Steps that can be spelled -/

/-- A step that a segment spells wherever it stands. -/
def Component.Plain (c : Component) : Prop :=
  Component.ofSegment? c.text = some c ∧ '/' ∉ c.text.toList

/-- Plain steps, perhaps after the root or a leading `.`. -/
def Spelled (steps : List Component) : Prop :=
  ∃ lead rest, steps = lead ++ rest ∧ (lead = [] ∨ lead = [.root] ∨ lead = [.current]) ∧ ∀ c ∈ rest, c.Plain

theorem plain_of_ofSegment? {segment : String} {c : Component} (clear : '/' ∉ segment.toList)
    (read : Component.ofSegment? segment = some c) : c.Plain := by
  have text : c.text = segment := by
    unfold Component.ofSegment? at read
    split at read
    · exact absurd read (by simp)
    · split at read
      · next same =>
        rw [← Option.some.inj read, same]
        rfl
      · rw [← Option.some.inj read]
        rfl
  exact ⟨by rw [text]; exact read, by rw [text]; exact clear⟩

theorem clear_of_mem_segments {p : Path} {segment : String} (inside : segment ∈ p.segments) :
    '/' ∉ segment.toList := by
  obtain ⟨field, piece, rfl⟩ := List.mem_map.mp inside
  rw [String.toList_ofList]
  exact Text.not_mem_of_mem_fields piece

theorem plain_filterMap_segments (p : Path) : ∀ c ∈ p.segments.filterMap Component.ofSegment?, c.Plain := by
  intro c inside
  obtain ⟨segment, there, read⟩ := List.mem_filterMap.mp inside
  exact plain_of_ofSegment? (clear_of_mem_segments there) read

theorem Component.not_plain_root : ¬ Component.root.Plain :=
  fun plain => absurd plain.1 (by decide)

theorem spelled_components (p : Path) : Spelled p.components := by
  have plain := plain_filterMap_segments p
  unfold components
  dsimp only
  split
  · exact ⟨[.root], _, rfl, Or.inr (Or.inl rfl), plain⟩
  · split
    · exact ⟨[.current], _, rfl, Or.inr (Or.inr rfl), plain⟩
    · exact ⟨[], _, rfl, Or.inl rfl, plain⟩

theorem isAbsolute_iff_root_mem (p : Path) : p.isAbsolute = true ↔ .root ∈ p.components := by
  have plain := plain_filterMap_segments p
  unfold components
  dsimp only
  split
  · next absolute => exact iff_of_true absolute List.mem_cons_self
  · next relative =>
    refine iff_of_false relative ?_
    split
    · simpa using fun inside => Component.not_plain_root (plain .root inside)
    · exact fun inside => Component.not_plain_root (plain .root inside)

theorem filterMap_text {steps : List Component} (plain : ∀ c ∈ steps, c.Plain) :
    (steps.map Component.text).filterMap Component.ofSegment? = steps := by
  rw [List.filterMap_map]
  conv_rhs => rw [← List.filterMap_some (l := steps)]
  exact List.filterMap_congr fun c inside => (plain c inside).1

/-- The segments of spelled steps. Without steps there is one empty segment. -/
theorem fieldsOf_text {steps : List Component} (clear : ∀ c ∈ steps, '/' ∉ c.text.toList) :
    Text.fieldsOf '/' (Text.joinWith '/' (steps.map Component.text)) =
      if steps = [] then [""] else steps.map Component.text := by
  by_cases none : steps = []
  · rw [if_pos none, none]
    rfl
  · rw [if_neg none, Text.fieldsOf_joinWith (by simpa using none)]
    intro piece inside
    obtain ⟨c, there, rfl⟩ := List.mem_map.mp inside
    exact clear c there

theorem isAbsolute_iff (p : Path) : p.isAbsolute = true ↔ ∃ first rest, p.segments = "" :: first :: rest := by
  unfold isAbsolute segments Text.fieldsOf
  cases p.text.toList with
  | nil => simp [Text.fields]
  | cons c text =>
    obtain ⟨first, rest, found⟩ := List.exists_cons_of_ne_nil (Text.fields_ne_nil '/' text)
    by_cases slash : c = '/'
    · rw [slash, Text.fields_separator, found]
      simp
    · rw [Text.fields, if_neg slash, found]
      simp [slash]

theorem Component.Plain.not_blank {c : Component} (plain : c.Plain) : c.text ≠ "" ∧ c.text ≠ "." := by
  have read := plain.1
  unfold Component.ofSegment? at read
  split at read
  · exact absurd read (by simp)
  · next visible => exact not_or.mp visible

theorem filterMap_fieldsOf {steps : List Component} (plain : ∀ c ∈ steps, c.Plain) :
    (Text.fieldsOf '/' (Text.joinWith '/' (steps.map Component.text))).filterMap Component.ofSegment? = steps := by
  rw [fieldsOf_text fun c inside => (plain c inside).2]
  split
  · next none =>
    rw [none]
    rfl
  · exact filterMap_text plain

theorem ofComponents_of_plain {steps : List Component} (plain : ∀ c ∈ steps, c.Plain) :
    ofComponents steps = ⟨Text.joinWith '/' (steps.map Component.text)⟩ := by
  cases steps with
  | nil => rfl
  | cons c rest =>
    cases c with
    | root => exact absurd (plain .root List.mem_cons_self) Component.not_plain_root
    | current | parent | name text => rfl

theorem toList_ofComponents_root (steps : List Component) :
    (ofComponents (.root :: steps)).text.toList =
      '/' :: (Text.joinWith '/' (steps.map Component.text)).toList := by
  rw [ofComponents, String.toList_append]
  rfl

theorem components_of_plain {steps : List Component} (plain : ∀ c ∈ steps, c.Plain) :
    (ofComponents steps).components = steps := by
  have text := ofComponents_of_plain plain
  have fields : (ofComponents steps).segments = if steps = [] then [""] else steps.map Component.text := by
    rw [text]
    exact fieldsOf_text fun c inside => (plain c inside).2
  -- A leading empty segment or a leading `.` would have to be spelled by a plain step.
  have visible : ∀ first rest, (ofComponents steps).segments = first :: rest →
      first ≠ "." ∧ (first = "" → rest = []) := by
    intro first rest found
    rw [fields] at found
    cases steps with
    | nil =>
      obtain ⟨rfl, rfl⟩ := List.cons.inj found
      exact ⟨by decide, fun _ => rfl⟩
    | cons c others =>
      rw [if_neg (List.cons_ne_nil _ _), List.map_cons] at found
      obtain ⟨rfl, -⟩ := List.cons.inj found
      obtain ⟨full, undotted⟩ := (plain c List.mem_cons_self).not_blank
      exact ⟨undotted, fun blank => absurd blank full⟩
  have relative : ¬ (ofComponents steps).isAbsolute = true := by
    intro absolute
    obtain ⟨first, rest, found⟩ := (isAbsolute_iff _).mp absolute
    exact absurd ((visible _ _ found).2 rfl) (List.cons_ne_nil _ _)
  have undotted : ¬ (ofComponents steps).segments.head? = some "." := by
    intro dotted
    obtain ⟨rest, found⟩ := List.head?_eq_some_iff.mp dotted
    exact (visible _ _ found).1 rfl
  unfold components
  dsimp only
  rw [if_neg relative, if_neg undotted, text]
  exact filterMap_fieldsOf plain

theorem components_of_root {steps : List Component} (plain : ∀ c ∈ steps, c.Plain) :
    (ofComponents (.root :: steps)).components = .root :: steps := by
  have letters := toList_ofComponents_root steps
  have absolute : (ofComponents (.root :: steps)).isAbsolute = true := by
    rw [isAbsolute, letters]
    rfl
  have fields : (ofComponents (.root :: steps)).segments =
      "" :: Text.fieldsOf '/' (Text.joinWith '/' (steps.map Component.text)) := by
    rw [segments, Text.fieldsOf, letters, Text.fields_separator]
    rfl
  unfold components
  dsimp only
  rw [if_pos absolute, fields, List.filterMap_cons_none (by decide), filterMap_fieldsOf plain]

theorem components_of_current {steps : List Component} (plain : ∀ c ∈ steps, c.Plain) :
    (ofComponents (.current :: steps)).components = .current :: steps := by
  have fields : (ofComponents (.current :: steps)).segments = "." :: steps.map Component.text := by
    have clear : ∀ c ∈ Component.current :: steps, '/' ∉ c.text.toList := by
      intro c inside
      rcases List.mem_cons.mp inside with rfl | later
      · decide
      · exact (plain c later).2
    exact (fieldsOf_text clear).trans (if_neg (List.cons_ne_nil _ _))
  have relative : ¬ (ofComponents (.current :: steps)).isAbsolute = true := by
    intro absolute
    obtain ⟨first, rest, found⟩ := (isAbsolute_iff _).mp absolute
    rw [fields] at found
    exact absurd (List.cons.inj found).1 (by decide)
  unfold components
  dsimp only
  rw [if_neg relative, if_pos (by rw [fields]; rfl), fields, List.filterMap_cons_none (by decide),
    filterMap_text plain]

/-- Reading the spelling gives the steps back. -/
theorem components_ofComponents {steps : List Component} (spelled : Spelled steps) :
    (ofComponents steps).components = steps := by
  obtain ⟨lead, rest, rfl, rfl | rfl | rfl, plain⟩ := spelled
  · exact components_of_plain plain
  · exact components_of_root plain
  · exact components_of_current plain

/-! ### Normal forms -/

/-- The steps of a normal form: plain ones, perhaps after the root. -/
def Folded (steps : List Component) : Prop :=
  ∃ lead rest, steps = lead ++ rest ∧ (lead = [] ∨ lead = [.root]) ∧ ∀ c ∈ rest, c.Plain

theorem Folded.spelled {steps : List Component} (folded : Folded steps) : Spelled steps := by
  obtain ⟨lead, rest, split, led, plain⟩ := folded
  exact ⟨lead, rest, split, led.imp_right Or.inl, plain⟩

theorem Folded.of_plain {steps : List Component} (plain : ∀ c ∈ steps, c.Plain) : Folded steps :=
  ⟨[], steps, rfl, Or.inl rfl, plain⟩

theorem folded_cons_iff {c : Component} {steps : List Component} :
    Folded (c :: steps) ↔ (c = .root ∨ c.Plain) ∧ ∀ d ∈ steps, d.Plain := by
  constructor
  · rintro ⟨lead, rest, split, rfl | rfl, plain⟩
    · rw [List.nil_append] at split
      subst split
      exact ⟨Or.inr (plain c List.mem_cons_self), fun d inside => plain d (List.mem_cons_of_mem _ inside)⟩
    · obtain ⟨rfl, rfl⟩ := List.cons.inj split
      exact ⟨Or.inl rfl, plain⟩
  · rintro ⟨rfl | first, plain⟩
    · exact ⟨[.root], steps, rfl, Or.inr rfl, plain⟩
    · exact Folded.of_plain (List.forall_mem_cons.mpr ⟨first, plain⟩)

theorem Folded.left {front tail : List Component} (folded : Folded (front ++ tail)) : Folded front := by
  cases front with
  | nil => exact Folded.of_plain fun _ inside => absurd inside List.not_mem_nil
  | cons c front =>
    obtain ⟨first, plain⟩ := folded_cons_iff.mp folded
    exact folded_cons_iff.mpr ⟨first, fun d inside => plain d (List.mem_append_left _ inside)⟩

theorem Folded.right {front tail : List Component} (folded : Folded (front ++ tail)) : Folded tail := by
  cases front with
  | nil => exact folded
  | cons c front =>
    obtain ⟨-, plain⟩ := folded_cons_iff.mp folded
    exact Folded.of_plain fun d inside => plain d (List.mem_append_right _ inside)

theorem Folded.append_plain {steps : List Component} (folded : Folded steps) {c : Component} (plain : c.Plain) :
    Folded (steps ++ [c]) := by
  obtain ⟨lead, rest, rfl, led, others⟩ := folded
  refine ⟨lead, rest ++ [c], List.append_assoc _ _ _, led, ?_⟩
  intro other inside
  rcases List.mem_append.mp inside with before | last
  · exact others other before
  · rw [List.mem_singleton.mp last]
    exact plain

/-- Folding keeps the steps so far in normal form, the last of them first. -/
theorem folded_foldStep {kept : List Component} {c : Component} (folded : Folded kept.reverse) (plain : c.Plain) :
    Folded (foldStep kept c).reverse := by
  have push : Folded (c :: kept).reverse := by
    rw [List.reverse_cons]
    exact folded.append_plain plain
  cases c with
  | root => exact push
  | current => exact folded
  | name text => exact push
  | parent =>
    rcases kept with _ | ⟨last, kept⟩
    · exact push
    · cases last with
      | root => exact folded
      | current => exact push
      | parent => exact push
      | name text =>
        rw [List.reverse_cons] at folded
        exact folded.left

theorem folded_foldDots {steps : List Component} (spelled : Spelled steps) : Folded (foldDots steps) := by
  have go : ∀ (rest : List Component), (∀ c ∈ rest, c.Plain) → ∀ kept, Folded kept.reverse →
      Folded (rest.foldl foldStep kept).reverse := by
    intro rest
    induction rest with
    | nil => exact fun _ _ folded => folded
    | cons c rest ih =>
      intro plain kept folded
      obtain ⟨first, others⟩ := List.forall_mem_cons.mp plain
      exact ih others _ (folded_foldStep folded first)
  have none : Folded ([] : List Component) := Folded.of_plain fun _ inside => absurd inside List.not_mem_nil
  obtain ⟨lead, rest, rfl, rfl | rfl | rfl, plain⟩ := spelled
  · exact go rest plain [] none
  · exact go rest plain [.root] (folded_cons_iff.mpr ⟨Or.inl rfl, fun _ inside => absurd inside List.not_mem_nil⟩)
  · exact go rest plain [] none

theorem components_normalize (p : Path) : p.normalize.components = foldDots p.components :=
  components_ofComponents (folded_foldDots (spelled_components p)).spelled

theorem folded_normalize (p : Path) : Folded p.normalize.components := by
  rw [components_normalize]
  exact folded_foldDots (spelled_components p)

theorem normalize_eq (p : Path) : p.normalize = ofComponents p.normalize.components := by
  rw [components_normalize]
  rfl

/-- A file keeps its name in normal form. -/
theorem fileName?_normalize {p : Path} {name : String} (named : p.fileName? = some name) :
    p.normalize.fileName? = some name := by
  have last : p.components.getLast? = some (.name name) := by
    unfold fileName? at named
    split at named
    · next text found => rw [found, Option.some.inj named]
    · cases named
  have kept : ∀ steps, foldStep steps (.name name) = .name name :: steps := fun _ => rfl
  obtain ⟨front, split⟩ := List.getLast?_eq_some_iff.mp last
  rw [fileName?, components_normalize, split, foldDots, List.foldl_append, List.foldl_cons, List.foldl_nil, kept,
    List.getLast?_reverse, List.head?_cons]

theorem extension?_eq_of_fileName? {p q : Path} (same : p.fileName? = q.fileName?) : p.extension? = q.extension? := by
  rw [extension?, extension?, same]

theorem fileName?_of_extension? {p : Path} {extension : String} (found : p.extension? = some extension) :
    ∃ name, p.fileName? = some name := by
  unfold extension? at found
  split at found
  · cases found
  · next name named => exact ⟨name, named⟩

/-! ### Project-relative paths -/

theorem eq_append_of_isPrefixOf? {front steps tail : List Component} (found : front.isPrefixOf? steps = some tail) :
    steps = front ++ tail := by
  induction front generalizing steps with
  | nil => exact Option.some.inj found
  | cons c front ih =>
    cases steps with
    | nil => exact absurd found (by simp [List.isPrefixOf?])
    | cons d steps =>
      rw [List.isPrefixOf?] at found
      split at found
      · next same => rw [ih found, eq_of_beq same, List.cons_append]
      · exact absurd found (by simp)

theorem isPrefixOf?_append (front tail : List Component) : front.isPrefixOf? (front ++ tail) = some tail := by
  induction front with
  | nil => rfl
  | cons c front ih => rw [List.cons_append, List.isPrefixOf?, if_pos (beq_self_eq_true c), ih]

/-- A path below the root is seen by the steps that follow the root's. -/
theorem relativeTo_of_below {p root : Path} {steps : List Component} (some : steps ≠ [])
    (below : p.normalize.components = root.normalize.components ++ steps) : p.relativeTo root = ofComponents steps := by
  unfold relativeTo
  dsimp only
  rw [below, isPrefixOf?_append]
  cases steps with
  | nil => exact absurd rfl some
  | cons step rest => rfl

/-- A project-relative path is spelled from steps in normal form. -/
theorem relativeTo_spelling (p root : Path) :
    ∃ steps, Folded steps ∧ p.relativeTo root = ofComponents steps := by
  unfold relativeTo
  dsimp only
  split
  · next step rest found =>
    have split := eq_append_of_isPrefixOf? found
    have folded := folded_normalize p
    rw [split] at folded
    exact ⟨step :: rest, folded.right, rfl⟩
  · exact ⟨_, folded_normalize p, normalize_eq p⟩

theorem relativeTo_eq_ofComponents (p root : Path) :
    p.relativeTo root = ofComponents (p.relativeTo root).components := by
  obtain ⟨steps, folded, spelling⟩ := relativeTo_spelling p root
  rw [spelling, components_ofComponents folded.spelled]

theorem relativeTo_eq_of_components {p q root : Path}
    (same : (p.relativeTo root).components = (q.relativeTo root).components) :
    p.relativeTo root = q.relativeTo root := by
  rw [relativeTo_eq_ofComponents p, relativeTo_eq_ofComponents q, same]

end Path

end ArchLint
