import ArchLint.Proofs.Path.Folding

/-!
# Slash forms

The slash form of a path has a segment for every component but `.`, blank for the root.
-/

namespace ArchLint

/-! ### Words before a separator -/

namespace Text

theorem fields_append_word {sep : Char} {word : List Char} (clear : sep ∉ word) (text : List Char) :
    ∃ front last, fields sep (text ++ word) = front ++ [last ++ word] := by
  induction text with
  | nil => exact ⟨[], [], by rw [List.nil_append, fields_of_not_mem clear]; rfl⟩
  | cons c text ih =>
    obtain ⟨front, last, cut⟩ := ih
    rw [List.cons_append, fields, cut]
    split
    · exact ⟨[] :: front, last, rfl⟩
    · cases front with
      | nil => exact ⟨[], c :: last, rfl⟩
      | cons piece front => exact ⟨(c :: piece) :: front, last, rfl⟩

theorem joinWith_suffix {sep : Char} (front : List String) {rest : List String} (more : rest ≠ []) :
    (joinWith sep rest).toList <:+ (joinWith sep (front ++ rest)).toList := by
  by_cases none : front = []
  · obtain rfl := none
    exact List.suffix_rfl
  · rw [toList_joinWith_append none more]
    exact ⟨(joinWith sep front).toList ++ [sep], by simp⟩

/-- A word stands before a separator where a piece that is not the last ends with it. -/
theorem infix_joinWith_iff {sep : Char} {word : List Char} (clear : sep ∉ word) {pieces : List String}
    (apart : ∀ piece ∈ pieces, sep ∉ piece.toList) :
    word ++ [sep] <:+: (joinWith sep pieces).toList ↔ ∃ piece ∈ pieces.dropLast, word <:+ piece.toList := by
  constructor
  · rintro ⟨before, after, split⟩
    have some : pieces ≠ [] := by
      rintro rfl
      simp [joinWith] at split
    have letters : (joinWith sep pieces).toList =
        (String.ofList (before ++ word)).toList ++ sep :: (String.ofList after).toList := by
      simp [← split]
    have cut := fieldsOf_of_append letters
    obtain ⟨front, last, ends⟩ := fields_append_word clear before
    rw [fieldsOf_joinWith some apart] at cut
    rw [cut, List.dropLast_append_of_ne_nil (fieldsOf_ne_nil _ _)]
    refine ⟨String.ofList (last ++ word), List.mem_append_left _ ?_, ?_⟩
    · rw [fieldsOf, String.toList_ofList, ends]
      simp
    · rw [String.toList_ofList]
      exact List.suffix_append _ _
  · rintro ⟨piece, inside, front, split⟩
    obtain ⟨before, after, cut⟩ := List.append_of_mem inside
    obtain ⟨last, whole⟩ : ∃ last, pieces = before ++ ([piece] ++ (after ++ [last])) := by
      have some : pieces ≠ [] := by
        rintro rfl
        cases inside
      refine ⟨pieces.getLast some, ?_⟩
      conv_lhs => rw [← List.dropLast_append_getLast some, cut]
      simp
    have here : word ++ [sep] <:+: (joinWith sep ([piece] ++ (after ++ [last]))).toList := by
      rw [toList_joinWith_append (List.cons_ne_nil _ _) (by simp)]
      refine ⟨front, (joinWith sep (after ++ [last])).toList, ?_⟩
      simp [joinWith, ← split]
    rw [whole]
    exact here.trans (joinWith_suffix before (by simp)).isInfix

end Text

namespace Path

namespace Component

/-- What a component is in slash form, where it is anything. -/
def slashSegment (c : Component) : String :=
  c.slashSegment?.getD ""

theorem filterMap_slashSegment? (steps : List Component) :
    steps.filterMap slashSegment? = (steps.filter (· ≠ .current)).map slashSegment := by
  induction steps with
  | nil => rfl
  | cons c steps ih =>
    cases c with
    | current => rw [List.filterMap_cons_none rfl, List.filter_cons_of_neg (by simp), ih]
    | root | parent | name text =>
      rw [List.filterMap_cons, List.filter_cons_of_pos (by simp), List.map_cons, ih]
      rfl

end Component

/-- The components but for a leading `.`. -/
def visible (p : Path) : List Component :=
  p.components.filter (· ≠ .current)

theorem slashForm_eq (p : Path) : p.slashForm = Text.joinWith '/' (p.visible.map Component.slashSegment) := by
  rw [slashForm, Component.filterMap_slashSegment?, visible]

theorem clear_slashSegment {p : Path} {c : Component} (inside : c ∈ p.components) : '/' ∉ c.slashSegment.toList := by
  obtain ⟨lead, rest, split, first, plain⟩ := spelled_components p
  rw [split, List.mem_append] at inside
  rcases inside with before | after
  · rcases first with rfl | rfl | rfl
    · cases before
    · obtain rfl := List.mem_singleton.mp before
      exact List.not_mem_nil
    · obtain rfl := List.mem_singleton.mp before
      exact List.not_mem_nil
  · cases c with
    | root | current => exact List.not_mem_nil
    | parent => decide
    | name text => exact (plain _ after).2

theorem clear_of_mem_slashSegments {p : Path} :
    ∀ piece ∈ p.visible.map Component.slashSegment, '/' ∉ piece.toList := by
  intro piece inside
  obtain ⟨c, there, rfl⟩ := List.mem_map.mp inside
  exact clear_slashSegment (List.mem_of_mem_filter there)

/-- A word stands before a slash of the slash form where a component that is not the last ends with it. -/
theorem infix_slashForm_iff {p : Path} {word : List Char} (clear : '/' ∉ word) :
    word ++ ['/'] <:+: p.slashForm.toList ↔ ∃ c ∈ p.visible.dropLast, word <:+ c.slashSegment.toList := by
  rw [slashForm_eq, Text.infix_joinWith_iff clear clear_of_mem_slashSegments]
  simp [← List.map_dropLast]

end Path

end ArchLint
