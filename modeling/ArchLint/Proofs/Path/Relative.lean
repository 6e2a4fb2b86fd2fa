import ArchLint.Proofs.Path.Folding

/-!
# Paths as seen from a root

A path strictly below a root is seen by the names that lead there, any other path in its normal form. Joined to the
root, what is seen is the path again, so different paths are never seen alike.
-/

namespace ArchLint.Path

theorem relativeTo_congr {p q root top : Path} (same : p.normalize = q.normalize)
    (sameRoot : root.normalize = top.normalize) : p.relativeTo root = q.relativeTo top := by
  unfold relativeTo
  rw [same, sameRoot]

def StrictlyBelow (p root : Path) : Prop :=
  root.normalize.components <+: p.normalize.components ∧ root.normalize.components ≠ p.normalize.components

theorem relativeTo_of_outside {p root : Path} (outside : ¬p.StrictlyBelow root) : p.relativeTo root = p.normalize := by
  unfold relativeTo
  dsimp only
  split
  · next step rest found =>
    have split := eq_append_of_isPrefixOf? found
    refine absurd ⟨?_, ?_⟩ outside
    · rw [split]
      exact List.prefix_append _ _
    · rw [split]
      exact fun same => List.cons_ne_nil _ _ (List.self_eq_append_right.mp same)
  · rfl

/-- An absolute path strictly below a place goes on from there with names, and they are what a project at that place
sees. -/
theorem relativeTo_of_inside {root : Place} (namedRoot : root.all isName = true) {p : Path}
    (absolute : p.isAbsolute = true) (inside : (ofPlace root).components <+: p.normalize.components)
    (strict : (ofPlace root).components ≠ p.normalize.components) :
    ∃ names : Place, names ≠ [] ∧ names.all isName = true ∧ p.normalize = ofPlace (root ++ names) ∧
      p.relativeTo (ofPlace root) = ofComponents (names.map .name) := by
  obtain ⟨place, named, folded⟩ := normalize_of_absolute absolute
  rw [folded] at inside strict
  obtain ⟨names, rfl⟩ := (prefix_ofPlace namedRoot named).mp inside
  have further : names ≠ [] := by
    rintro rfl
    rw [List.append_nil] at strict
    exact strict rfl
  refine ⟨names, further, (named_append_iff.mp named).2, folded, relativeTo_of_below (by simpa using further) ?_⟩
  rw [folded, normalize_ofPlace namedRoot, components_ofPlace named, components_ofPlace namedRoot, List.map_append]
  rfl

section

variable {p root : Path} (absoluteRoot : root.isAbsolute = true) (absolute : p.isAbsolute = true)

include absoluteRoot absolute

theorem relativeTo_of_strictlyBelow (below : p.StrictlyBelow root) :
    ∃ front names : Place, names ≠ [] ∧ front.all isName = true ∧ names.all isName = true ∧
      root.normalize = ofPlace front ∧ p.normalize = ofPlace (front ++ names) ∧
      p.relativeTo root = ofComponents (names.map .name) := by
  obtain ⟨front, named, top⟩ := normalize_of_absolute absoluteRoot
  obtain ⟨inside, strict⟩ := below
  rw [top] at inside strict
  obtain ⟨names, further, others, folded, seen⟩ := relativeTo_of_inside named absolute inside strict
  refine ⟨front, names, further, named, others, top, folded, ?_⟩
  rw [← seen]
  exact relativeTo_congr rfl (top.trans (normalize_ofPlace named).symm)

theorem join_relativeTo : root.normalize.join (p.relativeTo root) = p.normalize := by
  by_cases below : p.StrictlyBelow root
  · obtain ⟨front, names, further, named, others, top, folded, seen⟩ :=
      relativeTo_of_strictlyBelow absoluteRoot absolute below
    rw [seen, top, join_ofNames named further others, folded]
  · rw [relativeTo_of_outside below, join, if_pos ((isAbsolute_normalize p).trans absolute)]

theorem normalize_relativeTo : (p.relativeTo root).normalize = p.relativeTo root := by
  by_cases below : p.StrictlyBelow root
  · obtain ⟨-, names, -, -, others, -, -, seen⟩ := relativeTo_of_strictlyBelow absoluteRoot absolute below
    rw [seen, normalize_ofNames others]
  · rw [relativeTo_of_outside below, normalize_normalize]

theorem normalize_join_relativeTo : (root.join (p.relativeTo root)).normalize = p.normalize := by
  rw [normalize_join, normalize_relativeTo absoluteRoot absolute, join_relativeTo absoluteRoot absolute,
    normalize_normalize]

theorem isAbsolute_relativeTo_iff : (p.relativeTo root).isAbsolute = false ↔ p.StrictlyBelow root := by
  by_cases below : p.StrictlyBelow root
  · obtain ⟨-, names, further, -, others, -, -, seen⟩ := relativeTo_of_strictlyBelow absoluteRoot absolute below
    rw [seen]
    exact iff_of_true (ofComponents_names further others).2.1 below
  · rw [relativeTo_of_outside below, isAbsolute_normalize, absolute]
    exact iff_of_false Bool.noConfusion below

/-- What is seen is seen as it is: names are not below the root, and what is outside stays there. -/
theorem relativeTo_relativeTo : (p.relativeTo root).relativeTo root = p.relativeTo root := by
  by_cases below : p.StrictlyBelow root
  · have relative := (isAbsolute_relativeTo_iff absoluteRoot absolute).mpr below
    have apart : ¬(p.relativeTo root).StrictlyBelow root := by
      obtain ⟨front, names, further, named, others, top, -, seen⟩ :=
        relativeTo_of_strictlyBelow absoluteRoot absolute below
      rintro ⟨inside, -⟩
      rw [seen, normalize_ofNames others, components_of_plain (plain_names others), top,
        components_ofPlace named] at inside
      obtain ⟨text, -, spelled⟩ := List.mem_map.mp (inside.subset List.mem_cons_self)
      cases spelled
    rw [relativeTo_of_outside apart, normalize_relativeTo absoluteRoot absolute]
  · have seen := relativeTo_of_outside below
    rw [seen, relativeTo_congr (normalize_normalize p) rfl, seen]

end

theorem normalize_eq_of_relativeTo {p q root : Path} (absoluteRoot : root.isAbsolute = true)
    (absoluteP : p.isAbsolute = true) (absoluteQ : q.isAbsolute = true)
    (same : p.relativeTo root = q.relativeTo root) : p.normalize = q.normalize := by
  rw [← join_relativeTo absoluteRoot absoluteP, same, join_relativeTo absoluteRoot absoluteQ]

end ArchLint.Path
