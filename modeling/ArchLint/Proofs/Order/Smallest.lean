import ArchLint.Proofs.Order.Bytes
import ArchLint.Rule.Options

/-!
# The smallest refused key

Settings are kept in no order, so of several keys that are refused the first in byte order is reported.
-/

namespace ArchLint

/-- A key that is refused, and of such keys the first in byte order. -/
structure SmallestRefused (keys : List String) (refused : String → Prop) (key : String) : Prop where
  inside : key ∈ keys
  isRefused : refused key
  least : ∀ other ∈ keys, refused other → Text.bytes key ≤ Text.bytes other

theorem SmallestRefused.unique {keys : List String} {refused : String → Prop} {key other : String}
    (smallest : SmallestRefused keys refused key) (smallestToo : SmallestRefused keys refused other) : key = other := by
  refine String.le_antisymm ?_ ?_
  · exact (Text.bytes_le_iff _ _).mp (smallest.least other smallestToo.inside smallestToo.isRefused)
  · exact (Text.bytes_le_iff _ _).mp (smallestToo.least key smallest.inside smallest.isRefused)

/-- Only the keys that are refused matter. -/
theorem SmallestRefused.of_mem_iff {keys others : List String} {refused : String → Prop} {key : String}
    (alike : ∀ other, refused other → (other ∈ keys ↔ other ∈ others)) (smallest : SmallestRefused keys refused key) :
    SmallestRefused others refused key where
  inside := (alike key smallest.isRefused).mp smallest.inside
  isRefused := smallest.isRefused
  least other there isRefused := smallest.least other ((alike other isRefused).mpr there) isRefused

theorem SmallestRefused.of_perm {keys others : List String} {refused : String → Prop} {key : String}
    (perm : keys.Perm others) (smallest : SmallestRefused keys refused key) : SmallestRefused others refused key :=
  smallest.of_mem_iff fun _ _ => perm.mem_iff

theorem pairwise_mergeSort_le (keys : List String) : (keys.mergeSort fun a b => a ≤ b).Pairwise (· ≤ ·) := by
  have sorted : (keys.mergeSort fun a b => a ≤ b).Pairwise fun a b => decide (a ≤ b) = true := by
    refine List.pairwise_mergeSort ?_ ?_ keys
    · intro a b c first second
      simp only [decide_eq_true_eq] at first second ⊢
      exact String.le_trans first second
    · intro a b
      simpa using String.le_total a b
  exact sorted.imp of_decide_eq_true

namespace RuleOptions

variable {keys : List String} {accepts : String → Bool}

theorem smallestRefused?_eq_none_iff : smallestRefused? keys accepts = none ↔ ∀ key ∈ keys, accepts key = true := by
  simp [smallestRefused?, List.find?_eq_none]

theorem smallest_of_found {key : String} (found : smallestRefused? keys accepts = some key) :
    SmallestRefused keys (fun key => accepts key = false) key := by
  have sorted := pairwise_mergeSort_le keys
  obtain ⟨refused, before, after, split, fine⟩ := List.find?_eq_some_iff_append.mp found
  refine ⟨List.mem_mergeSort.mp (List.mem_of_find?_eq_some found), by simpa using refused, ?_⟩
  intro other inside otherRefused
  have there : other ∈ keys.mergeSort fun a b => a ≤ b := List.mem_mergeSort.mpr inside
  rw [split, List.mem_append, List.mem_cons] at there
  rw [split] at sorted
  rw [Text.bytes_le_iff]
  rcases there with earlier | rfl | later
  · exact absurd (fine other earlier) (by simp [otherRefused])
  · exact String.le_refl _
  · exact (List.pairwise_cons.mp (List.pairwise_append.mp sorted).2.1).1 other later

theorem smallestRefused?_eq_some_iff {key : String} :
    smallestRefused? keys accepts = some key ↔ SmallestRefused keys (fun key => accepts key = false) key := by
  refine ⟨smallest_of_found, fun smallest => ?_⟩
  cases found : smallestRefused? keys accepts with
  | none =>
    have accepted := smallestRefused?_eq_none_iff.mp found key smallest.inside
    exact absurd smallest.isRefused (by simp [accepted])
  | some other => rw [(smallest_of_found found).unique smallest]

theorem smallestRefused?_of_perm {others : List String} (perm : keys.Perm others) :
    smallestRefused? others accepts = smallestRefused? keys accepts := by
  ext key
  rw [smallestRefused?_eq_some_iff, smallestRefused?_eq_some_iff]
  exact ⟨.of_perm perm.symm, .of_perm perm⟩

section

variable {α : Type} {items : List α} {name : α → String}

/-- Keys are refused that name none of the items. -/
theorem smallestRefused?_any_eq_some_iff {key : String} :
    (smallestRefused? keys fun key => items.any (name · = key)) = some key ↔
      SmallestRefused keys (fun key => ∀ item ∈ items, name item ≠ key) key := by
  rw [smallestRefused?_eq_some_iff]
  simp

theorem smallestRefused?_any_eq_none_iff :
    (smallestRefused? keys fun key => items.any (name · = key)) = none ↔
      ∀ key ∈ keys, ¬∀ item ∈ items, name item ≠ key := by
  rw [smallestRefused?_eq_none_iff]
  simp

theorem admitted_or_smallest (keys : List String) (items : List α) (name : α → String) :
    (∀ key ∈ keys, ¬∀ item ∈ items, name item ≠ key) ∨
      ∃ key, SmallestRefused keys (fun key => ∀ item ∈ items, name item ≠ key) key := by
  cases found : smallestRefused? keys fun key => items.any (name · = key) with
  | none => exact Or.inl (smallestRefused?_any_eq_none_iff.mp found)
  | some key => exact Or.inr ⟨key, smallestRefused?_any_eq_some_iff.mp found⟩

end

end RuleOptions

end ArchLint
