import ArchLint.Proofs.Arena
import ArchLint.Syntax.Scope
import Mathlib.Data.List.Basic

/-!
# Ancestors and scopes

In an arena that was built by pushing, parents come first, so the bound on a chain of parents never cuts it. The nodes
above an ancestor are above the node as well, and that is why scopes and holders agree.
-/

namespace ArchLint

namespace SyntaxTree

section

variable {t : SyntaxTree}

theorem of_ref? {id : Nat} {node : NodeRef} (there : t.ref? id = some node) :
    id < t.size ∧ node.id = id ∧ t.parentId? id = node.parent := by
  obtain ⟨inner, stored, rfl⟩ := Option.map_eq_some_iff.mp there
  refine ⟨(Array.getElem?_eq_some_iff.mp stored).1, rfl, ?_⟩
  rw [parentId?, stored]
  rfl

theorem parent_of_root (linked : t.Linked) {node : NodeRef} (top : t.ref? 0 = some node) : node.parent = none := by
  obtain ⟨-, -, link⟩ := of_ref? top
  cases named : node.parent with
  | none => rfl
  | some parent => exact absurd (linked.parents_first 0 parent (link.trans named)) (Nat.not_lt_zero _)

theorem ascending_children (linked : t.Linked) {id : Nat} {node : NodeRef} (there : t.ref? id = some node) :
    node.children.Pairwise (· < ·) := by
  obtain ⟨stored, found, rfl⟩ := Option.map_eq_some_iff.mp there
  rw [linked.children_eq id stored found]
  exact List.pairwise_lt_range.filter _

/-- A chain needs no more than one place for each id up to its start. -/
theorem chain_of_bound (linked : t.Linked) {next : Option NodeId} {small large : Nat}
    (enough : ∀ id : Nat, next = some id → id < small) (more : small ≤ large) :
    t.chain large next = t.chain small next := by
  induction small generalizing next large with
  | zero =>
    have none : next = none := by
      cases next with
      | none => rfl
      | some id => exact absurd (enough id rfl) (Nat.not_lt_zero id)
    cases large <;> simp [chain, none]
  | succ small ih =>
    obtain ⟨large, rfl⟩ := Nat.exists_eq_succ_of_ne_zero (Nat.ne_of_gt (Nat.lt_of_lt_of_le small.succ_pos more))
    simp only [chain]
    cases found : next.bind t.ref? with
    | none => rfl
    | some node =>
      obtain ⟨id, start, there⟩ := Option.bind_eq_some_iff.mp found
      obtain ⟨-, -, parent⟩ := of_ref? there
      have first := enough id start
      have below : ∀ above : Nat, node.parent = some above → above < small := by
        intro above named
        have earlier := linked.parents_first id above (parent.trans named)
        omega
      simp only [ih below (by omega : small ≤ large)]

theorem ancestors_of_parent (linked : t.Linked) {node above : NodeRef} (parent : t.parentOf? node = some above) :
    t.ancestors node = above :: t.ancestors above := by
  obtain ⟨id, named, there⟩ := Option.bind_eq_some_iff.mp parent
  obtain ⟨inside, -, link⟩ := of_ref? there
  obtain ⟨size, counted⟩ := Nat.exists_eq_succ_of_ne_zero (Nat.ne_of_gt (Nat.zero_lt_of_lt inside))
  have below : ∀ next : Nat, above.parent = some next → next < size := by
    intro next higher
    have earlier := linked.parents_first id next (link.trans higher)
    omega
  unfold ancestors
  rw [chain_of_bound linked below (show size ≤ t.size by omega), counted, chain, named, Option.bind_some, there]

theorem ancestors_of_no_parent {node : NodeRef} (parent : t.parentOf? node = none) : t.ancestors node = [] := by
  unfold ancestors
  unfold parentOf? at parent
  cases t.size with
  | zero => rfl
  | succ size => rw [chain, parent]

theorem ancestors_of_getElem? (linked : t.Linked) {node above : NodeRef} {place : Nat}
    (found : (t.ancestors node)[place]? = some above) : t.ancestors above = (t.ancestors node).drop (place + 1) := by
  induction place generalizing node with
  | zero =>
    cases parent : t.parentOf? node with
    | none =>
      rw [ancestors_of_no_parent parent] at found
      cases found
    | some first =>
      rw [ancestors_of_parent linked parent] at found ⊢
      obtain rfl := Option.some.inj found
      rfl
  | succ place ih =>
    cases parent : t.parentOf? node with
    | none =>
      rw [ancestors_of_no_parent parent] at found
      cases found
    | some first =>
      rw [ancestors_of_parent linked parent] at found ⊢
      exact ih found

theorem suffix_ancestors (linked : t.Linked) {node above : NodeRef} (higher : above ∈ t.ancestors node) :
    t.ancestors above <:+ t.ancestors node := by
  obtain ⟨place, found⟩ := List.getElem?_of_mem higher
  rw [ancestors_of_getElem? linked found]
  exact List.drop_suffix _ _

/-! ### Scopes -/

theorem scope_eq_functionLocal_iff {node : NodeRef} :
    t.scope node = .functionLocal ↔ ∃ above ∈ t.ancestors node, above.kind.isFunction = true := by
  unfold scope Scope.ofAncestors
  split
  · next local' => simpa using local'
  · next outside =>
    split <;> simpa using outside

theorem scope_eq_member_iff {node : NodeRef} (outside : t.scope node ≠ .functionLocal) :
    t.scope node = .member ↔ ∃ above ∈ t.ancestors node, above.kind.isBindingHolder = true := by
  unfold scope Scope.ofAncestors at outside ⊢
  split at outside
  · exact absurd rfl outside
  · next free =>
    rw [if_neg free]
    split <;> simp_all

theorem scope_ancestor (linked : t.Linked) {node above : NodeRef} (outside : t.scope node ≠ .functionLocal)
    (higher : above ∈ t.ancestors node) : t.scope above ≠ .functionLocal := by
  intro inside
  obtain ⟨function, there, kind⟩ := scope_eq_functionLocal_iff.mp inside
  exact outside (scope_eq_functionLocal_iff.mpr ⟨function, (suffix_ancestors linked higher).subset there, kind⟩)

theorem retainingHolder?_of_outside (linked : t.Linked) {node : NodeRef} (outside : t.scope node ≠ .functionLocal) :
    t.retainingHolder? node = (t.ancestors node).find? (·.kind.isBindingHolder) := by
  have agree : ∀ above ∈ t.ancestors node, t.retains above = above.kind.isBindingHolder := by
    intro above higher
    have free := scope_ancestor linked outside higher
    unfold retains
    cases above.kind <;> simp [NodeKind.isBindingHolder, free]
  unfold retainingHolder?
  rw [← List.head?_filter, ← List.head?_filter, List.filter_congr agree]

theorem isSome_retainingHolder?_iff (linked : t.Linked) {node : NodeRef} (outside : t.scope node ≠ .functionLocal) :
    (t.retainingHolder? node).isSome = true ↔ t.scope node = .member := by
  rw [retainingHolder?_of_outside linked outside, scope_eq_member_iff outside, List.find?_isSome]

end

end SyntaxTree

end ArchLint
