import ArchLint.Proofs.Syntax.Ancestors

/-!
# Scopes and holders

The scope of a node and the holder of its value are read off the same chain of parents, and that chain goes all the way
up to the program. Further down in a tree a scope only becomes narrower.
-/

namespace ArchLint

def Scope.depth : Scope → Nat
  | .topLevel => 0
  | .member => 1
  | .functionLocal => 2

theorem Scope.depth_ofAncestors_le (first : NodeRef) (above : List NodeRef) :
    (ofAncestors above).depth ≤ (ofAncestors (first :: above)).depth := by
  unfold ofAncestors
  rw [List.any_cons, List.any_cons]
  cases above.any (·.kind.isFunction) with
  | true => simp
  | false =>
    cases first.kind.isFunction with
    | true => cases above.any (·.kind.isBindingHolder) <;> simp [depth]
    | false => cases above.any (·.kind.isBindingHolder) <;> simp [depth]

theorem NodeKind.isBindingHolder_iff {kind : NodeKind} :
    kind.isBindingHolder = true ↔ kind = .classField ∨ kind = .variableDeclarator := by
  cases kind <;> simp [isBindingHolder]

namespace SyntaxTree

/-- The parents of a node, nearest first, up to the program. -/
inductive Climbs (t : SyntaxTree) : NodeRef → List NodeRef → Prop
  | program {node : NodeRef} : t.ref? 0 = some node → Climbs t node []
  | parent {node first : NodeRef} {above : List NodeRef} :
    t.parentOf? node = some first → Climbs t first above → Climbs t node (first :: above)

/-- A scope is what the chain makes of it: functions decide, holders come second. -/
structure Scoped (above : List NodeRef) (scope : Scope) : Prop where
  functionLocal_iff : scope = .functionLocal ↔ ∃ a ∈ above, a.kind.isFunction = true
  member_iff : scope = .member ↔ (∀ a ∈ above, a.kind.isFunction = false) ∧
    ∃ a ∈ above, a.kind = .classField ∨ a.kind = .variableDeclarator
  topLevel_iff : scope = .topLevel ↔
    ∀ a ∈ above, a.kind.isFunction = false ∧ a.kind ≠ .classField ∧ a.kind ≠ .variableDeclarator

/-- A place of a chain where a class field stands, or a variable with no function further up. -/
def KeepsAt (above : List NodeRef) (place : Nat) (holder : NodeRef) : Prop :=
  above[place]? = some holder ∧ (holder.kind = .classField ∨
    holder.kind = .variableDeclarator ∧ ∀ a ∈ above.drop (place + 1), a.kind.isFunction = false)

/-- The first place of a chain that keeps values, if there is one. -/
structure HeldBy (above : List NodeRef) (found : Option NodeRef) : Prop where
  some_iff : ∀ holder, found = some holder ↔
    ∃ place, KeepsAt above place holder ∧ ∀ nearer < place, ∀ other, ¬KeepsAt above nearer other
  none_iff : found = none ↔ ∀ place holder, ¬KeepsAt above place holder

section

variable {t : SyntaxTree}

/-! ### Chains -/

theorem Climbs.eq_ancestors (linked : t.Linked) {node : NodeRef} {above : List NodeRef} (climbs : t.Climbs node above) :
    above = t.ancestors node := by
  induction climbs with
  | @program node top =>
    refine (ancestors_of_no_parent ?_).symm
    rw [parentOf?, parent_of_root linked top, Option.bind_none]
  | parent link _ ih => rw [ancestors_of_parent linked link, ← ih]

theorem Built.climbs (built : t.Built) {id : NodeId} {node : NodeRef} (there : t.ref? id = some node) :
    t.Climbs node (t.ancestors node) := by
  induction id using Nat.strongRecOn generalizing node with
  | _ id ih =>
    by_cases top : id = 0
    · subst top
      have climbs : t.Climbs node [] := .program there
      rwa [climbs.eq_ancestors built.linked] at climbs
    · obtain ⟨inside, -, link⟩ := of_ref? there
      obtain ⟨parent, named⟩ := built.exists_parent inside top
      have earlier := built.linked.parents_first id parent named
      cases found : t.ref? parent with
      | none => exact absurd ((t.ref?_eq_none_iff parent).mp found) (by omega)
      | some above =>
        have up : t.parentOf? node = some above := by
          rw [parentOf?, ← link, named, Option.bind_some, found]
        rw [ancestors_of_parent built.linked up]
        exact .parent up (ih parent earlier found)

/-! ### Scopes -/

theorem scope_ne_functionLocal_iff {node : NodeRef} :
    t.scope node ≠ .functionLocal ↔ ∀ a ∈ t.ancestors node, a.kind.isFunction = false := by
  rw [Ne, scope_eq_functionLocal_iff]
  simp

theorem scoped_scope (node : NodeRef) : Scoped (t.ancestors node) (t.scope node) where
  functionLocal_iff := scope_eq_functionLocal_iff
  member_iff := by
    rw [← scope_ne_functionLocal_iff]
    by_cases outside : t.scope node ≠ .functionLocal
    · rw [scope_eq_member_iff outside, and_iff_right outside]
      simp only [NodeKind.isBindingHolder_iff]
    · rw [not_not.mp outside]
      simp
  topLevel_iff := by
    by_cases outside : t.scope node ≠ .functionLocal
    · have bare : t.scope node = .topLevel ↔ ¬t.scope node = .member := by
        cases scope : t.scope node with
        | functionLocal => exact absurd scope outside
        | member => simp
        | topLevel => simp
      rw [bare, scope_eq_member_iff outside, forall₂_and, and_iff_right (scope_ne_functionLocal_iff.mp outside)]
      simp [NodeKind.isBindingHolder_iff]
    · rw [not_not] at outside
      obtain ⟨a, there, function⟩ := scope_eq_functionLocal_iff.mp outside
      rw [outside]
      refine iff_of_false Scope.noConfusion fun clean => ?_
      exact absurd function (ne_true_of_eq_false (clean a there).1)

theorem depth_scope_le (linked : t.Linked) {node parent : NodeRef} (link : t.parentOf? node = some parent) :
    (t.scope parent).depth ≤ (t.scope node).depth := by
  rw [scope, scope, ancestors_of_parent linked link]
  exact Scope.depth_ofAncestors_le parent _

/-! ### Holders -/

theorem retains_iff_keepsAt (linked : t.Linked) {node holder : NodeRef} {place : Nat}
    (found : (t.ancestors node)[place]? = some holder) :
    t.retains holder = true ↔ KeepsAt (t.ancestors node) place holder := by
  have free : t.scope holder ≠ .functionLocal ↔
      ∀ a ∈ (t.ancestors node).drop (place + 1), a.kind.isFunction = false := by
    rw [scope_ne_functionLocal_iff, ancestors_of_getElem? linked found]
  rw [KeepsAt, and_iff_right found, ← free]
  unfold retains
  cases holder.kind <;> simp

theorem heldBy_retainingHolder? (linked : t.Linked) (node : NodeRef) :
    HeldBy (t.ancestors node) (t.retainingHolder? node) := by
  constructor
  · intro holder
    rw [retainingHolder?, List.find?_eq_some_iff_getElem]
    constructor
    · rintro ⟨retains, place, inside, rfl, nearest⟩
      have found := List.getElem?_eq_getElem inside
      refine ⟨place, (retains_iff_keepsAt linked found).mp retains, ?_⟩
      intro nearer lower other keeps
      have retainsToo := (retains_iff_keepsAt linked keeps.1).mpr keeps
      obtain ⟨there, rfl⟩ := List.getElem?_eq_some_iff.mp keeps.1
      simpa [retainsToo] using nearest nearer lower
    · rintro ⟨place, keeps, nearest⟩
      obtain ⟨inside, same⟩ := List.getElem?_eq_some_iff.mp keeps.1
      refine ⟨(retains_iff_keepsAt linked keeps.1).mpr keeps, place, inside, same, ?_⟩
      intro nearer lower
      have found := List.getElem?_eq_getElem (Nat.lt_trans lower inside)
      rw [Bool.not_eq_true', ← Bool.not_eq_true, retains_iff_keepsAt linked found]
      exact nearest nearer lower _
  · rw [retainingHolder?, List.find?_eq_none]
    constructor
    · intro none place holder keeps
      exact none holder (List.mem_of_getElem? keeps.1) ((retains_iff_keepsAt linked keeps.1).mpr keeps)
    · intro none holder inside retains
      obtain ⟨place, found⟩ := List.getElem?_of_mem inside
      exact none place holder ((retains_iff_keepsAt linked found).mp retains)

theorem scope_of_retainingHolder? {node holder : NodeRef} (found : t.retainingHolder? node = some holder)
    (kind : holder.kind = .variableDeclarator) : t.scope holder ≠ .functionLocal := by
  have retains : t.retains holder = true := List.find?_some found
  rw [SyntaxTree.retains, kind] at retains
  exact of_decide_eq_true retains

end

/-- Scope and holder of a node agree on its chain of parents, which is never cut short. -/
theorem scope_and_holder_agree {t : SyntaxTree} (built : t.Built) {id : NodeId} {node : NodeRef}
    (there : t.ref? id = some node) :
    ∃ above, (∀ chain, t.Climbs node chain ↔ chain = above) ∧ Scoped above (t.scope node) ∧
      HeldBy above (t.retainingHolder? node) ∧
      (t.scope node ≠ .functionLocal →
        ((t.retainingHolder? node).isSome = true ↔ t.scope node = .member) ∧
          t.retainingHolder? node = above.find? (·.kind.isBindingHolder)) ∧
      (∀ holder, t.retainingHolder? node = some holder → holder.kind = .variableDeclarator →
        t.scope holder ≠ .functionLocal) ∧
      ∀ parent, t.parentOf? node = some parent → (t.scope parent).depth ≤ (t.scope node).depth := by
  have linked := built.linked
  refine ⟨t.ancestors node, ?_, scoped_scope node, heldBy_retainingHolder? linked node, ?_, ?_, ?_⟩
  · intro chain
    refine ⟨fun climbs => climbs.eq_ancestors linked, ?_⟩
    rintro rfl
    exact built.climbs there
  · intro outside
    exact ⟨isSome_retainingHolder?_iff linked outside, retainingHolder?_of_outside linked outside⟩
  · exact fun holder found kind => scope_of_retainingHolder? found kind
  · exact fun parent link => depth_scope_le linked link

/-- A variable holds a class whose field holds a function with a variable of its own. -/
def nestedTree : SyntaxTree :=
  let outer := (SyntaxTree.root ⟨0, 50, 1, 1⟩).push 0 .variableDeclarator "variable_declarator" none ⟨6, 50, 1, 7⟩
  let body := outer.push 1 .classDefinition "class" (some "value") ⟨10, 50, 1, 11⟩
  let field := body.push 2 .classField "public_field_definition" none ⟨18, 48, 1, 19⟩
  let function := field.push 3 .arrowFunction "arrow_function" (some "value") ⟨22, 48, 1, 23⟩
  let inner := function.push 4 .variableDeclarator "variable_declarator" none ⟨32, 46, 1, 33⟩
  inner.push 5 .newExpression "new_expression" (some "value") ⟨36, 46, 1, 37⟩

theorem built_nestedTree : nestedTree.Built :=
  .push _ _ _ _ _ (.push _ _ _ _ _ (.push _ _ _ _ _ (.push _ _ _ _ _ (.push _ _ _ _ _
    (.push _ _ _ _ _ (.root _) (by simp)) (by simp)) (by simp)) (by simp)) (by simp)) (by simp)

theorem scope_and_holder_agree_nestedTree :
    ∃ node field outer, nestedTree.ref? 6 = some node ∧ nestedTree.ref? 3 = some field ∧
      nestedTree.ref? 1 = some outer ∧
      nestedTree.scope node = .functionLocal ∧ nestedTree.retainingHolder? node = some field ∧
      nestedTree.scope field = .member ∧ nestedTree.retainingHolder? field = some outer ∧
      nestedTree.scope outer ≠ .functionLocal := by
  obtain ⟨node, there⟩ : ∃ node, nestedTree.ref? 6 = some node := ⟨_, rfl⟩
  obtain ⟨field, thereField⟩ : ∃ field, nestedTree.ref? 3 = some field := ⟨_, rfl⟩
  obtain ⟨outer, thereOuter⟩ : ∃ outer, nestedTree.ref? 1 = some outer := ⟨_, rfl⟩
  have holders : (nestedTree.ref? 6).bind nestedTree.retainingHolder? = nestedTree.ref? 3 ∧
      (nestedTree.ref? 3).bind nestedTree.retainingHolder? = nestedTree.ref? 1 := by decide +kernel
  have scopes : (nestedTree.ref? 6).map nestedTree.scope = some .functionLocal ∧
      (nestedTree.ref? 3).map nestedTree.scope = some .member := by decide +kernel
  have kind : (nestedTree.ref? 1).map (·.kind) = some .variableDeclarator := by decide +kernel
  rw [there, thereField, thereOuter] at holders
  rw [there, thereField] at scopes
  rw [thereOuter] at kind
  obtain ⟨-, -, -, -, -, outside, -⟩ := scope_and_holder_agree built_nestedTree thereField
  exact ⟨node, field, outer, there, thereField, thereOuter, Option.some.inj scopes.1, holders.1,
    Option.some.inj scopes.2, holders.2, outside outer holders.2 (Option.some.inj kind)⟩

end SyntaxTree

end ArchLint
