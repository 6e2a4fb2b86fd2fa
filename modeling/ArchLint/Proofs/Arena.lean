import ArchLint.Syntax.Tree

/-!
# Arenas that are built by pushing

`rows` are the nodes of an arena without their child links: a push only appends to them. `Linked` ties the child
links to the parent links, and every push below a node that is there keeps it.
-/

namespace ArchLint

/-- A node without its child links. -/
def Node.row (node : Node) : Node :=
  { node with children := [] }

namespace SyntaxTree

/-- The nodes without their child links, in the order of their ids. -/
def rows (t : SyntaxTree) : List Node :=
  t.nodes.toList.map Node.row

/-- The parent that a node names. -/
def parentId? (t : SyntaxTree) (id : Nat) : Option Nat :=
  t.nodes[id]?.bind (·.parent)

/-- Parents come before their children, and each node lists the nodes that name it as their parent. -/
structure Linked (t : SyntaxTree) : Prop where
  parents_first : ∀ id parent : Nat, t.parentId? id = some parent → parent < id
  children_eq : ∀ (id : Nat) (node : Node), t.nodes[id]? = some node →
    node.children = (List.range t.size).filter fun child => t.parentId? child = some id

/-! ### Rows -/

theorem length_rows (t : SyntaxTree) : t.rows.length = t.size := by
  simp [rows, size]

theorem rows_getElem? (t : SyntaxTree) (id : Nat) : t.rows[id]? = t.nodes[id]?.map Node.row := by
  simp [rows]

theorem parentId?_eq_rows (t : SyntaxTree) (id : Nat) : t.parentId? id = t.rows[id]?.bind (·.parent) := by
  rw [rows_getElem?, parentId?]
  cases t.nodes[id]? <;> rfl

theorem rows_root (span : Span) : (root span).rows = [⟨.program, "program", none, span, none, [], none⟩] := rfl

theorem nodes_push_of_lt (t : SyntaxTree) (parent : Nat) (kind : NodeKind) (grammarKind : String)
    (field : Option String) (span : Span) {id : Nat} (h : id < t.size) :
    (t.push parent kind grammarKind field span).nodes[id]? =
      t.nodes[id]?.map fun node =>
        if parent = id then { node with children := node.children ++ [t.size] } else node := by
  have inside : id < (t.nodes.modify parent fun node => { node with children := node.children ++ [t.size] }).size := by
    rw [Array.size_modify]
    exact h
  rw [push, Array.getElem?_push_lt inside, Array.getElem_modify, Array.getElem?_eq_getElem h, Option.map_some]
  rfl

theorem nodes_push_size (t : SyntaxTree) (parent : Nat) (kind : NodeKind) (grammarKind : String)
    (field : Option String) (span : Span) :
    (t.push parent kind grammarKind field span).nodes[t.size]? =
      some ⟨kind, grammarKind, field, span, some parent, [], none⟩ := by
  have size : (t.nodes.modify parent fun node => { node with children := node.children ++ [t.size] }).size = t.size :=
    Array.size_modify
  rw [← size]
  exact Array.getElem?_push_size

theorem rows_push (t : SyntaxTree) (parent : Nat) (kind : NodeKind) (grammarKind : String) (field : Option String)
    (span : Span) :
    (t.push parent kind grammarKind field span).rows =
      t.rows ++ [⟨kind, grammarKind, field, span, some parent, [], none⟩] := by
  apply List.ext_getElem?
  intro id
  rw [rows_getElem?, List.getElem?_append, length_rows]
  by_cases old : id < t.size
  · rw [nodes_push_of_lt t _ _ _ _ _ old, if_pos old, rows_getElem?]
    cases t.nodes[id]? with
    | none => rfl
    | some node =>
      simp only [Option.map_some, Option.some.injEq]
      split <;> rfl
  · rw [if_neg old]
    by_cases new : id = t.size
    · rw [new, nodes_push_size, Nat.sub_self]
      rfl
    · have outside : (t.push parent kind grammarKind field span).nodes.size ≤ id := by
        have := size_push t parent kind grammarKind field span
        simp only [size] at this old new ⊢
        omega
      rw [Array.getElem?_eq_none outside]
      have far : id - t.size ≠ 0 := by omega
      obtain ⟨n, hn⟩ := Nat.exists_eq_succ_of_ne_zero far
      rw [hn]
      rfl

theorem rows_setText (t : SyntaxTree) (id : Nat) (text : String) :
    (t.setText id text).rows = t.rows.modify id fun node => { node with text := some text } := by
  apply List.ext_getElem?
  intro j
  rw [rows_getElem?, setText, List.getElem?_modify, rows_getElem?, Array.getElem?_modify]
  by_cases same : id = j
  · rw [if_pos same, same]
    cases t.nodes[j]? with
    | none => rfl
    | some node => simp [Node.row]
  · rw [if_neg same]
    cases t.nodes[j]? with
    | none => rfl
    | some node => simp [same]

/-! ### Links -/

theorem parentId?_push (t : SyntaxTree) (parent : Nat) (kind : NodeKind) (grammarKind : String)
    (field : Option String) (span : Span) (id : Nat) :
    (t.push parent kind grammarKind field span).parentId? id =
      if id = t.size then some parent else t.parentId? id := by
  rw [parentId?_eq_rows, parentId?_eq_rows, rows_push]
  by_cases new : id = t.size
  · rw [if_pos new, new, List.getElem?_append_right (Nat.le_of_eq t.length_rows), length_rows, Nat.sub_self]
    rfl
  · rw [if_neg new, List.getElem?_append, length_rows]
    split
    · rfl
    · rename_i old
      have outside : t.rows[id]? = none := List.getElem?_eq_none (by rw [length_rows]; omega)
      rw [outside, List.getElem?_eq_none (by simp only [List.length_singleton]; omega)]

theorem Linked.root (span : Span) : Linked (.root span) where
  parents_first := by
    intro id parent h
    cases id with
    | zero => cases h
    | succ id => cases h
  children_eq := by
    intro id node h
    cases id with
    | zero =>
      obtain rfl := Option.some.inj h
      rfl
    | succ id => cases h

theorem Linked.push {t : SyntaxTree} (h : t.Linked) {parent : Nat} (there : parent < t.size) (kind : NodeKind)
    (grammarKind : String) (field : Option String) (span : Span) :
    (t.push parent kind grammarKind field span).Linked where
  parents_first := by
    intro id above named
    rw [parentId?_push] at named
    split at named
    · obtain rfl := Option.some.inj named
      omega
    · exact h.parents_first id above named
  children_eq := by
    intro id node found
    have old_links : (List.range t.size).filter (fun child =>
          decide ((t.push parent kind grammarKind field span).parentId? child = some id)) =
        (List.range t.size).filter fun child => decide (t.parentId? child = some id) := by
      apply List.filter_congr
      intro child inside
      rw [parentId?_push, if_neg (Nat.ne_of_lt (List.mem_range.mp inside))]
    rw [size_push, List.range_succ, List.filter_append, old_links]
    by_cases old : id < t.size
    · rw [nodes_push_of_lt t _ _ _ _ _ old, Array.getElem?_eq_getElem old, Option.map_some, Option.some.injEq] at found
      have before := h.children_eq id _ (Array.getElem?_eq_getElem old)
      by_cases same : parent = id
      · rw [if_pos same] at found
        subst found
        simp [before, parentId?_push, same]
      · rw [if_neg same] at found
        subst found
        simp [before, parentId?_push, same]
    · -- Only the new node is left, and no node names it: parents come before their children.
      have new : id = t.size := by
        have bound := (Array.getElem?_eq_some_iff.mp found).1
        have grown := size_push t parent kind grammarKind field span
        simp only [size] at bound grown old ⊢
        omega
      subst new
      rw [nodes_push_size] at found
      obtain rfl := Option.some.inj found
      have none_old : (List.range t.size).filter (fun child => decide (t.parentId? child = some t.size)) = [] := by
        apply List.filter_eq_nil_iff.mpr
        intro child inside named
        have first := h.parents_first child t.size (of_decide_eq_true named)
        have bound := List.mem_range.mp inside
        omega
      have other : parent ≠ t.size := Nat.ne_of_lt there
      simp [none_old, parentId?_push, other]

theorem parentId?_setText (t : SyntaxTree) (id : Nat) (text : String) (j : Nat) :
    (t.setText id text).parentId? j = t.parentId? j := by
  rw [parentId?, setText, Array.getElem?_modify, parentId?]
  split
  · cases t.nodes[j]? <;> rfl
  · rfl

theorem Linked.setText {t : SyntaxTree} (h : t.Linked) (id : Nat) (text : String) : (t.setText id text).Linked := by
  constructor
  · intro j parent named
    rw [parentId?_setText] at named
    exact h.parents_first j parent named
  · intro j node found
    simp only [parentId?_setText, size_setText]
    rw [SyntaxTree.setText, Array.getElem?_modify] at found
    split at found
    · obtain ⟨before, there, rfl⟩ := Option.map_eq_some_iff.mp found
      exact h.children_eq j before there
    · exact h.children_eq j node found

/-! ### Built arenas -/

/-- Trees that grow from their root. A push names a node that is there. -/
inductive Built : SyntaxTree → Prop
  | root (span : Span) : Built (.root span)
  | push {t : SyntaxTree} (parent : NodeId) (kind : NodeKind) (grammarKind : String) (field : Option String)
    (span : Span) : Built t → parent < t.size → Built (t.push parent kind grammarKind field span)
  | setText {t : SyntaxTree} (id : NodeId) (text : String) : Built t → Built (t.setText id text)

theorem Built.linked {t : SyntaxTree} (built : t.Built) : t.Linked := by
  induction built with
  | root span => exact .root span
  | push parent kind grammarKind field span _ there ih => exact ih.push there ..
  | setText id text _ ih => exact ih.setText ..

theorem Built.exists_parent {t : SyntaxTree} (built : t.Built) {id : Nat} (inside : id < t.size) (further : id ≠ 0) :
    ∃ parent, t.parentId? id = some parent := by
  induction built with
  | root span =>
    rw [size_root] at inside
    omega
  | push parent kind grammarKind field span _ there ih =>
    rw [parentId?_push]
    split
    · exact ⟨parent, rfl⟩
    · rw [size_push] at inside
      exact ih (by omega)
  | setText id text _ ih =>
    rw [parentId?_setText]
    exact ih (size_setText .. ▸ inside)

end SyntaxTree

end ArchLint
