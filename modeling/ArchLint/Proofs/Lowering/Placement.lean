import ArchLint.Proofs.Arena
import ArchLint.Proofs.Lowering.Address
import ArchLint.Proofs.Lowering.Recursion

/-!
# Where lowering puts each node

`placeAll` numbers the shown nodes of a forest as the recursion meets them. The recursion appends their rows to
the arena (`rows_lowerAll`), and the numbering follows the addresses (`placeAll_addresses`, `placeAll_parents`).
-/

namespace ArchLint.TypeScript

/-- A shown node with its id in the arena and its parent's. -/
structure Placed where
  id : Nat
  parent : Nat
  address : Address
  mark : Mark

mutual

def placeNode (parent id : Nat) (address : Address) : Concrete → List Placed
  | .node mark children =>
    if mark.named then ⟨id, parent, address, mark⟩ :: placeAll id (id + 1) address 0 children else []

/-- The shown nodes of a forest whose first tree is child number `k` of the node at an address. -/
def placeAll (parent id : Nat) (address : Address) (k : Nat) : List Concrete → List Placed
  | [] => []
  | tree :: rest =>
    let here := placeNode parent id (address ++ [k]) tree
    here ++ placeAll parent (id + here.length) address (k + 1) rest

end

theorem placeNode_named {tree : Concrete} (h : tree.mark.named = true) (parent id : Nat) (address : Address) :
    placeNode parent id address tree =
      ⟨id, parent, address, tree.mark⟩ :: placeAll id (id + 1) address 0 tree.children := by
  cases tree
  rw [placeNode, if_pos (by exact h)]
  rfl

theorem placeNode_token {tree : Concrete} (h : tree.mark.named = false) (parent id : Nat) (address : Address) :
    placeNode parent id address tree = [] := by
  cases tree
  rw [placeNode, if_neg (by simpa [Concrete.mark] using h)]

/-! ### Rows of the arena -/

/-- The text that lowering keeps of a node. -/
def Mark.keptText (mark : Mark) (source : String) : Option String :=
  if lowerKind mark.kind = .identifier then mark.text? source else none

def Placed.row (source : String) (p : Placed) : Node :=
  ⟨lowerKind p.mark.kind, p.mark.kind, p.mark.field, p.mark.span, some p.parent, [], p.mark.keptText source⟩

theorem modify_last {α : Type} (f : α → α) (l : List α) (a : α) : (l ++ [a]).modify l.length f = l ++ [f a] := by
  rw [List.modify_eq_take_cons_drop (by simp)]
  simp

theorem rows_lowerMark (source : String) (parent : Nat) (address : Address) (mark : Mark) (t : SyntaxTree) :
    (lowerMark source parent mark t).rows = t.rows ++ [Placed.row source ⟨t.size, parent, address, mark⟩] := by
  unfold lowerMark
  dsimp only
  split
  · rename_i text kind some_text
    rw [SyntaxTree.rows_setText, SyntaxTree.rows_push, ← SyntaxTree.length_rows, modify_last]
    simp only [Placed.row, Mark.keptText, kind, some_text, if_true]
  · rename_i other
    have no_text : mark.keptText source = none := by
      unfold Mark.keptText
      split
      · rename_i kind
        cases found : mark.text? source with
        | none => rfl
        | some text => exact (other text kind found).elim
      · rfl
    rw [SyntaxTree.rows_push]
    simp only [Placed.row, no_text]

theorem size_lowerMark (source : String) (parent : Nat) (mark : Mark) (t : SyntaxTree) :
    (lowerMark source parent mark t).size = t.size + 1 := by
  rw [← SyntaxTree.length_rows, rows_lowerMark source parent [] mark t, List.length_append, SyntaxTree.length_rows]
  rfl

mutual

theorem rows_lowerNode (source : String) (parent : Nat) (address : Address) : (tree : Concrete) → (t : SyntaxTree) →
    (lowerNode source parent tree t).rows = t.rows ++ (placeNode parent t.size address tree).map (Placed.row source)
  | .node mark children, t => by
    by_cases named : mark.named = true
    · rw [lowerNode, if_pos named, placeNode, if_pos named, rows_lowerAll source t.size address 0 children,
        size_lowerMark, rows_lowerMark source parent address, List.append_assoc, List.map_cons]
      rfl
    · rw [lowerNode, if_neg named, placeNode, if_neg named, List.map_nil, List.append_nil]

theorem rows_lowerAll (source : String) (parent : Nat) (address : Address) (k : Nat) : (forest : List Concrete) →
    (t : SyntaxTree) → (lowerAll source parent forest t).rows =
      t.rows ++ (placeAll parent t.size address k forest).map (Placed.row source)
  | [], t => by rw [lowerAll, placeAll, List.map_nil, List.append_nil]
  | tree :: rest, t => by
    have first := rows_lowerNode source parent (address ++ [k]) tree t
    have size : (lowerNode source parent tree t).size =
        t.size + (placeNode parent t.size (address ++ [k]) tree).length := by
      rw [← SyntaxTree.length_rows, first, List.length_append, List.length_map, SyntaxTree.length_rows]
    rw [lowerAll, placeAll, rows_lowerAll source parent address (k + 1) rest, first, size, List.append_assoc,
      List.map_append]

end

/-! ### Links of the arena -/

theorem linked_lowerMark (source : String) {parent : Nat} (mark : Mark) {t : SyntaxTree} (h : t.Linked)
    (there : parent < t.size) : (lowerMark source parent mark t).Linked := by
  unfold lowerMark
  dsimp only
  split
  · exact (h.push there ..).setText ..
  · exact h.push there ..

mutual

theorem linked_lowerNode (source : String) (parent : Nat) : (tree : Concrete) → (t : SyntaxTree) → t.Linked →
    parent < t.size → (lowerNode source parent tree t).Linked ∧ t.size ≤ (lowerNode source parent tree t).size
  | .node mark children, t, h, there => by
    have grown := size_lowerMark source parent mark t
    rw [lowerNode]
    split
    · have marked := linked_lowerMark source mark h there
      obtain ⟨linked, bound⟩ := linked_lowerAll source t.size children _ marked (by omega)
      exact ⟨linked, by omega⟩
    · exact ⟨h, Nat.le_refl _⟩

theorem linked_lowerAll (source : String) (parent : Nat) : (forest : List Concrete) → (t : SyntaxTree) → t.Linked →
    parent < t.size → (lowerAll source parent forest t).Linked ∧ t.size ≤ (lowerAll source parent forest t).size
  | [], t, h, _ => by
    rw [lowerAll]
    exact ⟨h, Nat.le_refl _⟩
  | tree :: rest, t, h, there => by
    obtain ⟨linked, bound⟩ := linked_lowerNode source parent tree t h there
    obtain ⟨linked', bound'⟩ := linked_lowerAll source parent rest _ linked (by omega)
    rw [lowerAll]
    exact ⟨linked', by omega⟩

end

/-! ### Ids, addresses, marks and parents -/

mutual

theorem placeNode_ids (parent id : Nat) (address : Address) : (tree : Concrete) →
    (placeNode parent id address tree).map (·.id) = List.range' id (placeNode parent id address tree).length
  | .node mark children => by
    rw [placeNode]
    split
    · rw [List.map_cons, placeAll_ids id (id + 1) address 0 children, List.length_cons, List.range'_succ]
    · rfl

theorem placeAll_ids (parent id : Nat) (address : Address) (k : Nat) : (forest : List Concrete) →
    (placeAll parent id address k forest).map (·.id) = List.range' id (placeAll parent id address k forest).length
  | [] => rfl
  | tree :: rest => by
    rw [placeAll, List.map_append, placeNode_ids parent id (address ++ [k]) tree,
      placeAll_ids parent _ address (k + 1) rest, List.length_append, ← List.range'_append_1]

end

mutual

theorem placeNode_addresses (parent id : Nat) (address : Address) : (tree : Concrete) → tree.mark.named = true →
    (placeNode parent id address tree).map (·.address) = tree.shown.map (address ++ ·)
  | .node mark children, named => by
    have below := placeAll_addresses id (id + 1) address 0 children [] rfl
    rw [placeNode_named named, List.map_cons, Concrete.shown_eq, List.map_cons, List.append_nil]
    exact congrArg (List.cons address) below

theorem placeAll_addresses (parent id : Nat) (address : Address) (k : Nat) : (forest before : List Concrete) →
    before.length = k → (placeAll parent id address k forest).map (·.address) =
      ((Concrete.preorderAll k forest).filter (Concrete.showsAll (before ++ forest))).map (address ++ ·)
  | [], _, _ => rfl
  | tree :: rest, before, length => by
    have later := placeAll_addresses parent (id + (placeNode parent id (address ++ [k]) tree).length) address (k + 1)
      rest (before ++ [tree]) (by rw [List.length_append, length]; rfl)
    rw [List.append_assoc, List.singleton_append] at later
    have here : Concrete.showsAll (before ++ tree :: rest) ∘ (k :: ·) =
        fun way => tree.mark.named && tree.shows way := by
      funext way
      rw [Function.comp_apply, Concrete.showsAll, List.getElem?_append_right (by omega), length, Nat.sub_self]
      rfl
    rw [placeAll, List.map_append, later, Concrete.preorderAll, List.filter_append, List.filter_map, here,
      List.map_append]
    congr 1
    cases named : tree.mark.named with
    | true =>
      rw [placeNode_addresses parent id (address ++ [k]) tree named, List.map_map]
      simp only [Bool.true_and, Concrete.shown]
      congr 1
      funext way
      rw [Function.comp_apply, List.append_assoc]
      rfl
    | false => simp [placeNode_token named]

end

mutual

theorem placeNode_marks (parent id : Nat) (address : Address) {tree : Concrete} : (below : Concrete) →
    tree.at? address = some below → ∀ p ∈ placeNode parent id address below,
      ∃ c, tree.at? p.address = some c ∧ c.mark = p.mark
  | .node mark children, found, p, inside => by
    rw [placeNode] at inside
    split at inside
    · rcases List.mem_cons.mp inside with rfl | deeper
      · exact ⟨.node mark children, found, rfl⟩
      · exact placeAll_marks id (id + 1) address 0 children found [] rfl rfl p deeper
    · cases inside

theorem placeAll_marks (parent id : Nat) (address : Address) (k : Nat) {tree above : Concrete} :
    (forest : List Concrete) → tree.at? address = some above → (before : List Concrete) →
    above.children = before ++ forest → before.length = k → ∀ p ∈ placeAll parent id address k forest,
      ∃ c, tree.at? p.address = some c ∧ c.mark = p.mark
  | [], _, _, _, _, _, inside => by cases inside
  | child :: rest, found, before, children, length, p, inside => by
    have there : tree.at? (address ++ [k]) = some child := by
      rw [Concrete.at?_append, found, Option.bind_some, Concrete.at?_cons, children,
        List.getElem?_append_right (by omega), length, Nat.sub_self]
      rfl
    rw [placeAll] at inside
    rcases List.mem_append.mp inside with here | later
    · exact placeNode_marks parent id (address ++ [k]) child there p here
    · refine placeAll_marks parent _ address (k + 1) rest found (before ++ [child]) ?_ ?_ p later
      · rw [children, List.append_assoc]
        rfl
      · rw [List.length_append, length]
        rfl

end

/-- A placed node hangs below the node that the whole list hangs below, or else below one of the list. -/
def Hangs (parent : Nat) (address : Address) (all : List Placed) (p : Placed) : Prop :=
  (p.parent = parent ∧ p.address.dropLast = address) ∨
    ∃ above ∈ all, above.id = p.parent ∧ above.address = p.address.dropLast

theorem Hangs.mono {parent : Nat} {address : Address} {part all : List Placed} {p : Placed} (sub : part ⊆ all)
    (h : Hangs parent address part p) : Hangs parent address all p := by
  rcases h with top | ⟨above, inside, same⟩
  · exact Or.inl top
  · exact Or.inr ⟨above, sub inside, same⟩

mutual

theorem placeNode_parents (parent id : Nat) (address : Address) (k : Nat) : (tree : Concrete) →
    ∀ p ∈ placeNode parent id (address ++ [k]) tree,
      Hangs parent address (placeNode parent id (address ++ [k]) tree) p
  | .node mark children, p, inside => by
    rw [placeNode] at inside ⊢
    split
    · rename_i named
      rw [if_pos named] at inside
      rcases List.mem_cons.mp inside with rfl | deeper
      · exact Or.inl ⟨rfl, List.dropLast_concat⟩
      · rcases placeAll_parents id (id + 1) (address ++ [k]) 0 children p deeper with ⟨own, top⟩ | below
        · exact Or.inr ⟨_, List.mem_cons_self, own.symm, top.symm⟩
        · exact Hangs.mono (List.subset_cons_self _ _) (Or.inr below)
    · rename_i token
      rw [if_neg token] at inside
      cases inside

theorem placeAll_parents (parent id : Nat) (address : Address) (k : Nat) : (forest : List Concrete) →
    ∀ p ∈ placeAll parent id address k forest, Hangs parent address (placeAll parent id address k forest) p
  | [], _, inside => by cases inside
  | tree :: rest, p, inside => by
    rw [placeAll] at inside ⊢
    rcases List.mem_append.mp inside with here | later
    · exact (placeNode_parents parent id address k tree p here).mono (List.subset_append_left _ _)
    · exact (placeAll_parents parent _ address (k + 1) rest p later).mono (List.subset_append_right _ _)

end

end ArchLint.TypeScript
