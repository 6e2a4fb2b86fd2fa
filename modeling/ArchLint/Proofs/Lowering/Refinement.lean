import ArchLint.Proofs.Lowering.Placement
import Mathlib.Data.List.Nodup

/-!
# Lowering refines the concrete tree

`Lowered` says what the arena of a concrete tree is: the shown nodes in pre-order under the program node, each with
its own mark, and parent and child links as in the concrete tree. The loop ends with such an arena.
-/

namespace ArchLint.TypeScript

/-! ### Texts -/

/-- `text` is the slice of the source between the mark's two bytes. -/
def Mark.Covers (mark : Mark) (source text : String) : Prop :=
  ∃ before after, source = before ++ text ++ after ∧ before.utf8ByteSize = mark.startByte ∧
    (before ++ text).utf8ByteSize = mark.endByte

theorem Mark.text?_of_covers {mark : Mark} {source text : String} (h : mark.Covers source text) :
    mark.text? source = some text := by
  obtain ⟨before, after, rfl, first, last⟩ := h
  have bounds : mark.startByte ≤ mark.endByte ∧ mark.endByte ≤ (before ++ text ++ after).utf8ByteSize := by
    rw [← first, ← last]
    simp only [String.utf8ByteSize_append]
    omega
  have slice : (before ++ text ++ after).toUTF8.extract mark.startByte mark.endByte = text.toByteArray := by
    have start : mark.startByte = before.toByteArray.size + 0 := first.symm
    have stop : mark.endByte = before.toByteArray.size + text.toByteArray.size := by
      rw [← last, String.utf8ByteSize_append]
      rfl
    rw [String.toUTF8_eq_toByteArray, String.toByteArray_append, String.toByteArray_append, ByteArray.append_assoc,
      start, stop, ByteArray.extract_append_size_add, ByteArray.extract_append_eq_left rfl]
  rw [text?, if_pos bounds, slice, String.fromUTF8?, dif_pos text.isValidUTF8]
  rfl

namespace Concrete

mutual

def marks : Concrete → List Mark
  | node mark children => mark :: marksAll children

def marksAll : List Concrete → List Mark
  | [] => []
  | tree :: rest => tree.marks ++ marksAll rest

end

/-- Every node of the tree covers whole characters of the source. -/
def Spans (tree : Concrete) (source : String) : Prop :=
  ∀ mark ∈ tree.marks, ∃ text, mark.Covers source text

theorem marks_subset_marksAll {tree : Concrete} {forest : List Concrete} (h : tree ∈ forest) :
    tree.marks ⊆ marksAll forest := by
  induction forest with
  | nil => cases h
  | cons first rest ih =>
    rw [marksAll]
    rcases List.mem_cons.mp h with rfl | later
    · exact List.subset_append_left _ _
    · exact List.Subset.trans (ih later) (List.subset_append_right _ _)

theorem mark_mem_marks {tree c : Concrete} {address : Address} (h : tree.at? address = some c) :
    c.mark ∈ tree.marks := by
  induction address generalizing tree with
  | nil =>
    obtain rfl := Option.some.inj h
    cases tree
    rw [marks]
    exact List.mem_cons_self
  | cons k rest ih =>
    obtain ⟨child, there, below⟩ := Option.bind_eq_some_iff.mp h
    cases tree
    rw [marks]
    exact List.mem_cons_of_mem _ (marks_subset_marksAll (List.mem_of_getElem? there) (ih below))

theorem idOf?_of_shown {tree : Concrete} {id : Nat} {address : Address} (h : tree.shown[id]? = some address) :
    tree.idOf? address = some id := by
  obtain ⟨inside, there⟩ := List.getElem?_eq_some_iff.mp h
  refine List.idxOf?_eq_some_iff.mpr ⟨inside, there, ?_⟩
  intro j before same
  have together := (List.Nodup.getElem_inj_iff tree.nodup_shown).mp (same.trans there.symm)
  omega

end Concrete

/-- The arena of a concrete tree: node 0 is the program, and node `id` is the concrete node that comes at place
`id` among those that are shown. -/
structure Lowered (source : String) (tree : Concrete) (t : SyntaxTree) : Prop where
  size_eq : t.size = tree.shown.length
  program : ∃ root, t.ref? 0 = some root ∧ root.kind = .program ∧ root.grammarKind = "program" ∧
    root.span = tree.mark.span ∧ root.field = none ∧ root.parent = none ∧ root.text = none
  marks : ∀ id address, id ≠ 0 → tree.shown[id]? = some address →
    ∃ c node, tree.at? address = some c ∧ t.ref? id = some node ∧ node.kind = lowerKind c.mark.kind ∧
      node.grammarKind = c.mark.kind ∧ node.field = c.mark.field ∧
      node.span = ⟨c.mark.startByte, c.mark.endByte, c.mark.row + 1, c.mark.column + 1⟩ ∧
      node.parent = tree.idOf? address.dropLast ∧
      (node.kind = .identifier → ∃ text, node.text = some text ∧ c.mark.Covers source text) ∧
      (node.kind ≠ .identifier → node.text = none)
  children : ∀ id address c node, tree.shown[id]? = some address → tree.at? address = some c → t.ref? id = some node →
    node.children.map some = (tree.shownChildren address c).map tree.idOf?

/-- The shown nodes below the root, as lowering numbers them. -/
def Concrete.placed (tree : Concrete) : List Placed :=
  placeAll 0 1 [] 0 tree.children

theorem shown_eq_placed (tree : Concrete) : tree.shown = [] :: tree.placed.map (·.address) := by
  have addresses := placeAll_addresses 0 1 [] 0 tree.children [] rfl
  rw [tree.shown_eq, Concrete.placed, addresses]
  simp

theorem shown_zero (tree : Concrete) : tree.shown[0]? = some [] := by
  rw [shown_eq_placed]
  rfl

theorem shown_placed {tree : Concrete} {p : Placed} (h : p ∈ tree.placed) : tree.shown[p.id]? = some p.address := by
  obtain ⟨i, inside, rfl⟩ := List.getElem_of_mem h
  have ids : tree.placed.map (·.id) = List.range' 1 tree.placed.length := placeAll_ids 0 1 [] 0 tree.children
  have number : tree.placed[i].id = i + 1 := by
    have both := congrArg (fun l : List Nat => l[i]?) ids
    simp only [List.getElem?_map, List.getElem?_eq_getElem inside, Option.map_some, List.getElem?_range' inside,
      Option.some.injEq] at both
    omega
  rw [number, shown_eq_placed, List.getElem?_cons_succ, List.getElem?_map, List.getElem?_eq_getElem inside]
  rfl

theorem shown_parent {tree : Concrete} {p : Placed} (h : p ∈ tree.placed) :
    tree.shown[p.parent]? = some p.address.dropLast := by
  rcases placeAll_parents 0 1 [] 0 tree.children p h with ⟨top, first⟩ | ⟨above, inside, id, address⟩
  · rw [top, first, shown_zero]
  · rw [← id, ← address]
    exact shown_placed inside

theorem placed_of_shown {tree : Concrete} {id : Nat} {address : Address} (below : id ≠ 0)
    (h : tree.shown[id]? = some address) : ∃ p ∈ tree.placed, p.id = id ∧ p.address = address := by
  obtain ⟨i, rfl⟩ := Nat.exists_eq_succ_of_ne_zero below
  have place := h
  rw [shown_eq_placed, List.getElem?_cons_succ, List.getElem?_map] at place
  obtain ⟨p, there, rfl⟩ := Option.map_eq_some_iff.mp place
  have inside := List.mem_of_getElem? there
  refine ⟨p, inside, ?_, rfl⟩
  exact Option.some.inj ((Concrete.idOf?_of_shown (shown_placed inside)).symm.trans (Concrete.idOf?_of_shown h))

theorem placed_ne_root {tree : Concrete} {p : Placed} (h : p ∈ tree.placed) : p.id ≠ 0 ∧ p.address ≠ [] := by
  have distinct := tree.nodup_shown
  rw [shown_eq_placed, List.nodup_cons] at distinct
  have below : p.address ≠ [] := by
    intro top
    exact distinct.1 (List.mem_map.mpr ⟨p, h, top⟩)
  refine ⟨?_, below⟩
  intro zero
  have place := shown_placed h
  rw [zero, shown_zero] at place
  exact below (Option.some.inj place).symm

/-! ### The arena -/

theorem rows_lower (source : String) (tree : Concrete) :
    (lower source tree).rows =
      ⟨.program, "program", none, tree.mark.span, none, [], none⟩ :: tree.placed.map (Placed.row source) := by
  rw [lower_eq_lowerAll, rows_lowerAll source 0 [] 0, SyntaxTree.rows_root, SyntaxTree.size_root]
  rfl

theorem linked_lower (source : String) (tree : Concrete) : (lower source tree).Linked := by
  rw [lower_eq_lowerAll]
  exact (linked_lowerAll source 0 tree.children _ (.root _) (by simp)).1

theorem size_lower (source : String) (tree : Concrete) : (lower source tree).size = tree.shown.length := by
  rw [← SyntaxTree.length_rows, rows_lower, shown_eq_placed, List.length_cons, List.length_cons, List.length_map,
    List.length_map]

theorem rows_placed (source : String) {tree : Concrete} {p : Placed} (h : p ∈ tree.placed) :
    (lower source tree).rows[p.id]? = some (p.row source) := by
  obtain ⟨i, number⟩ := Nat.exists_eq_succ_of_ne_zero (placed_ne_root h).1
  have place := shown_placed h
  obtain ⟨q, there, address⟩ : ∃ q, tree.placed[i]? = some q ∧ q.address = p.address := by
    rw [number, shown_eq_placed, List.getElem?_cons_succ, List.getElem?_map] at place
    exact Option.map_eq_some_iff.mp place
  have inside := List.mem_of_getElem? there
  -- The addresses of placed nodes differ, so both are the same node of the list.
  have distinct : (tree.placed.map (·.address)).Nodup := by
    have all := tree.nodup_shown
    rw [shown_eq_placed] at all
    exact (List.nodup_cons.mp all).2
  have same : q = p := List.inj_on_of_nodup_map distinct inside h address
  rw [number, rows_lower, List.getElem?_cons_succ, List.getElem?_map, there, same]
  rfl

theorem ref?_placed (source : String) {tree : Concrete} {p : Placed} (h : p ∈ tree.placed) :
    ∃ node, (lower source tree).ref? p.id = some node ∧ node.toNode.row = p.row source ∧ node.id = p.id := by
  have place := rows_placed source h
  rw [SyntaxTree.rows_getElem?] at place
  obtain ⟨node, there, row⟩ := Option.map_eq_some_iff.mp place
  exact ⟨⟨node, p.id⟩, by rw [SyntaxTree.ref?, there]; rfl, row, rfl⟩

theorem parentId?_lower (source : String) {tree : Concrete} {id : Nat} {address : Address}
    (h : tree.shown[id]? = some address) {j : Nat} {below : Address} (place : tree.shown[j]? = some below) :
    (lower source tree).parentId? j = some id ↔ Concrete.isBelow address below = true := by
  rw [SyntaxTree.parentId?_eq_rows]
  by_cases root : j = 0
  · subst root
    rw [shown_zero] at place
    obtain rfl := Option.some.inj place
    simp [rows_lower, Concrete.isBelow]
  · obtain ⟨p, inside, rfl, rfl⟩ := placed_of_shown root place
    have above := shown_parent inside
    have below_root := (placed_ne_root inside).2
    rw [rows_placed source inside]
    simp only [Option.bind_some, Placed.row, Concrete.isBelow, Option.some.injEq, below_root, ne_eq, not_false_eq_true,
      true_and, decide_eq_true_eq]
    constructor
    · intro same
      rw [same, h] at above
      exact (Option.some.inj above).symm
    · intro same
      rw [same] at above
      exact Option.some.inj ((Concrete.idOf?_of_shown above).symm.trans (Concrete.idOf?_of_shown h))

theorem map_filter_places {α : Type} (g : α → Option Nat) (q : α → Bool) (f : Nat → Bool) (l : List α) (s : Nat)
    (h : ∀ i (inside : i < l.length), g l[i] = some (s + i) ∧ f (s + i) = q l[i]) :
    ((List.range' s l.length).filter f).map some = (l.filter q).map g := by
  induction l generalizing s with
  | nil => rfl
  | cons a l ih =>
    obtain ⟨place, kept⟩ := h 0 (by simp)
    have rest := ih (s + 1) fun i inside => by
      have next := h (i + 1) (by simpa using inside)
      rw [show s + (i + 1) = s + 1 + i by omega] at next
      exact next
    rw [List.length_cons, List.range'_succ]
    simp only [Nat.add_zero, List.getElem_cons_zero] at place kept
    cases keep : q a with
    | true =>
      rw [List.filter_cons_of_pos (by rw [kept, keep]), List.filter_cons_of_pos keep, List.map_cons, List.map_cons,
        rest, place]
    | false =>
      rw [List.filter_cons_of_neg (by rw [kept, keep]; simp), List.filter_cons_of_neg (by rw [keep]; simp), rest]

theorem children_lower (source : String) {tree c : Concrete} {id : Nat} {address : Address} {node : NodeRef}
    (h : tree.shown[id]? = some address) (found : tree.at? address = some c)
    (there : (lower source tree).ref? id = some node) :
    node.children.map some = (tree.shownChildren address c).map tree.idOf? := by
  obtain ⟨inner, stored, rfl⟩ := Option.map_eq_some_iff.mp there
  have links := (linked_lower source tree).children_eq id inner stored
  rw [← Concrete.shown_filter_below found]
  refine Eq.trans (congrArg (List.map some) links) ?_
  rw [size_lower, List.range_eq_range']
  apply map_filter_places
  intro j inside
  have place := List.getElem?_eq_getElem inside
  refine ⟨by rw [Nat.zero_add]; exact Concrete.idOf?_of_shown place, ?_⟩
  rw [Nat.zero_add, Bool.eq_iff_iff, decide_eq_true_eq]
  exact parentId?_lower source h place

theorem lowered_lower {source : String} {tree : Concrete} (spans : tree.Spans source) :
    Lowered source tree (lower source tree) where
  size_eq := size_lower source tree
  program := by
    have first : (lower source tree).rows[0]? = some ⟨.program, "program", none, tree.mark.span, none, [], none⟩ := by
      rw [rows_lower]
      rfl
    rw [SyntaxTree.rows_getElem?] at first
    obtain ⟨node, there, row⟩ := Option.map_eq_some_iff.mp first
    simp only [Node.row, Node.mk.injEq] at row
    obtain ⟨kind, grammarKind, field, span, parent, -, text⟩ := row
    exact ⟨⟨node, 0⟩, by rw [SyntaxTree.ref?, there]; rfl, kind, grammarKind, span, field, parent, text⟩
  marks := by
    intro id address below place
    obtain ⟨p, inside, rfl, rfl⟩ := placed_of_shown below place
    have top : tree.at? [] = some tree := rfl
    obtain ⟨c, found, mark⟩ := placeAll_marks 0 1 [] 0 tree.children top [] rfl rfl p inside
    obtain ⟨node, there, row, -⟩ := ref?_placed source inside
    simp only [Node.row, Placed.row, Node.mk.injEq, ← mark] at row
    obtain ⟨kind, grammarKind, field, span, parent, -, text⟩ := row
    refine ⟨c, node, found, there, kind, grammarKind, field, span, ?_, ?_, ?_⟩
    · rw [parent, Concrete.idOf?_of_shown (shown_parent inside)]
    · intro named
      obtain ⟨slice, covers⟩ := spans c.mark (Concrete.mark_mem_marks found)
      refine ⟨slice, ?_, covers⟩
      rw [text, Mark.keptText, if_pos (kind.symm.trans named), Mark.text?_of_covers covers]
    · intro unnamed
      rw [text, Mark.keptText, if_neg (fun same => unnamed (kind.trans same))]
  children := fun _ _ _ _ place found there => children_lower source place found there

/-- The loop ends, and it leaves the shown nodes of the concrete tree in pre-order, each once, linked as they are
there. Where tokens are leaves, these are all named nodes. -/
theorem lower_refines (source : String) (tree : Concrete) (spans : tree.Spans source) :
    (∀ child, (Cursor.ofRoot tree).firstChild? = some child →
      Lowering.Ends source ⟨.root tree.mark.span, [0], child⟩ (lower source tree)) ∧
    Lowered source tree (lower source tree) ∧
    tree.shown[0]? = some [] ∧ tree.shown.Nodup ∧
    ((∀ address c, address ≠ [] → tree.at? address = some c → c.mark.named = false → c.children = []) →
      ∀ address c, address ≠ [] → tree.at? address = some c →
        tree.shown.count address = if c.mark.named then 1 else 0) := by
  refine ⟨?_, lowered_lower spans, shown_zero tree, tree.nodup_shown, ?_⟩
  · intro child first
    have loop : lower source tree = Lowering.run source ⟨.root tree.mark.span, [0], child⟩ := by
      simp only [lower, first]
    rw [loop]
    exact Lowering.run_ends source _
  · intro leaves address c below found
    have named := Concrete.shows_iff_named leaves below found
    rw [tree.nodup_shown.count]
    have inside : address ∈ tree.shown ↔ c.mark.named = true := by
      rw [Concrete.mem_shown, found, named]
      simp
    simp only [inside]

def callTree : Concrete :=
  .node ⟨"program", true, none, 0, 5, 0, 0⟩
    [.node ⟨"expression_statement", true, none, 0, 5, 0, 0⟩
      [.node ⟨"call_expression", true, none, 0, 5, 0, 0⟩
        [.node ⟨"identifier", true, some "function", 0, 2, 0, 0⟩ [],
          .node ⟨"arguments", true, some "arguments", 2, 5, 0, 2⟩
            [.node ⟨"(", false, none, 2, 3, 0, 2⟩ [], .node ⟨"identifier", true, none, 3, 4, 0, 3⟩ [],
              .node ⟨")", false, none, 4, 5, 0, 4⟩ []]]]]

theorem lower_refines_call : callTree.Spans "é(x)" ∧ Lowered "é(x)" callTree (lower "é(x)" callTree) := by
  have spans : callTree.Spans "é(x)" := by
    intro mark inside
    simp only [callTree, Concrete.marks, Concrete.marksAll, List.cons_append, List.nil_append, List.append_nil,
      List.mem_cons, List.not_mem_nil, or_false] at inside
    rcases inside with rfl | rfl | rfl | rfl | rfl | rfl | rfl | rfl
    · exact ⟨"é(x)", "", "", rfl, rfl, rfl⟩
    · exact ⟨"é(x)", "", "", rfl, rfl, rfl⟩
    · exact ⟨"é(x)", "", "", rfl, rfl, rfl⟩
    · exact ⟨"é", "", "(x)", rfl, rfl, rfl⟩
    · exact ⟨"(x)", "é", "", rfl, rfl, rfl⟩
    · exact ⟨"(", "é", "x)", rfl, rfl, rfl⟩
    · exact ⟨"x", "é(", ")", rfl, rfl, rfl⟩
    · exact ⟨")", "é(x", "", rfl, rfl, rfl⟩
  exact ⟨spans, (lower_refines "é(x)" callTree spans).2.1⟩

end ArchLint.TypeScript
