import ArchLint.Proofs.Syntax.DepthFirst
import ArchLint.Proofs.Syntax.Scopes

/-!
# Trees under edits

Nodes may be pushed and texts set in any order. Each push gives out the next id, links go both ways, and a text changes
nothing but its node's. A walk up the parents is counted, so that it ends on every arena; in a tree that was made by edits
it ends at the root before the count does.
-/

namespace ArchLint

/-- A change to a growing tree. -/
inductive Edit where
  | push (node : Push)
  | setText (id : NodeId) (text : String)

namespace Edit

def push? : Edit → Option Push
  | push node => some node
  | setText _ _ => none

/-- The text that an edit sets on the node with this id. -/
def textFor? (id : NodeId) : Edit → Option String
  | push _ => none
  | setText other text => if other = id then some text else none

end Edit

namespace SyntaxTree

def edit (t : SyntaxTree) : Edit → SyntaxTree
  | .push node => t.push node.parent node.kind node.grammarKind node.field node.span
  | .setText id text => t.setText id text

def edited (span : Span) (edits : List Edit) : SyntaxTree :=
  edits.foldl edit (.root span)

def pushesOf (edits : List Edit) : List Push :=
  edits.filterMap Edit.push?

/-- The last of the texts that edits set on a node. -/
def lastText? (id : NodeId) (edits : List Edit) : Option String :=
  (edits.filterMap (Edit.textFor? id)).getLast?

/-- What a tree keeps of its edits. The id that a push gives out counts the nodes before it, and a node has the text
that was set last since it was pushed. -/
structure Keeps (t : SyntaxTree) (span : Span) (edits : List Edit) : Prop where
  size_eq : t.size = (pushesOf edits).length + 1
  root_eq : t.rows[0]? = some ⟨.program, "program", none, span, none, [], lastText? 0 edits⟩
  pushed : ∀ before node after, edits = before ++ .push node :: after →
    ∃ id, id = (edited span before).size ∧ id = (pushesOf before).length + 1 ∧
      t.rows[id]? = some ⟨node.kind, node.grammarKind, node.field, node.span, some node.parent, [], lastText? id after⟩

/-- Links go both ways: a node lists exactly the nodes that name it as their parent, and all but the root name one. -/
structure WellLinked (t : SyntaxTree) : Prop where
  parent_eq_none_iff : ∀ node ∈ t.refs, node.parent = none ↔ node.id = 0
  parent_lt : ∀ node ∈ t.refs, ∀ parent, node.parent = some parent → parent < node.id
  ascending : ∀ node ∈ t.refs, node.children.Pairwise (· < ·)
  mem_children_iff : ∀ node ∈ t.refs, ∀ id,
    id ∈ node.children ↔ ∃ child ∈ t.refs, child.id = id ∧ child.parent = some node.id
  listed_once : ∀ child ∈ t.refs, child.id ≠ 0 → ∃! node, node ∈ t.refs ∧ child.id ∈ node.children

/-- A walk up the parents between two steps: the id that it goes to, and how many nodes it may still yield. -/
structure Ascent where
  next : Option NodeId
  remaining : Nat

namespace Ascent

def start (t : SyntaxTree) (node : NodeRef) : Ascent :=
  ⟨node.parent, t.size⟩

/-- The node that is yielded next. There is none when the count is used up, and where no id is named or no node has it. -/
def step? (t : SyntaxTree) : Ascent → Option (NodeRef × Ascent)
  | ⟨_, 0⟩ => none
  | ⟨next, remaining + 1⟩ => (next.bind t.ref?).map fun node => (node, ⟨node.parent, remaining⟩)

end Ascent

/-- The nodes that a walk yields until it ends, and where it ends. -/
inductive Yields (t : SyntaxTree) : Ascent → List NodeRef → Ascent → Prop
  | ended {last : Ascent} : last.step? t = none → Yields t last [] last
  | step {ascent later last : Ascent} {node : NodeRef} {nodes : List NodeRef} :
    ascent.step? t = some (node, later) → Yields t later nodes last → Yields t ascent (node :: nodes) last

/-- The walk up from a node yields the parents up to the root, and the root ends it with nodes still to yield. -/
structure WalksUp (t : SyntaxTree) (node : NodeRef) : Prop where
  climbs_iff : ∀ above, t.Climbs node above ↔ above = t.ancestors node
  descending : (node :: t.ancestors node).Pairwise fun lower higher => higher.id < lower.id
  root_last : (node :: t.ancestors node).getLast?.map (·.id) = some 0
  uncut : ∃ left, t.Yields (.start t node) (t.ancestors node) ⟨none, left + 1⟩

/-! ### Rows -/

theorem pushesOf_append (front rest : List Edit) : pushesOf (front ++ rest) = pushesOf front ++ pushesOf rest :=
  List.filterMap_append

theorem pushesOf_push (node : Push) (edits : List Edit) : pushesOf (.push node :: edits) = node :: pushesOf edits := rfl

theorem pushesOf_setText (id : NodeId) (text : String) (edits : List Edit) :
    pushesOf (.setText id text :: edits) = pushesOf edits := rfl

theorem size_foldl_edit (t : SyntaxTree) (edits : List Edit) :
    (edits.foldl edit t).size = t.size + (pushesOf edits).length := by
  induction edits generalizing t with
  | nil => rfl
  | cons first edits ih =>
    rw [List.foldl_cons, ih]
    cases first with
    | push node =>
      rw [edit, size_push, pushesOf_push, List.length_cons]
      omega
    | setText id text => rw [edit, size_setText, pushesOf_setText]

theorem size_edited (span : Span) (edits : List Edit) : (edited span edits).size = (pushesOf edits).length + 1 := by
  rw [edited, size_foldl_edit, size_root, Nat.add_comm]

theorem lastText?_cons (id : NodeId) (first : Edit) (edits : List Edit) :
    lastText? id (first :: edits) = (lastText? id edits).or (first.textFor? id) := by
  rw [lastText?, lastText?]
  cases set : first.textFor? id with
  | none => rw [List.filterMap_cons_none set, Option.or_none]
  | some text =>
    rw [List.filterMap_cons_some set, List.getLast?_cons]
    cases (edits.filterMap (Edit.textFor? id)).getLast? <;> rfl

/-- An edit changes no row that is there, but for the text that it sets. -/
theorem rows_edit {t : SyntaxTree} {id : Nat} (inside : id < t.size) (first : Edit) :
    (t.edit first).rows[id]? = t.rows[id]?.map fun row => { row with text := (first.textFor? id).or row.text } := by
  cases first with
  | push node =>
    rw [edit, rows_push, List.getElem?_append_left (by rwa [length_rows])]
    simp [Edit.textFor?]
  | setText other text =>
    rw [edit, rows_setText, List.getElem?_modify, Edit.textFor?]
    by_cases same : other = id <;> simp [same]

theorem rows_foldl_edit {t : SyntaxTree} {id : Nat} (inside : id < t.size) (edits : List Edit) :
    (edits.foldl edit t).rows[id]? =
      t.rows[id]?.map fun row => { row with text := (lastText? id edits).or row.text } := by
  induction edits generalizing t with
  | nil => simp [lastText?]
  | cons first edits ih =>
    have grown := size_foldl_edit t [first]
    rw [List.foldl_cons, List.foldl_nil] at grown
    rw [List.foldl_cons, ih (by omega), rows_edit inside, Option.map_map, lastText?_cons]
    refine congrArg (t.rows[id]?.map ·) (funext fun row => ?_)
    simp only [Function.comp_apply, Option.or_assoc]

theorem keeps_edited (span : Span) (edits : List Edit) : (edited span edits).Keeps span edits where
  size_eq := size_edited span edits
  root_eq := by
    rw [edited, rows_foldl_edit (by simp), rows_root]
    simp
  pushed := by
    rintro before node after rfl
    refine ⟨(edited span before).size, rfl, size_edited span before, ?_⟩
    have inside : (edited span before).size < ((edited span before).edit (.push node)).size := by
      rw [edit, size_push]
      exact Nat.lt_succ_self _
    rw [edited, List.foldl_append, List.foldl_cons, ← edited, rows_foldl_edit inside, edit, rows_push,
      List.getElem?_append_right (by rw [length_rows]), length_rows, Nat.sub_self]
    simp

/-! ### Links -/

theorem built_edited (span : Span) {edits : List Edit} (there : ParentsThere (pushesOf edits)) :
    (edited span edits).Built := by
  induction edits using List.reverseRecOn with
  | nil => exact .root span
  | append_singleton edits last ih =>
    rw [edited, List.foldl_append, List.foldl_cons, List.foldl_nil, ← edited]
    rw [pushesOf_append] at there
    cases last with
    | push node =>
      obtain ⟨before, named⟩ := there.of_concat
      refine .push _ _ _ _ _ (ih before) ?_
      rw [size_edited]
      exact Nat.lt_succ_of_le named
    | setText id text =>
      rw [pushesOf_setText, show pushesOf [] = [] from rfl, List.append_nil] at there
      exact .setText id text (ih there)

theorem names_iff {t : SyntaxTree} {node : NodeRef} (there : t.ref? node.id = some node) {parent : Nat} :
    t.Names node.id parent ↔ node.parent = some parent := by
  rw [Names, (of_ref? there).2.2]

theorem Built.parent_eq_none_iff {t : SyntaxTree} (built : t.Built) {node : NodeRef}
    (there : t.ref? node.id = some node) : node.parent = none ↔ node.id = 0 := by
  constructor
  · intro none
    by_contra further
    obtain ⟨parent, named⟩ := built.exists_parent (of_ref? there).1 further
    rw [(names_iff there).mp named] at none
    cases none
  · intro top
    exact parent_of_root built.linked (top ▸ there)

/-- The list that a node is in is its parent's. -/
theorem Built.listed_once {t : SyntaxTree} (built : t.Built) {child : NodeRef} (there : t.ref? child.id = some child)
    (further : child.id ≠ 0) : ∃! node, node ∈ t.refs ∧ child.id ∈ node.children := by
  have linked := built.linked
  have bound := (of_ref? there).1
  obtain ⟨parent, named⟩ := built.exists_parent bound further
  obtain ⟨node, found⟩ := exists_ref (Nat.lt_trans (linked.parents_first _ _ named) bound)
  obtain ⟨-, rfl, -⟩ := of_ref? found
  refine ⟨node, ⟨mem_refs.mpr found, (mem_children_iff linked found).mpr named⟩, ?_⟩
  rintro other ⟨inside, listed⟩
  have found' := mem_refs.mp inside
  have named' := (mem_children_iff linked found').mp listed
  have same : node.id = other.id := Option.some.inj (named.symm.trans named')
  exact Option.some.inj (found'.symm.trans (same ▸ found))

theorem Built.wellLinked {t : SyntaxTree} (built : t.Built) : t.WellLinked where
  parent_eq_none_iff _ inside := built.parent_eq_none_iff (mem_refs.mp inside)
  parent_lt _ inside _ named := built.linked.parents_first _ _ ((names_iff (mem_refs.mp inside)).mpr named)
  ascending _ inside := ascending_children built.linked (mem_refs.mp inside)
  mem_children_iff := by
    intro node inside id
    rw [SyntaxTree.mem_children_iff built.linked (mem_refs.mp inside)]
    constructor
    · intro named
      obtain ⟨child, found⟩ := exists_ref (lt_size_of_names named)
      obtain ⟨-, rfl, -⟩ := of_ref? found
      exact ⟨child, mem_refs.mpr found, rfl, (names_iff found).mp named⟩
    · rintro ⟨child, there, rfl, named⟩
      exact (names_iff (mem_refs.mp there)).mpr named
  listed_once _ inside further := built.listed_once (mem_refs.mp inside) further

theorem refs_setText (t : SyntaxTree) (id : NodeId) (text : String) :
    (t.setText id text).refs = t.refs.map fun node => if node.id = id then { node with text := some text } else node := by
  have one (other : Nat) : (t.setText id text).ref? other =
      (t.ref? other).map fun node => if node.id = id then { node with text := some text } else node := by
    rw [ref?, ref?, setText, Array.getElem?_modify, Option.map_map]
    by_cases same : id = other
    · rw [if_pos same, Option.map_map]
      exact congrArg (t.nodes[other]?.map ·) (funext fun node => by simp [same])
    · rw [if_neg same]
      exact congrArg (t.nodes[other]?.map ·) (funext fun node => by simp [Ne.symm same])
  rw [refs, refs, size_setText, List.map_filterMap]
  exact List.filterMap_congr fun other _ => one other

/-! ### Walks up -/

theorem Yields.unique {t : SyntaxTree} {ascent last last' : Ascent} {nodes nodes' : List NodeRef}
    (walk : t.Yields ascent nodes last) (again : t.Yields ascent nodes' last') : nodes' = nodes ∧ last' = last := by
  induction walk generalizing nodes' with
  | ended stop =>
    cases again with
    | ended => exact ⟨rfl, rfl⟩
    | step further => rw [stop] at further; cases further
  | step further _ ih =>
    cases again with
    | ended stop => rw [stop] at further; cases further
    | step further' rest' =>
      rw [further] at further'
      cases further'
      obtain ⟨rfl, rfl⟩ := ih rest'
      exact ⟨rfl, rfl⟩

/-- A walk on any arena ends, and each node that it yields uses up one of the count. -/
theorem exists_yields (t : SyntaxTree) (next : Option NodeId) (remaining : Nat) :
    ∃ last, t.Yields ⟨next, remaining⟩ (t.chain remaining next) last ∧
      (t.chain remaining next).length + last.remaining = remaining := by
  induction remaining generalizing next with
  | zero => exact ⟨⟨next, 0⟩, .ended rfl, rfl⟩
  | succ remaining ih =>
    rw [chain]
    cases found : next.bind t.ref? with
    | none =>
      refine ⟨⟨next, remaining + 1⟩, .ended ?_, Nat.zero_add _⟩
      rw [Ascent.step?, found, Option.map_none]
    | some node =>
      obtain ⟨last, rest, counted⟩ := ih node.parent
      refine ⟨last, .step ?_ rest, ?_⟩
      · rw [Ascent.step?, found, Option.map_some]
      · rw [List.length_cons]
        omega

section

variable {t : SyntaxTree} (linked : t.Linked)

include linked

theorem earlier_of_parentOf? {node first : NodeRef} (there : t.ref? node.id = some node)
    (link : t.parentOf? node = some first) : t.ref? first.id = some first ∧ first.id < node.id := by
  obtain ⟨parent, named, found⟩ := Option.bind_eq_some_iff.mp link
  obtain ⟨-, rfl, -⟩ := of_ref? found
  exact ⟨found, linked.parents_first _ _ ((of_ref? there).2.2.trans named)⟩

theorem Climbs.descending {node : NodeRef} {above : List NodeRef} (climbs : t.Climbs node above)
    (there : t.ref? node.id = some node) : (node :: above).Pairwise fun lower higher => higher.id < lower.id := by
  induction climbs with
  | program top => exact List.pairwise_singleton _ _
  | parent link _ ih =>
    obtain ⟨found, earlier⟩ := earlier_of_parentOf? linked there link
    have rest := ih found
    refine List.pairwise_cons.mpr ⟨?_, rest⟩
    intro higher inside
    rcases List.mem_cons.mp inside with rfl | further
    · exact earlier
    · exact Nat.lt_trans (List.rel_of_pairwise_cons rest further) earlier

theorem Climbs.length_le {node : NodeRef} {above : List NodeRef} (climbs : t.Climbs node above)
    (there : t.ref? node.id = some node) : above.length ≤ node.id := by
  induction climbs with
  | program top => exact Nat.zero_le _
  | parent link _ ih =>
    obtain ⟨found, earlier⟩ := earlier_of_parentOf? linked there link
    exact Nat.lt_of_le_of_lt (ih found) earlier

theorem Climbs.yields {node : NodeRef} {above : List NodeRef} (climbs : t.Climbs node above) (left : Nat) :
    t.Yields ⟨node.parent, above.length + (left + 1)⟩ above ⟨none, left + 1⟩ := by
  induction climbs with
  | @program node top =>
    rw [parent_of_root linked top, List.length_nil, Nat.zero_add]
    exact .ended rfl
  | @parent node first above link _ ih =>
    refine .step ?_ ih
    rw [List.length_cons, Nat.add_right_comm, Ascent.step?, show node.parent.bind t.ref? = some first from link,
      Option.map_some]

end

theorem Climbs.root_last {t : SyntaxTree} {node : NodeRef} {above : List NodeRef} (climbs : t.Climbs node above) :
    (node :: above).getLast?.map (·.id) = some 0 := by
  induction climbs with
  | program top => exact congrArg some (of_ref? top).2.1
  | parent _ _ ih => rwa [List.getLast?_cons_cons]

theorem Built.walksUp {t : SyntaxTree} (built : t.Built) {node : NodeRef} (inside : node ∈ t.refs) :
    t.WalksUp node := by
  have there := mem_refs.mp inside
  have climbs := built.climbs there
  refine ⟨?_, climbs.descending built.linked there, climbs.root_last, ?_⟩
  · intro above
    refine ⟨fun other => other.eq_ancestors built.linked, ?_⟩
    rintro rfl
    exact climbs
  · have bound := climbs.length_le built.linked there
    have counted := (of_ref? there).1
    obtain ⟨left, size⟩ : ∃ left, t.size = (t.ancestors node).length + (left + 1) :=
      ⟨t.size - (t.ancestors node).length - 1, by omega⟩
    refine ⟨left, ?_⟩
    rw [Ascent.start, size]
    exact climbs.yields built.linked left

/-- Whatever the order of the edits, the tree keeps what was pushed and set, its links go both ways, and the walk up
from a node is never cut short. On any arena at all, a walk ends within as many nodes as the arena has. -/
theorem edited_linked_and_walked (span : Span) (edits : List Edit) (there : ParentsThere (pushesOf edits)) :
    (edited span edits).Keeps span edits ∧ (edited span edits).WellLinked ∧
    (∀ node ∈ (edited span edits).refs, (edited span edits).WalksUp node) ∧
    (∀ (t : SyntaxTree) (id : NodeId) (text : String), (t.setText id text).refs =
      t.refs.map fun node => if node.id = id then { node with text := some text } else node) ∧
    ∀ (t : SyntaxTree) (node : NodeRef), ∃ last,
      (∀ nodes stop, t.Yields (.start t node) nodes stop ↔ nodes = t.ancestors node ∧ stop = last) ∧
      (t.ancestors node).length + last.remaining = t.size := by
  have built := built_edited span there
  refine ⟨keeps_edited span edits, built.wellLinked, fun node inside => built.walksUp inside, refs_setText, ?_⟩
  intro t node
  obtain ⟨last, walk, counted⟩ := exists_yields t node.parent t.size
  refine ⟨last, ?_, counted⟩
  intro nodes stop
  constructor
  · exact fun other => walk.unique other
  · rintro ⟨rfl, rfl⟩
    exact walk

-- A node that names itself as its parent is yielded until the count is used up.
example : (((root ⟨0, 0, 1, 1⟩).push 1 .other "node" none ⟨0, 0, 1, 1⟩).ref? 1).map
    (fun node => (((root ⟨0, 0, 1, 1⟩).push 1 .other "node" none ⟨0, 0, 1, 1⟩).ancestors node).map (·.id)) =
      some [1, 1] := by
  decide

/-- Texts are set before their node is pushed, after it, and twice. -/
def interleaved : List Edit :=
  [.push (Push.blank 0), .setText 1 "draft", .setText 2 "early", .push (Push.blank 1), .setText 1 "final", .push (Push.blank 0)]

theorem edited_linked_and_walked_interleaved :
    ParentsThere (pushesOf interleaved) ∧
    (edited ⟨0, 9, 1, 1⟩ interleaved).rows[1]? =
      some ⟨.other, "node", none, ⟨0, 0, 1, 1⟩, some 0, [], some "final"⟩ ∧
    (edited ⟨0, 9, 1, 1⟩ interleaved).rows[2]? = some ⟨.other, "node", none, ⟨0, 0, 1, 1⟩, some 1, [], none⟩ ∧
    ∃ node, (edited ⟨0, 9, 1, 1⟩ interleaved).ref? 2 = some node ∧
      (edited ⟨0, 9, 1, 1⟩ interleaved).WalksUp node := by
  have there : ParentsThere (pushesOf interleaved) := by decide
  obtain ⟨keeps, -, walks, -⟩ := edited_linked_and_walked ⟨0, 9, 1, 1⟩ interleaved there
  obtain ⟨_, -, rfl, first⟩ := keeps.pushed [] (Push.blank 0) _ rfl
  obtain ⟨_, -, rfl, second⟩ := keeps.pushed (interleaved.take 3) (Push.blank 1) _ rfl
  obtain ⟨node, found⟩ : ∃ node, (edited ⟨0, 9, 1, 1⟩ interleaved).ref? 2 = some node := ⟨_, rfl⟩
  have inside : node ∈ (edited ⟨0, 9, 1, 1⟩ interleaved).refs := List.mem_filterMap.mpr ⟨2, by decide, found⟩
  exact ⟨there, first, second, node, found, walks node inside⟩

end SyntaxTree

end ArchLint
