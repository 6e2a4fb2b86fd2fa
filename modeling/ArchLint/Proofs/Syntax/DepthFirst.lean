import ArchLint.Proofs.Syntax.Ancestors
import ArchLint.Proofs.Visits.Calls
import Mathlib.Data.List.Range
import Mathlib.Data.List.Sort
import Mathlib.Data.Nat.Find
import Mathlib.Logic.Relation

/-!
# Pre-order ids

A walk from the root along the child lists meets the ids in ascending order exactly when every push goes below the node
pushed last: the parent it names is that node or one above it. The nodes below any node then follow it without a gap.
-/

namespace ArchLint

/-- A node to be pushed, and the node it goes below. -/
structure Push where
  parent : NodeId
  kind : NodeKind
  grammarKind : String
  field : Option String
  span : Span

namespace SyntaxTree

/-- The tree of the pushes: the root has the id 0, and the push at each place makes the node with the next id. -/
def grown (span : Span) (pushes : List Push) : SyntaxTree :=
  pushes.foldl (fun t p => t.push p.parent p.kind p.grammarKind p.field p.span) (.root span)

/-- A push never names a node that is still to come. -/
def ParentsThere (pushes : List Push) : Prop :=
  ∀ (place : Nat) (inside : place < pushes.length), pushes[place].parent ≤ place

instance (pushes : List Push) : Decidable (ParentsThere pushes) :=
  inferInstanceAs (Decidable (∀ (place : Nat) (inside : place < pushes.length), pushes[place].parent ≤ place))

/-- Each push names the node that was pushed last or a node above it. -/
def FollowsLast (span : Span) (pushes : List Push) : Prop :=
  ∀ (place : Nat) (inside : place < pushes.length), ∃ last, (grown span (pushes.take place)).ref? place = some last ∧
    (pushes[place].parent = last.id ∨
      ∃ above ∈ (grown span (pushes.take place)).ancestors last, above.id = pushes[place].parent)

/-- The ids that a walk meets when these nodes are pending: each node before its children, and these before the rest. -/
inductive Traverses (t : SyntaxTree) : List NodeId → List NodeId → Prop
  | done : Traverses t [] []
  | visit {id : NodeId} {node : NodeRef} {later order : List NodeId} (there : t.ref? id = some node)
    (rest : Traverses t (node.children ++ later) order) : Traverses t (id :: later) (id :: order)

/-- The child names the parent. -/
def Names (t : SyntaxTree) (child parent : Nat) : Prop :=
  t.parentId? child = some parent

/-- Each node goes below the one before it. -/
def DepthFirst (t : SyntaxTree) : Prop :=
  ∀ id parent : Nat, t.Names (id + 1) parent → Relation.ReflTransGen t.Names id parent

/-! ### Grown trees -/

section

variable {span : Span} {pushes : List Push}

theorem grown_concat (push : Push) : grown span (pushes ++ [push]) =
    (grown span pushes).push push.parent push.kind push.grammarKind push.field push.span := by
  rw [grown, List.foldl_append]
  rfl

theorem size_grown : (grown span pushes).size = pushes.length + 1 := by
  induction pushes using List.reverseRecOn with
  | nil => rfl
  | append_singleton pushes push ih => rw [grown_concat, size_push, ih, List.length_append, List.length_singleton]

theorem ParentsThere.of_concat {push : Push} (there : ParentsThere (pushes ++ [push])) :
    ParentsThere pushes ∧ push.parent ≤ pushes.length := by
  constructor
  · intro place inside
    have old := there place (by rw [List.length_append]; omega)
    rwa [List.getElem_append_left inside] at old
  · have new := there pushes.length (by rw [List.length_append, List.length_singleton]; omega)
    rwa [List.getElem_concat_length rfl] at new

theorem ParentsThere.linked (there : ParentsThere pushes) : (grown span pushes).Linked := by
  induction pushes using List.reverseRecOn with
  | nil => exact .root span
  | append_singleton pushes push ih =>
    obtain ⟨before, named⟩ := there.of_concat
    rw [grown_concat]
    refine (ih before).push ?_ ..
    rw [size_grown]
    exact Nat.lt_succ_of_le named

theorem ParentsThere.take (there : ParentsThere pushes) (count : Nat) : ParentsThere (pushes.take count) := by
  intro place inside
  rw [List.getElem_take]
  rw [List.length_take] at inside
  exact there place (by omega)

theorem parentId?_grown_zero : (grown span pushes).parentId? 0 = none := by
  induction pushes using List.reverseRecOn with
  | nil => rfl
  | append_singleton pushes push ih => rw [grown_concat, parentId?_push, if_neg (by rw [size_grown]; omega), ih]

theorem parentId?_grown_succ (place : Nat) :
    (grown span pushes).parentId? (place + 1) = pushes[place]?.map (·.parent) := by
  induction pushes using List.reverseRecOn with
  | nil => rfl
  | append_singleton pushes push ih =>
    rw [grown_concat, parentId?_push, size_grown, ih]
    rcases Nat.lt_trichotomy place pushes.length with before | rfl | behind
    · rw [if_neg (by omega), List.getElem?_append_left before]
    · rw [if_pos rfl, List.getElem?_concat_length, Option.map_some]
    · rw [if_neg (by omega), List.getElem?_eq_none (Nat.le_of_lt behind), List.getElem?_eq_none]
      rw [List.length_append, List.length_singleton]
      exact behind

/-- All nodes but the root have parents. -/
theorem exists_names_of_grown {id : Nat} (inside : id < (grown span pushes).size) (further : id ≠ 0) :
    ∃ parent, (grown span pushes).Names id parent := by
  obtain ⟨place, rfl⟩ := Nat.exists_eq_succ_of_ne_zero further
  rw [size_grown] at inside
  refine ⟨pushes[place].parent, ?_⟩
  rw [Names, parentId?_grown_succ, List.getElem?_eq_getElem, Option.map_some]

theorem parentId?_grown_take {id count : Nat} (early : id ≤ count) :
    (grown span (pushes.take count)).parentId? id = (grown span pushes).parentId? id := by
  cases id with
  | zero => rw [parentId?_grown_zero, parentId?_grown_zero]
  | succ place => rw [parentId?_grown_succ, parentId?_grown_succ, List.getElem?_take_of_lt early]

end

/-! ### Nodes above a node -/

section

variable {t : SyntaxTree}

theorem exists_ref {id : Nat} (inside : id < t.size) : ∃ node, t.ref? id = some node := by
  cases there : t.ref? id with
  | none => exact absurd ((t.ref?_eq_none_iff id).mp there) (Nat.not_le_of_lt inside)
  | some node => exact ⟨node, rfl⟩

theorem lt_size_of_names {child parent : Nat} (named : t.Names child parent) : child < t.size := by
  obtain ⟨inner, inside, -⟩ := Option.bind_eq_some_iff.mp named
  exact (Array.getElem?_eq_some_iff.mp inside).1

theorem parentOf?_of_names (linked : t.Linked) {id parent : Nat} {node : NodeRef} (there : t.ref? id = some node)
    (named : t.Names id parent) : ∃ above, t.ref? parent = some above ∧ t.parentOf? node = some above := by
  obtain ⟨inside, -, link⟩ := of_ref? there
  obtain ⟨above, found⟩ := exists_ref (Nat.lt_trans (linked.parents_first id parent named) inside)
  refine ⟨above, found, ?_⟩
  rw [parentOf?, link.symm.trans named, Option.bind_some, found]

theorem lt_of_transGen (linked : t.Linked) {id above : Nat} (under : Relation.TransGen t.Names id above) :
    above < id := by
  induction under with
  | single named => exact linked.parents_first _ _ named
  | tail _ named ih => exact Nat.lt_trans (linked.parents_first _ _ named) ih

theorem le_of_reflTransGen (linked : t.Linked) {id above : Nat} (under : Relation.ReflTransGen t.Names id above) :
    above ≤ id := by
  rcases Relation.reflTransGen_iff_eq_or_transGen.mp under with rfl | strictly
  · exact Nat.le_refl _
  · exact Nat.le_of_lt (lt_of_transGen linked strictly)

theorem transGen_iff_ancestors (linked : t.Linked) {id above : Nat} {node : NodeRef} (there : t.ref? id = some node) :
    Relation.TransGen t.Names id above ↔ ∃ higher ∈ t.ancestors node, higher.id = above := by
  constructor
  · intro under
    induction under using Relation.TransGen.head_induction_on generalizing node with
    | single named =>
      obtain ⟨first, found, parent⟩ := parentOf?_of_names linked there named
      rw [ancestors_of_parent linked parent]
      exact ⟨first, List.mem_cons_self, (of_ref? found).2.1⟩
    | head named _ ih =>
      obtain ⟨first, found, parent⟩ := parentOf?_of_names linked there named
      obtain ⟨higher, inside, same⟩ := ih found
      rw [ancestors_of_parent linked parent]
      exact ⟨higher, List.mem_cons_of_mem _ inside, same⟩
  · rintro ⟨higher, inside, rfl⟩
    induction id using Nat.strongRecOn generalizing node with
    | ind id ih =>
      cases parent : t.parentOf? node with
      | none =>
        rw [ancestors_of_no_parent parent] at inside
        cases inside
      | some first =>
        obtain ⟨named, start, found⟩ := Option.bind_eq_some_iff.mp parent
        have link : t.Names id named := (of_ref? there).2.2.trans start
        rw [ancestors_of_parent linked parent] at inside
        rcases List.mem_cons.mp inside with rfl | further
        · rw [(of_ref? found).2.1]
          exact .single link
        · exact .head link (ih named (linked.parents_first id named link) found further)

theorem reflTransGen_iff_ancestors (linked : t.Linked) {id above : Nat} {node : NodeRef}
    (there : t.ref? id = some node) : Relation.ReflTransGen t.Names id above ↔
      above = node.id ∨ ∃ higher ∈ t.ancestors node, higher.id = above := by
  rw [Relation.reflTransGen_iff_eq_or_transGen, transGen_iff_ancestors linked there, (of_ref? there).2.1]

theorem ref?_of_mem_ancestors {node higher : NodeRef} (inside : higher ∈ t.ancestors node) :
    t.ref? higher.id = some higher := by
  unfold ancestors at inside
  generalize t.size = bound, node.parent = next at inside
  induction bound generalizing next with
  | zero => cases inside
  | succ bound ih =>
    rw [chain] at inside
    split at inside
    · cases inside
    · next first found =>
      rcases List.mem_cons.mp inside with rfl | further
      · obtain ⟨id, -, there⟩ := Option.bind_eq_some_iff.mp found
        rw [(of_ref? there).2.1]
        exact there
      · exact ih _ further

theorem mem_ancestors_iff (linked : t.Linked) {node other : NodeRef} (here : t.ref? node.id = some node)
    (there : t.ref? other.id = some other) : node ∈ t.ancestors other ↔ Relation.TransGen t.Names other.id node.id := by
  rw [transGen_iff_ancestors linked there]
  constructor
  · intro inside
    exact ⟨node, inside, rfl⟩
  · rintro ⟨higher, inside, same⟩
    obtain rfl := Option.some.inj (here.symm.trans (same ▸ ref?_of_mem_ancestors inside))
    exact inside

/-- Only the links of a node and of those before it decide what is above it. -/
theorem reflTransGen_of_agree {s : SyntaxTree} (linked : s.Linked) {id above : Nat}
    (agree : ∀ early ≤ id, t.parentId? early = s.parentId? early) (under : Relation.ReflTransGen s.Names id above) :
    Relation.ReflTransGen t.Names id above := by
  induction under using Relation.ReflTransGen.head_induction_on with
  | refl => exact .refl
  | head named _ ih =>
    have earlier := linked.parents_first _ _ named
    refine .head ((agree _ (Nat.le_refl _)).trans named) (ih ?_)
    intro early before
    exact agree early (by omega)

theorem followsLast_iff {span : Span} {pushes : List Push} (there : ParentsThere pushes) :
    FollowsLast span pushes ↔ (grown span pushes).DepthFirst := by
  have one (place : Nat) (inside : place < pushes.length) :
      (∃ last, (grown span (pushes.take place)).ref? place = some last ∧ (pushes[place].parent = last.id ∨
        ∃ above ∈ (grown span (pushes.take place)).ancestors last, above.id = pushes[place].parent)) ↔
      Relation.ReflTransGen (grown span pushes).Names place pushes[place].parent := by
    have linked : (grown span (pushes.take place)).Linked := (there.take place).linked
    have agree : ∀ early ≤ place,
        (grown span (pushes.take place)).parentId? early = (grown span pushes).parentId? early :=
      fun _ early => parentId?_grown_take early
    obtain ⟨last, found⟩ : ∃ last, (grown span (pushes.take place)).ref? place = some last := by
      refine exists_ref ?_
      rw [size_grown, List.length_take]
      omega
    constructor
    · rintro ⟨last', found', above⟩
      refine reflTransGen_of_agree linked (fun early before => (agree early before).symm) ?_
      exact (reflTransGen_iff_ancestors linked found').mpr above
    · intro under
      exact ⟨last, found, (reflTransGen_iff_ancestors linked found).mp (reflTransGen_of_agree there.linked agree under)⟩
  constructor
  · intro follows place parent named
    rw [Names, parentId?_grown_succ, Option.map_eq_some_iff] at named
    obtain ⟨push, pushed, rfl⟩ := named
    obtain ⟨inside, rfl⟩ := List.getElem?_eq_some_iff.mp pushed
    exact (one place inside).mp (follows place inside)
  · intro deep place inside
    refine (one place inside).mpr (deep place _ ?_)
    rw [Names, parentId?_grown_succ, List.getElem?_eq_getElem inside, Option.map_some]

/-! ### Walks -/

theorem Traverses.unique {pending order other : List NodeId} (walk : t.Traverses pending order)
    (again : t.Traverses pending other) : order = other := by
  induction walk generalizing other with
  | done =>
    cases again
    rfl
  | visit there _ ih =>
    cases again with
    | visit there' rest =>
      obtain rfl := Option.some.inj (there.symm.trans there')
      rw [ih rest]

theorem Traverses.append {pending order pending' order' : List NodeId} (walk : t.Traverses pending order)
    (next : t.Traverses pending' order') : t.Traverses (pending ++ pending') (order ++ order') := by
  induction walk with
  | done => exact next
  | visit there _ ih =>
    rw [List.append_assoc] at ih
    exact .visit there ih

theorem mem_children_iff (linked : t.Linked) {id child : Nat} {node : NodeRef} (there : t.ref? id = some node) :
    child ∈ node.children ↔ t.Names child id := by
  obtain ⟨stored, found, rfl⟩ := Option.map_eq_some_iff.mp there
  rw [linked.children_eq id stored found, List.mem_filter, List.mem_range, decide_eq_true_iff]
  exact and_iff_right_of_imp lt_size_of_names

theorem exists_traverses_of_each {pending : List NodeId} (each : ∀ id ∈ pending, ∃ order, t.Traverses [id] order) :
    ∃ order, t.Traverses pending order := by
  induction pending with
  | nil => exact ⟨[], .done⟩
  | cons id later ih =>
    obtain ⟨first, walk⟩ := each id List.mem_cons_self
    obtain ⟨rest, next⟩ := ih fun other inside => each other (List.mem_cons_of_mem _ inside)
    exact ⟨first ++ rest, walk.append next⟩

/-- Children come later, so a walk ends. -/
theorem exists_traverses (linked : t.Linked) {id : Nat} (inside : id < t.size) : ∃ order, t.Traverses [id] order := by
  induction left : t.size - id using Nat.strongRecOn generalizing id with
  | ind left' ih =>
    obtain ⟨node, there⟩ := exists_ref inside
    have each : ∀ child ∈ node.children, ∃ order, t.Traverses [child] order := by
      intro child listed
      have named := (mem_children_iff linked there).mp listed
      have later := linked.parents_first child id named
      have bound := lt_size_of_names named
      exact ih (t.size - child) (by omega) bound rfl
    obtain ⟨order, walk⟩ := exists_traverses_of_each each
    exact ⟨id :: order, .visit there (by rwa [List.append_nil])⟩

/-! ### Depth-first trees are walked in the order of ids -/

/-- In a depth-first tree, what lies between a node and a node below it is below it as well. -/
theorem DepthFirst.between (deep : t.DepthFirst) {top middle bottom : Nat}
    (under : Relation.ReflTransGen t.Names bottom top) (above : top ≤ middle) (below : middle ≤ bottom) :
    Relation.ReflTransGen t.Names middle top := by
  induction bottom with
  | zero =>
    obtain rfl := Nat.le_zero.mp below
    exact under
  | succ before ih =>
    rcases Nat.lt_or_eq_of_le below with inside | rfl
    · rcases under.cases_head with rfl | ⟨parent, named, further⟩
      · omega
      · exact ih ((deep before parent named).trans further) (Nat.le_of_lt_succ inside)
    · exact under

/-- The nodes from `start` on whose parents come before `id`, in the order of their ids. -/
def openFrom (t : SyntaxTree) (start id : Nat) : List NodeId :=
  (List.range t.size).filter fun later => start ≤ later ∧ ∀ parent ∈ t.parentId? later, parent < id

theorem mem_openFrom {start id later : Nat} : later ∈ t.openFrom start id ↔
    later < t.size ∧ start ≤ later ∧ ∀ parent : Nat, t.Names later parent → parent < id := by
  rw [openFrom, List.mem_filter, List.mem_range, decide_eq_true_iff]
  rfl

theorem pairwise_openFrom (start id : Nat) : (t.openFrom start id).Pairwise (· < ·) :=
  List.pairwise_lt_range.filter _

theorem openFrom_self (linked : t.Linked) {id : Nat} (inside : id < t.size) :
    t.openFrom id id = id :: t.openFrom (id + 1) id := by
  refine (pairwise_openFrom id id).eq_of_mem_iff (List.pairwise_cons.mpr ⟨?_, pairwise_openFrom (id + 1) id⟩) ?_
  · intro later listed
    exact (mem_openFrom.mp listed).2.1
  · intro later
    rw [List.mem_cons, mem_openFrom, mem_openFrom]
    have first : ∀ parent : Nat, t.Names id parent → parent < id := linked.parents_first id
    constructor
    · rintro ⟨there, start, early⟩
      rcases Nat.lt_or_eq_of_le start with behind | rfl
      · exact Or.inr ⟨there, behind, early⟩
      · exact Or.inl rfl
    · rintro (rfl | ⟨there, start, early⟩)
      · exact ⟨inside, Nat.le_refl _, first⟩
      · exact ⟨there, Nat.le_of_succ_le start, early⟩

/-- In a depth-first tree, the children of a node come before the nodes that go below earlier ones. -/
theorem DepthFirst.openFrom_succ (deep : t.DepthFirst) (linked : t.Linked) {id : Nat} {node : NodeRef}
    (there : t.ref? id = some node) :
    t.openFrom (id + 1) (id + 1) = node.children ++ t.openFrom (id + 1) id := by
  refine (pairwise_openFrom (id + 1) (id + 1)).eq_of_mem_iff
    (List.pairwise_append.mpr ⟨ascending_children linked there, pairwise_openFrom (id + 1) id, ?_⟩) ?_
  · -- A node between this one and its child is below this one, so its parent is no earlier node.
    intro child listed later open'
    have named := (mem_children_iff linked there).mp listed
    obtain ⟨-, start, early⟩ := mem_openFrom.mp open'
    by_contra behind
    have under := deep.between (.single named) (Nat.le_of_succ_le start) (Nat.le_of_not_lt behind)
    rcases under.cases_head with rfl | ⟨parent, link, further⟩
    · omega
    · have above := le_of_reflTransGen linked further
      have before := early parent link
      omega
  · intro later
    rw [List.mem_append, mem_children_iff linked there, mem_openFrom, mem_openFrom]
    constructor
    · rintro ⟨inside, start, early⟩
      by_cases named : t.Names later id
      · exact Or.inl named
      · refine Or.inr ⟨inside, start, ?_⟩
        intro parent link
        refine Nat.lt_of_le_of_ne (Nat.le_of_lt_succ (early parent link)) ?_
        rintro rfl
        exact named link
    · rintro (named | ⟨inside, start, early⟩)
      · refine ⟨lt_size_of_names named, linked.parents_first later id named, ?_⟩
        intro parent link
        obtain rfl := Option.some.inj (named.symm.trans link)
        exact Nat.lt_succ_self _
      · exact ⟨inside, start, fun parent link => Nat.lt_succ_of_lt (early parent link)⟩

theorem openFrom_zero {span : Span} {pushes : List Push} (there : ParentsThere pushes) :
    (grown span pushes).openFrom 0 0 = [0] := by
  have inside : 0 < (grown span pushes).size := by
    rw [size_grown]
    exact Nat.succ_pos _
  have nothing : (grown span pushes).openFrom 1 0 = [] := by
    refine List.eq_nil_iff_forall_not_mem.mpr ?_
    intro later listed
    obtain ⟨there, start, early⟩ := mem_openFrom.mp listed
    obtain ⟨parent, named⟩ := exists_names_of_grown there (Nat.ne_of_gt start)
    exact absurd (early parent named) (Nat.not_lt_zero parent)
  rw [openFrom_self there.linked inside, nothing]

theorem DepthFirst.traverses (deep : t.DepthFirst) (linked : t.Linked) {count id : Nat}
    (counted : id + count = t.size) : t.Traverses (t.openFrom id id) (List.range' id count) := by
  induction count generalizing id with
  | zero =>
    have nothing : t.openFrom id id = [] := by
      refine List.eq_nil_iff_forall_not_mem.mpr ?_
      intro later listed
      obtain ⟨inside, start, -⟩ := mem_openFrom.mp listed
      omega
    rw [nothing]
    exact .done
  | succ count ih =>
    have inside : id < t.size := by omega
    obtain ⟨node, there⟩ := exists_ref inside
    rw [openFrom_self linked inside, List.range'_succ]
    refine .visit there ?_
    rw [← deep.openFrom_succ linked there]
    exact ih (by omega)

/-! ### Walks in the order of ids come from depth-first trees -/

/-- The first pending node goes below `last` or a node above it, the next one below that node's parent or above, and so
on. -/
def HangsFrom (t : SyntaxTree) : Nat → List NodeId → Prop
  | _, [] => True
  | last, id :: later =>
    ∃ parent, t.Names id parent ∧ Relation.ReflTransGen t.Names last parent ∧ t.HangsFrom parent later

theorem HangsFrom.mono {last higher : Nat} {pending : List NodeId} (hangs : t.HangsFrom higher pending)
    (under : Relation.ReflTransGen t.Names last higher) : t.HangsFrom last pending := by
  cases pending with
  | nil => trivial
  | cons id later =>
    obtain ⟨parent, named, above, rest⟩ := hangs
    exact ⟨parent, named, under.trans above, rest⟩

theorem HangsFrom.children_append {id : Nat} {children later : List NodeId}
    (named : ∀ child ∈ children, t.Names child id) (hangs : t.HangsFrom id later) :
    t.HangsFrom id (children ++ later) := by
  induction children with
  | nil => exact hangs
  | cons child children ih =>
    have rest := ih fun other inside => named other (List.mem_cons_of_mem _ inside)
    exact ⟨id, named child List.mem_cons_self, .refl, rest⟩

/-- Along a walk, each node goes below the one before it. -/
theorem Traverses.isChain (linked : t.Linked) {last : Nat} {pending order : List NodeId}
    (walk : t.Traverses pending order) (hangs : t.HangsFrom last pending) :
    (last :: order).IsChain fun before id =>
      ∃ parent, t.Names id parent ∧ Relation.ReflTransGen t.Names before parent := by
  induction walk generalizing last with
  | done => exact .singleton _
  | visit there _ ih =>
    obtain ⟨parent, named, above, rest⟩ := hangs
    refine .cons_cons ⟨parent, named, above⟩ (ih ?_)
    exact .children_append (fun child => (mem_children_iff linked there).mp) (rest.mono (.single named))

theorem depthFirst_of_traverses (linked : t.Linked) {rest : Nat} (counted : t.size = rest + 1)
    (walk : t.Traverses [0] (List.range t.size)) : t.DepthFirst := by
  rw [counted, List.range_eq_range', List.range'_succ] at walk
  cases walk with
  | visit there walk =>
    have hangs : t.HangsFrom 0 (_ ++ []) := .children_append (fun child => (mem_children_iff linked there).mp) trivial
    have chain := walk.isChain linked hangs
    rw [← List.range'_succ, ← List.range_eq_range', List.isChain_range_succ] at chain
    intro id parent named
    have inside := lt_size_of_names named
    obtain ⟨own, link, under⟩ := chain id (by omega)
    obtain rfl := Option.some.inj (named.symm.trans link)
    exact under

/-! ### Blocks -/

/-- In a depth-first tree, the nodes below a node are those from the next id to some last one. -/
theorem DepthFirst.exists_last (deep : t.DepthFirst) (linked : t.Linked) (id : Nat) :
    ∃ last, ∀ other < t.size, Relation.TransGen t.Names other id ↔ id < other ∧ other ≤ last := by
  classical
  obtain ⟨last, greatest⟩ : ∃ last, Nat.findGreatest (Relation.ReflTransGen t.Names · id) t.size = last := ⟨_, rfl⟩
  refine ⟨last, ?_⟩
  intro other inside
  constructor
  · intro under
    refine ⟨lt_of_transGen linked under, ?_⟩
    rw [← greatest]
    exact Nat.le_findGreatest (Nat.le_of_lt inside) under.to_reflTransGen
  · rintro ⟨behind, bound⟩
    have bottom := Nat.findGreatest_of_ne_zero greatest (by omega)
    have between := deep.between bottom (Nat.le_of_lt behind) bound
    rcases Relation.reflTransGen_iff_eq_or_transGen.mp between with rfl | under
    · exact absurd behind (Nat.lt_irrefl _)
    · exact under

end

/-! ### The walk over a grown tree -/

/-- The tree of pushes has one walk from its root. It meets the nodes in the order of their ids, which is the order of
`refs`, exactly if each push follows the last one, and then the nodes below a node are the next ones up to some id. -/
theorem traverses_refs_iff (span : Span) (pushes : List Push) (there : ParentsThere pushes) :
    (∃ order, ∀ visited, (grown span pushes).Traverses [0] visited ↔ visited = order) ∧
    (grown span pushes).refs.map (·.id) = List.range (grown span pushes).size ∧
    ((grown span pushes).Traverses [0] ((grown span pushes).refs.map (·.id)) ↔ FollowsLast span pushes) ∧
    (FollowsLast span pushes → ∀ node ∈ (grown span pushes).refs, ∃ last, ∀ other ∈ (grown span pushes).refs,
      node ∈ (grown span pushes).ancestors other ↔ node.id < other.id ∧ other.id ≤ last) := by
  have linked : (grown span pushes).Linked := there.linked
  have size : (grown span pushes).size = pushes.length + 1 := size_grown
  refine ⟨?_, map_id_refs _, ?_, ?_⟩
  · have inside : 0 < (grown span pushes).size := by omega
    obtain ⟨order, walk⟩ := exists_traverses linked inside
    refine ⟨order, ?_⟩
    intro visited
    constructor
    · intro other
      exact other.unique walk
    · rintro rfl
      exact walk
  · rw [map_id_refs, followsLast_iff there]
    constructor
    · exact depthFirst_of_traverses linked size
    · intro deep
      have walk := deep.traverses linked (Nat.zero_add _)
      rwa [openFrom_zero there, ← List.range_eq_range'] at walk
  · intro follows node inside
    have here := mem_refs.mp inside
    obtain ⟨last, block⟩ := ((followsLast_iff there).mp follows).exists_last linked node.id
    refine ⟨last, ?_⟩
    intro other listed
    have there := mem_refs.mp listed
    rw [mem_ancestors_iff linked here there]
    exact block other.id (of_ref? there).1

/-- A push of a plain node. -/
def Push.blank (parent : NodeId) : Push :=
  ⟨parent, .other, "node", none, ⟨0, 0, 1, 1⟩⟩

theorem not_followsLast_of_late_child :
    ParentsThere ([0, 0, 1].map Push.blank) ∧ ¬FollowsLast ⟨0, 0, 1, 1⟩ ([0, 0, 1].map Push.blank) := by
  refine ⟨by decide, ?_⟩
  obtain ⟨⟨order, only⟩, -, decides, -⟩ := traverses_refs_iff ⟨0, 0, 1, 1⟩ ([0, 0, 1].map Push.blank) (by decide)
  have walk : (grown ⟨0, 0, 1, 1⟩ ([0, 0, 1].map Push.blank)).Traverses [0] [0, 1, 3, 2] :=
    .visit rfl (.visit rfl (.visit rfl (.visit rfl .done)))
  intro follows
  have ordered := (only _).mp (decides.mpr follows)
  rw [← (only _).mp walk] at ordered
  revert ordered
  decide

end SyntaxTree

end ArchLint
