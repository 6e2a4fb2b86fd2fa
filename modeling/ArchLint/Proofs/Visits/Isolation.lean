import ArchLint.Proofs.Visits.Changes

/-!
# Fault isolation

A fault stays with the call that it comes from. A handler that no longer fails empties its own cells of the grid and
changes nothing else, and a handler that always fails without a report fills cells of its own and changes nothing
else: no violation comes or goes, and no other cell does.
-/

namespace ArchLint

open TableEntry

namespace Analyzer

/-! ### Reports before a fault -/

/-- The handler takes no report back. -/
def Appends (h : Handler) : Prop :=
  ∀ node ctx, ctx.violations <+: ((h node).left ctx).violations

theorem prefix_passNode (entries : List TableEntry) (appends : ∀ e ∈ entries, Appends e.2) (node : NodeRef)
    (ctx : RuleContext) : ctx.violations <+: (passNode entries ctx node).violations := by
  unfold passNode
  induction entries generalizing ctx with
  | nil => exact List.prefix_refl _
  | cons e rest ih =>
    have here : ctx.violations <+: (passEntry node ctx e).violations := by
      unfold passEntry
      split
      · exact appends e List.mem_cons_self node ctx
      · exact List.prefix_refl _
    exact here.trans (ih (fun other inside => appends other (List.mem_cons_of_mem _ inside)) _)

theorem prefix_passNodes (entries : List TableEntry) (appends : ∀ e ∈ entries, Appends e.2) (nodes : List NodeRef)
    (ctx : RuleContext) : ctx.violations <+: (passNodes entries nodes ctx).violations := by
  unfold passNodes
  induction nodes generalizing ctx with
  | nil => exact List.prefix_refl _
  | cons node rest ih => exact (prefix_passNode entries appends node ctx).trans (ih _)

theorem contextAt_succ (a : Analyzer) (file : SourceFile) (tree : SyntaxTree) (rule : Rule) (node : NodeRef) (j : Nat)
    (e : TableEntry) (entry : (a.entriesOf file tree rule)[j]? = some e) :
    a.contextAt file tree rule node (j + 1) = passEntry node (a.contextAt file tree rule node j) e := by
  unfold contextAt passNode
  rw [List.take_add_one, entry, List.foldl_append]
  rfl

theorem contextAt_prefix_finishOf (a : Analyzer) (file : SourceFile) (tree : SyntaxTree) (rule : Rule)
    (appends : ∀ e ∈ a.entriesOf file tree rule, Appends e.2) (node : NodeRef) (inside : node ∈ tree.refs) (j : Nat) :
    (a.contextAt file tree rule node j).violations <+: (a.finishOf file tree rule).violations := by
  have place : tree.refs[node.id]? = some node := by
    have indexed := List.mem_map_of_mem (f := fun n : NodeRef => (n, n.id)) inside
    rw [← SyntaxTree.zipIdx_refs] at indexed
    exact List.mem_zipIdx_iff_getElem?.mp indexed
  have split : tree.refs = tree.refs.take node.id ++ node :: tree.refs.drop (node.id + 1) := by
    obtain ⟨bound, same⟩ := List.getElem?_eq_some_iff.mp place
    have next := List.drop_eq_getElem_cons bound
    rw [same] at next
    rw [← next, List.take_append_drop]
  have later : a.finishOf file tree rule = passNodes (a.entriesOf file tree rule) (tree.refs.drop (node.id + 1))
      (passNode ((a.entriesOf file tree rule).drop j) (a.contextAt file tree rule node j) node) := by
    unfold finishOf contextAt passNode
    rw [← List.foldl_append, List.take_append_drop]
    conv_lhs => rw [split]
    unfold passNodes
    rw [List.foldl_append]
    rfl
  rw [later]
  have here := prefix_passNode ((a.entriesOf file tree rule).drop j)
    (fun e dropped => appends e (List.mem_of_mem_drop dropped)) node (a.contextAt file tree rule node j)
  exact here.trans (prefix_passNodes _ appends _ _)

/-! ### Counting the added faults -/

theorem flatten_withColumn (place : Nat) (cell : NodeRef → Option Fault) (nodes : List NodeRef)
    (grid : List (List (Option Fault))) (size : grid.length = nodes.length) (wide : ∀ row ∈ grid, place ≤ row.length) :
    (withColumn place cell nodes grid).flatten.Perm (grid.flatten ++ nodes.map cell) := by
  induction grid generalizing nodes with
  | nil =>
    obtain rfl := List.length_eq_zero_iff.mp size.symm
    exact List.Perm.refl _
  | cons row grid ih =>
    obtain ⟨node, rest, rfl⟩ := List.exists_cons_of_length_pos (by rw [← size]; simp : 0 < nodes.length)
    have below := ih rest (by simpa using size) fun other inside => wide other (List.mem_cons_of_mem _ inside)
    have here := List.perm_insertIdx (cell node) row (wide row List.mem_cons_self)
    have both := here.append below
    rw [List.cons_append, ← List.append_assoc] at both
    rw [withColumn, List.zipWith_cons_cons, List.flatten_cons, List.flatten_cons, List.map_cons]
    exact both.trans List.perm_middle.symm

theorem flatten_modify (grids : List (List (List (Option Fault)))) (r : Nat) (grid : List (List (Option Fault)))
    (h : List (List (Option Fault)) → List (List (Option Fault))) (more : List (Option Fault))
    (here : grids[r]? = some grid) (added : (h grid).flatten.Perm (grid.flatten ++ more)) :
    (grids.modify r h).flatten.flatten.Perm (grids.flatten.flatten ++ more) := by
  induction grids generalizing r with
  | nil => simp at here
  | cons first rest ih =>
    cases r with
    | zero =>
      obtain rfl : first = grid := by simpa using here
      rw [List.modify_zero_cons, List.flatten_cons, List.flatten_cons, List.flatten_append, List.flatten_append,
        List.append_assoc]
      refine (added.append_right _).trans ?_
      rw [List.append_assoc]
      exact List.perm_append_comm.append_left _
    | succ r =>
      have below := ih r (by simpa using here)
      rw [List.modify_succ_cons, List.flatten_cons, List.flatten_cons, List.flatten_append, List.flatten_append,
        List.append_assoc]
      exact below.append_left _

theorem reduceOption_failing (rule : Rule) (file : SourceFile) (kind : NodeKind)
    (error : NodeRef → RuleContext → VisitError) (ctx : NodeRef → RuleContext) (nodes : List NodeRef) :
    (nodes.map fun node => failingCell rule file kind error node (ctx node)).reduceOption =
      (nodes.filter fun node => kind = node.kind).map fun node => rule.fault file node (error node (ctx node)) := by
  induction nodes with
  | nil => rfl
  | cons node rest ih =>
    rw [List.map_cons, failingCell]
    by_cases called : kind = node.kind
    · rw [if_pos called, List.reduceOption_cons_of_some, ih, List.filter_cons_of_pos (by simpa using called),
        List.map_cons]
    · rw [if_neg called, List.reduceOption_cons_of_none, ih, List.filter_cons_of_neg (by simpa using called)]

theorem grid_sizes (a : Analyzer) (file : SourceFile) (tree : SyntaxTree) (rule : Rule) :
    (a.grid file tree rule).length = tree.refs.length ∧
      ∀ row ∈ a.grid file tree rule, row.length = (a.entriesOf file tree rule).length := by
  refine ⟨List.length_map _, ?_⟩
  intro row inside
  obtain ⟨node, _, rfl⟩ := List.mem_map.mp inside
  rw [List.length_map, List.length_zipIdx]

theorem flatten_insertIdx_nil {α : Type} (lists : List (List α)) (r : Nat) :
    (lists.insertIdx r []).flatten = lists.flatten := by
  induction lists generalizing r with
  | nil => cases r <;> rfl
  | cons first rest ih =>
    cases r with
    | zero => rfl
    | succ r => rw [List.insertIdx_succ_cons, List.flatten_cons, ih, List.flatten_cons]

/-! ### Isolation -/

/-- The faults of a handler that always fails: one for each node of its kind. -/
def failures (rule : Rule) (file : SourceFile) (kind : NodeKind) (error : NodeRef → RuleContext → VisitError)
    (ctx : NodeRef → RuleContext) (nodes : List NodeRef) : List Fault :=
  (nodes.filter fun node => kind = node.kind).map fun node => rule.fault file node (error node (ctx node))

theorem faults_perm_of_cells {a more : Analyzer} {file : SourceFile} {tree : SyntaxTree} (rule : Rule)
    (kind : NodeKind) (error : NodeRef → RuleContext → VisitError) (ctx : NodeRef → RuleContext)
    (cells : (more.grids file tree).flatten.flatten.Perm
      ((a.grids file tree).flatten.flatten ++
        tree.refs.map fun node => failingCell rule file kind error node (ctx node))) :
    (more.checkTree file tree).faults.Perm
      ((a.checkTree file tree).faults ++ failures rule file kind error ctx tree.refs) := by
  have kept := cells.filterMap id
  rw [List.filterMap_append] at kept
  rw [more.checkTree_eq_flatten, a.checkTree_eq_flatten, failures, ← reduceOption_failing]
  exact kept

theorem found_withEntries (a : Analyzer) (file : SourceFile) (tree : SyntaxTree) (r : Nat)
    (f : List TableEntry → List TableEntry) (same : ∀ entries, passNode (f entries) = passNode entries) :
    (a.withRules (a.rules.modify r (·.withEntries f))).found file tree = a.found file tree := by
  apply found_withRules_modify
  intro rule
  rw [a.finishOf_withEntries file tree rule f (same _)]

theorem grids_added (a : Analyzer) (file : SourceFile) (tree : SyntaxTree) (r : Nat) (rule : Rule)
    (here : a.rules[r]? = some rule) (place : Nat) (kind : NodeKind) (error : NodeRef → RuleContext → VisitError) :
    (a.withRules (a.rules.modify r (·.withEntries (·.insertIdx place (kind, failing error))))).grids file tree =
      (a.grids file tree).modify r (withColumn place
        (fun node => failingCell rule file kind error node (a.contextAt file tree rule node place)) tree.refs) := by
  apply grids_withRules_modify
  intro found there
  obtain rfl : rule = found := Option.some.inj (here.symm.trans there)
  exact grid_failing a file tree rule place kind error

theorem grid_only_failing (a : Analyzer) (file : SourceFile) (tree : SyntaxTree) (descriptor : Descriptor)
    (kind : NodeKind) (error : NodeRef → RuleContext → VisitError) :
    let rule : Rule := ⟨descriptor, fun _ => ⟨[(kind, failing error)]⟩⟩
    (a.finishOf file tree rule).violations = [] ∧
      a.grid file tree rule =
        tree.refs.map fun node => [failingCell rule file kind error node (a.startOf file tree rule)] := by
  intro rule
  let idle : Rule := ⟨descriptor, fun _ => .empty⟩
  have still : ∀ nodes ctx, passNodes [] nodes ctx = ctx := by
    intro nodes ctx
    exact List.foldl_fixed nodes
  have ends : a.finishOf file tree rule = a.startOf file tree rule :=
    (finishOf_withEntries a file tree idle (·.insertIdx 0 (kind, failing error))
      (passNode_failing kind error _ 0)).trans (still tree.refs _)
  refine ⟨by rw [ends]; rfl, ?_⟩
  refine (grid_withEntries a file tree idle (·.insertIdx 0 (kind, failing error))
    (passNode_failing kind error _ 0)).trans ?_
  apply List.map_congr_left
  intro node _
  have starts : a.contextAt file tree idle node 0 = a.startOf file tree idle := still (tree.refs.take node.id) _
  rw [starts]
  rfl

structure FaultsIsolated (a : Analyzer) (file : SourceFile) (tree : SyntaxTree) : Prop where
  /-- A fault for each failed call, by rule, then by node, then by entry. -/
  ordered : a.checkTree file tree = ⟨(a.found file tree).flatten, (a.grids file tree).flatten.flatten.reduceOption⟩
  /-- The next turn finds what a failed call has left, and reports made before the failure stay to the end. -/
  kept : ∀ rule ∈ a.rules, ∀ node ∈ tree.refs, ∀ j handler error next,
    (a.entriesOf file tree rule)[j]? = some (node.kind, handler) →
    handler node (a.contextAt file tree rule node j) = .error error next →
    a.contextAt file tree rule node (j + 1) = next ∧
      ((∀ e ∈ a.entriesOf file tree rule, Appends e.2) → next.violations <+: (a.finishOf file tree rule).violations)
  /-- A handler that no longer fails empties its own cells. -/
  quietened : ∀ r place,
    let quiet := a.withRules (a.rules.modify r (·.withEntries (·.modify place quieten)))
    quiet.found file tree = a.found file tree ∧
      quiet.grids file tree = (a.grids file tree).modify r (·.map (·.set place none)) ∧
      quiet.checkTree file tree = ⟨(a.checkTree file tree).violations,
        ((a.grids file tree).modify r (·.map (·.set place none))).flatten.flatten.reduceOption⟩
  /-- A new handler that always fails fills cells of its own. -/
  added : ∀ r rule place kind error, a.rules[r]? = some rule → place ≤ (a.entriesOf file tree rule).length →
    let more := a.withRules (a.rules.modify r (·.withEntries (·.insertIdx place (kind, failing error))))
    let context := fun node => a.contextAt file tree rule node place
    more.found file tree = a.found file tree ∧
      more.grids file tree = (a.grids file tree).modify r
        (withColumn place (fun node => failingCell rule file kind error node (context node)) tree.refs) ∧
      (more.checkTree file tree).violations = (a.checkTree file tree).violations ∧
      (more.checkTree file tree).faults.Perm
        ((a.checkTree file tree).faults ++ failures rule file kind error context tree.refs)
  /-- And so does one in a rule of its own. -/
  joined : ∀ r descriptor kind error, r ≤ a.rules.length →
    let rule : Rule := ⟨descriptor, fun _ => ⟨[(kind, failing error)]⟩⟩
    let more := a.withRules (a.rules.insertIdx r rule)
    let context := fun _ => a.startOf file tree rule
    more.found file tree = (a.found file tree).insertIdx r [] ∧
      more.grids file tree = (a.grids file tree).insertIdx r
        (tree.refs.map fun node => [failingCell rule file kind error node (context node)]) ∧
      (more.checkTree file tree).violations = (a.checkTree file tree).violations ∧
      (more.checkTree file tree).faults.Perm
        ((a.checkTree file tree).faults ++ failures rule file kind error context tree.refs)

theorem checkTree_isolates_faults (a : Analyzer) (file : SourceFile) (tree : SyntaxTree) :
    FaultsIsolated a file tree where
  ordered := a.checkTree_eq_flatten file tree
  kept := by
    intro rule _ node inside j handler error next entry failed
    have left : a.contextAt file tree rule node (j + 1) = next := by
      rw [a.contextAt_succ file tree rule node j _ entry]
      simp [passEntry, Visit.left, failed]
    refine ⟨left, ?_⟩
    intro appends
    rw [← left]
    exact a.contextAt_prefix_finishOf file tree rule appends node inside (j + 1)
  quietened := by
    intro r place quiet
    have reports : quiet.found file tree = a.found file tree :=
      a.found_withEntries file tree r (·.modify place quieten) fun entries => passNode_quieten entries place
    have cells : quiet.grids file tree = (a.grids file tree).modify r (·.map (·.set place none)) := by
      apply grids_withRules_modify
      intro rule _
      exact a.grid_quieten file tree rule place
    refine ⟨reports, cells, ?_⟩
    rw [quiet.checkTree_eq_flatten, a.checkTree_eq_flatten, reports, cells]
  added := by
    intro r rule place kind error here inside more context
    have cells := a.grids_added file tree r rule here place kind error
    have reports : more.found file tree = a.found file tree :=
      a.found_withEntries file tree r (·.insertIdx place (kind, failing error))
        fun entries => passNode_failing kind error entries place
    refine ⟨reports, cells, ?_, ?_⟩
    · rw [more.checkTree_eq_flatten, a.checkTree_eq_flatten, reports]
    · obtain ⟨tall, wide⟩ := a.grid_sizes file tree rule
      have grid : (a.grids file tree)[r]? = some (a.grid file tree rule) := by
        rw [grids, List.getElem?_map, here]
        rfl
      have column := flatten_withColumn place
        (fun node => failingCell rule file kind error node (context node)) tree.refs (a.grid file tree rule) tall
        fun row there => by rw [wide row there]; exact inside
      have all := flatten_modify _ r _ _ _ grid column
      rw [← cells] at all
      exact faults_perm_of_cells rule kind error context all
  joined := by
    intro r descriptor kind error inside rule more context
    obtain ⟨silent, cells⟩ := a.grid_only_failing file tree descriptor kind error
    have cellsOfAll : more.grids file tree = (a.grids file tree).insertIdx r
        (tree.refs.map fun node => [failingCell rule file kind error node (context node)]) := by
      rw [← cells]
      exact List.map_insertIdx ..
    have reports : more.found file tree = (a.found file tree).insertIdx r [] := by
      rw [← silent]
      exact List.map_insertIdx ..
    have violations : (more.checkTree file tree).violations = (a.checkTree file tree).violations := by
      rw [more.checkTree_eq_flatten, a.checkTree_eq_flatten, reports]
      exact flatten_insertIdx_nil _ r
    refine ⟨reports, cellsOfAll, violations, ?_⟩
    have front := List.perm_insertIdx
      (tree.refs.map fun node => [failingCell rule file kind error node (context node)])
      (a.grids file tree) (by rw [grids, List.length_map]; exact inside : r ≤ (a.grids file tree).length)
    have all := front.flatten.flatten
    rw [← cellsOfAll, List.flatten_cons, List.flatten_append] at all
    have own : (tree.refs.map fun node => [failingCell rule file kind error node (context node)]).flatten =
        tree.refs.map fun node => failingCell rule file kind error node (context node) := by
      rw [List.flatten_eq_flatMap, List.flatMap_map]
      exact List.map_eq_flatMap.symm
    rw [own] at all
    exact faults_perm_of_cells rule kind error context (all.trans List.perm_append_comm)

end Analyzer

end ArchLint
