import ArchLint.Analysis.Analyzer
import Mathlib.Data.List.ReduceOption

/-!
# Visits, call by call

A rule visits the nodes of a tree in turn, and at each node the entries of its table in turn. `contextAt` is the
context that one entry finds, `faultAt` the fault that it leaves, and `checkTree_eq` says that a report holds the
violations of the last contexts and the faults in the order of the calls.
-/

namespace ArchLint

namespace Visit

theorem get_bind {α : Type} (next : RuleContext → Visit α) (ctx : RuleContext) : (get >>= next) ctx = next ctx ctx :=
  rfl

/-- The context that a step leaves, whether it fails or not. -/
def left (step : Visit Unit) (ctx : RuleContext) : RuleContext :=
  match step ctx with
  | .ok _ next => next
  | .error _ next => next

def failure? (step : Visit Unit) (ctx : RuleContext) : Option VisitError :=
  match step ctx with
  | .ok _ _ => none
  | .error e _ => some e

end Visit

abbrev TableEntry := NodeKind × Handler

namespace TableEntry

/-- The context after an entry's turn at a node. A handler for another kind is not called. -/
def passEntry (node : NodeRef) (ctx : RuleContext) (e : TableEntry) : RuleContext :=
  if e.1 = node.kind then (e.2 node).left ctx else ctx

def passNode (entries : List TableEntry) (ctx : RuleContext) (node : NodeRef) : RuleContext :=
  entries.foldl (passEntry node) ctx

def passNodes (entries : List TableEntry) (nodes : List NodeRef) (ctx : RuleContext) : RuleContext :=
  nodes.foldl (passNode entries) ctx

end TableEntry

open TableEntry

namespace Rule

/-- The fault of an entry's turn at a node, if its handler is called there and fails. -/
def turnFault (rule : Rule) (file : SourceFile) (node : NodeRef) (ctx : RuleContext) (e : TableEntry) :
    Option Fault :=
  if e.1 = node.kind then
    ((e.2 node).failure? ctx).map fun error =>
      ⟨file.relativePath, rule.name, node.grammarKind, node.span.line, error.message⟩
  else none

def row (rule : Rule) (file : SourceFile) (node : NodeRef) : List TableEntry → RuleContext → List (Option Fault)
  | [], _ => []
  | e :: rest, ctx => rule.turnFault file node ctx e :: rule.row file node rest (passEntry node ctx e)

def rows (rule : Rule) (file : SourceFile) (entries : List TableEntry) :
    List NodeRef → RuleContext → List (List (Option Fault))
  | [], _ => []
  | node :: rest, ctx => rule.row file node entries ctx :: rule.rows file entries rest (passNode entries ctx node)

/-! ### A visit as rows of turns -/

theorem call_eq (rule : Rule) (file : SourceFile) (node : NodeRef) (handler : Handler) (ctx : RuleContext) :
    rule.call file node handler ctx =
      ((handler node).left ctx, (((handler node).failure? ctx).map (rule.fault file node)).toList) := by
  unfold call Visit.left Visit.failure?
  cases handler node ctx <;> rfl

theorem visitNode_eq (rule : Rule) (file : SourceFile) (table : VisitorTable) (node : NodeRef) (ctx : RuleContext) :
    rule.visitNode file table node ctx =
      (passNode table.entries ctx node, (rule.row file node table.entries ctx).reduceOption) := by
  have turns : ∀ (entries : List TableEntry) (ctx : RuleContext) (faults : List Fault),
      ((entries.filter (·.1 = node.kind)).map (·.2)).foldl
          (fun (acc : RuleContext × List Fault) handler =>
            ((rule.call file node handler acc.1).1, acc.2 ++ (rule.call file node handler acc.1).2)) (ctx, faults) =
        (entries.foldl (passEntry node) ctx, faults ++ (rule.row file node entries ctx).reduceOption) := by
    intro entries
    induction entries with
    | nil =>
      intro ctx faults
      rw [row]
      simp
    | cons e rest ih =>
      intro ctx faults
      rw [row, List.foldl_cons]
      by_cases called : e.1 = node.kind
      · rw [List.filter_cons_of_pos (by simpa using called), List.map_cons, List.foldl_cons, ih, call_eq]
        simp only [passEntry, turnFault, called, if_true, Prod.mk.injEq, true_and]
        cases (e.2 node).failure? ctx with
        | none => simp
        | some error => simp [fault]
      · rw [List.filter_cons_of_neg (by simpa using called), ih]
        simp only [passEntry, turnFault, called, if_false, List.reduceOption_cons_of_none]
  exact turns table.entries ctx []

theorem visitNodes_eq (rule : Rule) (file : SourceFile) (table : VisitorTable) (nodes : List NodeRef)
    (ctx : RuleContext) :
    rule.visitNodes file table nodes ctx =
      (passNodes table.entries nodes ctx, (rule.rows file table.entries nodes ctx).flatten.reduceOption) := by
  have all : ∀ (nodes : List NodeRef) (ctx : RuleContext) (faults : List Fault),
      nodes.foldl
          (fun (acc : RuleContext × List Fault) node =>
            ((rule.visitNode file table node acc.1).1, acc.2 ++ (rule.visitNode file table node acc.1).2))
          (ctx, faults) =
        (passNodes table.entries nodes ctx,
          faults ++ (rule.rows file table.entries nodes ctx).flatten.reduceOption) := by
    intro nodes
    induction nodes with
    | nil =>
      intro ctx faults
      rw [rows]
      simp [passNodes]
    | cons node rest ih =>
      intro ctx faults
      rw [List.foldl_cons, ih, visitNode_eq, rows, List.flatten_cons, List.reduceOption_append, List.append_assoc]
      rfl
  exact all nodes ctx []

theorem row_eq (rule : Rule) (file : SourceFile) (node : NodeRef) (entries : List TableEntry) (ctx : RuleContext) :
    rule.row file node entries ctx =
      entries.zipIdx.map fun e => rule.turnFault file node ((entries.take e.2).foldl (passEntry node) ctx) e.1 := by
  have go : ∀ (before entries : List TableEntry),
      rule.row file node entries (before.foldl (passEntry node) ctx) =
        (entries.zipIdx before.length).map fun e =>
          rule.turnFault file node (((before ++ entries).take e.2).foldl (passEntry node) ctx) e.1 := by
    intro before entries
    induction entries generalizing before with
    | nil => rfl
    | cons e rest ih =>
      have next := ih (before ++ [e])
      rw [List.foldl_append, List.length_append] at next
      rw [row, List.zipIdx_cons, List.map_cons, List.take_left]
      congr 1
      simpa using next
  exact go [] entries

theorem rows_eq (rule : Rule) (file : SourceFile) (entries : List TableEntry) (nodes : List NodeRef)
    (ctx : RuleContext) :
    rule.rows file entries nodes ctx =
      nodes.zipIdx.map fun n => rule.row file n.1 entries (passNodes entries (nodes.take n.2) ctx) := by
  have go : ∀ (before nodes : List NodeRef),
      rule.rows file entries nodes (passNodes entries before ctx) =
        (nodes.zipIdx before.length).map fun n =>
          rule.row file n.1 entries (passNodes entries ((before ++ nodes).take n.2) ctx) := by
    intro before nodes
    induction nodes generalizing before with
    | nil => rfl
    | cons node rest ih =>
      have next := ih (before ++ [node])
      have further : passNodes entries (before ++ [node]) ctx =
          passNode entries (passNodes entries before ctx) node := by
        rw [passNodes, List.foldl_append]
        rfl
      rw [further, List.length_append] at next
      rw [rows, List.zipIdx_cons, List.map_cons, List.take_left]
      congr 1
      simpa using next
  exact go [] nodes

end Rule

/-! ### Nodes of a tree -/

theorem SyntaxTree.refs_eq (t : SyntaxTree) : t.refs = t.nodes.toList.zipIdx.map fun n => ⟨n.1, n.2⟩ := by
  apply List.ext_getElem?
  intro i
  have all : t.refs = (List.range t.size).map fun j => (⟨t.nodes[j]!, j⟩ : NodeRef) := by
    rw [SyntaxTree.refs, ← List.filterMap_eq_map']
    apply List.filterMap_congr
    intro j inside
    have bound : j < t.nodes.size := List.mem_range.mp inside
    simp [ref?, bound]
  rw [all, List.getElem?_map, List.getElem?_map, List.getElem?_zipIdx]
  by_cases inside : i < t.size
  · rw [List.getElem?_range inside]
    rw [size] at inside
    simp [inside]
  · have outside : t.nodes.toList[i]? = none := List.getElem?_eq_none (by simpa [size] using inside)
    rw [List.getElem?_eq_none (by simpa using inside), outside]
    rfl

theorem SyntaxTree.zipIdx_refs (t : SyntaxTree) : t.refs.zipIdx = t.refs.map fun node => (node, node.id) := by
  rw [refs_eq, List.map_map]
  apply List.ext_getElem?
  intro i
  simp only [List.getElem?_zipIdx, List.getElem?_map, Option.map_map]
  cases t.nodes.toList[i]? <;> simp

theorem SyntaxTree.map_id_refs (t : SyntaxTree) : t.refs.map (·.id) = List.range t.size := by
  have length : t.refs.length = t.size := by simp [refs_eq, size]
  calc t.refs.map (·.id) = t.refs.zipIdx.map Prod.snd := by rw [zipIdx_refs, List.map_map]; rfl
    _ = List.range t.size := by rw [List.zipIdx_map_snd, length, List.range_eq_range']

theorem SyntaxTree.mem_refs {t : SyntaxTree} {node : NodeRef} : node ∈ t.refs ↔ t.ref? node.id = some node := by
  unfold refs
  rw [List.mem_filterMap]
  constructor
  · rintro ⟨id, -, there⟩
    obtain ⟨inner, stored, rfl⟩ := Option.map_eq_some_iff.mp there
    exact there
  · intro there
    refine ⟨node.id, ?_, there⟩
    rw [List.mem_range]
    by_contra outside
    rw [(t.ref?_eq_none_iff node.id).mpr (Nat.le_of_not_lt outside)] at there
    cases there

theorem SyntaxTree.pairwise_refs (t : SyntaxTree) : t.refs.Pairwise (·.id < ·.id) := by
  rw [← List.pairwise_map (f := NodeRef.id) (R := (· < ·)), map_id_refs]
  exact List.pairwise_lt_range

/-- The nodes are those of the tree that have a property, in the order of their ids. -/
def SyntaxTree.Lists (t : SyntaxTree) (P : NodeRef → Prop) (nodes : List NodeRef) : Prop :=
  nodes.Pairwise (·.id < ·.id) ∧ ∀ node, node ∈ nodes ↔ t.ref? node.id = some node ∧ P node

theorem SyntaxTree.lists_filter (t : SyntaxTree) {P : NodeRef → Prop} {p : NodeRef → Bool}
    (decides : ∀ node, p node = true ↔ P node) : t.Lists P (t.refs.filter p) := by
  refine ⟨t.pairwise_refs.filter p, ?_⟩
  intro node
  rw [List.mem_filter, mem_refs, decides]

/-! ### Reports of an analyzer -/

namespace Analyzer

def withRules (a : Analyzer) (rules : List Rule) : Analyzer :=
  { a with rules := rules }

def startOf (a : Analyzer) (file : SourceFile) (tree : SyntaxTree) (rule : Rule) : RuleContext :=
  .fresh file tree rule.descriptor (a.severityOf rule)

def entriesOf (a : Analyzer) (file : SourceFile) (tree : SyntaxTree) (rule : Rule) : List TableEntry :=
  (rule.visitors (a.startOf file tree rule)).entries

def finishOf (a : Analyzer) (file : SourceFile) (tree : SyntaxTree) (rule : Rule) : RuleContext :=
  passNodes (a.entriesOf file tree rule) tree.refs (a.startOf file tree rule)

/-- The context that entry number `j` finds at a node: what all earlier turns have left. -/
def contextAt (a : Analyzer) (file : SourceFile) (tree : SyntaxTree) (rule : Rule) (node : NodeRef) (j : Nat) :
    RuleContext :=
  passNode ((a.entriesOf file tree rule).take j)
    (passNodes (a.entriesOf file tree rule) (tree.refs.take node.id) (a.startOf file tree rule)) node

/-- The faults of a rule: a row for each node in the order of ids, and in it a cell for each entry of the rule's
table in the order of registration. -/
def grid (a : Analyzer) (file : SourceFile) (tree : SyntaxTree) (rule : Rule) : List (List (Option Fault)) :=
  tree.refs.map fun node => (a.entriesOf file tree rule).zipIdx.map fun e =>
    rule.turnFault file node (a.contextAt file tree rule node e.2) e.1

theorem grid_eq_rows (a : Analyzer) (file : SourceFile) (tree : SyntaxTree) (rule : Rule) :
    a.grid file tree rule = rule.rows file (a.entriesOf file tree rule) tree.refs (a.startOf file tree rule) := by
  rw [Rule.rows_eq, SyntaxTree.zipIdx_refs, List.map_map, grid]
  apply List.map_congr_left
  intro node _
  rw [Function.comp_apply, Rule.row_eq]
  rfl

theorem check_eq (a : Analyzer) (file : SourceFile) (tree : SyntaxTree) (rule : Rule) :
    rule.check (a.severityOf rule) file tree =
      ⟨(a.finishOf file tree rule).violations, (a.grid file tree rule).flatten.reduceOption⟩ := by
  rw [grid_eq_rows]
  unfold Rule.check
  simp only [Rule.visitNodes_eq]
  rfl

theorem checkTree_eq_flatMap (a : Analyzer) (file : SourceFile) (tree : SyntaxTree) :
    a.checkTree file tree =
      ⟨a.rules.flatMap fun rule => (rule.check (a.severityOf rule) file tree).violations,
        a.rules.flatMap fun rule => (rule.check (a.severityOf rule) file tree).faults⟩ := by
  have all : ∀ (rules : List Rule) (report : FileReport),
      rules.foldl (fun report rule => report.append (rule.check (a.severityOf rule) file tree)) report =
        ⟨report.violations ++ rules.flatMap fun rule => (rule.check (a.severityOf rule) file tree).violations,
          report.faults ++ rules.flatMap fun rule => (rule.check (a.severityOf rule) file tree).faults⟩ := by
    intro rules
    induction rules with
    | nil =>
      intro report
      simp
    | cons rule rest ih =>
      intro report
      rw [List.foldl_cons, ih, List.flatMap_cons, List.flatMap_cons]
      simp only [FileReport.append, List.append_assoc]
  exact all a.rules .empty

theorem checkTree_eq (a : Analyzer) (file : SourceFile) (tree : SyntaxTree) :
    a.checkTree file tree =
      ⟨a.rules.flatMap fun rule => (a.finishOf file tree rule).violations,
        (a.rules.flatMap fun rule => (a.grid file tree rule).flatten).reduceOption⟩ := by
  rw [checkTree_eq_flatMap, List.reduceOption, List.filterMap_flatMap]
  simp only [check_eq]
  rfl

end Analyzer

end ArchLint
