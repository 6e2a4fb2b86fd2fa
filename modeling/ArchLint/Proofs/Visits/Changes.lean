import ArchLint.Proofs.Visits.Calls
import Mathlib.Data.List.InsertIdx

/-!
# Changed handlers

What a grid of faults becomes when one handler no longer fails, or when a handler is added that always fails and
reports nothing. Neither changes the contexts that the other turns find.
-/

namespace ArchLint

open TableEntry

/-- The handler that leaves what `h` leaves and never fails. -/
def forgiving (h : Handler) : Handler :=
  fun node ctx => .ok () ((h node).left ctx)

/-- The handler that reports nothing and always fails. -/
def failing (error : NodeRef → RuleContext → VisitError) : Handler :=
  fun node ctx => .error (error node ctx) ctx

def Rule.withEntries (rule : Rule) (f : List TableEntry → List TableEntry) : Rule :=
  { rule with visitors := fun ctx => ⟨f (rule.visitors ctx).entries⟩ }

/-! ### Single turns -/

theorem row_withEntries (rule : Rule) (f : List TableEntry → List TableEntry) (file : SourceFile) (node : NodeRef)
    (entries : List TableEntry) (ctx : RuleContext) :
    (rule.withEntries f).row file node entries ctx = rule.row file node entries ctx := by
  induction entries generalizing ctx with
  | nil => rfl
  | cons e rest ih =>
    rw [Rule.row, Rule.row, ih]
    rfl

theorem passEntry_forgiving (node : NodeRef) (ctx : RuleContext) (e : TableEntry) :
    passEntry node ctx (e.1, forgiving e.2) = passEntry node ctx e := rfl

theorem turnFault_forgiving (rule : Rule) (file : SourceFile) (node : NodeRef) (ctx : RuleContext) (e : TableEntry) :
    rule.turnFault file node ctx (e.1, forgiving e.2) = none := by
  unfold Rule.turnFault
  split <;> rfl

theorem passEntry_failing (node : NodeRef) (ctx : RuleContext) (kind : NodeKind)
    (error : NodeRef → RuleContext → VisitError) : passEntry node ctx (kind, failing error) = ctx := by
  unfold passEntry
  split <;> rfl

/-- The cell of a handler that always fails. -/
def failingCell (rule : Rule) (file : SourceFile) (kind : NodeKind) (error : NodeRef → RuleContext → VisitError)
    (node : NodeRef) (ctx : RuleContext) : Option Fault :=
  if kind = node.kind then some (rule.fault file node (error node ctx)) else none

theorem turnFault_failing (rule : Rule) (file : SourceFile) (node : NodeRef) (ctx : RuleContext) (kind : NodeKind)
    (error : NodeRef → RuleContext → VisitError) :
    rule.turnFault file node ctx (kind, failing error) = failingCell rule file kind error node ctx := rfl

/-! ### One handler replaced -/

def quieten (e : TableEntry) : TableEntry :=
  (e.1, forgiving e.2)

theorem foldl_passEntry_quieten (node : NodeRef) (entries : List TableEntry) (place : Nat) (ctx : RuleContext) :
    (entries.modify place quieten).foldl (passEntry node) ctx = entries.foldl (passEntry node) ctx := by
  induction entries generalizing place ctx with
  | nil => rw [List.modify_nil]
  | cons e rest ih =>
    cases place with
    | zero => rfl
    | succ place => rw [List.modify_succ_cons, List.foldl_cons, List.foldl_cons, ih]

theorem passNode_quieten (entries : List TableEntry) (place : Nat) :
    passNode (entries.modify place quieten) = passNode entries := by
  funext ctx node
  exact foldl_passEntry_quieten node entries place ctx

theorem row_quieten (rule : Rule) (file : SourceFile) (node : NodeRef) (entries : List TableEntry) (place : Nat)
    (ctx : RuleContext) :
    rule.row file node (entries.modify place quieten) ctx = (rule.row file node entries ctx).set place none := by
  induction entries generalizing place ctx with
  | nil =>
    rw [List.modify_nil]
    rfl
  | cons e rest ih =>
    cases place with
    | zero =>
      rw [List.modify_zero_cons, Rule.row, Rule.row, List.set_cons_zero, quieten, turnFault_forgiving,
        passEntry_forgiving]
    | succ place => rw [List.modify_succ_cons, Rule.row, Rule.row, List.set_cons_succ, ih]

/-! ### One handler added -/

section added

variable (kind : NodeKind) (error : NodeRef → RuleContext → VisitError)

theorem foldl_passEntry_failing (node : NodeRef) (entries : List TableEntry) (place : Nat) (ctx : RuleContext) :
    (entries.insertIdx place (kind, failing error)).foldl (passEntry node) ctx =
      entries.foldl (passEntry node) ctx := by
  induction entries generalizing place ctx with
  | nil =>
    cases place with
    | zero => exact passEntry_failing node ctx kind error
    | succ place => rfl
  | cons e rest ih =>
    cases place with
    | zero => rw [List.insertIdx_zero, List.foldl_cons, passEntry_failing]
    | succ place => rw [List.insertIdx_succ_cons, List.foldl_cons, List.foldl_cons, ih]

theorem passNode_failing (entries : List TableEntry) (place : Nat) :
    passNode (entries.insertIdx place (kind, failing error)) = passNode entries := by
  funext ctx node
  exact foldl_passEntry_failing kind error node entries place ctx

theorem row_failing (rule : Rule) (file : SourceFile) (node : NodeRef) (entries : List TableEntry) (place : Nat)
    (ctx : RuleContext) :
    rule.row file node (entries.insertIdx place (kind, failing error)) ctx =
      (rule.row file node entries ctx).insertIdx place
        (failingCell rule file kind error node ((entries.take place).foldl (passEntry node) ctx)) := by
  induction entries generalizing place ctx with
  | nil =>
    cases place with
    | zero => rfl
    | succ place => rfl
  | cons e rest ih =>
    cases place with
    | zero =>
      rw [List.insertIdx_zero, Rule.row, turnFault_failing, passEntry_failing, List.insertIdx_zero]
      rfl
    | succ place => rw [List.insertIdx_succ_cons, Rule.row, Rule.row, List.insertIdx_succ_cons, ih]; rfl

end added

/-! ### Analyzers -/

namespace Analyzer

/-- The grids of all rules, in the order of the rules. -/
def grids (a : Analyzer) (file : SourceFile) (tree : SyntaxTree) : List (List (List (Option Fault))) :=
  a.rules.map (a.grid file tree)

def found (a : Analyzer) (file : SourceFile) (tree : SyntaxTree) : List (List Violation) :=
  a.rules.map fun rule => (a.finishOf file tree rule).violations

theorem checkTree_eq_flatten (a : Analyzer) (file : SourceFile) (tree : SyntaxTree) :
    a.checkTree file tree = ⟨(a.found file tree).flatten, (a.grids file tree).flatten.flatten.reduceOption⟩ := by
  rw [checkTree_eq, grids, List.flatten_flatten, List.map_map]
  rfl

theorem grid_eq_row (a : Analyzer) (file : SourceFile) (tree : SyntaxTree) (rule : Rule) :
    a.grid file tree rule = tree.refs.map fun node =>
      rule.row file node (a.entriesOf file tree rule) (a.contextAt file tree rule node 0) := by
  rw [grid_eq_rows, Rule.rows_eq, SyntaxTree.zipIdx_refs, List.map_map]
  rfl

theorem map_modify_eq {α β : Type} (g : α → β) (f : α → α) (h : β → β) (l : List α) (i : Nat)
    (same : ∀ x, l[i]? = some x → g (f x) = h (g x)) : (l.modify i f).map g = (l.map g).modify i h := by
  apply List.ext_getElem?
  intro j
  rw [List.getElem?_map, List.getElem?_modify, List.getElem?_modify, List.getElem?_map]
  cases found : l[j]? with
  | none => rfl
  | some x =>
    by_cases here : i = j
    · subst here
      simp [same x found]
    · simp [here]

section changed

variable (a : Analyzer) (file : SourceFile) (tree : SyntaxTree) (r : Nat) (f : Rule → Rule)

theorem found_withRules_modify
    (same : ∀ rule, (a.finishOf file tree (f rule)).violations = (a.finishOf file tree rule).violations) :
    (a.withRules (a.rules.modify r f)).found file tree = a.found file tree := by
  have kept := map_modify_eq (fun rule => (a.finishOf file tree rule).violations) f id a.rules r
    fun rule _ => same rule
  rw [List.modify_id] at kept
  exact kept

theorem grids_withRules_modify (h : List (List (Option Fault)) → List (List (Option Fault)))
    (same : ∀ rule, a.rules[r]? = some rule → a.grid file tree (f rule) = h (a.grid file tree rule)) :
    (a.withRules (a.rules.modify r f)).grids file tree = (a.grids file tree).modify r h :=
  map_modify_eq (a.grid file tree) f h a.rules r same

end changed

theorem finishOf_withEntries (a : Analyzer) (file : SourceFile) (tree : SyntaxTree) (rule : Rule)
    (f : List TableEntry → List TableEntry)
    (same : passNode (f (a.entriesOf file tree rule)) = passNode (a.entriesOf file tree rule)) :
    a.finishOf file tree (rule.withEntries f) = a.finishOf file tree rule := by
  unfold finishOf passNodes
  exact congrArg (fun step => tree.refs.foldl step (a.startOf file tree rule)) same

theorem grid_withEntries (a : Analyzer) (file : SourceFile) (tree : SyntaxTree) (rule : Rule)
    (f : List TableEntry → List TableEntry)
    (same : passNode (f (a.entriesOf file tree rule)) = passNode (a.entriesOf file tree rule)) :
    a.grid file tree (rule.withEntries f) = tree.refs.map fun node =>
      rule.row file node (f (a.entriesOf file tree rule)) (a.contextAt file tree rule node 0) := by
  rw [grid_eq_row]
  apply List.map_congr_left
  intro node _
  have before : a.contextAt file tree (rule.withEntries f) node 0 = a.contextAt file tree rule node 0 := by
    unfold contextAt passNodes
    exact congrArg (fun step => (tree.refs.take node.id).foldl step (a.startOf file tree rule)) same
  rw [before, row_withEntries]
  rfl

theorem grid_quieten (a : Analyzer) (file : SourceFile) (tree : SyntaxTree) (rule : Rule) (place : Nat) :
    a.grid file tree (rule.withEntries (·.modify place quieten)) =
      (a.grid file tree rule).map (·.set place none) := by
  rw [grid_withEntries a file tree rule (·.modify place quieten) (passNode_quieten _ place), grid_eq_row, List.map_map]
  apply List.map_congr_left
  intro node _
  exact row_quieten rule file node _ place _

/-- A grid with one more cell in each row. -/
def withColumn (place : Nat) (cell : NodeRef → Option Fault) (nodes : List NodeRef)
    (grid : List (List (Option Fault))) : List (List (Option Fault)) :=
  List.zipWith (fun row node => row.insertIdx place (cell node)) grid nodes

theorem grid_failing (a : Analyzer) (file : SourceFile) (tree : SyntaxTree) (rule : Rule) (place : Nat)
    (kind : NodeKind) (error : NodeRef → RuleContext → VisitError) :
    a.grid file tree (rule.withEntries (·.insertIdx place (kind, failing error))) =
      withColumn place (fun node => failingCell rule file kind error node (a.contextAt file tree rule node place))
        tree.refs (a.grid file tree rule) := by
  rw [grid_withEntries a file tree rule (·.insertIdx place (kind, failing error))
    (passNode_failing kind error _ place), grid_eq_row, withColumn, List.zipWith_map_left, List.zipWith_self]
  apply List.map_congr_left
  intro node _
  exact row_failing kind error rule file node _ place _

end Analyzer

end ArchLint
