import ArchLint.Proofs.Visits.Decoration

/-!
# Visits of the same tree in another file

A handler is portable if it makes of a context in another file what it makes of the context here, with the other name
in every place that it reports. A whole check by portable handlers then tells two files apart by their names only. The
built-in handlers are portable; what is not so are the tables, which look at the path and the text.
-/

namespace ArchLint

/-! ### Findings under another name -/

def Location.inFile (file : Path) (l : Location) : Location :=
  { l with file := file }

def Label.inFile (file : Path) (l : Label) : Label :=
  { l with location := l.location.inFile file }

/-- The violation with another file in its location and in the locations of its labels. -/
def Violation.inFile (file : Path) (v : Violation) : Violation :=
  { v with location := v.location.inFile file, labels := v.labels.map (·.inFile file) }

def Fault.inFile (file : Path) (f : Fault) : Fault :=
  { f with file := file }

namespace FileReport

def inFile (file : Path) (r : FileReport) : FileReport :=
  ⟨r.violations.map (·.inFile file), r.faults.map (·.inFile file)⟩

theorem inFile_inFile (first last : Path) (r : FileReport) : (r.inFile first).inFile last = r.inFile last := by
  have labels : ∀ l : Label, (l.inFile first).inFile last = l.inFile last := fun _ => rfl
  have violations : ∀ v : Violation, (v.inFile first).inFile last = v.inFile last := by
    intro v
    simp [Violation.inFile, Location.inFile, Function.comp_def, labels]
  have faults : ∀ f : Fault, (f.inFile first).inFile last = f.inFile last := fun _ => rfl
  simp [inFile, Function.comp_def, violations, faults]

end FileReport

/-! ### Steps in another file -/

/-- The context as it would be if the same had been reported in another file. -/
def RuleContext.movedTo (file : SourceFile) (ctx : RuleContext) : RuleContext :=
  { ctx with file := file, violations := ctx.violations.map (·.inFile file.relativePath) }

namespace Visit

def outcomeIn (file : SourceFile) {α : Type} :
    EStateM.Result VisitError RuleContext α → EStateM.Result VisitError RuleContext α
  | .ok a ctx => .ok a (ctx.movedTo file)
  | .error e ctx => .error e (ctx.movedTo file)

/-- The step answers the same in every file, and reports the same but for the name of the file. -/
def Portable {α : Type} (step : Visit α) : Prop :=
  ∀ ctx file, step (ctx.movedTo file) = outcomeIn file (step ctx)

theorem portable_pure {α : Type} (a : α) : Portable (pure a) :=
  fun _ _ => rfl

theorem portable_throw {α : Type} (e : VisitError) : Portable (throw e : Visit α) :=
  fun _ _ => rfl

theorem portable_bind {α β : Type} {step : Visit α} {next : α → Visit β} (first : Portable step)
    (later : ∀ a, Portable (next a)) : Portable (step >>= next) := by
  intro ctx file
  change EStateM.bind step next _ = outcomeIn file (EStateM.bind step next ctx)
  unfold EStateM.bind
  rw [first ctx file]
  cases step ctx with
  | ok a mid => exact later a mid file
  | error e mid => rfl

theorem portable_get_bind {α : Type} {next : SyntaxTree → Visit α} (later : ∀ tree, Portable (next tree)) :
    Portable (get >>= fun ctx => next ctx.tree) :=
  fun ctx file => later ctx.tree ctx file

theorem portable_ask {α : Type} (question : SyntaxTree → Except ShapeError α) : Portable (ask question) := by
  intro ctx file
  have same : (ctx.movedTo file).tree = ctx.tree := rfl
  unfold ask
  rw [get_bind, get_bind, same]
  cases question ctx.tree with
  | ok a => exact portable_pure a ctx file
  | error e => exact portable_throw (.shape e) ctx file

/-- What is attached to a violation depends on the file by its name only. -/
def PortableDecoration (decorate : RuleContext → Violation → Violation) : Prop :=
  ∀ ctx file v, decorate (ctx.movedTo file) (v.inFile file.relativePath) = (decorate ctx v).inFile file.relativePath

theorem portable_reportWith (node : NodeRef) (messageId : String) {decorate : RuleContext → Violation → Violation}
    (decoration : PortableDecoration decorate) : Portable (reportWith node messageId decorate) := by
  intro ctx file
  have reported : (ctx.movedTo file).reportWith node messageId (decorate (ctx.movedTo file)) =
      (ctx.reportWith node messageId (decorate ctx)).map (·.movedTo file) := by
    unfold RuleContext.reportWith
    have declared : (ctx.movedTo file).descriptor = ctx.descriptor := rfl
    have seen : (ctx.movedTo file).reported = ctx.reported := rfl
    rw [declared, seen]
    cases ctx.descriptor.message? messageId with
    | none => rfl
    | some template =>
      dsimp only
      split
      · rfl
      · have decorated := decoration ctx file (ctx.violation node messageId template)
        have moved : (ctx.violation node messageId template).inFile file.relativePath =
            (ctx.movedTo file).violation node messageId template := rfl
        rw [moved] at decorated
        rw [decorated]
        simp [Except.map, RuleContext.movedTo]
  unfold reportWith
  rw [get_bind, get_bind, reported]
  cases ctx.reportWith node messageId (decorate ctx) <;> rfl

end Visit

def Handler.Portable (h : Handler) : Prop :=
  ∀ node, Visit.Portable (h node)

def VisitorTable.Portable (table : VisitorTable) : Prop :=
  ∀ e ∈ table.entries, Handler.Portable e.2

/-! ### Checks of another file -/

namespace Rule

variable (rule : Rule) (here there : SourceFile)

/-- What some handlers leave, as they would have left it in another file. -/
def leftIn (file : SourceFile) (left : RuleContext × List Fault) : RuleContext × List Fault :=
  (left.1.movedTo file, left.2.map (·.inFile file.relativePath))

/-- Steps that carry over to another file one by one carry over when they are taken in turn. -/
theorem foldl_leftIn {α : Type} (xs : List α) {step elsewhere : α → RuleContext → RuleContext × List Fault}
    (each : ∀ x ∈ xs, ∀ ctx, elsewhere x (ctx.movedTo there) = leftIn there (step x ctx))
    (left : RuleContext × List Fault) :
    xs.foldl (fun acc x => ((elsewhere x acc.1).1, acc.2 ++ (elsewhere x acc.1).2)) (leftIn there left) =
      leftIn there (xs.foldl (fun acc x => ((step x acc.1).1, acc.2 ++ (step x acc.1).2)) left) := by
  induction xs generalizing left with
  | nil => rfl
  | cons x xs ih =>
    obtain ⟨first, others⟩ := List.forall_mem_cons.mp each
    have carried := first left.1
    rw [List.foldl_cons, List.foldl_cons, ← ih others]
    simp only [leftIn, List.map_append] at carried ⊢
    rw [carried]

theorem call_movedTo {h : Handler} (portable : h.Portable) (node : NodeRef) (ctx : RuleContext) :
    rule.call there node h (ctx.movedTo there) = leftIn there (rule.call here node h ctx) := by
  unfold call
  rw [portable node ctx there]
  cases h node ctx <;> rfl

theorem visitNode_movedTo {table : VisitorTable} (portable : table.Portable) (node : NodeRef) (ctx : RuleContext) :
    rule.visitNode there table node (ctx.movedTo there) = leftIn there (rule.visitNode here table node ctx) := by
  have called : ∀ h ∈ table.handlers node.kind, Handler.Portable h := by
    intro h inside
    obtain ⟨e, listed, rfl⟩ := List.mem_map.mp inside
    exact portable e (List.mem_of_mem_filter listed)
  exact foldl_leftIn there _ (fun h inside ctx => rule.call_movedTo here there (called h inside) node ctx) (ctx, [])

theorem visitNodes_movedTo {table : VisitorTable} (portable : table.Portable) (nodes : List NodeRef)
    (ctx : RuleContext) :
    rule.visitNodes there table nodes (ctx.movedTo there) = leftIn there (rule.visitNodes here table nodes ctx) :=
  foldl_leftIn there nodes (fun node _ ctx => rule.visitNode_movedTo here there portable node ctx) (ctx, [])

theorem check_inFile (severity : Severity) (tree : SyntaxTree) {table : VisitorTable} (portable : table.Portable)
    (atHere : rule.visitors (.fresh here tree rule.descriptor severity) = table)
    (atThere : rule.visitors (.fresh there tree rule.descriptor severity) = table) :
    rule.check severity there tree = (rule.check severity here tree).inFile there.relativePath := by
  have visited := rule.visitNodes_movedTo here there portable tree.refs (.fresh here tree rule.descriptor severity)
  have start : (RuleContext.fresh here tree rule.descriptor severity).movedTo there =
      .fresh there tree rule.descriptor severity := rfl
  rw [start] at visited
  unfold check
  simp only [atHere, atThere, visited]
  rfl

end Rule

/-! ### Built-in handlers -/

namespace Rules

theorem portable_on_empty (kind : NodeKind) {h : Handler} (portable : h.Portable) :
    (VisitorTable.empty.on kind h).Portable := by
  intro e inside
  rw [List.mem_singleton.mp inside]
  exact portable

theorem portable_reportCallsOf (object property messageId suggestion : String) :
    (reportCallsOf object property messageId suggestion).Portable := by
  refine portable_on_empty _ fun node => Visit.portable_bind (Visit.portable_ask _) fun call => ?_
  split
  · exact Visit.portable_reportWith node messageId fun _ _ _ => rfl
  · exact Visit.portable_pure ()

theorem ParallelCache.portable_decorate (node : NodeRef) : Visit.PortableDecoration (decorate node) := by
  intro ctx file v
  have same : (ctx.movedTo file).tree = ctx.tree := rfl
  unfold decorate
  rw [same]
  cases ctx.tree.retainingHolder? node with
  | none => rfl
  | some holder =>
    simp only [Violation.withSuggestion, Violation.withLabel, Violation.inFile, List.map_append, List.map_singleton]
    rfl

theorem ParallelCache.portable_visit (rule : ParallelCache) : Handler.Portable rule.visit := by
  refine fun node => Visit.portable_bind (Visit.portable_ask _) fun constructor => ?_
  split
  · have objected : ∀ tree : SyntaxTree, Visit.Portable
        (if (rule.allowLocal && decide (tree.scope node = .functionLocal)) = true then pure PUnit.unit
          else Visit.reportWith node "noParallelCache" (decorate node)) := by
      intro tree
      split
      · exact Visit.portable_pure _
      · exact Visit.portable_reportWith node _ (portable_decorate node)
    exact Visit.portable_get_bind objected
  · exact Visit.portable_pure ()

end Rules

end ArchLint
