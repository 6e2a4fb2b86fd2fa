import ArchLint.Report.Basic
import ArchLint.Rule.Context

/-!
# Visitors

A rule answers a context with a table of handlers, each for one kind of node. `Rule.check` visits all nodes in
the order of their ids. A handler that fails leaves a fault behind; what it reported before stays, and the
visit goes on.
-/

namespace ArchLint

/-- A step over a context that may fail. A failure keeps the context as the step left it. -/
abbrev Visit := EStateM VisitError RuleContext

namespace Visit

def ask (question : SyntaxTree → Except ShapeError α) : Visit α := do
  match question (← get).tree with
  | .ok a => return a
  | .error e => throw (.shape e)

/-- Reports a node with something attached to the violation. -/
def reportWith (node : NodeRef) (messageId : String) (decorate : RuleContext → Violation → Violation) : Visit Unit := do
  let ctx ← get
  match ctx.reportWith node messageId (decorate ctx) with
  | .ok next => set next
  | .error e => throw e

def report (node : NodeRef) (messageId : String) : Visit Unit :=
  reportWith node messageId fun _ v => v

end Visit

abbrev Handler := NodeRef → Visit Unit

/-- Handlers by kind, in the order of their registration. -/
structure VisitorTable where
  entries : List (NodeKind × Handler)

namespace VisitorTable

def empty : VisitorTable :=
  ⟨[]⟩

def on (table : VisitorTable) (kind : NodeKind) (handler : Handler) : VisitorTable :=
  ⟨table.entries ++ [(kind, handler)]⟩

def handlers (table : VisitorTable) (kind : NodeKind) : List Handler :=
  (table.entries.filter (·.1 = kind)).map (·.2)

theorem handlers_empty (kind : NodeKind) : empty.handlers kind = [] := rfl

theorem handlers_on (table : VisitorTable) (kind visited : NodeKind) (handler : Handler) :
    (table.on kind handler).handlers visited =
      table.handlers visited ++ if kind = visited then [handler] else [] := by
  by_cases same : kind = visited <;> simp [on, handlers, same]

/-- The kinds that the table listens to, one for each handler. -/
def kinds (table : VisitorTable) : List NodeKind :=
  table.entries.map (·.1)

def isEmpty (table : VisitorTable) : Bool :=
  table.entries.isEmpty

end VisitorTable

structure Rule where
  descriptor : Descriptor
  visitors : RuleContext → VisitorTable

namespace Rule

def name (rule : Rule) : String :=
  rule.descriptor.id

def defaultSeverity (rule : Rule) : Severity :=
  rule.descriptor.category.defaultSeverity

def fault (rule : Rule) (file : SourceFile) (node : NodeRef) (e : VisitError) : Fault :=
  ⟨file.relativePath, rule.name, node.grammarKind, node.span.line, e.message⟩

/-- One call of a handler: the context after it, and the fault if it failed. -/
def call (rule : Rule) (file : SourceFile) (node : NodeRef) (handler : Handler) (ctx : RuleContext) :
    RuleContext × List Fault :=
  match handler node ctx with
  | .ok _ ctx => (ctx, [])
  | .error e ctx => (ctx, [rule.fault file node e])

def visitNode (rule : Rule) (file : SourceFile) (table : VisitorTable) (node : NodeRef) (ctx : RuleContext) :
    RuleContext × List Fault :=
  (table.handlers node.kind).foldl
    (fun (ctx, faults) handler =>
      let (ctx, more) := rule.call file node handler ctx
      (ctx, faults ++ more))
    (ctx, [])

def visitNodes (rule : Rule) (file : SourceFile) (table : VisitorTable) (nodes : List NodeRef) (ctx : RuleContext) :
    RuleContext × List Fault :=
  nodes.foldl
    (fun (ctx, faults) node =>
      let (ctx, more) := rule.visitNode file table node ctx
      (ctx, faults ++ more))
    (ctx, [])

def check (rule : Rule) (severity : Severity) (file : SourceFile) (tree : SyntaxTree) : FileReport :=
  let ctx := RuleContext.fresh file tree rule.descriptor severity
  let (ctx, faults) := rule.visitNodes file (rule.visitors ctx) tree.refs ctx
  ⟨ctx.violations, faults⟩

end Rule

end ArchLint
