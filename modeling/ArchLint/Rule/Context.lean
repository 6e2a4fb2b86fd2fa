import ArchLint.Path.Normal
import ArchLint.Report.Violation
import ArchLint.Rule.Descriptor
import ArchLint.Syntax.Callee

/-!
# Rule contexts

A context is what one rule sees of one file, and what it has reported there. A node is reported once: a
further report of it changes nothing, and a report with an undeclared message is an error that leaves the
context as it was.
-/

namespace ArchLint

/-- The file under analysis. Rules see it by its path relative to the project root. -/
structure SourceFile where
  path : Path
  content : String
  relativePath : Path
  deriving DecidableEq

namespace SourceFile

def within (projectRoot path : Path) (content : String) : SourceFile :=
  ⟨path, content, path.relativeTo projectRoot⟩

end SourceFile

inductive VisitError where
  | unknownMessage (rule messageId : String)
  | shape (error : ShapeError)
  deriving DecidableEq, Repr

namespace VisitError

def message : VisitError → String
  | unknownMessage rule messageId => s!"rule `{rule}` has no message `{messageId}`"
  | shape error => s!"unexpected {error.grammarKind} at line {error.line}: {error.detail}"

end VisitError

/-- One rule over one file: what it may read, and what it has reported so far. -/
structure RuleContext where
  file : SourceFile
  tree : SyntaxTree
  descriptor : Descriptor
  severity : Severity
  reported : List NodeId
  violations : List Violation

namespace RuleContext

def fresh (file : SourceFile) (tree : SyntaxTree) (descriptor : Descriptor) (severity : Severity) : RuleContext :=
  ⟨file, tree, descriptor, severity, [], []⟩

def locate (ctx : RuleContext) (node : NodeRef) : Location :=
  .ofSpan ctx.file.relativePath node.span

/-- The violation of a node, before anything is attached to it. -/
def violation (ctx : RuleContext) (node : NodeRef) (messageId template : String) : Violation :=
  ⟨ctx.descriptor.code, ctx.descriptor.id, messageId, ctx.severity, ctx.locate node, template, none, []⟩

/-- Reports a node with a declared message, after `decorate` has attached what it wants. -/
def reportWith (ctx : RuleContext) (node : NodeRef) (messageId : String) (decorate : Violation → Violation) :
    Except VisitError RuleContext :=
  match ctx.descriptor.message? messageId with
  | none => .error (.unknownMessage ctx.descriptor.id messageId)
  | some template =>
    if node.id ∈ ctx.reported then .ok ctx
    else
      .ok { ctx with
        reported := node.id :: ctx.reported
        violations := ctx.violations ++ [decorate (ctx.violation node messageId template)] }

def report (ctx : RuleContext) (node : NodeRef) (messageId : String) : Except VisitError RuleContext :=
  ctx.reportWith node messageId id

theorem reportWith_of_unknown {ctx : RuleContext} {messageId : String} (node : NodeRef)
    (decorate : Violation → Violation) (h : ctx.descriptor.message? messageId = none) :
    ctx.reportWith node messageId decorate = .error (.unknownMessage ctx.descriptor.id messageId) := by
  simp [reportWith, h]

theorem reportWith_of_reported {ctx : RuleContext} {node : NodeRef} {messageId template : String}
    (decorate : Violation → Violation) (h : ctx.descriptor.message? messageId = some template)
    (again : node.id ∈ ctx.reported) : ctx.reportWith node messageId decorate = .ok ctx := by
  simp [reportWith, h, again]

end RuleContext

end ArchLint
