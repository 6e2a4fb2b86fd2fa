import ArchLint.Rules.Exempting
import ArchLint.Syntax.Scope

/-!
# No parallel caches

A `Map` that outlives a call is a cache beside the shared one. The rule reports the construction and labels
the field or variable that keeps the map alive.
-/

namespace ArchLint.Rules

structure ParallelCache where
  allowLocal : Bool
  exempt : Pattern.Exemption
  deriving DecidableEq, Repr

namespace ParallelCache

def allowLocalOption : String :=
  "allowLocal"

def descriptor : Descriptor where
  id := "no-parallel-cache"
  code := "CG001"
  category := .problem
  description := "Forbids module- and instance-scoped Map caches"
  recommended := true
  messages := [("noParallelCache", "Long-lived Map cache outside the shared cache layer")]
  schema := [⟨allowLocalOption, .boolean, .bool true, "Allow Map construction inside function bodies"⟩, exemptionSpec]

def ofOptions (o : RuleOptions) : Except SettingsError ParallelCache := do
  return ⟨← o.bool allowLocalOption, ← o.pattern exemptionOption⟩

def holderRemark (holder : NodeRef) : String :=
  if holder.kind = .classField then "retained by this class field" else "retained by this module-level binding"

/-- Adds the suggestion, and a label if something keeps the map alive. -/
def decorate (node : NodeRef) (ctx : RuleContext) (v : Violation) : Violation :=
  let v := v.withSuggestion "Obtain the cache from the shared cache manager"
  match ctx.tree.retainingHolder? node with
  | some holder => v.withLabel ⟨ctx.locate holder, holderRemark holder⟩
  | none => v

def visit (rule : ParallelCache) (node : NodeRef) : Visit Unit := do
  if (← Visit.ask (·.constructorName? node)) = some "Map" then
    unless rule.allowLocal && (← get).tree.scope node = .functionLocal do
      Visit.reportWith node "noParallelCache" (decorate node)

def toRule (rule : ParallelCache) : Rule where
  descriptor := descriptor
  visitors := unlessExempt rule.exempt fun _ => VisitorTable.empty.on .newExpression rule.visit

def entry : RuleEntry where
  descriptor := descriptor
  make o := do return (← ofOptions o).toRule

end ParallelCache

end ArchLint.Rules
