import ArchLint.Rules.Exempting

/-!
# One source of time

`Date.now()` reads a clock of its own. The rule reports every such call.
-/

namespace ArchLint.Rules

structure UnifiedTime where
  exempt : Pattern.Exemption
  deriving DecidableEq, Repr

namespace UnifiedTime

def descriptor : Descriptor where
  id := "prefer-unified-time"
  code := "CG002"
  category := .suggestion
  description := "Requires the unified time source instead of Date.now()"
  recommended := true
  messages := [("preferUnifiedTime", "Use the unified time source instead of Date.now()")]
  schema := [exemptionSpec]

def ofOptions (o : RuleOptions) : Except SettingsError UnifiedTime := do
  return ⟨← o.pattern exemptionOption⟩

def toRule (rule : UnifiedTime) : Rule where
  descriptor := descriptor
  visitors := unlessExempt rule.exempt fun _ =>
    reportCallsOf "Date" "now" "preferUnifiedTime" "Read the time from the shared clock module"

def entry : RuleEntry where
  descriptor := descriptor
  make o := do return (← ofOptions o).toRule

end UnifiedTime

end ArchLint.Rules
