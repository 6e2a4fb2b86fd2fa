import ArchLint.Rules.Exempting

/-!
# One source of identifiers

`Math.random()` makes identifiers that nobody hands out. The rule reports such calls, but only in files that
speak of identifiers at all.
-/

namespace ArchLint.Rules

structure UnifiedId where
  exempt : Pattern.Exemption
  deriving DecidableEq, Repr

namespace UnifiedId

def descriptor : Descriptor where
  id := "prefer-unified-id"
  code := "CG003"
  category := .suggestion
  description := "Requires the unified id generator instead of Math.random()"
  recommended := true
  messages := [("preferUnifiedId", "Use the unified id generator instead of Math.random()")]
  schema := [exemptionSpec]

def keywords : List String :=
  ["id", "Id", "ID", "messageId", "sessionId", "requestId", "error_"]

def keywordPattern : Pattern.Regex :=
  .anyOf (keywords.map .word)

def ofOptions (o : RuleOptions) : Except SettingsError UnifiedId := do
  return ⟨← o.pattern exemptionOption⟩

def toRule (rule : UnifiedId) : Rule where
  descriptor := descriptor
  visitors := unlessExempt rule.exempt fun ctx =>
    if keywordPattern.isMatch ctx.file.content then
      reportCallsOf "Math" "random" "preferUnifiedId" "Generate identifiers with the shared id module"
    else .empty

def entry : RuleEntry where
  descriptor := descriptor
  make o := do return (← ofOptions o).toRule

end UnifiedId

end ArchLint.Rules
