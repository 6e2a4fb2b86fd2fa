import ArchLint.Rule.Registry

/-!
# Rules with exemptions

Every built-in rule takes a pattern for the files that it leaves alone, and keeps out of those files
altogether.
-/

namespace ArchLint.Rules

def exemptionOption : String :=
  "allowFilesPattern"

def exemptionSpec : OptionSpec :=
  ⟨exemptionOption, .regex, .text Pattern.Exemption.defaultSource, "Path regex of files the rule does not apply to"⟩

/-- The table of a rule, or none of it in an exempt file. -/
def unlessExempt (exempt : Pattern.Exemption) (visitors : RuleContext → VisitorTable) (ctx : RuleContext) :
    VisitorTable :=
  if exempt.covers ctx.file.relativePath then .empty else visitors ctx

/-- Reports the calls `object.property()`, with a suggestion. -/
def reportCallsOf (object property messageId suggestion : String) : VisitorTable :=
  VisitorTable.empty.on .callExpression fun node => do
    if (← Visit.ask (·.memberCall? node)) = some (object, property) then
      Visit.reportWith node messageId fun _ v => v.withSuggestion suggestion

end ArchLint.Rules
