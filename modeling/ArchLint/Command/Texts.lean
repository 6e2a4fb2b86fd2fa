import ArchLint.Rules.Builtin

/-!
# Texts about the rules

The list of all rules, and the settings file that a project can start from. Both are made from what the rules
say of themselves.
-/

namespace ArchLint.Command

def padded (width : Nat) (text : String) : String :=
  text ++ String.ofList (List.replicate (width - text.length) ' ')

def ruleRow (code name category description : String) : String :=
  padded 8 code ++ " " ++ padded 22 name ++ " " ++ category ++ " " ++ description ++ "\n"

def optionRow (spec : OptionSpec) : String :=
  padded 8 "" ++ s!"   {spec.name} ({spec.kind.name}, default {spec.default.shown}): {spec.description}\n"

def ruleRows (d : Descriptor) : String :=
  ruleRow d.code d.id d.category.name d.description ++ String.join (d.schema.map optionRow)

def ruleList (registry : Registry) : String :=
  "Available rules:\n\n" ++ ruleRow "Code" "Name" (padded 11 "Category") "Description"
    ++ String.ofList (List.replicate 80 '-') ++ "\n"
    ++ String.join (registry.map fun e => ruleRows e.descriptor)
    ++ "\nUse --rules to filter specific rules, e.g.:\n"
    ++ "  coreguard check --rules no-parallel-cache,prefer-unified-time\n"
    ++ "  coreguard check --rules CG001,CG003\n"

/-- What a starting settings file says before it comes to the rules. -/
def starterHead : String :=
  String.join <| [
    "# coreguard configuration",
    "",
    "# Severity at or above which \x60coreguard check\x60 exits non-zero",
    "# fail_on = \"info\"",
    "",
    "[analyzer]",
    "# Glob patterns to exclude from analysis",
    "exclude = [",
    "    \"**/node_modules/**\",",
    "    \"**/dist/**\",",
    "]",
    "",
    "# File extensions to analyze (default: every TypeScript/JavaScript extension)",
    "# extensions = [\"ts\", \"tsx\"]",
    "",
    "# Respect .gitignore files",
    "respect_gitignore = true",
    "",
    "# Rule configurations",
    "# Each rule can be enabled/disabled and have its severity overridden"
  ].map (· ++ "\n")

def starterValue : OptionDefault → String
  | .bool b => toString b
  | .text s => "'" ++ s ++ "'"

/-- What a starting settings file says of a rule. Severity and options are comments. -/
def starterSection (d : Descriptor) : String :=
  s!"\n# {d.description} ({d.code})\n[rules.{d.id}]\nenabled = {d.recommended}\n"
    ++ "# severity = \"" ++ d.category.defaultSeverity.name ++ "\"\n"
    ++ String.join (d.schema.map fun spec => s!"# {spec.name} = {starterValue spec.default}\n")

def starter (registry : Registry) : String :=
  starterHead ++ String.join (registry.map fun e => starterSection e.descriptor)

end ArchLint.Command
