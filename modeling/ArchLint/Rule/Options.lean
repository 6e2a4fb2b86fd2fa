import ArchLint.Pattern.Exemption
import ArchLint.Settings.Basic

/-!
# Rule options

`RuleOptions.resolve` fits what the settings say to a rule's schema. Of several mistakes an undeclared key
comes first, the smallest of them; then the first option in schema order that does not fit. A pattern fits if
the reader at hand takes it.
-/

namespace ArchLint

inductive OptionValue where
  | bool (b : Bool)
  | pattern (e : Pattern.Exemption)
  deriving DecidableEq, Repr

structure RuleOptions where
  rule : String
  values : List (String × OptionValue)
  deriving DecidableEq, Repr

namespace RuleOptions

def smallestRefused? (keys : List String) (accepts : String → Bool) : Option String :=
  (keys.mergeSort fun a b => a ≤ b).find? fun key => !accepts key

section

variable [Pattern.Reader]

def compile (rule option source : String) : Except SettingsError OptionValue :=
  match Pattern.Exemption.ofSource? source with
  | some e => .ok (.pattern e)
  | none => .error (.invalidPattern rule option)

def convert (rule : String) (spec : OptionSpec) (value : Toml.Value) : Except SettingsError OptionValue :=
  match spec.kind, value with
  | .boolean, .boolean b => .ok (.bool b)
  | .regex, .string source => compile rule spec.name source
  | expected, value => .error (.invalidOption rule spec.name expected value.typeName)

/-- The value of an option that the settings leave alone. -/
def defaultValue (rule : String) (spec : OptionSpec) : Except SettingsError OptionValue :=
  match spec.kind, spec.default with
  | .boolean, .bool b => .ok (.bool b)
  | .regex, .text source => compile rule spec.name source
  | expected, given => .error (.invalidOption rule spec.name expected s!"default {given.shown}")

def value (rule : String) (raw : Toml.Table) (spec : OptionSpec) : Except SettingsError OptionValue :=
  match raw.lookup spec.name with
  | some given => convert rule spec given
  | none => defaultValue rule spec

/-- The options of a rule, from what the settings say. -/
def resolve (rule : String) (schema : List OptionSpec) (raw : Toml.Table) : Except SettingsError RuleOptions :=
  match smallestRefused? (raw.map (·.1)) fun key => schema.any (·.name = key) with
  | some key => .error (.unknownOption rule key)
  | none => do
    let values ← schema.mapM fun spec => do
      return (spec.name, ← value rule raw spec)
    return ⟨rule, values⟩

def defaults (rule : String) (schema : List OptionSpec) : Except SettingsError RuleOptions :=
  resolve rule schema []

end

/-- The value of an option. If a schema declares a name twice the last one counts. -/
def get? (o : RuleOptions) (name : String) : Option OptionValue :=
  o.values.reverse.lookup name

def bool (o : RuleOptions) (name : String) : Except SettingsError Bool :=
  match o.get? name with
  | some (.bool b) => .ok b
  | _ => .error (.missingOption o.rule name)

def pattern (o : RuleOptions) (name : String) : Except SettingsError Pattern.Exemption :=
  match o.get? name with
  | some (.pattern e) => .ok e
  | _ => .error (.missingOption o.rule name)

end RuleOptions

end ArchLint
