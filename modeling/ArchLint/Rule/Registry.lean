import ArchLint.Rule.Options
import ArchLint.Rule.Visitor

/-!
# Registries

The rules that a run can choose from. `Registry.select` makes the enabled ones. Of several mistakes an
unregistered rule in the settings comes first, then an unknown name in the selection, then the options of the
chosen rules in turn.
-/

namespace ArchLint

structure RuleEntry where
  descriptor : Descriptor
  make : RuleOptions → Except SettingsError Rule

namespace RuleEntry

def instantiate [Pattern.Reader] (e : RuleEntry) (settings : Settings) : Except SettingsError Rule := do
  let raw := (settings.options? e.descriptor.id).getD []
  e.make (← RuleOptions.resolve e.descriptor.id e.descriptor.schema raw)

end RuleEntry

abbrev Registry := List RuleEntry

namespace Registry

def find (registry : Registry) (name : String) : Option RuleEntry :=
  List.find? (fun e => e.descriptor.isCalled name) registry

/-- The entries that a selection names, in its order; all of them without a selection. -/
def selected (registry : Registry) (only : Option (List String)) : Except SettingsError (List RuleEntry) :=
  match only with
  | none => .ok registry
  | some names => names.mapM fun name =>
    match registry.find name with
    | some e => .ok e
    | none => .error (.unknownRule name)

/-- The rules so far and that of one more entry, unless it is switched off or a rule goes by its id already. -/
def takeUp [Pattern.Reader] (settings : Settings) (rules : List Rule) (e : RuleEntry) :
    Except SettingsError (List Rule) :=
  if !settings.isEnabled e.descriptor.id then .ok rules
  else if rules.any (·.name = e.descriptor.id) then .ok rules
  else do return rules ++ [← e.instantiate settings]

def select [Pattern.Reader] (registry : Registry) (settings : Settings) (only : Option (List String)) :
    Except SettingsError (List Rule) :=
  match RuleOptions.smallestRefused? (settings.rules.map (·.1)) fun id => registry.any (·.descriptor.id = id) with
  | some id => .error (.unknownRule id)
  | none => do
    let entries ← registry.selected only
    entries.foldlM (takeUp settings) []

/-- The rules that are on unless they are switched off. -/
def recommended (registry : Registry) : List RuleEntry :=
  List.filter (·.descriptor.recommended) registry

end Registry

end ArchLint
