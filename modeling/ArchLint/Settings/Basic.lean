import ArchLint.Settings.Error
import ArchLint.Toml.Document

/-!
# Settings

What a project configures: which files are analysed, how each rule is set, and from which severity a run
fails. `parse` reads settings from a document; keys without a meaning are passed over, except that a rule's
further keys are its options.
-/

namespace ArchLint

structure RuleSettings where
  enabled : Option Bool
  severity : Option Severity
  options : Toml.Table

structure FileSettings where
  root : Path
  exclude : List String
  extensions : List String
  respectGitignore : Bool
  deriving DecidableEq

structure Settings where
  failOn : Option Severity
  files : FileSettings
  rules : List (String × RuleSettings)

namespace FileSettings

/-- Everything below the project root, but installed packages and build output. -/
def default : FileSettings :=
  ⟨⟨"."⟩, ["**/node_modules/**", "**/dist/**"], [], true⟩

end FileSettings

namespace Settings

def default : Settings :=
  ⟨none, .default, []⟩

def rule? (s : Settings) (id : String) : Option RuleSettings :=
  s.rules.lookup id

/-- A rule is enabled unless it is switched off. -/
def isEnabled (s : Settings) (id : String) : Bool :=
  ((s.rule? id).bind (·.enabled)).getD true

def severity? (s : Settings) (id : String) : Option Severity :=
  (s.rule? id).bind (·.severity)

def options? (s : Settings) (id : String) : Option Toml.Table :=
  (s.rule? id).map (·.options)

/-- The severity from which a run fails. Any violation fails a run that sets none. -/
def threshold (s : Settings) : Severity :=
  s.failOn.getD .info

end Settings

/-! ### Reading settings -/

namespace Toml.Value

/-- The entries of a table. A date counts as a table with one reserved entry. -/
def entries? : Value → Option Table
  | table entries => some entries
  | datetime text => some [("$__toml_private_datetime", string text)]
  | _ => none

def strings? : Value → Option (List String)
  | array items => items.mapM string?
  | _ => none

/-- A severity by its name, or by a table whose only key names it and holds an empty table. -/
def severity? : Value → Option Severity
  | string text => Severity.ofName? text
  | table [(text, table [])] => Severity.ofName? text
  | _ => none

end Toml.Value

/-- The value of a key, or the default where the key is missing. A value of the wrong type is an error. -/
def readOr (value : Option Toml.Value) (read? : Toml.Value → Option α) (default : α) : Option α :=
  match value with
  | none => some default
  | some value => read? value

namespace FileSettings

/-- File settings from a table by name, or from an array in declared order. -/
def ofToml? (value : Toml.Value) : Option FileSettings := do
  let part? : Nat → String → Option Toml.Value ←
    match value with
    | .array items => some fun place _ => items[place]?
    | value => value.entries?.map fun entries _ name => entries.lookup name
  let root ← readOr (part? 0 "root") Toml.Value.string? default.root.text
  let exclude ← readOr (part? 1 "exclude") Toml.Value.strings? default.exclude
  let extensions ← readOr (part? 2 "extensions") Toml.Value.strings? default.extensions
  let respectGitignore ← readOr (part? 3 "respect_gitignore") Toml.Value.bool? default.respectGitignore
  return ⟨⟨root⟩, exclude, extensions, respectGitignore⟩

end FileSettings

namespace RuleSettings

/-- Rule settings from a table. What is not `enabled` or `severity` is an option. -/
def ofToml? (value : Toml.Value) : Option RuleSettings := do
  let entries ← value.entries?
  let enabled ← readOr (entries.lookup "enabled") (·.bool?.map some) none
  let severity ← readOr (entries.lookup "severity") (·.severity?.map some) none
  return ⟨enabled, severity, entries.filter fun (key, _) => key ≠ "enabled" ∧ key ≠ "severity"⟩

end RuleSettings

namespace Settings

def ofToml? (document : Toml.Table) : Option Settings := do
  let failOn ← readOr (document.lookup "fail_on") (·.severity?.map some) none
  let files ← readOr (document.lookup "analyzer") FileSettings.ofToml? .default
  let rules ← readOr (document.lookup "rules") Toml.Value.entries? []
  let rules ← rules.mapM fun (id, value) => (RuleSettings.ofToml? value).map fun rule => (id, rule)
  return ⟨failOn, files, rules⟩

def parse (document : String) : Except SettingsError Settings :=
  match Toml.parse? document >>= ofToml? with
  | some settings => .ok settings
  | none => .error .malformed

end Settings

end ArchLint
