import ArchLint.FileTree
import ArchLint.Rule.Descriptor

/-!
# Settings errors

Why settings cannot be used: they cannot be read, they are no valid document, or they do not fit the rules.
-/

namespace ArchLint

inductive SettingsError where
  | unreadable (path : Path) (cause : ReadError)
  | malformed
  | unknownRule (name : String)
  | unknownOption (rule option : String)
  | invalidOption (rule option : String) (expected : OptionKind) (found : String)
  | invalidPattern (rule option : String)
  | missingOption (rule option : String)
  deriving DecidableEq

namespace SettingsError

def message : SettingsError → String
  | unreadable path _ => s!"Failed to read config file {path.text}"
  | malformed => "Failed to parse config"
  | unknownRule name => s!"Unknown rule `{name}`"
  | unknownOption rule option => s!"Rule `{rule}` has no option `{option}`"
  | invalidOption rule option expected found =>
    s!"Option `{option}` of rule `{rule}` expects a {expected.name}, found {found}"
  | invalidPattern rule option => s!"Option `{option}` of rule `{rule}` is not a valid pattern"
  | missingOption rule option => s!"Rule `{rule}` reads undeclared option `{option}`"

end SettingsError

end ArchLint
