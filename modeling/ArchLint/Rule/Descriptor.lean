import ArchLint.Report.Severity

/-!
# Rule descriptors

What is known about a rule before it runs: names, category, message templates and the options it takes.
-/

namespace ArchLint

inductive Category where
  | problem
  | suggestion
  deriving DecidableEq, Repr

namespace Category

def name : Category → String
  | problem => "problem"
  | suggestion => "suggestion"

/-- The severity of a rule that the settings leave alone. -/
def defaultSeverity : Category → Severity
  | problem => .error
  | suggestion => .warning

end Category

inductive OptionKind where
  | boolean
  | regex
  deriving DecidableEq, Repr

def OptionKind.name : OptionKind → String
  | boolean => "boolean"
  | regex => "regex"

inductive OptionDefault where
  | bool (b : Bool)
  | text (s : String)
  deriving DecidableEq, Repr

def OptionDefault.shown : OptionDefault → String
  | bool b => toString b
  | text s => "\"" ++ s ++ "\""

structure OptionSpec where
  name : String
  kind : OptionKind
  default : OptionDefault
  description : String
  deriving DecidableEq, Repr

structure Descriptor where
  id : String
  code : String
  category : Category
  description : String
  recommended : Bool
  messages : List (String × String)
  schema : List OptionSpec
  deriving DecidableEq, Repr

namespace Descriptor

/-- The template of a message, the first one if there are several. -/
def message? (d : Descriptor) (messageId : String) : Option String :=
  d.messages.lookup messageId

/-- The option of a given name, the first one if there are several. -/
def option? (d : Descriptor) (name : String) : Option OptionSpec :=
  d.schema.find? (·.name = name)

/-- Whether a rule goes by this name, be it its id or its code. -/
def isCalled (d : Descriptor) (name : String) : Bool :=
  d.id = name || d.code = name

end Descriptor

end ArchLint
