import ArchLint.Path.Basic
import ArchLint.Report.Rendering

/-!
# Command lines

What the arguments of the program ask for. Arguments are taken one by one; the first that does not fit is a
mistake, whatever follows it. Options before and after the command are kept apart, since each side may give an
option once.
-/

namespace ArchLint.Command

inductive Verb where
  | check
  | listRules
  | init
  | help
  deriving DecidableEq, Repr

namespace Verb

def name : Verb → String
  | check => "check"
  | listRules => "list-rules"
  | init => "init"
  | help => "help"

def all : List Verb :=
  [check, listRules, init, help]

def ofName? (text : String) : Option Verb :=
  all.find? (·.name = text)

end Verb

inductive Flag where
  | help
  | version
  | verbose
  | config
  | format
  | rules
  | exclude
  | force
  deriving DecidableEq, Repr

namespace Flag

def name : Flag → String
  | help => "help"
  | version => "version"
  | verbose => "verbose"
  | config => "config"
  | format => "format"
  | rules => "rules"
  | exclude => "exclude"
  | force => "force"

def letter? : Flag → Option Char
  | help => some 'h'
  | version => some 'V'
  | verbose => some 'v'
  | config => some 'c'
  | format => some 'f'
  | exclude => some 'e'
  | rules | force => none

def takesValue : Flag → Bool
  | config | format | rules | exclude => true
  | help | version | verbose | force => false

def accepts : Flag → String → Bool
  | config, value => value ≠ ""
  | format, value => (OutputFormat.ofName? value).isSome
  | _, _ => true

/-- The options that may stand before a command, or after one. -/
def allowed : Option Verb → List Flag
  | none => [help, version, verbose, config]
  | some .check => [help, verbose, config, format, rules, exclude]
  | some .listRules => [help, verbose, config]
  | some .init => [help, verbose, config, force]
  | some .help => []

end Flag

inductive Stop where
  | mistake
  | help
  | version
  deriving DecidableEq, Repr

namespace Stop

def usage : String :=
  "Usage: coreguard [--verbose] [--config FILE] COMMAND\n\n"
    ++ "  check [--format text|json|compact|pretty] [--rules NAMES] [--exclude GLOB]... [PATH]\n"
    ++ "  list-rules\n  init [--force]\n"

def status : Stop → Nat
  | mistake => 2
  | help | version => 0

/-- What the program prints. The usage goes elsewhere after a mistake. -/
def output : Stop → String
  | mistake => ""
  | help => usage
  | version => "coreguard 0.3.1\n"

end Stop

structure Given where
  values : List (Flag × String)
  operands : List String

namespace Given

def empty : Given :=
  ⟨[], []⟩

def value? (g : Given) (flag : Flag) : Option String :=
  g.values.lookup flag

def has (g : Given) (flag : Flag) : Bool :=
  (g.value? flag).isSome

def valuesOf (g : Given) (flag : Flag) : List String :=
  (g.values.filter (·.1 = flag)).map (·.2)

end Given

/-- The arguments taken so far. `awaiting` is an option whose value comes next; after `--` all arguments are
plain. -/
structure Reading where
  verb : Option Verb
  before : Given
  after : Given
  awaiting : Option Flag
  onlyOperands : Bool

namespace Reading

def start : Reading :=
  ⟨none, .empty, .empty, none, false⟩

/-- What has been given on the current side of the command. -/
def current (s : Reading) : Given :=
  if s.verb.isNone then s.before else s.after

def change (s : Reading) (f : Given → Given) : Reading :=
  if s.verb.isNone then { s with before := f s.before } else { s with after := f s.after }

/-- Takes an option with its value. Only exclusions can be repeated. -/
def give (s : Reading) (flag : Flag) (value : String) : Except Stop Reading :=
  if flag.accepts value ∧ (flag = .exclude ∨ !s.current.has flag) then
    .ok { s.change fun g => { g with values := g.values ++ [(flag, value)] } with awaiting := none }
  else .error .mistake

/-- Takes an option, with the value that is attached to it if there is one. -/
def takeFlag (s : Reading) (flag : Flag) (attached : Option String) : Except Stop Reading :=
  if flag.takesValue then
    match attached with
    | some value => s.give flag value
    | none => .ok { s with awaiting := some flag }
  else if attached.isSome then .error .mistake
  else
    match flag with
    | .help => .error .help
    | .version => .error .version
    | flag => s.give flag ""

/-- What stands behind a letter whose option takes a value. -/
def attachedTo : List Char → Option String
  | [] => none
  | '=' :: value | value => some (String.ofList value)

def takeLetters (s : Reading) : List Char → Except Stop Reading
  | [] => .ok s
  | c :: rest =>
    match (Flag.allowed s.verb).find? (·.letter? = some c) with
    | none => .error .mistake
    | some flag =>
      if flag.takesValue then s.takeFlag flag (attachedTo rest)
      else
        match s.takeFlag flag none with
        | .ok s => s.takeLetters rest
        | .error stop => .error stop

/-- Takes what follows two dashes: a name, and a value after an equals sign. -/
def takeName (s : Reading) (text : List Char) : Except Stop Reading :=
  let (name, rest) := text.span (· ≠ '=')
  match (Flag.allowed s.verb).find? (·.name = String.ofList name) with
  | none => .error .mistake
  | some flag => s.takeFlag flag (if rest.isEmpty then none else some (String.ofList (rest.drop 1)))

/-- Takes a plain argument. The first one names the command. -/
def takeOperand (s : Reading) (text : String) : Except Stop Reading :=
  let isFirst := s.after.operands.isEmpty
  let add : Reading := { s with after := { s.after with operands := s.after.operands ++ [text] } }
  match s.verb with
  | none =>
    match Verb.ofName? text with
    | some verb => if s.onlyOperands then .error .mistake else .ok { s with verb := some verb }
    | none => .error .mistake
  | some .check => if isFirst ∧ text ≠ "" then .ok add else .error .mistake
  | some .help => if isFirst ∧ (Verb.ofName? text).isSome then .ok add else .error .mistake
  | some .listRules | some .init => .error .mistake

/-- Whether an argument looks like an option. A single dash does not. -/
def isOption (text : String) : Bool :=
  text.toList.head? = some '-' && text ≠ "-"

def take (s : Reading) (text : String) : Except Stop Reading :=
  if s.onlyOperands then
    if s.awaiting.isSome then .error .mistake else s.takeOperand text
  else
    match s.awaiting with
    | some flag => if isOption text then .error .mistake else s.give flag text
    | none =>
      if text = "--" then .ok { s with onlyOperands := true }
      else if !isOption text then s.takeOperand text
      else
        match text.toList with
        | '-' :: '-' :: name => s.takeName name
        | letters => s.takeLetters (letters.drop 1)

end Reading

inductive Task where
  | check (path : Option Path) (format : OutputFormat) (selection : Option String) (exclude : List String)
  | listRules
  | init (force : Bool)
  deriving DecidableEq

structure Invocation where
  settingsFile : Option Path
  task : Task
  deriving DecidableEq

namespace Reading

/-- What the arguments ask for once all are taken. The environment may name a settings file, which counts
where the arguments name none; a blank name is a mistake unless both sides of the command name a file. -/
def finish (s : Reading) (environment : Option String) : Except Stop Invocation :=
  if s.awaiting.isSome then .error .mistake
  else
    let run (task : Task) : Except Stop Invocation :=
      if environment = some "" ∧ !(s.before.has .config ∧ s.after.has .config) then .error .mistake
      else
        let file := s.after.value? .config <|> s.before.value? .config <|> environment
        .ok ⟨file.map fun text => ⟨text⟩, task⟩
    match s.verb with
    | none => .error .mistake
    | some .help => .error .help
    | some .listRules => run .listRules
    | some .init => run (.init (s.after.has .force))
    | some .check =>
      run (.check (s.after.operands.head?.map fun text => ⟨text⟩)
        ((s.after.value? .format >>= OutputFormat.ofName?).getD .text) (s.after.value? .rules)
        (s.after.valuesOf .exclude))

end Reading

def parse (environment : Option String) (arguments : List String) : Except Stop Invocation := do
  (← arguments.foldlM Reading.take .start).finish environment

end ArchLint.Command
