import ArchLint.Path.Basic
import ArchLint.Report.Severity
import ArchLint.Syntax.Span

/-!
# Violations

A violation says which rule a node breaks and where. `summary` is its one-line form and `detail` the form with
labels and help.
-/

namespace ArchLint

/-- A place in a source file. Lines and columns start at one, the offset and length count bytes. -/
structure Location where
  file : Path
  line : Nat
  column : Nat
  offset : Nat
  length : Nat
  deriving DecidableEq

namespace Location

def ofSpan (file : Path) (span : Span) : Location :=
  ⟨file, span.line, span.column, span.startByte, span.length⟩

end Location

/-- A remark on a second place. -/
structure Label where
  location : Location
  message : String
  deriving DecidableEq

structure Suggestion where
  message : String
  deriving DecidableEq

structure Violation where
  code : String
  rule : String
  messageId : String
  severity : Severity
  location : Location
  message : String
  suggestion : Option Suggestion
  labels : List Label
  deriving DecidableEq

namespace Violation

def withSuggestion (v : Violation) (message : String) : Violation :=
  { v with suggestion := some ⟨message⟩ }

def withLabel (v : Violation) (label : Label) : Violation :=
  { v with labels := v.labels ++ [label] }

def position (v : Violation) : String :=
  s!"{v.location.file.text}:{v.location.line}:{v.location.column}"

def summary (v : Violation) : String :=
  s!"{v.position}: {v.severity.name} [{v.code}] {v.message}"

/-- The lines that say what is wrong, where, and what helps. -/
def detailLines (v : Violation) : List String :=
  [s!"{v.code} {v.rule} at {v.position}", s!"  {v.severity.name}: {v.message}"]
    ++ v.labels.map (fun l => s!"  = note: {l.message} ({l.location.line}:{l.location.column})")
    ++ v.suggestion.toList.map (fun s => s!"  = help: {s.message}")

/-- The violation over several lines, each ended by a line feed. -/
def detail (v : Violation) : String :=
  String.join (v.detailLines.map (· ++ "\n"))

/-- Violations sort by place, then by code and message. -/
def compareKeys : Violation → Violation → Ordering :=
  compareLex (compareOn (·.location.file)) <|
    compareLex (compareOn (·.location.line)) <|
      compareLex (compareOn (·.location.column)) <|
        compareLex (compareOn (·.code)) (compareOn (·.messageId))

end Violation

structure Mark where
  message : String
  offset : Nat
  length : Nat
  deriving DecidableEq

/-- A violation laid over its source text: a headline, help, and marked stretches with the primary one first.
-/
structure Diagnostic where
  headline : String
  help : Option String
  marks : List Mark
  deriving DecidableEq

/-- The diagnostic of a violation. The primary mark carries the rule's name. -/
def Violation.diagnostic (v : Violation) : Diagnostic where
  headline := s!"[{v.code}] {v.message}"
  help := v.suggestion.map (·.message)
  marks := ⟨v.rule, v.location.offset, v.location.length⟩
    :: v.labels.map fun l => ⟨l.message, l.location.offset, l.location.length⟩

end ArchLint
