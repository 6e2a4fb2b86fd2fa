import ArchLint.Json
import ArchLint.Report.Basic

/-!
# Reports as JSON

Every record is written as an object with its fields in declared order; empty `labels` and `faults` are left
out. Reading is wider: fields of other names are passed over, and a record may be the array of its fields in
order.
-/

namespace ArchLint

/-- The parts of a record: by name, or in declared order. -/
inductive Parts where
  | named (fields : List (String × Json))
  | inOrder (items : List Json)

namespace Parts

def of? (arity : Nat) : Json → Option Parts
  | .object fields => some (named fields)
  | .array items => if items.length ≤ arity then some (inOrder items) else none
  | _ => none

def get? (place : Nat) (name : String) : Parts → Option Json
  | named fields => fields.lookup name
  | inOrder items => items[place]?

def isNamed : Parts → Bool
  | named _ => true
  | inOrder _ => false

end Parts

namespace Json

def string? : Json → Option String
  | string text => some text
  | _ => none

def word64? : Json → Option Nat
  | nat n => if n < 0x10000000000000000 then some n else none
  | _ => none

def list? (item? : Json → Option α) : Json → Option (List α)
  | array items => items.mapM item?
  | _ => none

end Json

namespace Severity

def toJson (s : Severity) : Json :=
  .string s.name

/-- A severity by its name, alone or as the only field of an object that holds null. -/
def ofJson? : Json → Option Severity
  | .string text => ofName? text
  | .object [(text, .null)] => ofName? text
  | _ => none

end Severity

namespace Location

def toJson (l : Location) : Json :=
  .object [("file", .string l.file.text), ("line", .nat l.line), ("column", .nat l.column),
    ("offset", .nat l.offset), ("length", .nat l.length)]

def ofJson? (value : Json) : Option Location := do
  let parts ← Parts.of? 5 value
  let file ← (← parts.get? 0 "file").string?
  let line ← (← parts.get? 1 "line").word64?
  let column ← (← parts.get? 2 "column").word64?
  let offset ← (← parts.get? 3 "offset").word64?
  let length ← (← parts.get? 4 "length").word64?
  return ⟨⟨file⟩, line, column, offset, length⟩

end Location

namespace Label

def toJson (l : Label) : Json :=
  .object [("location", l.location.toJson), ("message", .string l.message)]

def ofJson? (value : Json) : Option Label := do
  let parts ← Parts.of? 2 value
  let location ← Location.ofJson? (← parts.get? 0 "location")
  let message ← (← parts.get? 1 "message").string?
  return ⟨location, message⟩

end Label

namespace Suggestion

def toJson (s : Suggestion) : Json :=
  .object [("message", .string s.message)]

def ofJson? (value : Json) : Option Suggestion := do
  let parts ← Parts.of? 1 value
  let message ← (← parts.get? 0 "message").string?
  return ⟨message⟩

end Suggestion

namespace Violation

def toJson (v : Violation) : Json :=
  .object <|
    [("code", .string v.code), ("rule", .string v.rule), ("message_id", .string v.messageId),
      ("severity", v.severity.toJson), ("location", v.location.toJson), ("message", .string v.message),
      ("suggestion", v.suggestion.elim .null Suggestion.toJson)]
    ++ if v.labels.isEmpty then [] else [("labels", .array (v.labels.map Label.toJson))]

/-- A suggestion may be null, and an object may leave it out. -/
def suggestionOf? (parts : Parts) : Option (Option Suggestion) :=
  match parts.get? 6 "suggestion" with
  | some .null => some none
  | some value => (Suggestion.ofJson? value).map some
  | none => if parts.isNamed then some none else none

def ofJson? (value : Json) : Option Violation := do
  let parts ← Parts.of? 8 value
  let code ← (← parts.get? 0 "code").string?
  let rule ← (← parts.get? 1 "rule").string?
  let messageId ← (← parts.get? 2 "message_id").string?
  let severity ← Severity.ofJson? (← parts.get? 3 "severity")
  let location ← Location.ofJson? (← parts.get? 4 "location")
  let message ← (← parts.get? 5 "message").string?
  let suggestion ← suggestionOf? parts
  let labels ← ((parts.get? 7 "labels").getD (.array [])).list? Label.ofJson?
  return ⟨code, rule, messageId, severity, location, message, suggestion, labels⟩

end Violation

namespace Fault

def toJson (f : Fault) : Json :=
  .object [("file", .string f.file.text), ("rule", .string f.rule), ("node_kind", .string f.nodeKind),
    ("line", .nat f.line), ("message", .string f.message)]

def ofJson? (value : Json) : Option Fault := do
  let parts ← Parts.of? 5 value
  let file ← (← parts.get? 0 "file").string?
  let rule ← (← parts.get? 1 "rule").string?
  let nodeKind ← (← parts.get? 2 "node_kind").string?
  let line ← (← parts.get? 3 "line").word64?
  let message ← (← parts.get? 4 "message").string?
  return ⟨⟨file⟩, rule, nodeKind, line, message⟩

end Fault

namespace Report

def toJson (r : Report) : Json :=
  .object <|
    [("violations", .array (r.violations.map Violation.toJson)), ("files_checked", .nat r.filesChecked)]
    ++ if r.faults.isEmpty then [] else [("faults", .array (r.faults.map Fault.toJson))]

def ofJson? (value : Json) : Option Report := do
  let parts ← Parts.of? 3 value
  let violations ← (← parts.get? 0 "violations").list? Violation.ofJson?
  let filesChecked ← (← parts.get? 1 "files_checked").word64?
  let faults ← ((parts.get? 2 "faults").getD (.array [])).list? Fault.ofJson?
  return ⟨violations, filesChecked, faults⟩

end Report

end ArchLint
