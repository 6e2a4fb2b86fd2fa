/-!
# TOML values

The values that a document holds. Tables keep their entries in the order of the document.
-/

namespace ArchLint.Toml

/-- A value. Dates and times are kept in their canonical spelling. -/
inductive Value where
  | string (text : String)
  | integer (n : Int)
  | float (x : Float)
  | boolean (b : Bool)
  | datetime (text : String)
  | array (items : List Value)
  | table (entries : List (String × Value))
  deriving Inhabited

namespace Value

def typeName : Value → String
  | string _ => "string"
  | integer _ => "integer"
  | float _ => "float"
  | boolean _ => "boolean"
  | datetime _ => "datetime"
  | array _ => "array"
  | table _ => "table"

def string? : Value → Option String
  | string text => some text
  | _ => none

def bool? : Value → Option Bool
  | boolean b => some b
  | _ => none

end Value

abbrev Table := List (String × Value)

end ArchLint.Toml
