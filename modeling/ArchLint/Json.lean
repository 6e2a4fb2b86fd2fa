/-!
# JSON values

Values with their fields in order. Natural numbers are told apart from all other numbers, which are kept as
they are spelled. `render` writes a value over several lines, two spaces to a level.
-/

namespace ArchLint

inductive Json where
  | null
  | bool (b : Bool)
  | nat (n : Nat)
  | decimal (spelling : String)
  | string (text : String)
  | array (items : List Json)
  | object (fields : List (String × Json))
  deriving Inhabited

namespace Json

def hexDigit (n : Nat) : Char :=
  if n < 10 then Char.ofNat ('0'.toNat + n) else Char.ofNat ('a'.toNat + (n - 10))

/-- A character within quotes. Control characters are escaped, everything above them stands as it is. -/
def escape (c : Char) : List Char :=
  match c with
  | '"' => ['\\', '"']
  | '\\' => ['\\', '\\']
  | '\x08' => ['\\', 'b']
  | '\x0C' => ['\\', 'f']
  | '\n' => ['\\', 'n']
  | '\r' => ['\\', 'r']
  | '\t' => ['\\', 't']
  | c =>
    if c.toNat < 0x20 then ['\\', 'u', '0', '0', hexDigit (c.toNat / 16), hexDigit (c.toNat % 16)] else [c]

def quote (text : String) : String :=
  String.ofList ('"' :: text.toList.flatMap escape ++ ['"'])

def indent (level : Nat) : String :=
  String.ofList ('\n' :: List.replicate (2 * level) ' ')

/-- Items between brackets, one to a line; nothing between the brackets if there are none. -/
def enclose (left right : String) (level : Nat) (items : List String) : String :=
  if items.isEmpty then left ++ right
  else left ++ String.intercalate "," (items.map (indent (level + 1) ++ ·)) ++ indent level ++ right

mutual

def renderAt (level : Nat) : Json → String
  | null => "null"
  | bool b => if b then "true" else "false"
  | nat n => toString n
  | decimal spelling => spelling
  | string text => quote text
  | array items => enclose "[" "]" level (renderItems (level + 1) items)
  | object fields => enclose "\x7B" "\x7D" level (renderFields (level + 1) fields)

def renderItems (level : Nat) : List Json → List String
  | [] => []
  | item :: rest => renderAt level item :: renderItems level rest

def renderFields (level : Nat) : List (String × Json) → List String
  | [] => []
  | (name, value) :: rest => (quote name ++ ": " ++ renderAt level value) :: renderFields level rest

end

def render (value : Json) : String :=
  renderAt 0 value

def field? (value : Json) (name : String) : Option Json :=
  match value with
  | object fields => fields.lookup name
  | _ => none

end Json

end ArchLint
