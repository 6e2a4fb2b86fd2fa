/-!
# Quoted texts

A text between double quotes, as it is written for inspection: quotes, backslashes and control characters are
escaped.
-/

namespace ArchLint.Text

/-- A character between quotes. Control characters without a name are written by their number. -/
def quotedChar (c : Char) : List Char :=
  match c with
  | '"' => ['\\', '"']
  | '\\' => ['\\', '\\']
  | '\n' => ['\\', 'n']
  | '\r' => ['\\', 'r']
  | '\t' => ['\\', 't']
  | '\x00' => ['\\', '0']
  | c =>
    if c.toNat < 0x20 ∨ c.toNat = 0x7F then ['\\', 'u', '\x7B'] ++ Nat.toDigits 16 c.toNat ++ ['\x7D'] else [c]

def quoted (text : String) : String :=
  String.ofList ('"' :: text.toList.flatMap quotedChar ++ ['"'])

end ArchLint.Text
