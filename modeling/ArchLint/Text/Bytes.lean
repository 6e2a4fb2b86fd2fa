/-!
# Bytes as characters

Some patterns count bytes and not characters. `byteChars` gives every byte of a text as the character with its
number, so that the same matcher serves for both.
-/

namespace ArchLint.Text

/-- The bytes of a character, each as the character with its number. -/
def byteCharsOf (c : Char) : List Char :=
  (String.utf8EncodeChar c).map fun byte => Char.ofNat byte.toNat

def byteChars (text : List Char) : List Char :=
  text.flatMap byteCharsOf

end ArchLint.Text
