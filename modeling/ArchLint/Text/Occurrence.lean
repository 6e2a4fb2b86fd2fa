/-!
# Occurrences of one text in another

`occurs` is the substring test (`occurs_iff_infix`), and `erasePair` drops a pair of characters wherever it is
found from left to right, never looking at a character twice.
-/

namespace ArchLint.Text

def occurs (needle : List Char) : List Char → Bool
  | [] => needle.isEmpty
  | c :: rest => needle.isPrefixOf (c :: rest) || occurs needle rest

theorem occurs_iff_infix (needle text : List Char) : occurs needle text = true ↔ needle <:+: text := by
  induction text with
  | nil => simp [occurs]
  | cons c rest ih => simp [occurs, ih, List.infix_cons_iff]

/-- The text without the leftmost occurrences of a pair of characters. -/
def erasePair (a b : Char) : List Char → List Char
  | x :: y :: rest => if x = a ∧ y = b then erasePair a b rest else x :: erasePair a b (y :: rest)
  | text => text

end ArchLint.Text
