/-!
# Suffixes

The places where the rest of a pattern can go on: every end of a text (`mem_suffixes`), or only the ends that
follow a separator (`mem_following`).
-/

namespace ArchLint.Text

/-- The ends of a text, from the whole of it down to the empty one. -/
def suffixes : List Char → List (List Char)
  | [] => [[]]
  | c :: rest => (c :: rest) :: suffixes rest

theorem mem_suffixes {text tail : List Char} : tail ∈ suffixes text ↔ tail <:+ text := by
  induction text with
  | nil => simp [suffixes]
  | cons c rest ih => simp [suffixes, ih, List.suffix_cons_iff]

def following (sep : Char) : List Char → List (List Char)
  | [] => []
  | c :: rest => if c = sep then rest :: following sep rest else following sep rest

theorem mem_following {sep : Char} {text tail : List Char} :
    tail ∈ following sep text ↔ sep :: tail <:+ text := by
  induction text with
  | nil => simp [following]
  | cons c rest ih =>
    simp only [following, List.suffix_cons_iff, List.cons.injEq]
    split
    · subst c
      simp [ih]
    · simp [ih, Ne.symm ‹c ≠ sep›]

end ArchLint.Text
