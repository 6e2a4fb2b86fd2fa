/-!
# Fields of a text

`fields sep` cuts a text at every separator and keeps the blank pieces, so that joining the
fields with the separator gives the text back (`intercalate_fields`).
-/

namespace ArchLint.Text

/-- The pieces between separators. There is always at least one. -/
def fields (sep : Char) : List Char → List (List Char)
  | [] => [[]]
  | c :: rest =>
    if c = sep then [] :: fields sep rest
    else match fields sep rest with
      | [] => [[c]]
      | piece :: pieces => (c :: piece) :: pieces

theorem fields_ne_nil (sep : Char) (text : List Char) : fields sep text ≠ [] := by
  cases text with
  | nil => simp [fields]
  | cons c rest =>
    simp only [fields]
    split
    · simp
    · split <;> simp

theorem fields_separator (sep : Char) (rest : List Char) :
    fields sep (sep :: rest) = [] :: fields sep rest := by
  simp [fields]

theorem intercalate_fields (sep : Char) (text : List Char) :
    List.intercalate [sep] (fields sep text) = text := by
  induction text with
  | nil => simp [fields]
  | cons c rest ih =>
    obtain ⟨piece, pieces, h⟩ := List.exists_cons_of_ne_nil (fields_ne_nil sep rest)
    simp only [fields]
    split
    · subst c
      rw [h] at ih ⊢
      simp [List.intercalate, ← ih]
    · rw [h] at ih ⊢
      cases pieces <;> simp_all [List.intercalate]

def joinWith (sep : Char) (pieces : List String) : String :=
  String.ofList (List.intercalate [sep] (pieces.map String.toList))

def fieldsOf (sep : Char) (text : String) : List String :=
  (fields sep text.toList).map String.ofList

theorem joinWith_fieldsOf (sep : Char) (text : String) :
    joinWith sep (fieldsOf sep text) = text := by
  simp [joinWith, fieldsOf, Function.comp_def, intercalate_fields]

end ArchLint.Text
