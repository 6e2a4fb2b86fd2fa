import ArchLint.Pattern.Glob

/-!
# What a glob stands for

`Stands` reads a glob piece by piece, with no search in it. The matcher tries all ends of the text that a wildcard can
leave over, and so finds a reading exactly if there is one.
-/

namespace ArchLint.Pattern

/-- The pieces stand for the text. Whole directories end with a slash. -/
inductive GlobPiece.Stand : List GlobPiece → List Char → Prop
  | nothing : Stand [] []
  | one {piece : GlobPiece} {c : Char} {rest : List GlobPiece} {text : List Char} :
    piece.admits c = true → Stand rest text → Stand (piece :: rest) (c :: text)
  | star (skipped : List Char) {rest : List GlobPiece} {text : List Char} :
    Stand rest text → Stand (.star :: rest) (skipped ++ text)
  | noDirectories {rest : List GlobPiece} {text : List Char} : Stand rest text → Stand (.directories :: rest) text
  | directories (skipped : List Char) {rest : List GlobPiece} {text : List Char} :
    Stand rest text → Stand (.directories :: rest) (skipped ++ '/' :: text)
  | anything (text : List Char) : Stand [.directories] text

namespace Glob

open GlobPiece

def Covers (g : Glob) (text : String) : Prop :=
  Stand g.pieces text.toList

theorem stand_star_iff {rest : List GlobPiece} {text : List Char} :
    Stand (.star :: rest) text ↔ ∃ tail, tail <:+ text ∧ Stand rest tail := by
  constructor
  · intro h
    cases h with
    | one admitted => simp [admits] at admitted
    | star skipped below => exact ⟨_, List.suffix_append skipped _, below⟩
  · rintro ⟨tail, ⟨skipped, rfl⟩, below⟩
    exact .star skipped below

theorem stand_directories_iff {rest : List GlobPiece} {text : List Char} :
    Stand (.directories :: rest) text ↔
      rest = [] ∨ Stand rest text ∨ ∃ tail, '/' :: tail <:+ text ∧ Stand rest tail := by
  constructor
  · intro h
    cases h with
    | one admitted => simp [admits] at admitted
    | noDirectories below => exact Or.inr (Or.inl below)
    | directories skipped below => exact Or.inr (Or.inr ⟨_, List.suffix_append skipped _, below⟩)
    | anything => exact Or.inl rfl
  · rintro (rfl | below | ⟨tail, ⟨skipped, rfl⟩, below⟩)
    · exact .anything text
    · exact .noDirectories below
    · exact .directories skipped below

theorem stand_cons_iff {piece : GlobPiece} (single : piece ≠ .star ∧ piece ≠ .directories) {rest : List GlobPiece}
    {text : List Char} :
    Stand (piece :: rest) text ↔ ∃ c tail, text = c :: tail ∧ piece.admits c = true ∧ Stand rest tail := by
  constructor
  · intro h
    cases h with
    | one admitted below => exact ⟨_, _, rfl, admitted, below⟩
    | star => exact absurd rfl single.1
    | noDirectories | directories | anything => exact absurd rfl single.2
  · rintro ⟨c, tail, rfl, admitted, below⟩
    exact .one admitted below

theorem matchesPieces_iff (pieces : List GlobPiece) (text : List Char) :
    matchesPieces pieces text = true ↔ Stand pieces text := by
  fun_induction matchesPieces pieces text with
  | case1 text =>
    cases text with
    | nil => simpa using Stand.nothing
    | cons c text => exact ⟨fun h => by simp at h, fun h => by cases h⟩
  | case2 text rest ih => simp [stand_star_iff, Text.mem_suffixes, ih]
  | case3 text rest ih₁ ih₂ => simp [stand_directories_iff, Text.mem_following, ih₁, ih₂, or_assoc]
  | case4 piece rest star directories => simp [stand_cons_iff ⟨star, directories⟩]
  | case5 piece rest c text star directories ih =>
    rw [stand_cons_iff ⟨star, directories⟩, Bool.and_eq_true, ih]
    constructor
    · rintro ⟨admitted, below⟩
      exact ⟨c, text, rfl, admitted, below⟩
    · rintro ⟨_, _, same, admitted, below⟩
      obtain ⟨rfl, rfl⟩ := List.cons.inj same
      exact ⟨admitted, below⟩

theorem covers_iff (g : Glob) (text : String) : g.covers text = true ↔ g.Covers text :=
  matchesPieces_iff g.pieces text.toList

theorem source_ofSource {source : String} {g : Glob} (read : ofSource source = .ok g) : g.source = source := by
  unfold ofSource at read
  cases pieces : readFrom 0 true source.toList with
  | error e => simp [pieces, Except.map] at read
  | ok pieces' =>
    rw [pieces] at read
    obtain rfl := Except.ok.inj read
    rfl

end Glob

end ArchLint.Pattern
