import ArchLint.Proofs.Pattern.Matching
import ArchLint.Rules.UnifiedId
import ArchLint.Text.Occurrence
import Mathlib.Data.List.Infix

/-!
# Where words match

A word matches from where it stands to the gap behind it. So an alternative of words matches the texts in which one of
them occurs.
-/

namespace ArchLint.Pattern

namespace Regex

variable {text : List Char}

theorem matches_sequence_cons_iff {r : Regex} {rest : List Regex} {i k : Nat} :
    Matches text (sequence (r :: rest)) i k ↔ ∃ j, Matches text r i j ∧ Matches text (sequence rest) j k := by
  cases rest with
  | nil => simp [sequence, matches_empty_iff]
  | cons next rest => exact matches_seq_iff

theorem matches_sequence_append_iff {rs ss : List Regex} {i k : Nat} :
    Matches text (sequence (rs ++ ss)) i k ↔ ∃ j, Matches text (sequence rs) i j ∧ Matches text (sequence ss) j k := by
  induction rs generalizing i with
  | nil => simp [sequence, matches_empty_iff]
  | cons r rs ih =>
    rw [List.cons_append, matches_sequence_cons_iff]
    simp only [ih, matches_sequence_cons_iff]
    constructor
    · rintro ⟨j, first, l, second, third⟩
      exact ⟨l, ⟨j, first, second⟩, third⟩
    · rintro ⟨l, ⟨j, first, second⟩, third⟩
      exact ⟨j, first, l, second, third⟩

theorem cons_prefix_drop_iff {c : Char} {w : List Char} {i : Nat} :
    c :: w <+: text.drop i ↔ text[i]? = some c ∧ w <+: text.drop (i + 1) := by
  rw [List.drop_eq_getElem?_toList_append]
  cases here : text[i]? with
  | none =>
    have past := List.getElem?_eq_none_iff.mp here
    simp [List.drop_of_length_le (Nat.le_succ_of_le past)]
  | some d => simp [List.cons_prefix_cons, eq_comm]

/-- The characters of a word, one after the other. -/
theorem matches_letters_iff {w : List Char} {i j : Nat} :
    Matches text (sequence (w.map fun c => .set (.single c))) i j ↔ j = i + w.length ∧ w <+: text.drop i := by
  induction w generalizing i with
  | nil => simp [sequence, matches_empty_iff, eq_comm]
  | cons c w ih =>
    rw [List.map_cons, matches_sequence_cons_iff, cons_prefix_drop_iff]
    constructor
    · rintro ⟨k, first, others⟩
      obtain ⟨rfl, before⟩ := ih.mp others
      cases first with
      | @set _ _ other there inside =>
        obtain rfl : other = c := by simpa [CharSet.mem_single] using inside
        exact ⟨by rw [List.length_cons]; omega, there, before⟩
    · rintro ⟨rfl, there, before⟩
      refine ⟨i + 1, .set there (by simp [CharSet.mem_single]), ih.mpr ⟨?_, before⟩⟩
      rw [List.length_cons]
      omega

theorem matches_anyOf_iff {r : Regex} {rest : List Regex} {i j : Nat} :
    Matches text (anyOf (r :: rest)) i j ↔ ∃ s ∈ r :: rest, Matches text s i j := by
  induction rest generalizing r with
  | nil => simp [anyOf]
  | cons next rest ih =>
    rw [List.exists_mem_cons_iff, ← ih]
    exact matches_alt_iff

theorem matches_anyOf_word_iff {first : String} {others : List String} {i j : Nat} :
    Matches text (anyOf ((first :: others).map word)) i j ↔ ∃ w ∈ first :: others, Matches text (word w) i j := by
  rw [List.map_cons, matches_anyOf_iff, ← List.map_cons]
  simp only [List.mem_map, exists_exists_and_eq_and]

theorem infix_iff_prefix_drop {w : List Char} : w <:+: text ↔ ∃ i ≤ text.length, w <+: text.drop i := by
  rw [List.infix_iff_prefix_suffix]
  constructor
  · rintro ⟨rest, start, suffix⟩
    refine ⟨text.length - rest.length, Nat.sub_le _ _, ?_⟩
    rwa [← List.suffix_iff_eq_drop.mp suffix]
  · rintro ⟨i, -, start⟩
    exact ⟨text.drop i, start, List.drop_suffix i text⟩

/-- An expression that matches where certain spellings stand matches the texts in which one of them occurs. -/
theorem isMatch_iff_infix {r : Regex} {text : String} {words : List String} (spelling : String → List Char)
    (spells : ∀ i j, Matches text.toList r i j ↔
      ∃ w ∈ words, j = i + (spelling w).length ∧ spelling w <+: text.toList.drop i) :
    r.isMatch text = true ↔ ∃ w ∈ words, spelling w <:+: text.toList := by
  rw [isMatch_iff_matches]
  simp only [spells, infix_iff_prefix_drop]
  constructor
  · rintro ⟨i, _, within, w, inside, rfl, start⟩
    exact ⟨w, inside, i, within, start⟩
  · rintro ⟨w, inside, i, within, start⟩
    exact ⟨i, _, within, w, inside, rfl, start⟩

/-- An alternative of words matches wherever one of them occurs. -/
theorem isMatch_anyOf_word (first : String) (others : List String) (text : String) :
    (anyOf ((first :: others).map word)).isMatch text = true ↔
      ∃ w ∈ first :: others, w.toList <:+: text.toList := by
  refine isMatch_iff_infix String.toList fun i j => ?_
  rw [matches_anyOf_word_iff]
  simp only [word, matches_letters_iff]

/-- An alternative of words with a character behind it matches wherever one of them occurs before the character. -/
theorem isMatch_anyOf_word_before (first : String) (others : List String) (c : Char) (text : String) :
    (Regex.seq (anyOf ((first :: others).map word)) (.set (.single c))).isMatch text = true ↔
      ∃ w ∈ first :: others, w.toList ++ [c] <:+: text.toList := by
  refine isMatch_iff_infix (fun w => w.toList ++ [c]) fun i j => ?_
  simp only [← matches_letters_iff, List.map_append, matches_sequence_append_iff]
  rw [matches_seq_iff]
  simp only [matches_anyOf_word_iff]
  constructor
  · rintro ⟨k, ⟨w, inside, spelled⟩, behind⟩
    exact ⟨w, inside, k, spelled, behind⟩
  · rintro ⟨w, inside, k, spelled, behind⟩
    exact ⟨k, ⟨w, inside, spelled⟩, behind⟩

end Regex

end ArchLint.Pattern

namespace ArchLint.Rules.UnifiedId

/-- Whatever mentions a longer keyword mentions one of four short ones. -/
theorem isMatch_keywordPattern (content : String) :
    keywordPattern.isMatch content = true ↔
      ∃ w ∈ ["id", "Id", "ID", "error_"], w.toList <:+: content.toList := by
  have subsumed : ∀ w ∈ keywords, ∃ short ∈ ["id", "Id", "ID", "error_"], short.toList <:+: w.toList := by
    simp only [← Text.occurs_iff_infix]
    decide
  have kept : ∀ short ∈ ["id", "Id", "ID", "error_"], short ∈ keywords := by decide
  rw [keywordPattern, keywords, Pattern.Regex.isMatch_anyOf_word, ← keywords]
  constructor
  · rintro ⟨w, inside, occurs⟩
    obtain ⟨short, chosen, part⟩ := subsumed w inside
    exact ⟨short, chosen, part.trans occurs⟩
  · rintro ⟨short, chosen, occurs⟩
    exact ⟨short, kept short chosen, occurs⟩

end ArchLint.Rules.UnifiedId
