import Mathlib.Algebra.Group.Nat.Defs
import Mathlib.Data.Char
import Mathlib.Data.List.Basic

/-!
# Texts in byte order

Texts are ordered by their characters. Written as bytes they are in the same order: a character that comes later has a
greater first byte, or the same one and then a greater byte before any smaller one.
-/

namespace ArchLint.Text

/-- The bytes of a text, as it is stored in a file. -/
def bytes (text : String) : List UInt8 :=
  text.toUTF8.data.toList

/-- The last bytes of a code point, six bits each. -/
def lastBytes (code : Nat) : Nat → List UInt8
  | 0 => []
  | count + 1 => UInt8.ofNat (code / 64 ^ count % 64 + 0x80) :: lastBytes code count

/-- How many bytes follow the first one of a code point. -/
def furtherBytes (code : Nat) : Nat :=
  if code ≤ 0x7F then 0 else if code ≤ 0x7FF then 1 else if code ≤ 0xFFFF then 2 else 3

def firstByte (code : Nat) : Nat :=
  if code ≤ 0x7F then code
  else if code ≤ 0x7FF then code / 64 % 0x20 + 0xC0
  else if code ≤ 0xFFFF then code / 64 ^ 2 % 0x10 + 0xE0
  else code / 64 ^ 3 % 0x08 + 0xF0

theorem bytes_eq (text : String) : bytes text = text.toList.flatMap String.utf8EncodeChar := by
  have encoded : text.toUTF8 = (text.toList.flatMap String.utf8EncodeChar).toByteArray := by
    conv_lhs => rw [← String.ofList_toList (s := text)]
    rfl
  rw [bytes, encoded]
  simp

theorem utf8EncodeChar_eq (c : Char) : String.utf8EncodeChar c =
    UInt8.ofNat (firstByte c.toNat) :: lastBytes c.toNat (furtherBytes c.toNat) := by
  change String.utf8EncodeChar c = _ :: lastBytes c.val.toNat (furtherBytes c.val.toNat)
  unfold String.utf8EncodeChar firstByte furtherBytes
  dsimp only [Char.toNat]
  split
  · rfl
  · split
    · simp [lastBytes]
    · split
      · simp [lastBytes]
      · simp [lastBytes]

theorem lastBytes_lt {v w : Nat} (less : v < w) {count : Nat} (same : v / 64 ^ count = w / 64 ^ count)
    (rest more : List UInt8) : lastBytes v count ++ rest < lastBytes w count ++ more := by
  induction count with
  | zero => exact absurd same (by simp; omega)
  | succ count ih =>
    have digits : ∀ n, n / 64 ^ count / 64 = n / 64 ^ (count + 1) := by
      intro n
      rw [Nat.div_div_eq_div_mul, Nat.pow_succ]
    have grows : v / 64 ^ count ≤ w / 64 ^ count := Nat.div_le_div_right (Nat.le_of_lt less)
    have above : v / 64 ^ count / 64 = w / 64 ^ count / 64 := by rw [digits, digits, same]
    rw [lastBytes, lastBytes, List.cons_append, List.cons_append, List.cons_lt_cons_iff, UInt8.lt_iff_toNat_lt,
      ← UInt8.toNat_inj, UInt8.toNat_ofNat', UInt8.toNat_ofNat']
    by_cases equal : v / 64 ^ count = w / 64 ^ count
    · exact Or.inr ⟨by rw [equal], ih equal⟩
    · exact Or.inl (by omega)

theorem firstByte_lt {code : Nat} (bound : code < 0x110000) : firstByte code < 256 := by
  unfold firstByte
  split_ifs <;> omega

/-- A later code point has a greater first byte, unless it differs in the further bytes only. -/
theorem firstByte_lt_or {v w : Nat} (less : v < w) (bound : w < 0x110000) :
    firstByte v < firstByte w ∨
      firstByte v = firstByte w ∧ furtherBytes v = furtherBytes w ∧
        v / 64 ^ furtherBytes v = w / 64 ^ furtherBytes v := by
  unfold firstByte furtherBytes
  split_ifs <;> omega

theorem utf8EncodeChar_lt {c d : Char} (less : c < d) (rest more : List UInt8) :
    String.utf8EncodeChar c ++ rest < String.utf8EncodeChar d ++ more := by
  have codes : c.toNat < d.toNat := less
  have bound : d.toNat < 0x110000 := by
    have valid : d.toNat.isValidChar := d.valid
    unfold Nat.isValidChar at valid
    omega
  have small := firstByte_lt bound
  have smaller := firstByte_lt (Nat.lt_trans codes bound)
  rw [utf8EncodeChar_eq, utf8EncodeChar_eq, List.cons_append, List.cons_append, List.cons_lt_cons_iff,
    UInt8.lt_iff_toNat_lt, ← UInt8.toNat_inj, UInt8.toNat_ofNat', UInt8.toNat_ofNat', Nat.mod_eq_of_lt small,
    Nat.mod_eq_of_lt smaller]
  rcases firstByte_lt_or codes bound with first | ⟨first, further, same⟩
  · exact Or.inl first
  · refine Or.inr ⟨first, ?_⟩
    rw [← further]
    exact lastBytes_lt codes same rest more

theorem append_lt_append_iff (front : List UInt8) {rest more : List UInt8} :
    front ++ rest < front ++ more ↔ rest < more := by
  induction front with
  | nil => rfl
  | cons byte front ih => rw [List.cons_append, List.cons_append, List.cons_lt_cons_self, ih]

theorem flatMap_utf8EncodeChar_lt_iff (l m : List Char) :
    l.flatMap String.utf8EncodeChar < m.flatMap String.utf8EncodeChar ↔ l < m := by
  induction l generalizing m with
  | nil =>
    cases m with
    | nil => simp
    | cons d m =>
      obtain ⟨byte, rest, first⟩ := List.exists_cons_of_ne_nil (String.utf8EncodeChar_ne_nil (c := d))
      rw [List.flatMap_nil, List.flatMap_cons, first]
      exact iff_of_true (List.nil_lt_cons _ _) (List.nil_lt_cons _ _)
  | cons c l ih =>
    cases m with
    | nil => simp
    | cons d m =>
      rw [List.flatMap_cons, List.flatMap_cons, List.cons_lt_cons_iff]
      rcases lt_trichotomy c d with before | rfl | after
      · exact iff_of_true (utf8EncodeChar_lt before _ _) (Or.inl before)
      · rw [append_lt_append_iff, ih]
        simp
      · refine iff_of_false (List.lt_asymm (utf8EncodeChar_lt after _ _)) ?_
        rintro (before | ⟨rfl, -⟩)
        · exact lt_asymm before after
        · exact lt_irrefl _ after

theorem bytes_le_iff (s t : String) : bytes s ≤ bytes t ↔ s ≤ t := by
  rw [bytes_eq, bytes_eq]
  exact not_congr (flatMap_utf8EncodeChar_lt_iff t.toList s.toList)

end ArchLint.Text
