import ArchLint.Pattern.Regex.Basic

/-!
# The matcher and what it decides

Following all gaps at once finds exactly the matches: the gaps that `ends` reaches are the ends of matches from the
gaps it started with. So `isMatch` says whether there is a match anywhere, and `isWholeMatch` whether there is one of
the whole text.
-/

namespace ArchLint.Pattern

namespace Regex

/-! ### Sets of gaps -/

theorem testBit_marks {α : Type} (p : α → Bool) (l : List α) (i : Nat) : (marks p l).testBit i = l[i]?.any p := by
  induction l generalizing i with
  | nil => simp [marks]
  | cons x rest ih =>
    cases i with
    | zero => cases here : p x <;> simp [marks, here]
    | succ i =>
      have half : ((if p x then 1 else 0) + 2 * marks p rest) / 2 = marks p rest := by split <;> omega
      rw [marks, Nat.testBit_succ, half, ih]
      rfl

/-- A set of characters takes a gap before one of them to the gap behind it. -/
theorem testBit_ends_set (text : List Char) (s : CharSet) (start j : Nat) :
    (ends text (.set s) start).testBit j = true ↔
      ∃ i c, j = i + 1 ∧ start.testBit i = true ∧ text[i]? = some c ∧ s.mem c = true := by
  rw [ends, Nat.testBit_shiftLeft]
  cases j with
  | zero => simp
  | succ i =>
    simp only [ge_iff_le, Nat.le_add_left, decide_true, Bool.true_and, Nat.add_sub_cancel, Nat.testBit_and,
      testBit_marks, Bool.and_eq_true, Option.any_eq_true]
    constructor
    · rintro ⟨first, c, there, inside⟩
      exact ⟨i, c, rfl, first, there, inside⟩
    · rintro ⟨k, c, same, first, there, inside⟩
      obtain rfl : i = k := by omega
      exact ⟨first, c, there, inside⟩

theorem isMatch_iff_testBit (r : Regex) (text : String) :
    r.isMatch text = true ↔
      ∃ j, (ends text.toList r (1 <<< (text.toList.length + 1) - 1)).testBit j = true := by
  rw [isMatch, decide_eq_true_eq]
  constructor
  · exact Nat.exists_testBit_of_ne_zero
  · rintro ⟨j, set⟩ none
    rw [none, Nat.zero_testBit] at set
    cases set

/-- All gaps of the set are gaps of the text. -/
def Within (text : List Char) (start : Nat) : Prop :=
  ∀ i, start.testBit i = true → i ≤ text.length

/-! ### Matches of each form -/

section

variable {text : List Char} {r s : Regex} {i j : Nat}

theorem matches_empty_iff : Matches text .empty i j ↔ i = j := by
  constructor
  · intro found
    cases found
    rfl
  · intro same
    exact same ▸ .empty i

theorem matches_set_iff {chars : CharSet} :
    Matches text (.set chars) i j ↔ j = i + 1 ∧ ∃ c, text[i]? = some c ∧ chars.mem c = true := by
  constructor
  · intro found
    cases found with
    | set there inside => exact ⟨rfl, _, there, inside⟩
  · rintro ⟨rfl, c, there, inside⟩
    exact .set there inside

theorem matches_anchor_iff {a : Anchor} :
    Matches text (.anchor a) i j ↔ i = j ∧ (gaps none text)[i]?.any a.holds = true := by
  rw [Option.any_eq_true]
  constructor
  · intro found
    cases found with
    | anchor there holds => exact ⟨rfl, _, there, holds⟩
  · rintro ⟨rfl, gap, there, holds⟩
    exact .anchor there holds

theorem matches_seq_iff : Matches text (.seq r s) i j ↔ ∃ k, Matches text r i k ∧ Matches text s k j := by
  constructor
  · intro found
    cases found with
    | seq first second => exact ⟨_, first, second⟩
  · rintro ⟨k, first, second⟩
    exact .seq first second

theorem matches_alt_iff : Matches text (.alt r s) i j ↔ Matches text r i j ∨ Matches text s i j := by
  constructor
  · intro found
    cases found with
    | altLeft left => exact Or.inl left
    | altRight right => exact Or.inr right
  · intro either
    exact either.elim .altLeft .altRight

end

/-! ### Rounds of a repetition -/

/-- A number of matches in a row. -/
inductive Rounds (text : List Char) (r : Regex) : Nat → Nat → Nat → Prop where
  | none (i : Nat) : Rounds text r 0 i i
  | more {n i j k : Nat} (first : Matches text r i j) (others : Rounds text r n j k) : Rounds text r (n + 1) i k

variable {text : List Char} {r : Regex}

theorem Matches.le_and_le {i j : Nat} (found : Matches text r i j) :
    i ≤ j ∧ (i ≤ text.length → j ≤ text.length) := by
  induction found with
  | empty i => exact ⟨Nat.le_refl i, id⟩
  | set at_i _ => exact ⟨Nat.le_succ _, fun _ => (List.getElem?_eq_some_iff.mp at_i).1⟩
  | anchor _ _ => exact ⟨Nat.le_refl _, id⟩
  | seq _ _ ihFirst ihSecond => exact ⟨Nat.le_trans ihFirst.1 ihSecond.1, ihSecond.2 ∘ ihFirst.2⟩
  | altLeft _ ih => exact ih
  | altRight _ ih => exact ih
  | stop i => exact ⟨Nat.le_refl i, id⟩
  | once _ _ _ ihFirst ihOthers => exact ⟨Nat.le_trans ihFirst.1 ihOthers.1, ihOthers.2 ∘ ihFirst.2⟩

namespace Rounds

theorem le_and_le {n i j : Nat} (rounds : Rounds text r n i j) : i ≤ j ∧ (i ≤ text.length → j ≤ text.length) := by
  induction rounds with
  | none i => exact ⟨Nat.le_refl i, id⟩
  | more first _ ih => exact ⟨Nat.le_trans first.le_and_le.1 ih.1, ih.2 ∘ first.le_and_le.2⟩

theorem append {m n i j k : Nat} (before : Rounds text r m i j) (after : Rounds text r n j k) :
    Rounds text r (m + n) i k := by
  induction before with
  | none i => rwa [Nat.zero_add]
  | more first _ ih =>
    rw [Nat.succ_add]
    exact .more first (ih after)

theorem split {m n i k : Nat} (rounds : Rounds text r (m + n) i k) :
    ∃ j, Rounds text r m i j ∧ Rounds text r n j k := by
  induction m generalizing i with
  | zero => exact ⟨i, .none i, by rwa [Nat.zero_add] at rounds⟩
  | succ m ih =>
    rw [Nat.succ_add] at rounds
    cases rounds with
    | more first others =>
      obtain ⟨j, before, after⟩ := ih others
      exact ⟨j, .more first before, after⟩

/-- Rounds that take no character can be left out. -/
theorem shorten {n i k : Nat} (rounds : Rounds text r n i k) : ∃ m ≤ k - i, Rounds text r m i k := by
  induction rounds with
  | none i => exact ⟨0, Nat.zero_le _, .none i⟩
  | @more n i j k first others ih =>
    obtain ⟨m, few, shorter⟩ := ih
    by_cases same : i = j
    · subst same
      exact ⟨m, few, shorter⟩
    · have start := first.le_and_le.1
      have rest := others.le_and_le.1
      exact ⟨m + 1, by omega, .more first shorter⟩

end Rounds

theorem Matches.exists_rounds {least : Nat} {most : Option Nat} {i j : Nat}
    (found : Matches text (.repeated r least most) i j) :
    ∃ n, least ≤ n ∧ (∀ bound, most = some bound → n ≤ max least bound) ∧ Rounds text r n i j := by
  generalize same : Regex.repeated r least most = repetition at found
  induction found generalizing least most with
  | stop i =>
    cases same
    exact ⟨0, Nat.le_refl 0, fun _ _ => Nat.zero_le _, .none i⟩
  | once room first _ _ ihOthers =>
    obtain ⟨rfl, rfl, rfl⟩ := Regex.repeated.inj same
    obtain ⟨n, enough, few, rounds⟩ := ihOthers rfl
    refine ⟨n + 1, by omega, ?_, .more first rounds⟩
    rintro bound rfl
    have fewer := few (bound - 1) rfl
    have : least ≠ 0 ∨ bound ≠ 0 := by simpa using room
    omega
  | empty | set | anchor | seq | altLeft | altRight => cases same

theorem Rounds.matches_repeated {n i j : Nat} (rounds : Rounds text r n i j) {least : Nat} {most : Option Nat}
    (enough : least ≤ n) (few : ∀ bound, most = some bound → n ≤ max least bound) :
    Matches text (.repeated r least most) i j := by
  induction rounds generalizing least most with
  | none i =>
    obtain rfl := Nat.le_zero.mp enough
    exact .stop i
  | @more n i j k first _ ih =>
    refine .once ?_ first (ih (by omega) ?_)
    · cases least with
      | succ least => exact Or.inl (Nat.succ_ne_zero least)
      | zero =>
        refine Or.inr ?_
        rintro rfl
        exact absurd (few 0 rfl) (by simp)
    · intro bound lowered
      obtain ⟨higher, rfl, rfl⟩ := Option.map_eq_some_iff.mp lowered
      have := few higher rfl
      omega

theorem matches_repeated_iff {least : Nat} {most : Option Nat} {i j : Nat} :
    Matches text (.repeated r least most) i j ↔
      ∃ n, least ≤ n ∧ (∀ bound, most = some bound → n ≤ max least bound) ∧ Rounds text r n i j :=
  ⟨Matches.exists_rounds, fun ⟨_, enough, few, rounds⟩ => rounds.matches_repeated enough few⟩

/-! ### Steps -/

section

variable (step : ∀ start, Within text start → ∀ j, (ends text r start).testBit j = true ↔
    ∃ i, start.testBit i = true ∧ Matches text r i j) {start : Nat}

include step

theorem within_ends (within : Within text start) : Within text (ends text r start) := by
  intro j reached
  obtain ⟨i, first, found⟩ := (step start within j).mp reached
  exact found.le_and_le.2 (within i first)

theorem testBit_stepped (n : Nat) (within : Within text start) (j : Nat) :
    (stepped (ends text r) n start).testBit j = true ↔ ∃ i, start.testBit i = true ∧ Rounds text r n i j := by
  induction n generalizing start with
  | zero =>
    rw [stepped]
    constructor
    · exact fun first => ⟨j, first, .none j⟩
    · rintro ⟨i, first, rounds⟩
      cases rounds
      exact first
  | succ n ih =>
    rw [stepped]
    split
    · next empty =>
      subst empty
      simp
    · rw [ih (within_ends step within)]
      constructor
      · rintro ⟨k, reached, rounds⟩
        obtain ⟨i, first, found⟩ := (step start within k).mp reached
        exact ⟨i, first, .more found rounds⟩
      · rintro ⟨i, first, rounds⟩
        cases rounds with
        | more found others => exact ⟨_, (step start within _).mpr ⟨i, first, found⟩, others⟩

theorem within_stepped (n : Nat) (within : Within text start) : Within text (stepped (ends text r) n start) := by
  intro j reached
  obtain ⟨i, first, rounds⟩ := (testBit_stepped step n within j).mp reached
  exact rounds.le_and_le.2 (within i first)

/-- If a step adds nothing, no number of rounds leads out of the set. -/
theorem testBit_of_closed (within : Within text start) (closed : start ||| ends text r start = start) {n i j : Nat}
    (rounds : Rounds text r n i j) (first : start.testBit i = true) : start.testBit j = true := by
  induction rounds with
  | none i => exact first
  | @more n i j k found _ ih =>
    refine ih ?_
    rw [← closed, Nat.testBit_or, Bool.or_eq_true]
    exact Or.inr ((step start within j).mpr ⟨i, first, found⟩)

theorem testBit_reached (n : Nat) (within : Within text start) (j : Nat) :
    (reached (ends text r) n start).testBit j = true ↔
      ∃ m ≤ n, ∃ i, start.testBit i = true ∧ Rounds text r m i j := by
  induction n generalizing start with
  | zero =>
    rw [reached]
    constructor
    · exact fun first => ⟨0, Nat.le_refl 0, j, first, .none j⟩
    · rintro ⟨m, few, i, first, rounds⟩
      obtain rfl := Nat.le_zero.mp few
      cases rounds
      exact first
  | succ n ih =>
    rw [reached]
    split
    · next closed =>
      constructor
      · exact fun first => ⟨0, Nat.zero_le _, j, first, .none j⟩
      · rintro ⟨m, -, i, first, rounds⟩
        exact testBit_of_closed step within closed rounds first
    · have withinNext : Within text (start ||| ends text r start) := by
        intro i either
        rw [Nat.testBit_or, Bool.or_eq_true] at either
        exact either.elim (within i) (within_ends step within i)
      rw [ih withinNext]
      constructor
      · rintro ⟨m, few, k, either, rounds⟩
        rw [Nat.testBit_or, Bool.or_eq_true] at either
        rcases either with first | reached
        · exact ⟨m, by omega, k, first, rounds⟩
        · obtain ⟨i, first, found⟩ := (step start within k).mp reached
          exact ⟨m + 1, by omega, i, first, .more found rounds⟩
      · rintro ⟨m, few, i, first, rounds⟩
        cases rounds with
        | none => exact ⟨0, Nat.zero_le _, j, by simp [first], .none j⟩
        | @more m _ k _ found others =>
          refine ⟨m, by omega, k, ?_, others⟩
          rw [Nat.testBit_or, Bool.or_eq_true]
          exact Or.inr ((step start within k).mpr ⟨i, first, found⟩)

theorem testBit_ends_repeated (least : Nat) (most : Option Nat) (within : Within text start) (j : Nat) :
    (ends text (.repeated r least most) start).testBit j = true ↔
      ∃ i, start.testBit i = true ∧ Matches text (.repeated r least most) i j := by
  unfold ends
  rw [testBit_reached step _ (within_stepped step least within)]
  simp only [testBit_stepped step least within, matches_repeated_iff]
  constructor
  · rintro ⟨m, few, k, ⟨i, first, before⟩, after⟩
    refine ⟨i, first, least + m, Nat.le_add_right _ _, ?_, before.append after⟩
    rintro bound rfl
    dsimp only at few
    omega
  · rintro ⟨i, first, n, enough, few, rounds⟩
    obtain ⟨m, rfl⟩ := Nat.exists_eq_add_of_le enough
    obtain ⟨k, before, after⟩ := rounds.split
    cases most with
    | some bound =>
      have := few bound rfl
      exact ⟨m, by dsimp only; omega, k, ⟨i, first, before⟩, after⟩
    | none =>
      -- What comes after the least number of rounds takes no more characters than there are.
      obtain ⟨shorter, short, rest⟩ := after.shorten
      have := after.le_and_le.2 (before.le_and_le.2 (within i first))
      exact ⟨shorter, by dsimp only; omega, k, ⟨i, first, before⟩, rest⟩

end

/-! ### Matches -/

/-- The matcher reaches the ends of matches from where it starts, and no other gaps. -/
theorem testBit_ends (text : List Char) (r : Regex) {start : Nat} (within : Within text start) (j : Nat) :
    (ends text r start).testBit j = true ↔ ∃ i, start.testBit i = true ∧ Matches text r i j := by
  induction r generalizing start j with
  | empty => simp [ends, matches_empty_iff]
  | set chars =>
    rw [testBit_ends_set]
    simp only [matches_set_iff]
    constructor
    · rintro ⟨i, c, rfl, first, there, inside⟩
      exact ⟨i, first, rfl, c, there, inside⟩
    · rintro ⟨i, first, rfl, c, there, inside⟩
      exact ⟨i, c, rfl, first, there, inside⟩
  | anchor a =>
    rw [ends, Nat.testBit_and, testBit_marks, Bool.and_eq_true]
    simp only [matches_anchor_iff]
    constructor
    · rintro ⟨first, holds⟩
      exact ⟨j, first, rfl, holds⟩
    · rintro ⟨i, first, rfl, holds⟩
      exact ⟨first, holds⟩
  | seq r s ihFirst ihSecond =>
    rw [ends, ihSecond (within_ends (fun _ => ihFirst) within)]
    simp only [ihFirst within, matches_seq_iff]
    constructor
    · rintro ⟨k, ⟨i, start, first⟩, second⟩
      exact ⟨i, start, k, first, second⟩
    · rintro ⟨i, start, k, first, second⟩
      exact ⟨k, ⟨i, start, first⟩, second⟩
  | alt r s ihLeft ihRight =>
    rw [ends, Nat.testBit_or, Bool.or_eq_true, ihLeft within, ihRight within, ← exists_or]
    simp only [matches_alt_iff, and_or_left]
  | repeated r least most ih => exact testBit_ends_repeated (fun _ => ih) least most within j

/-- The search finds out whether the expression matches anywhere in the text. -/
theorem isMatch_iff_matches (r : Regex) (text : String) :
    r.isMatch text = true ↔ ∃ i j, i ≤ text.toList.length ∧ Matches text.toList r i j := by
  have everywhere (i : Nat) :
      (1 <<< (text.toList.length + 1) - 1).testBit i = true ↔ i ≤ text.toList.length := by
    rw [Nat.one_shiftLeft, Nat.testBit_two_pow_sub_one, decide_eq_true_eq, Nat.lt_succ_iff]
  rw [isMatch_iff_testBit]
  simp only [testBit_ends text.toList r fun i => (everywhere i).mp, everywhere]
  exact exists_comm

theorem isWholeMatch_iff_matches (r : Regex) (text : List Char) :
    r.isWholeMatch text = true ↔ Matches text r 0 text.length := by
  have start (i : Nat) : Nat.testBit 1 i = true ↔ i = 0 := by
    cases i with
    | zero => decide
    | succ i => simp [Nat.testBit_succ]
  rw [isWholeMatch, testBit_ends text r fun i first => by rw [(start i).mp first]; exact Nat.zero_le _]
  simp only [start, exists_eq_left]

end Regex

end ArchLint.Pattern
