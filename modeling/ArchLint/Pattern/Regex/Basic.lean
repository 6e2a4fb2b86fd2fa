import ArchLint.Pattern.CharSet

/-!
# Regular expressions

`Matches text r i j` says that `r` matches `text` from gap `i` to gap `j`; a gap lies before each character
and after the last. `isMatch` decides whether `r` matches anywhere, by following all gaps at once: a set of
gaps is a number whose bit `i` stands for gap `i`.
-/

namespace ArchLint.Pattern

/-- A condition on the two characters around a gap. The lines of `returnStart` and `returnEnd` end with a carriage
return, a newline, or one after the other; those of `lineStart` and `lineEnd` with a newline. -/
inductive Anchor where
  | textStart
  | textEnd
  | lineStart
  | lineEnd
  | returnStart
  | returnEnd
  | wordBoundary
  | notWordBoundary
  | wordStart
  | wordEnd
  | notAfterWord
  | notBeforeWord
  deriving DecidableEq, Repr

/-- A regular expression. A repetition without a bound has no `most`. -/
inductive Regex where
  | empty
  | set (s : CharSet)
  | anchor (a : Anchor)
  | seq (r s : Regex)
  | alt (r s : Regex)
  | repeated (r : Regex) (least : Nat) (most : Option Nat)
  deriving DecidableEq, Repr

structure Gap where
  before : Option Char
  after : Option Char
  deriving DecidableEq, Repr

namespace Gap

def afterWord (gap : Gap) : Bool :=
  gap.before.any Text.isWord

def beforeWord (gap : Gap) : Bool :=
  gap.after.any Text.isWord

end Gap

/-- The gaps of a text, from the one that follows `before`. -/
def gaps (before : Option Char) : List Char → List Gap
  | [] => [⟨before, none⟩]
  | c :: rest => ⟨before, some c⟩ :: gaps (some c) rest

namespace Anchor

def holds : Anchor → Gap → Bool
  | textStart, gap => gap.before.isNone
  | textEnd, gap => gap.after.isNone
  | lineStart, gap => gap.before.isNone || gap.before = some '\n'
  | lineEnd, gap => gap.after.isNone || gap.after = some '\n'
  | returnStart, gap =>
    gap.before.isNone || gap.before = some '\n' || (gap.before = some '\r' && gap.after ≠ some '\n')
  | returnEnd, gap =>
    gap.after.isNone || gap.after = some '\r' || (gap.after = some '\n' && gap.before ≠ some '\r')
  | wordBoundary, gap => gap.afterWord != gap.beforeWord
  | notWordBoundary, gap => gap.afterWord == gap.beforeWord
  | wordStart, gap => !gap.afterWord && gap.beforeWord
  | wordEnd, gap => gap.afterWord && !gap.beforeWord
  | notAfterWord, gap => !gap.afterWord
  | notBeforeWord, gap => !gap.beforeWord

end Anchor

namespace Regex

/-- The expression `r` matches the text between two gaps. A bound of a repetition that is below its least number
counts as that number. -/
inductive Matches (text : List Char) : Regex → Nat → Nat → Prop where
  | empty (i : Nat) : Matches text .empty i i
  | set {s : CharSet} {i : Nat} {c : Char} (at_i : text[i]? = some c) (mem : s.mem c = true) :
      Matches text (.set s) i (i + 1)
  | anchor {a : Anchor} {i : Nat} {gap : Gap} (at_i : (gaps none text)[i]? = some gap)
      (holds : a.holds gap = true) : Matches text (.anchor a) i i
  | seq {r s : Regex} {i j k : Nat} (first : Matches text r i j) (second : Matches text s j k) :
      Matches text (.seq r s) i k
  | altLeft {r s : Regex} {i j : Nat} (left : Matches text r i j) : Matches text (.alt r s) i j
  | altRight {r s : Regex} {i j : Nat} (right : Matches text s i j) : Matches text (.alt r s) i j
  | stop {r : Regex} {most : Option Nat} (i : Nat) : Matches text (.repeated r 0 most) i i
  | once {r : Regex} {least : Nat} {most : Option Nat} {i j k : Nat} (room : least ≠ 0 ∨ most ≠ some 0)
      (first : Matches text r i j)
      (others : Matches text (.repeated r (least - 1) (most.map (· - 1))) j k) :
      Matches text (.repeated r least most) i k

/-- The set of positions at which a property holds, as bits. -/
def marks (p : α → Bool) : List α → Nat
  | [] => 0
  | x :: rest => (if p x then 1 else 0) + 2 * marks p rest

def stepped (step : Nat → Nat) : Nat → Nat → Nat
  | 0, start => start
  | n + 1, start => if start = 0 then 0 else stepped step n (step start)

/-- At most `n` steps from a set of gaps. It stops when a step adds nothing. -/
def reached (step : Nat → Nat) : Nat → Nat → Nat
  | 0, start => start
  | n + 1, start =>
    let next := start ||| step start
    if next = start then start else reached step n next

/-- The gaps where a match from one of the given gaps can end. Rounds without a bound need not go on for longer
than the text has gaps. -/
def ends (text : List Char) : Regex → Nat → Nat
  | .empty => fun start => start
  | .set s => fun start => (start &&& marks (s.mem ·) text) <<< 1
  | .anchor a => fun start => start &&& marks a.holds (gaps none text)
  | .seq r s => fun start => ends text s (ends text r start)
  | .alt r s => fun start => ends text r start ||| ends text s start
  | .repeated r least most => fun start =>
    let rounds := match most with
      | some most => most - least
      | none => text.length + 1
    reached (ends text r) rounds (stepped (ends text r) least start)

/-- Whether the expression matches somewhere in the text. -/
def isMatch (r : Regex) (text : String) : Bool :=
  ends text.toList r (1 <<< (text.toList.length + 1) - 1) ≠ 0

/-- Whether the expression matches the text from end to end. -/
def isWholeMatch (r : Regex) (text : List Char) : Bool :=
  (ends text r 1).testBit text.length

def sequence : List Regex → Regex
  | [] => .empty
  | [r] => r
  | r :: rest => .seq r (sequence rest)

def word (text : String) : Regex :=
  sequence (text.toList.map fun c => .set (.single c))

def anyOf : List Regex → Regex
  | [] => .empty
  | [r] => r
  | r :: rest => .alt r (anyOf rest)

end Regex

end ArchLint.Pattern
