import ArchLint.Text.Blank
import ArchLint.Text.Unicode.Folding
import ArchLint.Text.Unicode.Word

/-!
# Character sets

Sets of characters as patterns spell them: ranges, the named classes, and set algebra. `mem` is the meaning;
each operation has its equation.
-/

namespace ArchLint.Pattern

inductive CharSet where
  | range (first last : Char)
  | word
  | digit
  | space
  | empty
  | union (a b : CharSet)
  | inter (a b : CharSet)
  | compl (a : CharSet)
  | anyCase (a : CharSet)
  deriving DecidableEq, Repr

namespace CharSet

def mem (c : Char) : CharSet → Bool
  | range first last => first.toNat ≤ c.toNat && c.toNat ≤ last.toNat
  | word => Text.isWord c
  | digit => Text.isDigit c
  | space => Text.isBlank c
  | empty => false
  | union a b => a.mem c || b.mem c
  | inter a b => a.mem c && b.mem c
  | compl a => !a.mem c
  | anyCase a => (Text.variants c).any fun d => a.mem d

def single (c : Char) : CharSet :=
  range c c

def notNewline : CharSet :=
  compl (single '\n')

def full : CharSet :=
  compl empty

def diff (a b : CharSet) : CharSet :=
  inter a (compl b)

def symmDiff (a b : CharSet) : CharSet :=
  union (diff a b) (diff b a)

theorem mem_single (c d : Char) : (single c).mem d = decide (d = c) := by
  rw [Bool.eq_iff_iff]
  simp only [mem, single, Bool.and_eq_true, decide_eq_true_eq, ← Char.toNat_inj]
  omega

theorem mem_diff (c : Char) (a b : CharSet) : (diff a b).mem c = (a.mem c && !b.mem c) := rfl

theorem mem_symmDiff (c : Char) (a b : CharSet) : (symmDiff a b).mem c = (a.mem c ^^ b.mem c) := by
  simp only [symmDiff, mem, mem_diff]
  cases a.mem c <;> cases b.mem c <;> rfl

/-- The set with the case variants of everything it spells. Complements stay complements of what they negate.
-/
def foldCase : CharSet → CharSet
  | union a b => union a.foldCase b.foldCase
  | inter a b => inter a.foldCase b.foldCase
  | compl a => compl a.foldCase
  | range first last => anyCase (range first last)
  | set => set

def ofAsciiName? : String → Option CharSet
  | "alnum" => some (.union (.range '0' '9') (.union (.range 'A' 'Z') (.range 'a' 'z')))
  | "alpha" => some (.union (.range 'A' 'Z') (.range 'a' 'z'))
  | "ascii" => some (.range '\x00' '\x7F')
  | "blank" => some (.union (single '\t') (single ' '))
  | "cntrl" => some (.union (.range '\x00' '\x1F') (single '\x7F'))
  | "digit" => some (.range '0' '9')
  | "graph" => some (.range '!' '~')
  | "lower" => some (.range 'a' 'z')
  | "print" => some (.range ' ' '~')
  | "punct" => some (.union (.union (.range '!' '/') (.range ':' '@')) (.union (.range '[' '\x60') (.range '\x7B' '~')))
  | "space" => some (.union (.range '\t' '\r') (single ' '))
  | "upper" => some (.range 'A' 'Z')
  | "word" => some (.union (.union (.range '0' '9') (.range 'A' 'Z')) (.union (single '_') (.range 'a' 'z')))
  | "xdigit" => some (.union (.range '0' '9') (.union (.range 'A' 'F') (.range 'a' 'f')))
  | _ => none

end CharSet

end ArchLint.Pattern
