import ArchLint.Text.Suffixes

/-!
# Globs

A glob stands for whole paths in slash form. `?`, `*` and classes take slashes like any other character; `**`
is only allowed as a whole path segment and stands for any number of leading or middle directories, or at the
end for anything.
-/

namespace ArchLint.Pattern

inductive GlobFault where
  | longRun
  | brokenSegment
  | openClass
  deriving DecidableEq, Repr

/-- Where a glob is wrong, counted in characters, and how. -/
structure GlobError where
  position : Nat
  fault : GlobFault
  deriving DecidableEq, Repr

namespace GlobError

def reason : GlobFault → String
  | .longRun => "wildcards are either regular \x60*\x60 or recursive \x60**\x60"
  | .brokenSegment => "recursive wildcards must form a single path component"
  | .openClass => "invalid range pattern"

def message (e : GlobError) : String :=
  s!"Pattern syntax error near position {e.position}: " ++ reason e.fault

end GlobError

/-- A range of characters, both ends included. -/
abbrev CharRange := Char × Char

inductive GlobPiece where
  | char (c : Char)
  | anyChar
  | oneOf (ranges : List CharRange)
  | noneOf (ranges : List CharRange)
  | star
  | directories
  deriving DecidableEq, Repr

namespace GlobPiece

def within (ranges : List CharRange) (c : Char) : Bool :=
  ranges.any fun (first, last) => first ≤ c ∧ c ≤ last

/-- Whether a piece that stands for one character stands for this one. -/
def admits : GlobPiece → Char → Bool
  | char expected, c => c = expected
  | anyChar, _ => true
  | oneOf ranges, c => within ranges c
  | noneOf ranges, c => !within ranges c
  | star, _ | directories, _ => false

end GlobPiece

structure Glob where
  source : String
  pieces : List GlobPiece
  deriving DecidableEq, Repr

namespace Glob

/-! ### Reading -/

/-- The ranges of a class: `a-z` is one range, every other character a range of its own. -/
def ranges : List Char → List CharRange
  | first :: '-' :: last :: rest => (first, last) :: ranges rest
  | c :: rest => (c, c) :: ranges rest
  | [] => []

/-- A class whose bracket has been taken off, and how many characters it takes. The first character always
belongs to the class, the next closing bracket ends it. -/
def class? : List Char → Option (GlobPiece × Nat)
  | '!' :: c :: rest =>
    if ']' ∈ rest then
      let body := c :: rest.takeWhile (· ≠ ']')
      some (.noneOf (ranges body), body.length + 2)
    else none
  | ['!'] | [] => none
  | c :: rest =>
    if ']' ∈ rest then
      let body := c :: rest.takeWhile (· ≠ ']')
      some (.oneOf (ranges body), body.length + 1)
    else none

/-- The pieces of a text that starts at a position of the glob. `opens` says whether a path segment starts
there. -/
def readFrom (position : Nat) (opens : Bool) (text : List Char) : Except GlobError (List GlobPiece) :=
  match text with
  | [] => .ok []
  | '*' :: '*' :: '*' :: _ => .error ⟨position + 2, .longRun⟩
  | '*' :: '*' :: rest =>
    if !opens then .error ⟨position - 1, .brokenSegment⟩
    else match rest with
      | [] => .ok [.directories]
      | c :: rest =>
        if c = '/' then return .directories :: (← readFrom (position + 3) true rest)
        else .error ⟨position + 2, .brokenSegment⟩
  | '*' :: rest => return .star :: (← readFrom (position + 1) false rest)
  | '?' :: rest => return .anyChar :: (← readFrom (position + 1) false rest)
  | '[' :: rest =>
    match class? rest with
    | none => .error ⟨position, .openClass⟩
    | some (piece, taken) => return piece :: (← readFrom (position + 1 + taken) false (rest.drop taken))
  | c :: rest => return .char c :: (← readFrom (position + 1) (c = '/') rest)
termination_by text.length
decreasing_by all_goals simp only [List.length_cons, List.length_drop]; omega

/-- The glob of a given text, or the first place where it is wrong. -/
def ofSource (source : String) : Except GlobError Glob :=
  (readFrom 0 true source.toList).map fun pieces => ⟨source, pieces⟩

/-! ### Matching -/

def matchesPieces : List GlobPiece → List Char → Bool
  | [], text => text.isEmpty
  | .star :: rest, text => (Text.suffixes text).any fun tail => matchesPieces rest tail
  | .directories :: rest, text =>
    rest.isEmpty || matchesPieces rest text
      || (Text.following '/' text).any fun tail => matchesPieces rest tail
  | _ :: _, [] => false
  | piece :: rest, c :: text => piece.admits c && matchesPieces rest text

def covers (g : Glob) (text : String) : Bool :=
  matchesPieces g.pieces text.toList

end Glob

end ArchLint.Pattern
