import ArchLint.Pattern.Regex.Token

/-!
# Reading regular expressions

`parse?` builds the expression of a pattern from its tokens. The groups that are still open form a stack of
frames; a switch holds from where it stands to the end of its group. Of the usual notation it leaves out the
sets by Unicode property, the switches to free spacing and to bytes, and any limit on the size of a pattern.
-/

namespace ArchLint.Pattern.Regex

structure Mode where
  ignoreCase : Bool
  dotAll : Bool
  multiLine : Bool
  returns : Bool
  deriving DecidableEq, Repr

namespace Mode

def plain : Mode :=
  ⟨false, false, false, false⟩

def turn (mode : Mode) : Switch × Bool → Mode
  | (.ignoreCase, on) => { mode with ignoreCase := on }
  | (.dotAll, on) => { mode with dotAll := on }
  | (.multiLine, on) => { mode with multiLine := on }
  | (.returns, on) => { mode with returns := on }
  | (.lazyFirst, _) | (.wide, _) => mode

def read (mode : Mode) (s : CharSet) : CharSet :=
  if mode.ignoreCase then s.foldCase else s

def dot (mode : Mode) : CharSet :=
  if mode.dotAll then .full
  else if mode.returns then .diff .notNewline (.single '\r')
  else .notNewline

def caret (mode : Mode) : Anchor :=
  if !mode.multiLine then .textStart
  else if mode.returns then .returnStart
  else .lineStart

def dollar (mode : Mode) : Anchor :=
  if !mode.multiLine then .textEnd
  else if mode.returns then .returnEnd
  else .lineEnd

end Mode

/-- A group being read. `items` and `branches` have the latest first; a switch cannot be repeated, an item
can. -/
structure Frame where
  mode : Mode
  branches : List Regex
  items : List Regex
  repeatable : Bool

namespace Frame

def start (mode : Mode) : Frame :=
  ⟨mode, [], [], false⟩

def add (f : Frame) (r : Regex) : Frame :=
  { f with items := r :: f.items, repeatable := true }

def branch (f : Frame) : Frame :=
  { f with branches := sequence f.items.reverse :: f.branches, items := [], repeatable := false }

def finish (f : Frame) : Regex :=
  anyOf f.branch.branches.reverse

def repeatLast? (f : Frame) (least : Nat) (most : Option Nat) : Option Frame :=
  match f.items with
  | r :: rest => if f.repeatable then some { f with items := .repeated r least most :: rest } else none
  | [] => none

end Frame

/-- What has been read: the innermost group, the groups around it, and the names given so far. -/
structure Reading where
  current : Frame
  outer : List Frame
  names : List String

def Reading.take? (s : Reading) : Token → Option Reading
  | .literal c => some { s with current := s.current.add (.set (s.current.mode.read (.single c))) }
  | .set chars => some { s with current := s.current.add (.set (s.current.mode.read chars)) }
  | .dot => some { s with current := s.current.add (.set s.current.mode.dot) }
  | .caret => some { s with current := s.current.add (.anchor s.current.mode.caret) }
  | .dollar => some { s with current := s.current.add (.anchor s.current.mode.dollar) }
  | .anchor a => some { s with current := s.current.add (.anchor a) }
  | .bar => some { s with current := s.current.branch }
  | .group name switches =>
    if name.any s.names.contains then none
    else
      let inner := Frame.start (switches.foldl Mode.turn s.current.mode)
      some ⟨inner, s.current :: s.outer, name.toList ++ s.names⟩
  | .close =>
    match s.outer with
    | [] => none
    | frame :: outer => some { s with current := frame.add s.current.finish, outer := outer }
  | .switches switches =>
    let mode := switches.foldl Mode.turn s.current.mode
    some { s with current := { s.current with mode := mode, repeatable := false } }
  | .repeated least most =>
    (s.current.repeatLast? least most).map fun frame => { s with current := frame }

def parse? (pattern : String) : Option Regex := do
  let tokens ← tokenize pattern.toList
  let s ← tokens.foldlM Reading.take? ⟨.start .plain, [], []⟩
  if s.outer.isEmpty then some s.current.finish else none

end ArchLint.Pattern.Regex
