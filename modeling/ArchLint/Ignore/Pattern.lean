import ArchLint.Pattern.Regex.Basic
import ArchLint.Text.Bytes

/-!
# Ignore patterns

The globs of ignore files. Unlike an exclusion's, their `?` and `*` stand for bytes within one name, a
backslash quotes the character after it, and braces hold alternatives. `**` is recursive only as a whole
segment and else the same as `*`. A pattern is read into the regular expression of the paths that it stands
for.
-/

namespace ArchLint.Ignore

open Pattern

/-! ### Parts of a pattern -/

def slash : Regex :=
  .set (.single '/')

def notSlash : Regex :=
  .set (.compl (.single '/'))

def anything : Regex :=
  .repeated (.set .full) 0 none

def star : Regex :=
  .repeated notSlash 0 none

/-- Any directories before the rest, or none. -/
def leadingDirectories : Regex :=
  .alt (.repeated slash 0 (some 1)) (.seq anything slash)

/-- A slash, or directories between two slashes. -/
def innerDirectories : Regex :=
  .alt slash (.seq slash (.seq anything slash))

def contents : Regex :=
  .seq slash anything

def literal (c : Char) : Regex :=
  .sequence ((Text.byteCharsOf c).map fun byte => .set (.single byte))

/-! ### Classes -/

/-- The ranges of a class, latest first, and how many characters it takes. A dash between two characters
stretches the range before it; the first character always belongs to the class. -/
def classRanges? (isFirst dashed : Bool) (ranges : List (Char × Char)) : List Char → Option (List (Char × Char) × Nat)
  | [] => none
  | c :: rest =>
    if c = ']' ∧ !isFirst then some (if dashed then ('-', '-') :: ranges else ranges, 1)
    else if c = '-' ∧ !isFirst ∧ !dashed then
      (classRanges? false true ranges rest).map fun (ranges, taken) => (ranges, taken + 1)
    else
      match dashed, ranges with
      | true, (first, _) :: others =>
        if c < first then none
        else (classRanges? false false ((first, c) :: others) rest).map fun (ranges, taken) => (ranges, taken + 1)
      | _, _ => (classRanges? false false ((c, c) :: ranges) rest).map fun (ranges, taken) => (ranges, taken + 1)

/-- The bytes of a range: of its ends, and all between the last byte of the first and the first byte of the
last. -/
def rangeBytes : Char × Char → CharSet
  | (first, last) =>
    let all (bytes : List Char) : CharSet := bytes.foldr (fun byte set => .union (.single byte) set) .empty
    if first = last then all (Text.byteCharsOf first)
    else
      let low := Text.byteCharsOf first
      let high := Text.byteCharsOf last
      .union (.union (all low.dropLast) (all (high.drop 1)))
        (.range (low.getLast?.getD first) (high.head?.getD last))

/-- A class whose bracket has been taken off, and how many characters it takes. -/
def class? (text : List Char) : Option (Regex × Nat) :=
  let negated := text.head? = some '!' ∨ text.head? = some '^'
  let marked := if negated then 1 else 0
  (classRanges? true false [] (text.drop marked)).map fun (ranges, taken) =>
    let set := ranges.foldr (fun range set => .union (rangeBytes range) set) CharSet.empty
    (.set (if negated then .compl set else set), marked + taken)

/-! ### Patterns -/

/-- Alternatives being read. Parts and finished alternatives have the latest first. -/
structure Draft where
  parts : List Regex
  finished : List Regex

namespace Draft

def empty : Draft :=
  ⟨[], []⟩

def add (d : Draft) (r : Regex) : Draft :=
  { d with parts := r :: d.parts }

/-- The draft with `r` in place of its last part, unless that part is recursive at an end of the pattern
itself. -/
def replaceLast (d : Draft) (r : Regex) : Draft :=
  match d.parts with
  | last :: others => if last = leadingDirectories ∨ last = contents then d else { d with parts := r :: others }
  | [] => d.add r

/-- The draft with its current alternative finished. An empty alternative stands for nothing. -/
def finish (d : Draft) : Draft :=
  ⟨[], if d.parts.isEmpty then d.finished else .sequence d.parts.reverse :: d.finished⟩

def choice (d : Draft) : Regex :=
  .anyOf d.finish.finished.reverse

/-- Whether the draft is one recursive wildcard and nothing more. -/
def isEverything (d : Draft) : Bool :=
  d.parts = [leadingDirectories]

end Draft

/-- What a recursive wildcard does to the draft, and how many characters it takes after the wildcard. -/
def wildcard (previous : Option Char) (nested : Bool) (d : Draft) (rest : List Char) : Draft × Nat :=
  let plain := ((d.add star).add star, 0)
  if d.parts.isEmpty then
    match rest with
    | [] => (d.add leadingDirectories, 0)
    | '/' :: _ => (d.add leadingDirectories, 1)
    | _ => plain
  else if previous = some '/' then
    match rest with
    | [] => (d.replaceLast contents, 0)
    | '/' :: _ => (d.replaceLast innerDirectories, 1)
    | c :: _ => if nested ∧ (c = ',' ∨ c = '\x7D') then (d.replaceLast contents, 0) else plain
  else plain

/-- Reads the rest of a pattern. `outer` holds the drafts around the braces that are open. -/
def readFrom (previous : Option Char) (outer : List Draft) (d : Draft) (text : List Char) : Option Regex :=
  match text with
  | [] =>
    if !outer.isEmpty then none
    else if d.isEverything then some anything
    else some (.sequence d.parts.reverse)
  | '?' :: rest => readFrom (some '?') outer (d.add notSlash) rest
  | '*' :: '*' :: rest =>
    let (grown, taken) := wildcard previous (!outer.isEmpty) d rest
    readFrom (some (if taken = 0 then '*' else '/')) outer grown (rest.drop taken)
  | '*' :: rest => readFrom (some '*') outer (d.add star) rest
  | '[' :: rest =>
    match class? rest with
    | none => none
    | some (set, taken) => readFrom (some ']') outer (d.add set) (rest.drop taken)
  | '\x7B' :: rest => readFrom (some '\x7B') (d :: outer) .empty rest
  | '\x7D' :: rest =>
    match outer with
    | [] => none
    | enclosing :: outer => readFrom (some '\x7D') outer (enclosing.add d.choice) rest
  | '\\' :: c :: rest => readFrom (some c) outer (d.add (literal c)) rest
  | ['\\'] => none
  | c :: rest =>
    if c = ',' ∧ !outer.isEmpty then readFrom (some ',') outer d.finish rest
    else readFrom (some c) outer (d.add (literal c)) rest
termination_by text.length
decreasing_by all_goals simp only [List.length_cons, List.length_drop]; omega

def regex? (pattern : List Char) : Option Regex :=
  readFrom none [] .empty pattern

end ArchLint.Ignore
