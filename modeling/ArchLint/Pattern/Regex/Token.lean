import ArchLint.Pattern.Regex.Basic

/-!
# Tokens of a pattern

`tokenize` cuts a pattern into characters, sets, anchors, group marks and repetition counts. A bracketed class
is one token. Each step takes at least one character off, so the length of the pattern bounds all recursion.
-/

namespace ArchLint.Pattern.Regex

/-- The switches that a pattern can set for what follows. -/
inductive Switch where
  | ignoreCase
  | dotAll
  | multiLine
  | returns
  | lazyFirst
  | wide
  deriving DecidableEq, Repr

inductive Token where
  | literal (c : Char)
  | set (s : CharSet)
  | dot
  | caret
  | dollar
  | anchor (a : Anchor)
  | bar
  | group (name : Option String) (switches : List (Switch × Bool))
  | close
  | switches (switches : List (Switch × Bool))
  | repeated (least : Nat) (most : Option Nat)
  deriving DecidableEq, Repr

/-! ### Escapes -/

def hexValue? (c : Char) : Option Nat :=
  if c.isDigit then some (c.toNat - '0'.toNat)
  else if 'a' ≤ c ∧ c ≤ 'f' then some (c.toNat - 'a'.toNat + 10)
  else if 'A' ≤ c ∧ c ≤ 'F' then some (c.toNat - 'A'.toNat + 10)
  else none

/-- The number that hexadecimal digits spell. There must be one at least. -/
def hexNumber? (digits : List Char) : Option Nat :=
  if digits.isEmpty then none
  else digits.foldlM (fun n c => (hexValue? c).map (16 * n + ·)) 0

def charOfCode? (code : Nat) : Option Char :=
  if code.isValidChar then some (Char.ofNat code) else none

/-- The rest of an escape by code point, of `width` digits or in braces. -/
def codePoint? (width : Nat) (rest : List Char) : Option (Char × List Char) := do
  let (digits, rest) ← match rest with
    | '\x7B' :: rest =>
      match rest.span (· ≠ '\x7D') with
      | (digits, '\x7D' :: rest) => some (digits, rest)
      | _ => none
    | rest => if width ≤ rest.length then some (rest.take width, rest.drop width) else none
  let c ← (← hexNumber? digits) |> charOfCode?
  return (c, rest)

inductive Escape where
  | literal (c : Char)
  | set (s : CharSet)
  | anchor (a : Anchor)

/-- An edge of words by its name in braces. What cannot be a name may be a repetition count of plain `\b`. -/
def wordEdge? (rest : List Char) : Option (Anchor × List Char) :=
  match rest with
  | '\x7B' :: inner =>
    let isLetter (c : Char) : Bool := c.isAlpha || c = '-'
    match String.ofList (inner.takeWhile isLetter), inner.dropWhile isLetter with
    | "", _ => some (.wordBoundary, rest)
    | "start", '\x7D' :: rest => some (.wordStart, rest)
    | "end", '\x7D' :: rest => some (.wordEnd, rest)
    | "start-half", '\x7D' :: rest => some (.notAfterWord, rest)
    | "end-half", '\x7D' :: rest => some (.notBeforeWord, rest)
    | _, _ => none
  | rest => some (.wordBoundary, rest)

/-- Reads what follows a backslash. Letters and digits without a meaning are refused. -/
def escape? : List Char → Option (Escape × List Char)
  | [] => none
  | 'd' :: rest => some (.set .digit, rest)
  | 'D' :: rest => some (.set (.compl .digit), rest)
  | 's' :: rest => some (.set .space, rest)
  | 'S' :: rest => some (.set (.compl .space), rest)
  | 'w' :: rest => some (.set .word, rest)
  | 'W' :: rest => some (.set (.compl .word), rest)
  | 'A' :: rest => some (.anchor .textStart, rest)
  | 'z' :: rest => some (.anchor .textEnd, rest)
  | 'b' :: rest => (wordEdge? rest).map fun (a, rest) => (.anchor a, rest)
  | 'B' :: rest => some (.anchor .notWordBoundary, rest)
  | '<' :: rest => some (.anchor .wordStart, rest)
  | '>' :: rest => some (.anchor .wordEnd, rest)
  | 'a' :: rest => some (.literal '\x07', rest)
  | 'f' :: rest => some (.literal '\x0C', rest)
  | 't' :: rest => some (.literal '\t', rest)
  | 'n' :: rest => some (.literal '\n', rest)
  | 'r' :: rest => some (.literal '\r', rest)
  | 'v' :: rest => some (.literal '\x0B', rest)
  | 'x' :: rest => (codePoint? 2 rest).map fun (c, rest) => (.literal c, rest)
  | 'u' :: rest => (codePoint? 4 rest).map fun (c, rest) => (.literal c, rest)
  | 'U' :: rest => (codePoint? 8 rest).map fun (c, rest) => (.literal c, rest)
  | c :: rest =>
    if c.toNat < 128 ∧ ¬ c.isAlphanum then some (.literal c, rest) else none

/-! ### Bracketed classes -/

/-- One item of a class: a character, or a set by escape. -/
def classItem? : List Char → Option ((Char ⊕ CharSet) × List Char)
  | [] => none
  | '\\' :: rest =>
    match escape? rest with
    | some (.literal c, rest) => some (.inl c, rest)
    | some (.set s, rest) => some (.inr s, rest)
    | _ => none
  | c :: rest => some (.inl c, rest)

def itemSet : Char ⊕ CharSet → CharSet
  | .inl c => .single c
  | .inr s => s

/-- An item, or a range if a dash and a further character follow. -/
def classRange? (text : List Char) : Option (CharSet × List Char) :=
  match classItem? text with
  | none => none
  | some (first, rest) =>
    match rest with
    | [] => none
    | '-' :: ']' :: _ => some (itemSet first, rest)
    | '-' :: '-' :: _ => some (itemSet first, rest)
    | '-' :: rest =>
      match first, classItem? rest with
      | .inl lo, some (.inl hi, rest) => if lo ≤ hi then some (.range lo hi, rest) else none
      | _, _ => none
    | rest => some (itemSet first, rest)

/-- A class named in the form `[:alpha:]`, after its opening bracket. -/
def namedClass? : List Char → Option (CharSet × List Char)
  | ':' :: rest =>
    let (negated, rest) := match rest with
      | '^' :: rest => (true, rest)
      | rest => (false, rest)
    match rest.span (· ≠ ':') with
    | (name, ':' :: ']' :: rest) =>
      (CharSet.ofAsciiName? (String.ofList name)).map fun s => (if negated then .compl s else s, rest)
    | _ => none
  | _ => none

inductive SetOp where
  | inter
  | diff
  | symmDiff

def SetOp.apply : SetOp → CharSet → CharSet → CharSet
  | inter, a, b => .inter a b
  | diff, a, b => .diff a b
  | symmDiff, a, b => .symmDiff a b

/-- The left operand, if an operation is pending, applied to what was read since. -/
def settle (pending : Option (CharSet × SetOp)) (read : CharSet) : CharSet :=
  match pending with
  | none => read
  | some (left, op) => op.apply left read

/-- Dashes that open a class, which stand for themselves. -/
def leadingDashes : List Char → CharSet × List Char
  | '-' :: rest =>
    let (s, rest) := leadingDashes rest
    (.union (.single '-') s, rest)
  | rest => (.empty, rest)

/-- What stands between an opening bracket and the first regular item: negation, dashes, and a bracket. -/
def classHead (text : List Char) : Bool × CharSet × List Char :=
  let (negated, text) := match text with
    | '^' :: rest => (true, rest)
    | rest => (false, rest)
  let (dashes, text) := leadingDashes text
  match dashes, text with
  | .empty, ']' :: rest => (negated, .single ']', rest)
  | dashes, rest => (negated, dashes, rest)

def classBody? : Nat → Option (CharSet × SetOp) → CharSet → List Char → Option (CharSet × List Char)
  | 0, _, _, _ => none
  | fuel + 1, pending, read, text =>
    match text with
    | [] => none
    | ']' :: rest => some (settle pending read, rest)
    | '&' :: '&' :: rest => classBody? fuel (some (settle pending read, .inter)) .empty rest
    | '-' :: '-' :: rest => classBody? fuel (some (settle pending read, .diff)) .empty rest
    | '~' :: '~' :: rest => classBody? fuel (some (settle pending read, .symmDiff)) .empty rest
    | '[' :: rest =>
      match namedClass? rest with
      | some (s, rest) => classBody? fuel pending (.union read s) rest
      | none =>
        let (negated, head, rest) := classHead rest
        match classBody? fuel none head rest with
        | some (s, rest) => classBody? fuel pending (.union read (if negated then .compl s else s)) rest
        | none => none
    | text =>
      match classRange? text with
      | some (s, rest) => classBody? fuel pending (.union read s) rest
      | none => none

def bracketed? (text : List Char) : Option (CharSet × List Char) :=
  let (negated, head, rest) := classHead text
  (classBody? (text.length + 1) none head rest).map fun (s, rest) => (if negated then .compl s else s, rest)

/-! ### Groups and repetition counts -/

def switchOf? : Char → Option Switch
  | 'i' => some .ignoreCase
  | 's' => some .dotAll
  | 'm' => some .multiLine
  | 'R' => some .returns
  | 'U' => some .lazyFirst
  | 'u' => some .wide
  | _ => none

/-- Reads switches up to a colon or a closing parenthesis. No switch may stand twice, and a minus must be
followed by one. -/
def switches? (set : Bool) (read : List (Switch × Bool)) : List Char → Option (List (Switch × Bool) × List Char)
  | ')' :: rest => if set = false ∧ read.all (·.2) then none else some (read, ')' :: rest)
  | ':' :: rest => if set = false ∧ read.all (·.2) then none else some (read, ':' :: rest)
  | '-' :: rest => if set then switches? false read rest else none
  | c :: rest =>
    match switchOf? c with
    | some s =>
      if read.any (·.1 = s) ∨ (s = .wide ∧ set = false) then none
      else switches? set (read ++ [(s, set)]) rest
    | none => none
  | [] => none

def isNameStart (c : Char) : Bool :=
  c = '_' || (Text.isWord c && !Text.isDigit c)

def isNameChar (c : Char) : Bool :=
  c = '_' || c = '.' || c = '[' || c = ']' || Text.isWord c

def groupName? (text : List Char) : Option (String × List Char) :=
  match text.span (· ≠ '>') with
  | (first :: others, '>' :: rest) =>
    if isNameStart first ∧ others.all isNameChar then some (String.ofList (first :: others), rest) else none
  | _ => none

def group? : List Char → Option (Token × List Char)
  | '?' :: 'P' :: '<' :: rest => (groupName? rest).map fun (name, rest) => (.group (some name) [], rest)
  | '?' :: '<' :: rest => (groupName? rest).map fun (name, rest) => (.group (some name) [], rest)
  | '?' :: rest =>
    match switches? true [] rest with
    | some ([], ')' :: _) => none
    | some (read, ')' :: rest) => some (.switches read, rest)
    | some (read, ':' :: rest) => some (.group none read, rest)
    | _ => none
  | rest => some (.group none [], rest)

/-- A decimal number below 2^32, with white space around it. -/
def count? (text : List Char) : Option (Nat × List Char) :=
  let text := text.dropWhile Text.isBlank
  let digits := text.takeWhile Char.isDigit
  let rest := (text.dropWhile Char.isDigit).dropWhile Text.isBlank
  let n := digits.foldl (fun n c => 10 * n + (c.toNat - '0'.toNat)) 0
  if digits.isEmpty ∨ 0x100000000 ≤ n then none else some (n, rest)

def bounds? (text : List Char) : Option (Token × List Char) := do
  let (least, rest) ← count? text
  match rest with
  | '\x7D' :: rest => return (.repeated least (some least), rest)
  | ',' :: '\x7D' :: rest => return (.repeated least none, rest)
  | ',' :: rest =>
    let (most, rest) ← count? rest
    match rest with
    | '\x7D' :: rest => if least ≤ most then return (.repeated least (some most), rest) else none
    | _ => none
  | _ => none

/-- A question mark after a repetition asks for the shortest match. It does not change what matches. -/
def dropLazy : Token × List Char → Token × List Char
  | (.repeated least most, '?' :: rest) => (.repeated least most, rest)
  | result => result

def token? : List Char → Option (Token × List Char)
  | [] => none
  | '\\' :: rest =>
    (escape? rest).map fun
      | (.literal c, rest) => (.literal c, rest)
      | (.set s, rest) => (.set s, rest)
      | (.anchor a, rest) => (.anchor a, rest)
  | '[' :: rest => (bracketed? rest).map fun (s, rest) => (.set s, rest)
  | '(' :: rest => group? rest
  | ')' :: rest => some (.close, rest)
  | '|' :: rest => some (.bar, rest)
  | '.' :: rest => some (.dot, rest)
  | '^' :: rest => some (.caret, rest)
  | '$' :: rest => some (.dollar, rest)
  | '*' :: rest => some (dropLazy (.repeated 0 none, rest))
  | '+' :: rest => some (dropLazy (.repeated 1 none, rest))
  | '?' :: rest => some (dropLazy (.repeated 0 (some 1), rest))
  | '\x7B' :: rest => (bounds? rest).map dropLazy
  | c :: rest => some (.literal c, rest)

def tokensWithin : Nat → List Char → Option (List Token)
  | _, [] => some []
  | 0, _ :: _ => none
  | fuel + 1, text =>
    match token? text with
    | none => none
    | some (token, rest) => (tokensWithin fuel rest).map (token :: ·)

def tokenize (text : List Char) : Option (List Token) :=
  tokensWithin text.length text

end ArchLint.Pattern.Regex
