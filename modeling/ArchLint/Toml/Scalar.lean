import ArchLint.Toml.Value

/-!
# TOML scalars

Readers for blanks, keys, strings, numbers and dates. Each takes a scalar off the front of a text and gives
the rest back. A reader that finds nothing of its kind gives nothing.
-/

namespace ArchLint.Toml

/-! ### Blanks, comments and lines -/

def isSpace (c : Char) : Bool :=
  c = ' ' || c = '\t'

def isText (c : Char) : Bool :=
  c = '\t' || (0x20 ≤ c.toNat && c.toNat ≠ 0x7F)

def skipSpaces (text : List Char) : List Char :=
  text.dropWhile isSpace

/-- The text after a comment, if one starts here. -/
def skipComment : List Char → List Char
  | '#' :: rest => rest.dropWhile isText
  | text => text

/-- The text after a line feed, which a carriage return may precede. -/
def newline? : List Char → Option (List Char)
  | '\n' :: rest => some rest
  | '\r' :: '\n' :: rest => some rest
  | _ => none

/-- The text after the rest of a line that holds nothing more than a comment. -/
def endLine? (text : List Char) : Option (List Char) :=
  match skipComment (skipSpaces text) with
  | [] => some []
  | rest => newline? rest

/-- The text after spaces, comments and line ends, given a bound on the lines. -/
def skipLinesWithin : Nat → List Char → List Char
  | 0, text => text
  | fuel + 1, text =>
    let rest := skipComment (skipSpaces text)
    match newline? rest with
    | some rest => skipLinesWithin fuel rest
    | none => rest

def skipLines (text : List Char) : List Char :=
  skipLinesWithin text.length text

/-! ### Digits -/

def digitValue? (base : Nat) (c : Char) : Option Nat :=
  let value :=
    if c.isDigit then some (c.toNat - '0'.toNat)
    else if 'a' ≤ c ∧ c ≤ 'f' then some (c.toNat - 'a'.toNat + 10)
    else if 'A' ≤ c ∧ c ≤ 'F' then some (c.toNat - 'A'.toNat + 10)
    else none
  value.filter (· < base)

/-- Digits that may follow the first one, each after at most one underscore. -/
def moreDigits (base : Nat) : List Char → List Nat × List Char
  | '_' :: c :: rest =>
    match digitValue? base c with
    | some d =>
      let (ds, rest) := moreDigits base rest
      (d :: ds, rest)
    | none => ([], '_' :: c :: rest)
  | c :: rest =>
    match digitValue? base c with
    | some d =>
      let (ds, rest) := moreDigits base rest
      (d :: ds, rest)
    | none => ([], c :: rest)
  | [] => ([], [])

def digits? (base : Nat) : List Char → Option (List Nat × List Char)
  | c :: rest =>
    (digitValue? base c).map fun d =>
      let (ds, rest) := moreDigits base rest
      (d :: ds, rest)
  | [] => none

def numeral (base : Nat) (digits : List Nat) : Nat :=
  digits.foldl (fun n d => base * n + d) 0

/-- A decimal number that starts with zero only if it is zero. -/
def decimal? : List Char → Option (List Nat × List Char)
  | '0' :: rest => some ([0], rest)
  | text => digits? 10 text

def fixedDigits? (n : Nat) (text : List Char) : Option (Nat × List Char) :=
  if n ≤ text.length ∧ (text.take n).all Char.isDigit then
    some ((text.take n).foldl (fun n c => 10 * n + (c.toNat - '0'.toNat)) 0, text.drop n)
  else none

def twoDigits? (most : Nat) (text : List Char) : Option (Nat × List Char) :=
  (fixedDigits? 2 text).filter (·.1 ≤ most)

def sign : List Char → Bool × List Char
  | '-' :: rest => (true, rest)
  | '+' :: rest => (false, rest)
  | text => (false, text)

/-! ### Strings -/

def scalar? (width : Nat) (text : List Char) : Option (Char × List Char) := do
  if text.length < width then none
  let ds ← (text.take width).mapM (digitValue? 16)
  let code := numeral 16 ds
  if code.isValidChar then some (Char.ofNat code, text.drop width) else none

def escaped? : List Char → Option (Char × List Char)
  | 'b' :: rest => some ('\x08', rest)
  | 't' :: rest => some ('\t', rest)
  | 'n' :: rest => some ('\n', rest)
  | 'f' :: rest => some ('\x0C', rest)
  | 'r' :: rest => some ('\r', rest)
  | '"' :: rest => some ('"', rest)
  | '\\' :: rest => some ('\\', rest)
  | 'u' :: rest => scalar? 4 rest
  | 'U' :: rest => scalar? 8 rest
  | _ => none

def basicWithin : Nat → List Char → List Char → Option (String × List Char)
  | 0, _, _ => none
  | fuel + 1, read, text =>
    match text with
    | '"' :: rest => some (String.ofList read.reverse, rest)
    | '\\' :: rest =>
      match escaped? rest with
      | some (c, rest) => basicWithin fuel (c :: read) rest
      | none => none
    | c :: rest => if isText c then basicWithin fuel (c :: read) rest else none
    | [] => none

def literal? (text : List Char) : Option (String × List Char) :=
  match text.span fun c => isText c && c ≠ '\'' with
  | (read, '\'' :: rest) => some (String.ofList read, rest)
  | _ => none

def skipBlanks : List Char → List Char
  | '\r' :: '\n' :: rest => skipBlanks rest
  | c :: rest => if isSpace c || c = '\n' then skipBlanks rest else c :: rest
  | [] => []

/-- The text after the blanks and line ends that a backslash at the end of a line joins. -/
def joinLines? (text : List Char) : Option (List Char) :=
  (newline? (skipSpaces text)).map skipBlanks

/-- A string over several lines after its opening quotes. A line end is one line feed, and up to two quotes
may stand before the closing three. -/
def longWithin (quote : Char) (escapes : Bool) : Nat → List Char → List Char → Option (String × List Char)
  | 0, _, _ => none
  | fuel + 1, read, text =>
    match newline? text with
    | some rest => longWithin quote escapes fuel ('\n' :: read) rest
    | none =>
      match text with
      | [] => none
      | c :: rest =>
        if c = quote then
          let run := (text.takeWhile (· = quote)).length
          if run < 3 then longWithin quote escapes fuel (List.replicate run quote ++ read) (text.drop run)
          else if run ≤ 5 then
            some (String.ofList (List.replicate (run - 3) quote ++ read).reverse, text.drop run)
          else none
        else if escapes ∧ c = '\\' then
          match escaped? rest with
          | some (e, rest) => longWithin quote escapes fuel (e :: read) rest
          | none =>
            match joinLines? rest with
            | some rest => longWithin quote escapes fuel read rest
            | none => none
        else if isText c then longWithin quote escapes fuel (c :: read) rest
        else none

/-- A long string after its opening quotes; a line end right after them does not count. -/
def long? (quote : Char) (escapes : Bool) (text : List Char) : Option (String × List Char) :=
  let text := (newline? text).getD text
  longWithin quote escapes (text.length + 1) [] text

def string? : List Char → Option (String × List Char)
  | '"' :: '"' :: '"' :: rest => long? '"' true rest
  | '\'' :: '\'' :: '\'' :: rest => long? '\'' false rest
  | '"' :: rest => basicWithin (rest.length + 1) [] rest
  | '\'' :: rest => literal? rest
  | _ => none

/-! ### Keys -/

def isBareKey (c : Char) : Bool :=
  c.isAlphanum || c = '_' || c = '-'

/-- One part of a key: bare, or a string on one line. -/
def keyPart? : List Char → Option (String × List Char)
  | '"' :: rest => basicWithin (rest.length + 1) [] rest
  | '\'' :: rest => literal? rest
  | text =>
    match text.span isBareKey with
    | ([], _) => none
    | (read, rest) => some (String.ofList read, rest)

/-- A key: parts joined by dots, with blanks around them. -/
def keyWithin : Nat → List Char → Option (List String × List Char)
  | 0, _ => none
  | fuel + 1, text =>
    match keyPart? (skipSpaces text) with
    | none => none
    | some (part, rest) =>
      match skipSpaces rest with
      | '.' :: rest => (keyWithin fuel rest).map fun (parts, rest) => (part :: parts, rest)
      | rest => some ([part], rest)

def depthLimit : Nat := 80

def key? (text : List Char) : Option (List String × List Char) :=
  keyWithin depthLimit text

/-! ### Dates and times -/

def daysIn (year month : Nat) : Nat :=
  let leap := year % 4 = 0 ∧ (year % 100 ≠ 0 ∨ year % 400 = 0)
  if month = 2 then (if leap then 29 else 28)
  else if month = 4 ∨ month = 6 ∨ month = 9 ∨ month = 11 then 30
  else 31

def padded (width n : Nat) : String :=
  let digits := toString n
  String.ofList (List.replicate (width - digits.length) '0') ++ digits

def date? (text : List Char) : Option (String × List Char) := do
  let (year, rest) ← fixedDigits? 4 text
  let '-' :: rest := rest | none
  let (month, rest) ← twoDigits? 12 rest
  let '-' :: rest := rest | none
  let (day, rest) ← twoDigits? 31 rest
  if 1 ≤ month ∧ 1 ≤ day ∧ day ≤ daysIn year month then
    return (s!"{padded 4 year}-{padded 2 month}-{padded 2 day}", rest)
  else none

/-- The fraction of a second: nine digits count, and zeros at the end are dropped. -/
def fraction? : List Char → Option (String × List Char)
  | '.' :: rest =>
    match rest.span Char.isDigit with
    | ([], _) => none
    | (digits, rest) =>
      let kept := ((digits.take 9).reverse.dropWhile (· = '0')).reverse
      some (if kept.isEmpty then "" else String.ofList ('.' :: kept), rest)
  | rest => some ("", rest)

def time? (text : List Char) : Option (String × List Char) := do
  let (hour, rest) ← twoDigits? 23 text
  let ':' :: rest := rest | none
  let (minute, rest) ← twoDigits? 59 rest
  let ':' :: rest := rest | none
  let (second, rest) ← twoDigits? 60 rest
  let (fraction, rest) ← fraction? rest
  return (s!"{padded 2 hour}:{padded 2 minute}:{padded 2 second}" ++ fraction, rest)

/-- The offset of a time from UTC, which may be missing. No offset is negative zero. -/
def offset? : List Char → Option (String × List Char)
  | 'Z' :: rest | 'z' :: rest => some ("Z", rest)
  | '+' :: rest => hours "+" rest
  | '-' :: rest => hours "-" rest
  | rest => some ("", rest)
where
  hours (mark : String) (text : List Char) : Option (String × List Char) := do
    let (hour, rest) ← twoDigits? 23 text
    let ':' :: rest := rest | none
    let (minute, rest) ← twoDigits? 59 rest
    let mark := if hour = 0 ∧ minute = 0 then "+" else mark
    return (mark ++ s!"{padded 2 hour}:{padded 2 minute}", rest)

def timeAfterDate? : List Char → Option (String × List Char)
  | 'T' :: rest | 't' :: rest | ' ' :: rest => do
    let (time, rest) ← time? rest
    let (offset, rest) ← offset? rest
    return ("T" ++ time ++ offset, rest)
  | _ => none

def datetime? (text : List Char) : Option (Value × List Char) :=
  match date? text with
  | some (date, rest) =>
    let (time, rest) := (timeAfterDate? rest).getD ("", rest)
    some (.datetime (date ++ time), rest)
  | none => (time? text).map fun (time, rest) => (.datetime time, rest)

/-! ### Numbers -/

def integer64? (n : Int) : Option Value :=
  if -0x8000000000000000 ≤ n ∧ n < 0x8000000000000000 then some (.integer n) else none

/-- The digits of an integer in a base, after its mark. -/
def based? (base : Nat) (text : List Char) : Option (Value × List Char) := do
  let (ds, rest) ← digits? base text
  return (← integer64? (numeral base ds), rest)

/-- The nearest floating-point number to `mantissa · 10 ^ exponent`. Exponents far out of range are settled at
once. -/
def nearestFloat (mantissa : Nat) (exponent : Int) : Float :=
  let size : Int := (toString mantissa).length + exponent
  if mantissa = 0 ∨ size < -330 then 0
  else if 310 < size then Float.ofBits 0x7FF0000000000000
  else Float.ofScientific mantissa (exponent < 0) exponent.natAbs

def exponent? : List Char → Option (Int × List Char)
  | 'e' :: rest | 'E' :: rest => do
    let (negative, rest) := sign rest
    let (ds, rest) ← digits? 10 rest
    let n : Int := numeral 10 ds
    return (if negative then -n else n, rest)
  | _ => none

/-- What makes a number a float: a fraction, an exponent, or both. Gives the digits after the point and the
exponent. -/
def floatTail? : List Char → Option ((List Nat × Int) × List Char)
  | '.' :: rest => do
    let (ds, rest) ← digits? 10 rest
    let (e, rest) := (exponent? rest).getD (0, rest)
    return ((ds, e), rest)
  | rest => (exponent? rest).map fun (e, rest) => (([], e), rest)

def special? : List Char → Option (Float × List Char)
  | 'i' :: 'n' :: 'f' :: rest => some (Float.ofBits 0x7FF0000000000000, rest)
  | 'n' :: 'a' :: 'n' :: rest => some (Float.ofBits 0x7FF8000000000000, rest)
  | _ => none

/-- An integer or a float, after its sign. A number too large for a float is refused unless it is negative. -/
def unsigned? (negative : Bool) (text : List Char) : Option (Value × List Char) :=
  match special? text with
  | some (x, rest) => some (.float (if negative then -x else x), rest)
  | none => do
    let (whole, rest) ← decimal? text
    match floatTail? rest with
    | some ((ds, e), rest) =>
      let x := nearestFloat (numeral 10 (whole ++ ds)) (e - ds.length)
      if x.isInf ∧ ¬ negative then none
      else return (.float (if negative then -x else x), rest)
    | none =>
      let n : Int := numeral 10 whole
      return (← integer64? (if negative then -n else n), rest)

def number? : List Char → Option (Value × List Char)
  | '0' :: 'x' :: rest => based? 16 rest
  | '0' :: 'o' :: rest => based? 8 rest
  | '0' :: 'b' :: rest => based? 2 rest
  | text =>
    let (negative, rest) := sign text
    unsigned? negative rest

end ArchLint.Toml
