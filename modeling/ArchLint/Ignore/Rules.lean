import ArchLint.Ignore.Pattern
import ArchLint.Text.Blank
import ArchLint.Text.Fields

/-!
# Ignore files

Every line of an ignore file is a rule that hides what it matches, or with `!` shows it again. Of several
rules that match the last one decides. A malformed line is no rule.
-/

namespace ArchLint.Ignore

open Pattern

inductive Verdict where
  | hidden
  | shown
  deriving DecidableEq, Repr

structure IgnoreRule where
  verdict : Verdict
  onlyDirectories : Bool
  regex : Regex
  deriving DecidableEq, Repr

namespace IgnoreRule

def isRecursive (pattern : List Char) : Bool :=
  "**/".toList.isPrefixOf pattern || pattern = "**".toList

/-- The pattern with its hidden wildcards: one without a slash holds at any depth, and `/**` only stands for
what is in a directory. -/
def completed (isRooted : Bool) (pattern : List Char) : List Char :=
  let deep := if !isRooted ∧ '/' ∉ pattern ∧ !isRecursive pattern then "**/".toList ++ pattern else pattern
  if "/**".toList.isSuffixOf deep then deep ++ "/*".toList else deep

/-- The pattern without the slash at its end, and whether there was one. A backslash before the slash goes
with it. -/
def withoutLastSlash (pattern : List Char) : List Char × Bool :=
  if pattern.getLast? = some '/' then
    let shorter := pattern.dropLast
    (if shorter.getLast? = some '\\' then shorter.dropLast else shorter, true)
  else (pattern, false)

/-- The rule of a line that is neither blank nor a comment. -/
def ofPattern? (line : List Char) : Option IgnoreRule :=
  let (verdict, isRooted, pattern) : Verdict × Bool × List Char :=
    match line with
    | '\\' :: '!' :: _ | '\\' :: '#' :: _ => (.hidden, false, line.drop 1)
    | _ =>
      let (verdict, rest) := if line.head? = some '!' then (Verdict.shown, line.drop 1) else (.hidden, line)
      if rest.head? = some '/' then (verdict, true, rest.drop 1) else (verdict, false, rest)
  let (pattern, onlyDirectories) := withoutLastSlash pattern
  (regex? (completed isRooted pattern)).map fun regex => ⟨verdict, onlyDirectories, regex⟩

/-- The rule of a line. White space at its end does not count unless a backslash quotes the last blank. -/
def ofLine? (line : List Char) : Option IgnoreRule :=
  if line.head? = some '#' then none
  else
    let line := if "\\ ".toList.isSuffixOf line then line else Text.trimEnd line
    if line.isEmpty then none else ofPattern? line

/-- Whether the rule speaks of an entry, given its path from the directory of the ignore file. -/
def appliesTo (rule : IgnoreRule) (path : String) (isDirectory : Bool) : Bool :=
  (!rule.onlyDirectories || isDirectory) && rule.regex.isWholeMatch (Text.byteChars path.toList)

end IgnoreRule

abbrev Rules := List IgnoreRule

namespace Rules

def splitLines (bytes : List UInt8) : List (List UInt8) :=
  bytes.foldr
    (fun byte lines =>
      if byte = 10 then [] :: lines
      else match lines with
        | [] => [[byte]]
        | line :: others => (byte :: line) :: others)
    [[]]

/-- The text of a line without its carriage return, if its bytes are characters. -/
def lineText? (line : List UInt8) : Option (List Char) :=
  let line := if line.getLast? = some 13 then line.dropLast else line
  (String.fromUTF8? ⟨line.toArray⟩).map String.toList

/-- The lines of a file up to the first that is no text. A byte order mark before the first line does not
count. -/
def lines (content : ByteArray) : List (List Char) :=
  let texts := ((splitLines content.data.toList).map lineText?).takeWhile Option.isSome |>.filterMap id
  match texts with
  | [] => []
  | first :: others => first.dropWhile (· = '\uFEFF') :: others

def ofContent (content : ByteArray) : Rules :=
  (lines content).filterMap IgnoreRule.ofLine?

def verdict? (rules : Rules) (path : String) (isDirectory : Bool) : Option Verdict :=
  (rules.reverse.find? (·.appliesTo path isDirectory)).map (·.verdict)

end Rules

end ArchLint.Ignore
