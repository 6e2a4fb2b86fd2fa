import ArchLint.Path.Normal
import ArchLint.Pattern.Regex.Syntax

/-!
# Exemption patterns

An exemption pattern is a regular expression that is looked for anywhere in the slash form of a path. A rule
does not apply to the files that its pattern finds. Which texts are regular expressions is for a `Reader` to
say: the theory holds whatever the reader takes, and `Regex.parse?` is the one that runs.
-/

namespace ArchLint.Pattern

/-- What reads regular expressions: the expression that a text stands for, if it is one. -/
class Reader where
  read? : String → Option Regex

instance (priority := low) : Reader where
  read? := Regex.parse?

structure Exemption where
  source : String
  regex : Regex
  deriving DecidableEq, Repr

namespace Exemption

/-- Test, script and user interface code is exempt unless configured otherwise. -/
def defaultSource : String :=
  "(tests|scripts|ui)/"

def ofSource? [Reader] (source : String) : Option Exemption :=
  (Reader.read? source).map fun regex => ⟨source, regex⟩

theorem source_of_ofSource? [Reader] {source : String} {e : Exemption} (read : ofSource? source = some e) :
    e.source = source := by
  obtain ⟨regex, -, rfl⟩ := Option.map_eq_some_iff.mp read
  rfl

def covers (e : Exemption) (p : Path) : Bool :=
  e.regex.isMatch p.slashForm

end Exemption

end ArchLint.Pattern
