import ArchLint.FileTree
import ArchLint.Ignore.Rules
import ArchLint.Text.Fields

/-!
# Walks

The regular files at or below a place, without those that ignore files hide. An ignore file speaks of all that
is below its directory; the nearest one with a say decides, and `.ignore` files go before `.gitignore` files.
What is below a hidden directory stays hidden. The place where a walk starts is never hidden.
-/

namespace ArchLint.Ignore

/-- The rules of every ignore file of one name, by the directories that hold them. -/
abbrev RuleFiles := List (Place × Rules)

namespace RuleFiles

def named (name : String) (t : FileTree) : RuleFiles :=
  t.files.filterMap fun (place, content) =>
    if place.getLast? = some name then some (place.dropLast, Rules.ofContent content) else none

/-- What the rules in the directory that holds the first `depth` names of an entry say of it. -/
def verdictAt? (files : RuleFiles) (entry : Place) (isDirectory : Bool) (depth : Nat) : Option Verdict :=
  (files.lookup (entry.take depth)).bind fun rules =>
    rules.verdict? (Text.joinWith '/' (entry.drop depth)) isDirectory

/-- What the rules say of an entry, the nearest directory first. -/
def verdict? (files : RuleFiles) (entry : Place) (isDirectory : Bool) : Option Verdict :=
  (List.range entry.length).reverse.findSome? (files.verdictAt? entry isDirectory)

end RuleFiles

/-- Whether the rules hide an entry, the first list of rule files that has a say deciding. -/
def hides (sources : List RuleFiles) (entry : Place) (isDirectory : Bool) : Bool :=
  sources.findSome? (·.verdict? entry isDirectory) = some .hidden

/-- Whether a walk from `start` comes to a file: neither the file nor a directory on the way is hidden. -/
def reaches (sources : List RuleFiles) (start file : Place) : Bool :=
  start.isPrefixOf file
    && (List.range (file.length - start.length)).all fun step =>
      let depth := start.length + step + 1
      !hides sources (file.take depth) (depth < file.length)

def walk (t : FileTree) (respectGitignore : Bool) (start : Place) : List Place :=
  let sources := RuleFiles.named ".ignore" t :: if respectGitignore then [RuleFiles.named ".gitignore" t] else []
  (t.files.map (·.1)).filter (reaches sources start)

end ArchLint.Ignore
