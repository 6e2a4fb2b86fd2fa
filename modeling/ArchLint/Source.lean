import ArchLint.Path.Basic
import ArchLint.Syntax.Tree

/-!
# Source languages

A language knows its file extensions and turns a text into a syntax tree. It handles a file exactly if it
knows the extension.
-/

namespace ArchLint

inductive ParseError where
  | unsupported (path : Path)
  | aborted
  deriving DecidableEq

namespace ParseError

def message : ParseError → String
  | unsupported path => s!"unsupported file type: {path.text}"
  | aborted => "parse aborted"

end ParseError

structure Language where
  id : String
  extensions : List String
  parse : Path → String → Except ParseError SyntaxTree

namespace Language

def handles (language : Language) (path : Path) : Bool :=
  path.extension?.any language.extensions.contains

end Language

end ArchLint
