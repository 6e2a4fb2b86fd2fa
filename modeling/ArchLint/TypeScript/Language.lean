import ArchLint.Source
import ArchLint.TypeScript.Lowering

/-!
# TypeScript and its relatives

Files of the TypeScript and JavaScript families. Markup in the source takes the second of two dialects. The
grammar itself is a parameter: it gives the concrete tree of a text in a dialect.
-/

namespace ArchLint.TypeScript

inductive Dialect where
  | plain
  | markup
  deriving DecidableEq, Repr

def extensions : List String :=
  ["ts", "tsx", "mts", "cts", "js", "jsx", "mjs", "cjs"]

def dialect? (path : Path) : Option Dialect :=
  match path.extension? with
  | some "tsx" | some "jsx" => some .markup
  | some extension => if extension ∈ extensions then some .plain else none
  | none => none

/-- What reads concrete trees. It may give up on a text. -/
abbrev Grammar := Dialect → String → Option Concrete

def parse (grammar : Grammar) (path : Path) (source : String) : Except ParseError SyntaxTree :=
  match dialect? path with
  | none => .error (.unsupported path)
  | some dialect =>
    match grammar dialect source with
    | none => .error .aborted
    | some tree => .ok (lower source tree)

def language (grammar : Grammar) : Language where
  id := "typescript"
  extensions := extensions
  parse := parse grammar

end ArchLint.TypeScript
