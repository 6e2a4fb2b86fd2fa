import ArchLint.FileTree
import ArchLint.Text.Fields
import ArchLint.TypeScript.Language

/-!
# Tree listings

Concrete trees as text, for trees that another program made. A listing has a line for each node: depth, kind,
`named` or `token`, field or `-`, the first and the end byte, row and column, with tabs between them. The
listing of a file stands beside it, under the file's name with `.tree` after it.
-/

namespace ArchLint.TypeScript.Listing

def row? (line : String) : Option (Nat × Mark) :=
  match Text.fieldsOf '\t' line with
  | [depth, kind, sort, field, first, last, row, column] => do
    let named ← if sort = "named" then some true else if sort = "token" then some false else none
    let field := if field = "-" then none else some field
    return (← depth.toNat?, ⟨kind, named, field, ← first.toNat?, ← last.toNat?, ← row.toNat?, ← column.toNat?⟩)
  | _ => none

def tree? (listing : String) : Option Concrete := do
  Concrete.ofRows (← ((Text.fieldsOf '\n' listing).filter (· ≠ "")).mapM row?)

def beside (place : Place) : Place :=
  place.dropLast ++ (place.getLast?.map (· ++ ".tree")).toList

def text? (t : FileTree) (place : Place) : Option String :=
  (t.bytes? place).bind String.fromUTF8?

/-- The grammar that knows the listed trees of the files in a file tree. -/
def grammar (t : FileTree) : Grammar := fun dialect source =>
  t.files.findSome? fun (place, _) =>
    if dialect? (.ofPlace place) = some dialect ∧ text? t place = some source then
      (text? t (beside place)).bind tree?
    else none

end ArchLint.TypeScript.Listing
