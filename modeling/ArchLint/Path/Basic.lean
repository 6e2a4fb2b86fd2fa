import ArchLint.Text.Fields

/-!
# Paths

A path is kept as it was written. Its meaning is its list of components: blank and `.` segments carry
none, except that a relative path may start with `.`. `ofComponents` writes a path back from components.
-/

namespace ArchLint

/-- A path as it was written, with `/` between names. -/
structure Path where
  text : String
  deriving DecidableEq, Inhabited

namespace Path

inductive Component where
  | root
  | current
  | parent
  | name (text : String)
  deriving DecidableEq

def Component.text : Component → String
  | .root => "/"
  | .current => "."
  | .parent => ".."
  | .name text => text

/-- Components sort by kind, names among themselves by their characters. -/
def Component.rank : Component → Nat × String
  | .root => (0, "")
  | .current => (1, "")
  | .parent => (2, "")
  | .name text => (3, text)

instance : Ord Component where
  compare a b := compareLex (compareOn (·.rank.1)) (compareOn (·.rank.2)) a b

/-- The component of a segment between slashes, if it carries one. -/
def Component.ofSegment? (segment : String) : Option Component :=
  if segment = "" ∨ segment = "." then none
  else if segment = ".." then some .parent
  else some (.name segment)

def segments (p : Path) : List String :=
  Text.fieldsOf '/' p.text

def isAbsolute (p : Path) : Bool :=
  p.text.toList.head? = some '/'

def components (p : Path) : List Component :=
  let steps := p.segments.filterMap Component.ofSegment?
  if p.isAbsolute then .root :: steps
  else if p.segments.head? = some "." then .current :: steps
  else steps

/-- The path that spells the given steps, with single slashes. -/
def ofComponents : List Component → Path
  | .root :: rest => ⟨"/" ++ Text.joinWith '/' (rest.map Component.text)⟩
  | steps => ⟨Text.joinWith '/' (steps.map Component.text)⟩

instance : Ord Path where
  compare p q := compare p.components q.components

/-- `q` seen from `p`: an absolute `q` stands alone, any other is appended. -/
def join (p q : Path) : Path :=
  if q.isAbsolute then q
  else if p.text = "" ∨ p.text.toList.getLast? = some '/' then ⟨p.text ++ q.text⟩
  else ⟨p.text ++ "/" ++ q.text⟩

/-- The path without its last step. The root and the empty path have no parent. -/
def parent? (p : Path) : Option Path :=
  match p.components.getLast? with
  | none | some .root => none
  | some _ => some (ofComponents p.components.dropLast)

def fileName? (p : Path) : Option String :=
  match p.components.getLast? with
  | some (.name text) => some text
  | _ => none

/-- What follows the last dot of the file name. A name whose only dot comes first has no extension. -/
def extension? (p : Path) : Option String :=
  match p.fileName? with
  | none => none
  | some name =>
    let fields := Text.fieldsOf '.' name
    if fields.length ≤ 1 ∨ fields.dropLast = [""] then none else fields.getLast?

end Path

end ArchLint
