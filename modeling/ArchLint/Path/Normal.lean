import ArchLint.Path.Basic

/-!
# Normal forms and project-relative paths

`normalize` folds `.` and `..` away without looking at any file. `relativeTo` drops the normal form of a
root from a path, and leaves a path outside the root (or the root itself) in normal form.
-/

namespace ArchLint.Path

/-- One step of folding, on the steps kept so far with the last one first. -/
def foldStep (kept : List Component) : Component → List Component
  | .current => kept
  | .parent =>
    match kept with
    | .name _ :: rest => rest
    | .root :: rest => .root :: rest
    | rest => .parent :: rest
  | step => step :: kept

/-- The steps with `.` dropped and every `..` taken back where a name precedes it. -/
def foldDots (steps : List Component) : List Component :=
  (steps.foldl foldStep []).reverse

def normalize (p : Path) : Path :=
  ofComponents (foldDots p.components)

/-- The path as seen from a root that holds it, otherwise its normal form. Both are compared in normal form.
-/
def relativeTo (p root : Path) : Path :=
  let path := p.normalize
  match root.normalize.components.isPrefixOf? path.components with
  | some (step :: rest) => ofComponents (step :: rest)
  | _ => path

def absoluteFrom (p directory : Path) : Path :=
  (directory.join p).normalize

/-- The segment of a component in slash form; `.` has none. -/
def Component.slashSegment? : Component → Option String
  | .root => some ""
  | .current => none
  | .parent => some ".."
  | .name text => some text

/-- The components joined by slashes: what patterns are matched against. -/
def slashForm (p : Path) : String :=
  Text.joinWith '/' (p.components.filterMap Component.slashSegment?)

end ArchLint.Path
