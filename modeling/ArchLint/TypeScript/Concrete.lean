/-!
# Concrete trees

The tree that a grammar produces for a text, with every token in it. `ofRows` builds it from a listing in
which each node follows its parent and states its depth.
-/

namespace ArchLint.TypeScript

/-- What a grammar says of one node. Rows and columns start at zero and count bytes. -/
structure Mark where
  kind : String
  named : Bool
  field : Option String
  startByte : Nat
  endByte : Nat
  row : Nat
  column : Nat
  deriving DecidableEq, Repr

inductive Concrete where
  | node (mark : Mark) (children : List Concrete)

namespace Concrete

def mark : Concrete → Mark
  | node mark _ => mark

def children : Concrete → List Concrete
  | node _ children => children

/-- Puts a row before a forest whose trees state their depths; the deeper trees that come next are its
children. -/
def attach (row : Nat × Mark) (forest : List (Nat × Concrete)) : List (Nat × Concrete) :=
  let below := forest.takeWhile fun (depth, _) => row.1 < depth
  let after := forest.dropWhile fun (depth, _) => row.1 < depth
  (row.1, node row.2 (below.map (·.2))) :: after

/-- The tree of a listing, unless the listing is empty or has more than one root. -/
def ofRows (rows : List (Nat × Mark)) : Option Concrete :=
  match rows.foldr attach [] with
  | [(_, tree)] => some tree
  | _ => none

end Concrete

end ArchLint.TypeScript
