import ArchLint.TypeScript.Concrete

/-!
# Cursors

A place in a concrete tree, with the way back up. A cursor moves to the first child, to the next sibling or to
the parent, and never leaves the tree that it was made for.
-/

namespace ArchLint.TypeScript

namespace Concrete

mutual

def count : Concrete → Nat
  | node _ children => countAll children + 1

def countAll : List Concrete → Nat
  | [] => 0
  | tree :: rest => tree.count + countAll rest

end

theorem count_eq (tree : Concrete) : tree.count = countAll tree.children + 1 := by
  cases tree
  simp [count, children]

end Concrete

/-- A node with the siblings after it, and the nodes above it, nearest first, each with the siblings after it. -/
structure Cursor where
  node : Concrete
  after : List Concrete
  above : List (Concrete × List Concrete)

namespace Cursor

def ofRoot (tree : Concrete) : Cursor :=
  ⟨tree, [], []⟩

def firstChild? (c : Cursor) : Option Cursor :=
  match c.node.children with
  | [] => none
  | child :: rest => some ⟨child, rest, (c.node, c.after) :: c.above⟩

def nextSibling? (c : Cursor) : Option Cursor :=
  match c.after with
  | [] => none
  | next :: rest => some ⟨next, rest, c.above⟩

def parent? (c : Cursor) : Option Cursor :=
  match c.above with
  | [] => none
  | (node, after) :: above => some ⟨node, after, above⟩

/-- How many nodes come after the nodes that the cursor has come down through. -/
def countAbove : List (Concrete × List Concrete) → Nat
  | [] => 0
  | (_, after) :: above => Concrete.countAll after + countAbove above

/-- How many nodes come after the cursor's node and what is below it. -/
def later (c : Cursor) : Nat :=
  Concrete.countAll c.after + countAbove c.above

/-- How many nodes are still to come, the cursor's own included. -/
def remaining (c : Cursor) : Nat :=
  c.node.count + c.later

theorem later_lt_remaining (c : Cursor) : c.later < c.remaining := by
  rw [remaining, Concrete.count_eq]
  omega

theorem remaining_firstChild {c child : Cursor} (h : c.firstChild? = some child) :
    child.remaining < c.remaining := by
  unfold firstChild? at h
  split at h
  · cases h
  · rename_i first rest below
    obtain rfl := Option.some.inj h
    have size := c.node.count_eq
    rw [below, Concrete.countAll] at size
    simp only [remaining, later, countAbove]
    omega

theorem remaining_nextSibling {c next : Cursor} (h : c.nextSibling? = some next) :
    next.remaining = c.later := by
  unfold nextSibling? at h
  split at h
  · cases h
  · rename_i first rest right
    obtain rfl := Option.some.inj h
    simp only [remaining, later, right, Concrete.countAll]
    omega

theorem later_parent {c up : Cursor} (h : c.parent? = some up) : up.later ≤ c.later := by
  unfold parent? at h
  split at h
  · cases h
  · rename_i node after above higher
    obtain rfl := Option.some.inj h
    simp only [later, higher, countAbove]
    omega

theorem length_above_parent {c up : Cursor} (h : c.parent? = some up) :
    up.above.length < c.above.length := by
  unfold parent? at h
  split at h
  · cases h
  · rename_i node after above higher
    obtain rfl := Option.some.inj h
    simp [higher]

end Cursor

end ArchLint.TypeScript
