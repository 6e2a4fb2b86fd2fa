import ArchLint.Syntax.Kind
import ArchLint.Syntax.Span

/-!
# Syntax trees

A tree is an arena: a node's id is its position, and parent and child links are ids. Trees grow from
`root` by `push` and `setText` only. `ancestors` is bounded by the size of the arena, so it ends on every
arena, also on one whose parent links run in a circle.
-/

namespace ArchLint

abbrev NodeId := Nat

structure Node where
  kind : NodeKind
  grammarKind : String
  field : Option String
  span : Span
  parent : Option NodeId
  children : List NodeId
  text : Option String
  deriving DecidableEq, Repr, Inhabited

structure NodeRef extends Node where
  id : NodeId
  deriving DecidableEq, Repr, Inhabited

structure SyntaxTree where
  nodes : Array Node
  deriving DecidableEq, Repr

namespace SyntaxTree

def root (span : Span) : SyntaxTree :=
  ⟨#[⟨.program, "program", none, span, none, [], none⟩]⟩

def size (t : SyntaxTree) : Nat :=
  t.nodes.size

/-- A tree is empty when the program holds no node. -/
def isEmpty (t : SyntaxTree) : Bool :=
  t.size ≤ 1

/-- The tree with one more child of `parent`. Its id is the size before the push. -/
def push (t : SyntaxTree) (parent : NodeId) (kind : NodeKind) (grammarKind : String)
    (field : Option String) (span : Span) : SyntaxTree :=
  let linked := t.nodes.modify parent fun node => { node with children := node.children ++ [t.size] }
  ⟨linked.push ⟨kind, grammarKind, field, span, some parent, [], none⟩⟩

def setText (t : SyntaxTree) (id : NodeId) (text : String) : SyntaxTree :=
  ⟨t.nodes.modify id fun node => { node with text := some text }⟩

def ref? (t : SyntaxTree) (id : NodeId) : Option NodeRef :=
  t.nodes[id]?.map fun node => ⟨node, id⟩

def refs (t : SyntaxTree) : List NodeRef :=
  (List.range t.size).filterMap t.ref?

def count (t : SyntaxTree) (kind : NodeKind) : Nat :=
  t.refs.countP (·.kind = kind)

/-- The children of a node in the order they were pushed. -/
def childrenOf (t : SyntaxTree) (node : NodeRef) : List NodeRef :=
  node.children.filterMap t.ref?

def childByField? (t : SyntaxTree) (node : NodeRef) (field : String) : Option NodeRef :=
  (t.childrenOf node).find? (·.field = some field)

def parentOf? (t : SyntaxTree) (node : NodeRef) : Option NodeRef :=
  node.parent.bind t.ref?

/-- At most `bound` nodes of the chain of parents that starts at `next`. -/
def chain (t : SyntaxTree) : Nat → Option NodeId → List NodeRef
  | 0, _ => []
  | bound + 1, next =>
    match next.bind t.ref? with
    | none => []
    | some node => node :: t.chain bound node.parent

/-- The nodes above a node, nearest first. -/
def ancestors (t : SyntaxTree) (node : NodeRef) : List NodeRef :=
  t.chain t.size node.parent

@[simp] theorem size_root (span : Span) : (root span).size = 1 := rfl

@[simp] theorem size_push (t : SyntaxTree) (parent : NodeId) (kind : NodeKind) (grammarKind : String)
    (field : Option String) (span : Span) : (t.push parent kind grammarKind field span).size = t.size + 1 := by
  simp [push, size]

@[simp] theorem size_setText (t : SyntaxTree) (id : NodeId) (text : String) : (t.setText id text).size = t.size := by
  simp [setText, size]

theorem ref?_eq_none_iff (t : SyntaxTree) (id : NodeId) : t.ref? id = none ↔ t.size ≤ id := by
  simp [ref?, size]

end SyntaxTree

namespace NodeRef

def isIdentifier (node : NodeRef) (name : String) : Bool :=
  node.kind = .identifier ∧ node.text = some name

end NodeRef

end ArchLint
