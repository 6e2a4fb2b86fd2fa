import ArchLint.Syntax.Tree

/-!
# Callees

What a call or a `new` expression names. A node that lacks a part its grammar promises is a `ShapeError`;
a callee of another shape is simply no match.
-/

namespace ArchLint

/-- A node without a part that its kind promises. -/
structure ShapeError where
  grammarKind : String
  line : Nat
  detail : String
  deriving DecidableEq, Repr

namespace ShapeError

def ofNode (node : NodeRef) (detail : String) : ShapeError :=
  ⟨node.grammarKind, node.span.line, detail⟩

end ShapeError

namespace SyntaxTree

/-- The child in a field, which must be there. -/
def requireField (t : SyntaxTree) (node : NodeRef) (field detail : String) : Except ShapeError NodeRef :=
  match t.childByField? node field with
  | some child => .ok child
  | none => .error (.ofNode node detail)

/-- Object and property of a call of the form `object.property()`, both plain identifiers. -/
def memberCall? (t : SyntaxTree) (call : NodeRef) : Except ShapeError (Option (String × String)) := do
  let callee ← t.requireField call "function" "call without callee"
  if callee.kind ≠ .memberExpression then
    return none
  let object ← t.requireField callee "object" "member access without object"
  let property ← t.requireField callee "property" "member access without property"
  if object.kind ≠ .identifier ∨ property.kind ≠ .identifier then
    return none
  return do
    let objectName ← object.text
    let propertyName ← property.text
    return (objectName, propertyName)

/-- The name constructed by a `new` expression, if it is a plain identifier. -/
def constructorName? (t : SyntaxTree) (creation : NodeRef) : Except ShapeError (Option String) := do
  let callee ← t.requireField creation "constructor" "new expression without constructor"
  return if callee.kind = .identifier then callee.text else none

end SyntaxTree

end ArchLint
