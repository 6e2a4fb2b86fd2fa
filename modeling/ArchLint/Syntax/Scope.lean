import ArchLint.Syntax.Tree

/-!
# Scopes

How long a value built at a node lives: `functionLocal` inside a function, `member` when a class field or a
variable holds it, `topLevel` otherwise. The nearest function decides, however many holders stand between.
-/

namespace ArchLint

/-- The lifetime of what a node builds. -/
inductive Scope where
  | topLevel
  | member
  | functionLocal
  deriving DecidableEq, Repr

namespace Scope

def ofAncestors (above : List NodeRef) : Scope :=
  if above.any (·.kind.isFunction) then .functionLocal
  else if above.any (·.kind.isBindingHolder) then .member
  else .topLevel

def tag : Scope → String
  | topLevel => "TopLevel"
  | member => "Member"
  | functionLocal => "Local"

end Scope

namespace SyntaxTree

def scope (t : SyntaxTree) (node : NodeRef) : Scope :=
  .ofAncestors (t.ancestors node)

/-- Whether a node keeps values alive beyond a call: a class field does, a variable does outside functions. -/
def retains (t : SyntaxTree) (node : NodeRef) : Bool :=
  match node.kind with
  | .classField => true
  | .variableDeclarator => t.scope node ≠ .functionLocal
  | _ => false

/-- The nearest ancestor that keeps the node's value alive. -/
def retainingHolder? (t : SyntaxTree) (node : NodeRef) : Option NodeRef :=
  (t.ancestors node).find? t.retains

end SyntaxTree

end ArchLint
