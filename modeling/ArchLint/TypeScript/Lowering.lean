import ArchLint.Syntax.Tree
import ArchLint.TypeScript.Cursor

/-!
# Lowering

The arena of a concrete tree: its named nodes in pre-order. Tokens and all that stands below them are dropped,
fields are kept, and identifiers carry their text. A loop moves a cursor over the tree and keeps the ids of the
open nodes on a stack beside it.
-/

namespace ArchLint.TypeScript

def lowerKind : String → NodeKind
  | "program" => .program
  | "function_declaration" | "generator_function_declaration" => .functionDeclaration
  | "function_expression" | "function" | "generator_function" => .functionExpression
  | "arrow_function" => .arrowFunction
  | "method_definition" => .methodDefinition
  | "class_declaration" | "abstract_class_declaration" | "class" => .classDefinition
  | "class_body" => .classBody
  | "public_field_definition" | "field_definition" => .classField
  | "variable_declarator" => .variableDeclarator
  | "expression_statement" => .expressionStatement
  | "new_expression" => .newExpression
  | "call_expression" => .callExpression
  | "member_expression" => .memberExpression
  | "identifier" | "property_identifier" => .identifier
  | _ => .other

namespace Mark

/-- The node's place with lines and columns counted from one. -/
def span (mark : Mark) : Span :=
  ⟨mark.startByte, mark.endByte, mark.row + 1, mark.column + 1⟩

/-- The text that a node covers, if its bytes are characters of the source. -/
def text? (mark : Mark) (source : String) : Option String :=
  if mark.startByte ≤ mark.endByte ∧ mark.endByte ≤ source.utf8ByteSize then
    String.fromUTF8? (source.toUTF8.extract mark.startByte mark.endByte)
  else none

end Mark

/-- The arena with one more node below `parent`. Identifiers get their text. -/
def lowerMark (source : String) (parent : NodeId) (mark : Mark) (t : SyntaxTree) : SyntaxTree :=
  let kind := lowerKind mark.kind
  let grown := t.push parent kind mark.kind mark.field mark.span
  match kind, mark.text? source with
  | .identifier, some text => grown.setText t.size text
  | _, _ => grown

/-- A lowering under way: the arena so far, the ids of the open nodes with the innermost first, and the cursor.
-/
structure Lowering where
  arena : SyntaxTree
  parents : List NodeId
  cursor : Cursor

namespace Lowering

/-- Where to go on after the cursor's node and all below it: at the next sibling of the nearest node that has
one. Nodes that are left are closed. There is nowhere to go once the last open node would be closed. -/
def climb (parents : List NodeId) (cursor : Cursor) : Option (List NodeId × Cursor) :=
  match cursor.nextSibling? with
  | some next => some (parents, next)
  | none =>
    match _h : cursor.parent? with
    | none => none
    | some up => if parents.length ≤ 1 then none else climb parents.tail up
termination_by cursor.above.length
decreasing_by exact Cursor.length_above_parent _h

/-- The arena once there is nowhere to go, or else the lowering at the next place. -/
def proceed (arena : SyntaxTree) (place : Option (List NodeId × Cursor)) : SyntaxTree ⊕ Lowering :=
  match place with
  | none => .inl arena
  | some (parents, cursor) => .inr ⟨arena, parents, cursor⟩

/-- One turn of the loop: adds the cursor's node unless it is a token, and opens it if anything is below it. -/
def step (source : String) (l : Lowering) : SyntaxTree ⊕ Lowering :=
  let mark := l.cursor.node.mark
  if mark.named then
    let arena := lowerMark source (l.parents.headD 0) mark l.arena
    match l.cursor.firstChild? with
    | some child => .inr ⟨arena, l.arena.size :: l.parents, child⟩
    | none => proceed arena (climb l.parents l.cursor)
  else proceed l.arena (climb l.parents l.cursor)

theorem remaining_climb {parents parents' : List NodeId} {cursor next : Cursor}
    (h : climb parents cursor = some (parents', next)) : next.remaining ≤ cursor.later := by
  fun_induction climb parents cursor with
  | case1 parents cursor sibling right =>
    obtain ⟨-, rfl⟩ := Prod.mk.inj (Option.some.inj h)
    exact Nat.le_of_eq (Cursor.remaining_nextSibling right)
  | case2 => cases h
  | case3 => cases h
  | case4 parents cursor last up higher open' ih =>
    exact Nat.le_trans (ih h) (Cursor.later_parent higher)

theorem remaining_proceed {arena : SyntaxTree} {parents : List NodeId} {cursor : Cursor} {next : Lowering}
    (h : proceed arena (climb parents cursor) = .inr next) : next.cursor.remaining < cursor.remaining := by
  cases place : climb parents cursor with
  | none => simp [proceed, place] at h
  | some found =>
    rw [place] at h
    obtain rfl := Sum.inr.inj h
    exact Nat.lt_of_le_of_lt (remaining_climb place) cursor.later_lt_remaining

/-- Every turn leaves fewer nodes to come. -/
theorem remaining_step {source : String} {l next : Lowering} (h : l.step source = .inr next) :
    next.cursor.remaining < l.cursor.remaining := by
  simp only [step] at h
  split at h
  · split at h
    · rename_i child below
      obtain rfl := Sum.inr.inj h
      exact Cursor.remaining_firstChild below
    · exact remaining_proceed h
  · exact remaining_proceed h

def run (source : String) (l : Lowering) : SyntaxTree :=
  match _h : l.step source with
  | .inl arena => arena
  | .inr next => run source next
termination_by l.cursor.remaining
decreasing_by exact remaining_step _h

end Lowering

/-- The arena of a whole tree. The concrete root becomes the program node. -/
def lower (source : String) (tree : Concrete) : SyntaxTree :=
  let arena := SyntaxTree.root tree.mark.span
  match (Cursor.ofRoot tree).firstChild? with
  | none => arena
  | some child => Lowering.run source ⟨arena, [0], child⟩

end ArchLint.TypeScript
