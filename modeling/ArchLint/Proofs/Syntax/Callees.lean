import ArchLint.Syntax.Callee

/-!
# Fields of nodes

A field is read off the first child that stands in it, and a question about the shape of a node fails if no child does.
-/

namespace ArchLint

namespace SyntaxTree

def FirstInField (t : SyntaxTree) (node child : NodeRef) (field : String) : Prop :=
  ∃ before after, t.childrenOf node = before ++ child :: after ∧ child.field = some field ∧
    ∀ other ∈ before, other.field ≠ some field

theorem childByField?_eq_some_iff {t : SyntaxTree} {node child : NodeRef} {field : String} :
    t.childByField? node field = some child ↔ t.FirstInField node child field := by
  unfold childByField? FirstInField
  simp only [List.find?_eq_some_iff_append, decide_eq_true_eq, Bool.not_eq_true', decide_eq_false_iff_not]
  constructor
  · rintro ⟨here, before, after, split, earlier⟩
    exact ⟨before, after, split, here, earlier⟩
  · rintro ⟨before, after, split, here, earlier⟩
    exact ⟨here, before, after, split, earlier⟩

theorem childByField?_eq_none_iff {t : SyntaxTree} {node : NodeRef} {field : String} :
    t.childByField? node field = none ↔ ∀ child ∈ t.childrenOf node, child.field ≠ some field := by
  simp [childByField?]

def ConstructsNothing (t : SyntaxTree) (node : NodeRef) : Prop :=
  node.kind = .newExpression ∧ ∀ child ∈ t.childrenOf node, child.field ≠ some "constructor"

/-- The node constructs what goes by this plain name. -/
def Constructs (t : SyntaxTree) (node : NodeRef) (name : String) : Prop :=
  node.kind = .newExpression ∧ ∃ callee, t.FirstInField node callee "constructor" ∧ callee.kind = .identifier ∧
    callee.text = some name

theorem constructorName?_eq_error_iff {t : SyntaxTree} {node : NodeRef} {e : ShapeError} :
    t.constructorName? node = .error e ↔ (∀ child ∈ t.childrenOf node, child.field ≠ some "constructor") ∧
      e = ⟨node.grammarKind, node.span.line, "new expression without constructor"⟩ := by
  rw [← childByField?_eq_none_iff]
  unfold constructorName? requireField
  cases t.childByField? node "constructor" with
  | none => simp [bind, Except.bind, ShapeError.ofNode, eq_comm]
  | some callee => simp [bind, Except.bind, pure, Except.pure]

theorem constructorName?_eq_ok_iff {t : SyntaxTree} {node : NodeRef} {name : String} :
    t.constructorName? node = .ok (some name) ↔
      ∃ callee, t.FirstInField node callee "constructor" ∧ callee.kind = .identifier ∧ callee.text = some name := by
  simp only [← childByField?_eq_some_iff]
  unfold constructorName? requireField
  cases t.childByField? node "constructor" with
  | none => simp [bind, Except.bind]
  | some callee => simp [bind, Except.bind, pure, Except.pure]

theorem memberCall?_eq_ok_iff {t : SyntaxTree} {call : NodeRef} {object property : String} :
    t.memberCall? call = .ok (some (object, property)) ↔
      ∃ callee receiver member, t.childByField? call "function" = some callee ∧ callee.kind = .memberExpression ∧
        t.childByField? callee "object" = some receiver ∧ t.childByField? callee "property" = some member ∧
        (receiver.kind = .identifier ∧ receiver.text = some object) ∧
        (member.kind = .identifier ∧ member.text = some property) := by
  unfold memberCall? requireField
  cases first : t.childByField? call "function" with
  | none => simp [bind, Except.bind]
  | some callee =>
    by_cases form : callee.kind = .memberExpression
    · cases left : t.childByField? callee "object" with
      | none => simp [bind, Except.bind, form, left]
      | some receiver =>
        cases right : t.childByField? callee "property" with
        | none => simp [bind, Except.bind, form, left, right]
        | some member =>
          by_cases plain : receiver.kind = .identifier ∧ member.kind = .identifier
          · simp [bind, Except.bind, pure, Except.pure, form, left, right, plain, Option.bind_eq_some_iff]
          · have other : ¬receiver.kind = .identifier ∨ ¬member.kind = .identifier :=
              Decidable.not_and_iff_not_or_not.mp plain
            simp only [bind, Except.bind, pure, Except.pure, form, left, right, other, ne_eq, if_true, if_false,
              not_true_eq_false, Option.some.injEq, Except.ok.injEq, reduceCtorEq, false_iff]
            rintro ⟨_, _, _, rfl, -, left', right', ⟨first', -⟩, second', -⟩
            rw [left] at left'
            rw [right] at right'
            cases left'
            cases right'
            exact plain ⟨first', second'⟩
    · simp [bind, Except.bind, pure, Except.pure, form]

theorem memberCall?_eq_error_iff {t : SyntaxTree} {call : NodeRef} {e : ShapeError} :
    t.memberCall? call = .error e ↔
      (t.childByField? call "function" = none ∧ .ofNode call "call without callee" = e) ∨
      ∃ callee, t.childByField? call "function" = some callee ∧ callee.kind = .memberExpression ∧
        ((t.childByField? callee "object" = none ∧ .ofNode callee "member access without object" = e) ∨
        ∃ receiver, t.childByField? callee "object" = some receiver ∧ t.childByField? callee "property" = none ∧
          .ofNode callee "member access without property" = e) := by
  unfold memberCall? requireField
  cases first : t.childByField? call "function" with
  | none => simp [bind, Except.bind]
  | some callee =>
    by_cases form : callee.kind = .memberExpression
    · cases left : t.childByField? callee "object" with
      | none => simp [bind, Except.bind, form, left]
      | some receiver =>
        cases right : t.childByField? callee "property" with
        | none => simp [bind, Except.bind, form, left, right]
        | some member =>
          by_cases plain : receiver.kind = .identifier ∧ member.kind = .identifier
          · simp [bind, Except.bind, pure, Except.pure, form, left, right, plain]
          · have other : ¬receiver.kind = .identifier ∨ ¬member.kind = .identifier :=
              Decidable.not_and_iff_not_or_not.mp plain
            simp [bind, Except.bind, pure, Except.pure, form, left, right, other]
    · simp [bind, Except.bind, pure, Except.pure, form]

end SyntaxTree

end ArchLint
