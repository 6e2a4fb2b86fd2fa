/-!
# Node kinds

The closed set of syntax kinds that rules tell apart. Everything else a grammar knows is `other`.
-/

namespace ArchLint

/-- What a syntax node is, as far as rules care. -/
inductive NodeKind where
  | program
  | functionDeclaration
  | functionExpression
  | arrowFunction
  | methodDefinition
  | classBody
  | classDefinition
  | classField
  | variableDeclarator
  | expressionStatement
  | newExpression
  | callExpression
  | memberExpression
  | identifier
  | other
  deriving DecidableEq, Repr, Inhabited

namespace NodeKind

def all : List NodeKind :=
  [program, functionDeclaration, functionExpression, arrowFunction, methodDefinition, classDefinition,
    classBody, classField, variableDeclarator, expressionStatement, newExpression, callExpression,
    memberExpression, identifier, other]

theorem mem_all (kind : NodeKind) : kind ∈ all := by
  cases kind <;> simp [all]

def name : NodeKind → String
  | program => "program"
  | functionDeclaration => "function-declaration"
  | functionExpression => "function-expression"
  | arrowFunction => "arrow-function"
  | methodDefinition => "method-definition"
  | classDefinition => "class"
  | classBody => "class-body"
  | classField => "class-field"
  | variableDeclarator => "variable-declarator"
  | expressionStatement => "expression-statement"
  | newExpression => "new-expression"
  | callExpression => "call-expression"
  | memberExpression => "member-expression"
  | identifier => "identifier"
  | other => "other"

/-- The name of a kind where a node is written out for inspection. -/
def tag : NodeKind → String
  | program => "Program"
  | functionDeclaration => "FunctionDeclaration"
  | functionExpression => "FunctionExpression"
  | arrowFunction => "ArrowFunction"
  | methodDefinition => "MethodDefinition"
  | classDefinition => "Class"
  | classBody => "ClassBody"
  | classField => "ClassField"
  | variableDeclarator => "VariableDeclarator"
  | expressionStatement => "ExpressionStatement"
  | newExpression => "NewExpression"
  | callExpression => "CallExpression"
  | memberExpression => "MemberExpression"
  | identifier => "Identifier"
  | other => "Other"

def ofName? (text : String) : Option NodeKind :=
  all.find? (·.name = text)

theorem ofName?_name (kind : NodeKind) : ofName? kind.name = some kind := by
  cases kind <;> decide

def isFunction : NodeKind → Bool
  | functionDeclaration | functionExpression | arrowFunction | methodDefinition => true
  | _ => false

def isBindingHolder : NodeKind → Bool
  | classField | variableDeclarator => true
  | _ => false

end NodeKind

end ArchLint
