import ArchLint.Rule.Registry
import ArchLint.Text.Quoted

/-!
# Inspection

How nodes, visitor tables and registered rules are written out for someone who looks at a run from inside.
-/

namespace ArchLint

def NodeRef.inspect (node : NodeRef) : String :=
  s!"NodeRef \x7B id: NodeId({node.id}), kind: {node.kind.tag}, grammar_kind: {Text.quoted node.grammarKind} \x7D"

def VisitorTable.inspect (table : VisitorTable) : String :=
  "[" ++ String.intercalate ", " (table.kinds.map NodeKind.tag) ++ "]"

def RuleEntry.inspect (e : RuleEntry) : String :=
  s!"RuleEntry \x7B id: {Text.quoted e.descriptor.id}, code: {Text.quoted e.descriptor.code}, .. \x7D"

end ArchLint
