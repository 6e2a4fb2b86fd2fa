import ArchLint.Proofs.Visits.Calls
import ArchLint.Rules.Builtin

/-!
# Rules that only decorate

A rule that decorates changes its context by reports alone, and attaches only labels and suggestions to them. Its
violations then carry its own names and the file that it looks at. All built-in rules are of this kind.
-/

namespace ArchLint

open TableEntry

/-- Attaches labels or a suggestion and leaves everything else as it is. -/
def Decoration (decorate : Violation → Violation) : Prop :=
  ∀ v, decorate v = { v with suggestion := (decorate v).suggestion, labels := (decorate v).labels }

/-- A context and one that reports lead to from there. -/
inductive Reports : RuleContext → RuleContext → Prop
  | none (ctx : RuleContext) : Reports ctx ctx
  | more {ctx mid next : RuleContext} (node : NodeRef) (messageId : String) (decorate : Violation → Violation) :
    Reports ctx mid → Decoration decorate → mid.reportWith node messageId decorate = .ok next → Reports ctx next

def Handler.Decorates (h : Handler) : Prop :=
  ∀ node ctx, Reports ctx ((h node).left ctx)

def VisitorTable.Decorates (table : VisitorTable) : Prop :=
  ∀ e ∈ table.entries, Handler.Decorates e.2

def Rule.Decorates (rule : Rule) : Prop :=
  ∀ ctx, (rule.visitors ctx).Decorates

/-! ### What reports leave alone -/

/-- The violation bears the names of a rule and lies in a file. -/
structure Violation.Bears (v : Violation) (file : Path) (descriptor : Descriptor) : Prop where
  file : v.location.file = file
  code : v.code = descriptor.code
  rule : v.rule = descriptor.id

structure Stamped (file : SourceFile) (descriptor : Descriptor) (ctx : RuleContext) : Prop where
  sameFile : ctx.file = file
  sameDescriptor : ctx.descriptor = descriptor
  named : ∀ v ∈ ctx.violations, v.Bears file.relativePath descriptor

section

variable {file : SourceFile} {descriptor : Descriptor}

theorem Stamped.fresh (tree : SyntaxTree) (severity : Severity) :
    Stamped file descriptor (.fresh file tree descriptor severity) :=
  ⟨rfl, rfl, fun _ inside => absurd inside List.not_mem_nil⟩

theorem Stamped.reportWith {ctx next : RuleContext} (stamped : Stamped file descriptor ctx) {node : NodeRef}
    {messageId : String} {decorate : Violation → Violation} (decoration : Decoration decorate)
    (reported : ctx.reportWith node messageId decorate = .ok next) : Stamped file descriptor next := by
  unfold RuleContext.reportWith at reported
  split at reported
  · exact absurd reported (by simp)
  · next template _ =>
    split at reported
    · obtain rfl := Except.ok.inj reported
      exact stamped
    · obtain rfl := Except.ok.inj reported
      refine ⟨stamped.sameFile, stamped.sameDescriptor, ?_⟩
      intro v inside
      rcases List.mem_append.mp inside with before | last
      · exact stamped.named v before
      · rw [List.mem_singleton.mp last, decoration]
        refine ⟨?_, ?_, ?_⟩
        · exact congrArg SourceFile.relativePath stamped.sameFile
        · exact congrArg Descriptor.code stamped.sameDescriptor
        · exact congrArg Descriptor.id stamped.sameDescriptor

theorem Stamped.reports {ctx next : RuleContext} (stamped : Stamped file descriptor ctx) (reports : Reports ctx next) :
    Stamped file descriptor next := by
  induction reports with
  | none => exact stamped
  | more node messageId decorate _ decoration reported ih => exact ih.reportWith decoration reported

theorem Stamped.passEntry {ctx : RuleContext} (stamped : Stamped file descriptor ctx) (node : NodeRef) {e : TableEntry}
    (decorates : Handler.Decorates e.2) : Stamped file descriptor (passEntry node ctx e) := by
  unfold TableEntry.passEntry
  split
  · exact stamped.reports (decorates node ctx)
  · exact stamped

theorem Stamped.passNode {entries : List TableEntry} (decorates : ∀ e ∈ entries, Handler.Decorates e.2)
    {ctx : RuleContext} (stamped : Stamped file descriptor ctx) (node : NodeRef) :
    Stamped file descriptor (passNode entries ctx node) := by
  unfold TableEntry.passNode
  induction entries generalizing ctx with
  | nil => exact stamped
  | cons e rest ih =>
    obtain ⟨first, others⟩ := List.forall_mem_cons.mp decorates
    exact ih others (stamped.passEntry node first)

theorem Stamped.passNodes {entries : List TableEntry} (decorates : ∀ e ∈ entries, Handler.Decorates e.2)
    (nodes : List NodeRef) {ctx : RuleContext} (stamped : Stamped file descriptor ctx) :
    Stamped file descriptor (passNodes entries nodes ctx) := by
  unfold TableEntry.passNodes
  induction nodes generalizing ctx with
  | nil => exact stamped
  | cons node rest ih => exact ih (stamped.passNode decorates node)

end

namespace Analyzer

theorem stamped_finishOf (a : Analyzer) (file : SourceFile) (tree : SyntaxTree) {rule : Rule}
    (decorates : rule.Decorates) : Stamped file rule.descriptor (a.finishOf file tree rule) :=
  Stamped.passNodes (decorates _) tree.refs (Stamped.fresh tree (a.severityOf rule))

theorem file_and_rule_of_grid (a : Analyzer) (file : SourceFile) (tree : SyntaxTree) (rule : Rule) {f : Fault}
    (inside : some f ∈ (a.grid file tree rule).flatten) : f.file = file.relativePath ∧ f.rule = rule.name := by
  obtain ⟨row, there, cell⟩ := List.mem_flatten.mp inside
  obtain ⟨node, _, rfl⟩ := List.mem_map.mp there
  obtain ⟨e, _, turn⟩ := List.mem_map.mp cell
  unfold Rule.turnFault at turn
  split at turn
  · obtain ⟨error, _, rfl⟩ := Option.map_eq_some_iff.mp turn
    exact ⟨rfl, rfl⟩
  · exact absurd turn (by simp)

end Analyzer

/-! ### Built-in rules -/

namespace Visit

theorem left_get_bind (next : RuleContext → Visit Unit) (ctx : RuleContext) :
    (get >>= next).left ctx = (next ctx).left ctx := rfl

theorem reports_reportWith (node : NodeRef) (messageId : String) {decorate : RuleContext → Violation → Violation}
    (ctx : RuleContext) (decoration : Decoration (decorate ctx)) :
    Reports ctx ((reportWith node messageId decorate).left ctx) := by
  unfold reportWith
  rw [left_get_bind]
  cases reported : ctx.reportWith node messageId (decorate ctx) with
  | ok next => exact .more node messageId (decorate ctx) (.none ctx) decoration reported
  | error _ => exact .none ctx

theorem reports_ask_bind {α : Type} (question : SyntaxTree → Except ShapeError α) {next : α → Visit Unit}
    (ctx : RuleContext) (answered : ∀ answer, Reports ctx ((next answer).left ctx)) :
    Reports ctx ((ask question >>= next).left ctx) := by
  unfold ask
  rw [bind_assoc, left_get_bind]
  cases question ctx.tree with
  | ok answer => exact answered answer
  | error _ => exact .none ctx

end Visit

namespace Rules

theorem decorates_empty : VisitorTable.empty.Decorates :=
  fun _ inside => absurd inside List.not_mem_nil

theorem decorates_on {table : VisitorTable} (before : table.Decorates) (kind : NodeKind) {handler : Handler}
    (decorates : handler.Decorates) : (table.on kind handler).Decorates := by
  intro e inside
  rcases List.mem_append.mp inside with old | last
  · exact before e old
  · rw [List.mem_singleton.mp last]
    exact decorates

theorem decorates_unlessExempt (exempt : Pattern.Exemption) {visitors : RuleContext → VisitorTable}
    (decorates : ∀ ctx, (visitors ctx).Decorates) (ctx : RuleContext) :
    (unlessExempt exempt visitors ctx).Decorates := by
  unfold unlessExempt
  split
  · exact decorates_empty
  · exact decorates ctx

theorem decoration_withSuggestion (message : String) : Decoration (·.withSuggestion message) :=
  fun _ => rfl

theorem decorates_reportCallsOf (object property messageId suggestion : String) :
    (reportCallsOf object property messageId suggestion).Decorates := by
  refine decorates_on decorates_empty _ ?_
  intro node ctx
  apply Visit.reports_ask_bind
  intro call
  split
  · exact Visit.reports_reportWith node messageId ctx (decoration_withSuggestion suggestion)
  · exact .none ctx

theorem ParallelCache.decoration_decorate (node : NodeRef) (ctx : RuleContext) : Decoration (decorate node ctx) := by
  intro v
  unfold decorate
  dsimp only
  split <;> rfl

theorem ParallelCache.decorates (rule : ParallelCache) : rule.toRule.Decorates := by
  refine decorates_unlessExempt rule.exempt fun _ => decorates_on decorates_empty _ ?_
  intro node ctx
  apply Visit.reports_ask_bind
  intro constructor
  split
  · rw [Visit.left_get_bind]
    split
    · exact .none ctx
    · exact Visit.reports_reportWith node _ ctx (decoration_decorate node ctx)
  · exact .none ctx

theorem UnifiedTime.decorates (rule : UnifiedTime) : rule.toRule.Decorates :=
  decorates_unlessExempt rule.exempt fun _ => decorates_reportCallsOf _ _ _ _

theorem UnifiedId.decorates (rule : UnifiedId) : rule.toRule.Decorates := by
  refine decorates_unlessExempt rule.exempt ?_
  intro ctx
  split
  · exact decorates_reportCallsOf _ _ _ _
  · exact decorates_empty

end Rules

end ArchLint
