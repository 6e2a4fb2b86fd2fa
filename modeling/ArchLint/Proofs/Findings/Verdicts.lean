import ArchLint.Proofs.Visits.Calls
import ArchLint.Rules.Exempting

/-!
# Rules that settle nodes one by one

A rule with a single handler settles nodes if what it makes of a node depends on the node alone: a fault, a violation
or nothing. No node is visited twice, so no report is ever dropped, and the report of such a rule lists the verdicts in
the order of the nodes.
-/

namespace ArchLint

open TableEntry

/-- What a rule makes of a node. -/
abbrev Verdict := Except VisitError (Option Violation)

namespace Verdict

def violation? : Verdict → Option Violation
  | .ok v => v
  | .error _ => none

def error? : Verdict → Option VisitError
  | .ok _ => none
  | .error e => some e

/-- The verdict of a rule that asks a question of a node and has something against some answers. -/
def ofAnswer {α : Type} (objects : α → Bool) (violation : Violation) : Except ShapeError α → Verdict
  | .error e => .error (.shape e)
  | .ok answer => if objects answer then .ok (some violation) else .ok none

variable {α : Type} {objects : α → Bool} {violation : Violation} {answer : Except ShapeError α}

theorem violation?_ofAnswer_eq_some_iff {v : Violation} :
    (ofAnswer objects violation answer).violation? = some v ↔
      (∃ a, answer = .ok a ∧ objects a = true) ∧ v = violation := by
  cases answer with
  | error e => simp [ofAnswer, violation?]
  | ok a =>
    cases against : objects a with
    | false => simp [ofAnswer, violation?, against]
    | true =>
      simp only [ofAnswer, violation?, against, if_true, Option.some.injEq, Except.ok.injEq, exists_eq_left', true_and]
      exact eq_comm

theorem error?_ofAnswer_eq_some_iff {e : VisitError} :
    (ofAnswer objects violation answer).error? = some e ↔ ∃ shape, answer = .error shape ∧ e = .shape shape := by
  cases answer with
  | error shape =>
    simp only [ofAnswer, error?, Option.some.injEq, Except.error.injEq, exists_eq_left']
    exact eq_comm
  | ok a => cases against : objects a <;> simp [ofAnswer, error?, against]

end Verdict

/-- The context once some nodes have been reported. -/
def RuleContext.after (start : RuleContext) (reported : List NodeId) (violations : List Violation) : RuleContext :=
  { start with reported := reported, violations := violations }

/-- Whatever was reported before, the handler gives a node that was not reported the same verdict. -/
def Handler.Settles (h : Handler) (start : RuleContext) (verdict : NodeRef → Verdict) : Prop :=
  ∀ node reported violations, node.id ∉ reported →
    h node (start.after reported violations) =
      match verdict node with
      | .error e => .error e (start.after reported violations)
      | .ok none => .ok () (start.after reported violations)
      | .ok (some v) => .ok () (start.after (node.id :: reported) (violations ++ [v]))

/-! ### Steps of handlers -/

namespace Visit

theorem ask_bind {α : Type} (question : SyntaxTree → Except ShapeError α) (next : α → Visit Unit) (ctx : RuleContext) :
    (ask question >>= next) ctx =
      match question ctx.tree with
      | .ok answer => next answer ctx
      | .error e => .error (.shape e) ctx := by
  unfold ask
  simp only [bind_assoc]
  rw [get_bind]
  cases question ctx.tree <;> rfl

theorem reportWith_of_fresh {node : NodeRef} {messageId template : String}
    (decorate : RuleContext → Violation → Violation) {ctx : RuleContext}
    (declared : ctx.descriptor.message? messageId = some template) (fresh : node.id ∉ ctx.reported) :
    reportWith node messageId decorate ctx =
      .ok () (ctx.after (node.id :: ctx.reported)
        (ctx.violations ++ [decorate ctx (ctx.violation node messageId template)])) := by
  have reported : ctx.reportWith node messageId (decorate ctx) =
      .ok (ctx.after (node.id :: ctx.reported)
        (ctx.violations ++ [decorate ctx (ctx.violation node messageId template)])) := by
    simp [RuleContext.reportWith, declared, fresh, RuleContext.after]
  unfold reportWith
  rw [get_bind, reported]
  rfl

end Visit

/-- A handler that asks a question, and reports the node if it has something against the answer. -/
structure Handler.Asks {α : Type} (h : Handler) (start : RuleContext) (question : NodeRef → Except ShapeError α)
    (objects : NodeRef → α → Bool) (messageId template : String)
    (decorate : NodeRef → RuleContext → Violation → Violation) : Prop where
  declared : start.descriptor.message? messageId = some template
  failing : ∀ node reported violations e, question node = .error e →
    h node (start.after reported violations) = .error (.shape e) (start.after reported violations)
  passing : ∀ node reported violations a, question node = .ok a → objects node a = false →
    h node (start.after reported violations) = .ok () (start.after reported violations)
  reporting : ∀ node reported violations a, question node = .ok a → objects node a = true →
    h node (start.after reported violations) =
      Visit.reportWith node messageId (decorate node) (start.after reported violations)
  decorating : ∀ node reported violations v,
    decorate node (start.after reported violations) v = decorate node start v

theorem Handler.Asks.settles {α : Type} {h : Handler} {start : RuleContext} {question : NodeRef → Except ShapeError α}
    {objects : NodeRef → α → Bool} {messageId template : String}
    {decorate : NodeRef → RuleContext → Violation → Violation}
    (asks : h.Asks start question objects messageId template decorate) :
    h.Settles start fun node =>
      .ofAnswer (objects node) (decorate node start (start.violation node messageId template)) (question node) := by
  intro node reported violations fresh
  dsimp only
  cases asked : question node with
  | error e => exact asks.failing node reported violations e asked
  | ok a =>
    cases against : objects node a with
    | false =>
      simp only [Verdict.ofAnswer, against]
      exact asks.passing node reported violations a asked against
    | true =>
      have declared : (start.after reported violations).descriptor.message? messageId = some template := asks.declared
      simp only [Verdict.ofAnswer, against, if_true]
      rw [asks.reporting node reported violations a asked against,
        Visit.reportWith_of_fresh (decorate node) declared fresh, asks.decorating]
      rfl

/-! ### Nodes in turn -/

section

variable (kind : NodeKind) {h : Handler} {start : RuleContext} {verdict : NodeRef → Verdict}

theorem passNode_settled (settles : h.Settles start verdict) (rule : Rule) (file : SourceFile) {node : NodeRef}
    {reported : List NodeId} (fresh : node.id ∉ reported) (violations : List Violation) :
    ∃ more, (∀ id ∈ more, id = node.id ∨ id ∈ reported) ∧
      passNode [(kind, h)] (start.after reported violations) node =
        start.after more (violations ++ if node.kind = kind then (verdict node).violation?.toList else []) ∧
      (rule.row file node [(kind, h)] (start.after reported violations)).reduceOption =
        if node.kind = kind then ((verdict node).error?.map (rule.fault file node)).toList else [] := by
  have single : passNode [(kind, h)] (start.after reported violations) node =
      passEntry node (start.after reported violations) (kind, h) := rfl
  have cell : rule.row file node [(kind, h)] (start.after reported violations) =
      [rule.turnFault file node (start.after reported violations) (kind, h)] := rfl
  rw [single, cell]
  unfold passEntry Rule.turnFault
  by_cases visited : node.kind = kind
  · have called := settles node reported violations fresh
    simp only [visited, if_true]
    cases outcome : verdict node with
    | error e =>
      simp only [outcome] at called
      refine ⟨reported, fun _ inside => Or.inr inside, ?_, ?_⟩
      · simp [Visit.left, called, Verdict.violation?]
      · simp [Visit.failure?, called, Verdict.error?, Rule.fault]
    | ok found =>
      cases found with
      | none =>
        simp only [outcome] at called
        refine ⟨reported, fun _ inside => Or.inr inside, ?_, ?_⟩
        · simp [Visit.left, called, Verdict.violation?]
        · simp [Visit.failure?, called, Verdict.error?]
      | some v =>
        simp only [outcome] at called
        refine ⟨node.id :: reported, fun _ inside => List.mem_cons.mp inside, ?_, ?_⟩
        · simp [Visit.left, called, Verdict.violation?]
        · simp [Visit.failure?, called, Verdict.error?]
  · have other : ¬kind = node.kind := fun same => visited same.symm
    refine ⟨reported, fun _ inside => Or.inr inside, ?_, ?_⟩
    · simp [visited, other]
    · simp [visited, other]

theorem visitNodes_settled (settles : h.Settles start verdict) (rule : Rule) (file : SourceFile) (nodes : List NodeRef)
    (distinct : (nodes.map (·.id)).Nodup) (reported : List NodeId) (fresh : ∀ node ∈ nodes, node.id ∉ reported)
    (violations : List Violation) :
    ∃ more, rule.visitNodes file (VisitorTable.empty.on kind h) nodes (start.after reported violations) =
      (start.after more
          (violations ++ (nodes.filter (·.kind = kind)).filterMap fun node => (verdict node).violation?),
        (nodes.filter (·.kind = kind)).filterMap fun node => (verdict node).error?.map (rule.fault file node)) := by
  have table : (VisitorTable.empty.on kind h).entries = [(kind, h)] := rfl
  rw [Rule.visitNodes_eq, table]
  -- By induction on the nodes. Ids differ, so what was reported so far never includes a node that is still to come.
  induction nodes generalizing reported violations with
  | nil => exact ⟨reported, by simp [passNodes, Rule.rows]⟩
  | cons node nodes ih =>
    obtain ⟨first, others⟩ := List.forall_mem_cons.mp fresh
    rw [List.map_cons, List.nodup_cons] at distinct
    obtain ⟨mid, sub, context, faults⟩ := passNode_settled kind settles rule file first violations
    have later : ∀ other ∈ nodes, other.id ∉ mid := by
      intro other inside seen
      rcases sub _ seen with same | before
      · exact distinct.1 (List.mem_map.mpr ⟨other, inside, same⟩)
      · exact others other inside before
    obtain ⟨more, rest⟩ := ih distinct.2 mid later
      (violations ++ if node.kind = kind then (verdict node).violation?.toList else [])
    obtain ⟨left, right⟩ := Prod.mk.inj rest
    refine ⟨more, ?_⟩
    have contexts : passNodes [(kind, h)] (node :: nodes) (start.after reported violations) =
        passNodes [(kind, h)] nodes (passNode [(kind, h)] (start.after reported violations) node) := rfl
    rw [contexts, Rule.rows, List.flatten_cons, List.reduceOption_append, faults, context, left, right]
    by_cases visited : node.kind = kind
    · cases violation : (verdict node).violation? <;> cases error : (verdict node).error? <;>
        simp [visited, violation, error]
    · simp [visited]

end

theorem filterMap_eq_map_filter {α β : Type} {f : α → Option β} {p : α → Bool} {g : α → β}
    (each : ∀ a, f a = if p a then some (g a) else none) (l : List α) : l.filterMap f = (l.filter p).map g := by
  induction l with
  | nil => rfl
  | cons a l ih =>
    rw [List.filterMap_cons, each a, ih]
    cases chosen : p a <;> simp [chosen]

theorem SyntaxTree.lists_filterMap (t : SyntaxTree) {kind : NodeKind} {β : Type} {f : NodeRef → Option β}
    {g : NodeRef → β} {P : NodeRef → Prop} (each : ∀ node b, node.kind = kind ∧ f node = some b ↔ P node ∧ b = g node) :
    ∃ nodes, t.Lists P nodes ∧ (t.refs.filter (·.kind = kind)).filterMap f = nodes.map g := by
  refine ⟨t.refs.filter fun node => node.kind = kind && (f node).isSome, t.lists_filter ?_, ?_⟩
  · intro node
    rw [Bool.and_eq_true, decide_eq_true_eq, Option.isSome_iff_exists]
    constructor
    · rintro ⟨visited, b, found⟩
      exact ((each node b).mp ⟨visited, found⟩).1
    · intro holds
      obtain ⟨visited, found⟩ := (each node (g node)).mpr ⟨holds, rfl⟩
      exact ⟨visited, _, found⟩
  · rw [List.filterMap_filter]
    apply filterMap_eq_map_filter
    intro node
    by_cases visited : node.kind = kind
    · cases found : f node with
      | none => simp [visited]
      | some b => simp [visited, ((each node b).mp ⟨visited, found⟩).2]
    · simp [visited]

/-! ### Reports -/

namespace Rule

variable (severity : Severity) (file : SourceFile) (tree : SyntaxTree)

theorem check_settled {rule : Rule} {kind : NodeKind} {h : Handler} {verdict : NodeRef → Verdict}
    (table : rule.visitors (.fresh file tree rule.descriptor severity) = VisitorTable.empty.on kind h)
    (settles : h.Settles (.fresh file tree rule.descriptor severity) verdict) :
    rule.check severity file tree =
      ⟨(tree.refs.filter (·.kind = kind)).filterMap fun node => (verdict node).violation?,
        (tree.refs.filter (·.kind = kind)).filterMap fun node => (verdict node).error?.map (rule.fault file node)⟩ := by
  have distinct : (tree.refs.map (·.id)).Nodup := by
    rw [tree.map_id_refs]
    exact List.nodup_range
  obtain ⟨more, visited⟩ := visitNodes_settled kind settles rule file tree.refs distinct []
    (fun _ _ => List.not_mem_nil) []
  have start : (RuleContext.fresh file tree rule.descriptor severity).after [] [] =
      .fresh file tree rule.descriptor severity := rfl
  rw [start] at visited
  unfold check
  simp only [table, visited]
  rfl

theorem check_without_handlers {rule : Rule}
    (table : rule.visitors (.fresh file tree rule.descriptor severity) = .empty) :
    rule.check severity file tree = .empty := by
  unfold check
  simp only [table, visitNodes_eq]
  have still : ∀ nodes ctx, passNodes VisitorTable.empty.entries nodes ctx = ctx ∧
      (rule.rows file VisitorTable.empty.entries nodes ctx).flatten.reduceOption = [] := by
    intro nodes ctx
    induction nodes with
    | nil => exact ⟨rfl, rfl⟩
    | cons node nodes ih => exact ih
  obtain ⟨context, faults⟩ := still tree.refs (.fresh file tree rule.descriptor severity)
  rw [context, faults]
  rfl

end Rule

end ArchLint
