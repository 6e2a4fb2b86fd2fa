import ArchLint.Proofs.Findings.Verdicts
import Mathlib.Data.List.Forall2
import Mathlib.Data.List.Induction
import Mathlib.Data.Nat.Find

/-!
# What reports add up to

A context takes reports in any order. The first report of a node with a declared message adds a violation. A further
report of the node changes nothing, and a report with an undeclared message fails and changes nothing either, so it does
not stand in the way of a later one.
-/

namespace ArchLint

namespace Descriptor

variable {d : Descriptor} {messageId template : String}

def Declares (d : Descriptor) (messageId : String) : Prop :=
  ∃ template, (messageId, template) ∈ d.messages

/-- The message has this template, and no other one before it. -/
def FirstTemplate (d : Descriptor) (messageId template : String) : Prop :=
  ∃ before after, d.messages = before ++ (messageId, template) :: after ∧ ∀ other ∈ before, other.1 ≠ messageId

theorem message?_eq_some_iff : d.message? messageId = some template ↔ d.FirstTemplate messageId template := by
  unfold message? FirstTemplate
  rw [List.lookup_eq_some_iff]
  simp only [bne_iff_ne, ne_comm]

theorem message?_eq_none_iff : d.message? messageId = none ↔ ¬d.Declares messageId := by
  unfold message? Declares
  rw [List.lookup_eq_none_iff]
  constructor
  · rintro other ⟨template, declared⟩
    exact absurd (other _ declared) (by simp)
  · intro undeclared message inside
    rw [bne_iff_ne]
    rintro rfl
    exact undeclared ⟨message.2, inside⟩

theorem FirstTemplate.declares (first : d.FirstTemplate messageId template) : d.Declares messageId := by
  obtain ⟨before, after, split, -⟩ := first
  refine ⟨template, ?_⟩
  rw [split]
  exact List.mem_append_right _ List.mem_cons_self

theorem exists_firstTemplate (declared : d.Declares messageId) : ∃ template, d.FirstTemplate messageId template := by
  cases found : d.message? messageId with
  | none => exact absurd declared (message?_eq_none_iff.mp found)
  | some template => exact ⟨template, message?_eq_some_iff.mp found⟩

end Descriptor

/-! ### Single reports -/

/-- A report of a node, as it is or with something attached to the violation. -/
inductive ReportCall where
  | plain (node : NodeRef) (messageId : String)
  | decorated (node : NodeRef) (messageId : String) (decorate : Violation → Violation)

namespace ReportCall

def node : ReportCall → NodeRef
  | plain node _ => node
  | decorated node _ _ => node

def messageId : ReportCall → String
  | plain _ messageId => messageId
  | decorated _ messageId _ => messageId

def decoration : ReportCall → Violation → Violation
  | plain _ _ => id
  | decorated _ _ decorate => decorate

def visit : ReportCall → Visit Unit
  | plain node messageId => Visit.report node messageId
  | decorated node messageId decorate => Visit.reportWith node messageId fun _ => decorate

theorem visit_eq (call : ReportCall) :
    call.visit = Visit.reportWith call.node call.messageId fun _ => call.decoration := by
  cases call <;> rfl

section

variable {call : ReportCall} {ctx : RuleContext}

theorem visit_of_undeclared (undeclared : ¬ctx.descriptor.Declares call.messageId) :
    call.visit ctx = .error (.unknownMessage ctx.descriptor.id call.messageId) ctx := by
  rw [visit_eq, Visit.reportWith, Visit.get_bind,
    RuleContext.reportWith_of_unknown _ _ (Descriptor.message?_eq_none_iff.mpr undeclared)]
  rfl

theorem visit_of_repeated (declared : ctx.descriptor.Declares call.messageId) (again : call.node.id ∈ ctx.reported) :
    call.visit ctx = .ok () ctx := by
  obtain ⟨template, first⟩ := Descriptor.exists_firstTemplate declared
  rw [visit_eq, Visit.reportWith, Visit.get_bind,
    RuleContext.reportWith_of_reported _ (Descriptor.message?_eq_some_iff.mpr first) again]
  rfl

theorem visit_of_new {template : String} (first : ctx.descriptor.FirstTemplate call.messageId template)
    (new : call.node.id ∉ ctx.reported) :
    call.visit ctx = .ok () (ctx.after (call.node.id :: ctx.reported)
      (ctx.violations ++ [call.decoration (ctx.violation call.node call.messageId template)])) := by
  rw [visit_eq, Visit.reportWith_of_fresh _ (Descriptor.message?_eq_some_iff.mpr first) new]

end

end ReportCall

/-- The context after some reports, whether they fail or not. -/
def RuleContext.afterCalls (ctx : RuleContext) (calls : List ReportCall) : RuleContext :=
  calls.foldl (fun ctx call => call.visit.left ctx) ctx

/-! ### First reports -/

/-- The report at this place has a declared message, and no earlier one with a declared message is of its node. -/
def FirstReport (d : Descriptor) (calls : List ReportCall) (place : Nat) : Prop :=
  ∃ call, calls[place]? = some call ∧ d.Declares call.messageId ∧
    ∀ earlier ∈ calls.take place, d.Declares earlier.messageId → earlier.node.id ≠ call.node.id

section

variable {d : Descriptor} {calls : List ReportCall} {call : ReportCall}

theorem firstReport_concat_iff {place : Nat} : FirstReport d (calls ++ [call]) place ↔
    FirstReport d calls place ∨ place = calls.length ∧ d.Declares call.messageId ∧
      ∀ earlier ∈ calls, d.Declares earlier.messageId → earlier.node.id ≠ call.node.id := by
  unfold FirstReport
  rcases Nat.lt_trichotomy place calls.length with before | rfl | behind
  · rw [List.getElem?_append_left before, List.take_append_of_le_length (Nat.le_of_lt before)]
    simp [Nat.ne_of_lt before]
  · simp
  · have outside : (calls ++ [call])[place]? = none :=
      List.getElem?_eq_none (by rw [List.length_append]; exact behind)
    have outside' : calls[place]? = none := List.getElem?_eq_none (Nat.le_of_lt behind)
    simp [outside, outside', Nat.ne_of_gt behind]

theorem exists_place_of_mem_take {place : Nat} (inside : call ∈ calls.take place) :
    ∃ earlier < place, calls[earlier]? = some call := by
  obtain ⟨earlier, there⟩ := List.getElem?_of_mem inside
  rw [List.getElem?_take] at there
  split at there
  · next before => exact ⟨earlier, before, there⟩
  · cases there

theorem exists_firstReport (inside : call ∈ calls) (declared : d.Declares call.messageId) :
    ∃ place first, FirstReport d calls place ∧ calls[place]? = some first ∧ first.node.id = call.node.id := by
  classical
  have found : ∃ place : Nat, ∃ first : ReportCall, calls[place]? = some first ∧ d.Declares first.messageId ∧
      first.node.id = call.node.id := by
    obtain ⟨place, there⟩ := List.getElem?_of_mem inside
    exact ⟨place, call, there, declared, rfl⟩
  obtain ⟨first, there, known, same⟩ := Nat.find_spec found
  refine ⟨Nat.find found, first, ⟨first, there, known, ?_⟩, there, same⟩
  intro earlier before knownToo sameToo
  obtain ⟨lower, less, stands⟩ := exists_place_of_mem_take before
  exact Nat.find_min found less ⟨earlier, stands, knownToo, sameToo.trans same⟩

theorem FirstReport.not_lt {place other : Nat} {first second : ReportCall} (isFirst : FirstReport d calls place)
    (isFirstToo : FirstReport d calls other) (here : calls[place]? = some first) (there : calls[other]? = some second)
    (same : first.node.id = second.node.id) : ¬place < other := by
  intro before
  obtain ⟨call, found, declared, -⟩ := isFirst
  obtain rfl := Option.some.inj (found.symm.trans here)
  obtain ⟨call', foundToo, -, least⟩ := isFirstToo
  obtain rfl := Option.some.inj (foundToo.symm.trans there)
  refine least call ?_ declared same
  exact List.mem_of_getElem? ((List.getElem?_take_of_lt before).trans here)

end

/-! ### Runs of reports -/

/-- The violation was made by the report at this place, from the first template of its message. -/
def Records (file : SourceFile) (d : Descriptor) (severity : Severity) (calls : List ReportCall) (place : Nat)
    (v : Violation) : Prop :=
  ∃ call template, calls[place]? = some call ∧ d.FirstTemplate call.messageId template ∧
    v = call.decoration
      { code := d.code
        rule := d.id
        messageId := call.messageId
        severity := severity
        location := ⟨file.relativePath, call.node.span.line, call.node.span.column, call.node.span.startByte,
          call.node.span.endByte - call.node.span.startByte⟩
        message := template
        suggestion := none
        labels := [] }

/-- What a context holds after some reports: the nodes that were reported, and the violations of the first reports. -/
structure Collects (file : SourceFile) (tree : SyntaxTree) (d : Descriptor) (severity : Severity)
    (calls : List ReportCall) (ctx : RuleContext) : Prop where
  serves : ctx = ⟨file, tree, d, severity, ctx.reported, ctx.violations⟩
  reported : ∀ id, id ∈ ctx.reported ↔ ∃ call ∈ calls, d.Declares call.messageId ∧ call.node.id = id
  violations : ∃ places : List Nat, places.Pairwise (· < ·) ∧ (∀ place, place ∈ places ↔ FirstReport d calls place) ∧
    List.Forall₂ (Records file d severity calls) places ctx.violations

section

variable {file : SourceFile} {tree : SyntaxTree} {d : Descriptor} {severity : Severity} {calls : List ReportCall}
  {ctx : RuleContext}

theorem Records.concat {place : Nat} {v : Violation} (call : ReportCall)
    (records : Records file d severity calls place v) : Records file d severity (calls ++ [call]) place v := by
  obtain ⟨made, template, there, rest⟩ := records
  have inside := (List.getElem?_eq_some_iff.mp there).1
  exact ⟨made, template, (List.getElem?_append_left inside).trans there, rest⟩

theorem Collects.fresh : Collects file tree d severity [] (.fresh file tree d severity) where
  serves := rfl
  reported := by simp [RuleContext.fresh]
  violations := ⟨[], .nil, by simp [FirstReport], .nil⟩

/-- A report that changes nothing is no first report. -/
theorem Collects.concat_of_same (collects : Collects file tree d severity calls ctx) {call : ReportCall}
    (old : d.Declares call.messageId → call.node.id ∈ ctx.reported) :
    Collects file tree d severity (calls ++ [call]) ctx where
  serves := collects.serves
  reported := by
    intro id
    rw [collects.reported]
    constructor
    · rintro ⟨earlier, inside, both⟩
      exact ⟨earlier, List.mem_append_left _ inside, both⟩
    · rintro ⟨earlier, inside, declared, same⟩
      rcases List.mem_append.mp inside with before | last
      · exact ⟨earlier, before, declared, same⟩
      · obtain rfl := List.mem_singleton.mp last
        exact (collects.reported id).mp (same ▸ old declared)
  violations := by
    obtain ⟨places, increasing, first, records⟩ := collects.violations
    refine ⟨places, increasing, ?_, records.imp fun _ _ => .concat call⟩
    intro place
    rw [first, firstReport_concat_iff]
    refine (or_iff_left ?_).symm
    rintro ⟨-, declared, new⟩
    obtain ⟨earlier, inside, known, same⟩ := (collects.reported _).mp (old declared)
    exact new earlier inside known same

theorem Collects.concat_of_new (collects : Collects file tree d severity calls ctx) {call : ReportCall}
    {template : String} (named : d.FirstTemplate call.messageId template) (new : call.node.id ∉ ctx.reported) :
    Collects file tree d severity (calls ++ [call]) (ctx.after (call.node.id :: ctx.reported)
      (ctx.violations ++ [call.decoration (ctx.violation call.node call.messageId template)])) where
  serves := by
    rw [collects.serves]
    rfl
  reported := by
    intro id
    change id ∈ call.node.id :: ctx.reported ↔ _
    rw [List.mem_cons, collects.reported]
    constructor
    · rintro (rfl | ⟨earlier, inside, both⟩)
      · exact ⟨call, List.mem_append_right _ List.mem_cons_self, named.declares, rfl⟩
      · exact ⟨earlier, List.mem_append_left _ inside, both⟩
    · rintro ⟨earlier, inside, known, same⟩
      rcases List.mem_append.mp inside with before | last
      · exact Or.inr ⟨earlier, before, known, same⟩
      · obtain rfl := List.mem_singleton.mp last
        exact Or.inl same.symm
  violations := by
    obtain ⟨places, increasing, first, records⟩ := collects.violations
    have below : ∀ place ∈ places, place < calls.length := by
      intro place inside
      obtain ⟨made, there, -⟩ := (first place).mp inside
      exact (List.getElem?_eq_some_iff.mp there).1
    refine ⟨places ++ [calls.length], ?_, ?_, ?_⟩
    · rw [List.pairwise_append]
      refine ⟨increasing, List.pairwise_singleton _ _, ?_⟩
      intro place inside last there
      rw [List.mem_singleton.mp there]
      exact below place inside
    · intro place
      rw [List.mem_append, List.mem_singleton, first, firstReport_concat_iff]
      refine or_congr_right (and_iff_left ⟨named.declares, ?_⟩).symm
      intro earlier inside known same
      exact new ((collects.reported _).mpr ⟨earlier, inside, known, same⟩)
    · refine List.rel_append (records.imp fun _ _ => .concat call) (.cons ?_ .nil)
      refine ⟨call, template, by simp, named, ?_⟩
      rw [collects.serves]
      rfl

/-- What one report makes of a context that has collected others. -/
theorem Collects.step (collects : Collects file tree d severity calls ctx) (call : ReportCall) :
    Collects file tree d severity (calls ++ [call]) (call.visit.left ctx) := by
  have own : ctx.descriptor = d := by rw [collects.serves]
  by_cases declared : d.Declares call.messageId
  · by_cases again : call.node.id ∈ ctx.reported
    · rw [Visit.left, ReportCall.visit_of_repeated (own ▸ declared) again]
      exact collects.concat_of_same fun _ => again
    · obtain ⟨template, named⟩ := Descriptor.exists_firstTemplate declared
      rw [Visit.left, ReportCall.visit_of_new (own ▸ named) again]
      exact collects.concat_of_new named again
  · rw [Visit.left, ReportCall.visit_of_undeclared (own ▸ declared)]
    exact collects.concat_of_same fun known => absurd known declared

theorem collects_afterCalls (file : SourceFile) (tree : SyntaxTree) (d : Descriptor) (severity : Severity)
    (calls : List ReportCall) :
    Collects file tree d severity calls ((RuleContext.fresh file tree d severity).afterCalls calls) := by
  induction calls using List.reverseRecOn with
  | nil => exact .fresh
  | append_singleton calls call ih =>
    rw [RuleContext.afterCalls, List.foldl_append]
    exact ih.step call

end

namespace RuleContext

/-- The violations of a context are those of the first reports with declared messages, one for each node, in the order
of these reports. After any reports, one more succeeds if its message is declared, and changes nothing if its node was
reported before; otherwise it fails and changes nothing. -/
theorem afterCalls_firstReports (file : SourceFile) (tree : SyntaxTree) (d : Descriptor) (severity : Severity)
    (calls : List ReportCall) :
    let ctx := (fresh file tree d severity).afterCalls calls
    (∃ places : List Nat, places.Pairwise (· < ·) ∧ (∀ place, place ∈ places ↔ FirstReport d calls place) ∧
      List.Forall₂ (Records file d severity calls) places ctx.violations ∧
      ∀ call ∈ calls, d.Declares call.messageId →
        ∃! place, place ∈ places ∧ ∃ first, calls[place]? = some first ∧ first.node.id = call.node.id) ∧
    ∀ call : ReportCall,
      (d.Declares call.messageId → ∃ next, call.visit ctx = .ok () next ∧
        ((∃ earlier ∈ calls, d.Declares earlier.messageId ∧ earlier.node.id = call.node.id) → next = ctx)) ∧
      (¬d.Declares call.messageId → call.visit ctx = .error (.unknownMessage d.id call.messageId) ctx) := by
  intro ctx
  have collects : Collects file tree d severity calls ctx := collects_afterCalls file tree d severity calls
  have own : ctx.descriptor = d := by rw [collects.serves]
  refine ⟨?_, ?_⟩
  · obtain ⟨places, increasing, isFirst, records⟩ := collects.violations
    refine ⟨places, increasing, isFirst, records, ?_⟩
    intro call inside declared
    obtain ⟨place, first, least, there, same⟩ := exists_firstReport inside declared
    refine ⟨place, ⟨(isFirst place).mpr least, first, there, same⟩, ?_⟩
    rintro other ⟨listed, second, thereToo, sameToo⟩
    have leastToo := (isFirst other).mp listed
    have notBehind := least.not_lt leastToo there thereToo (same.trans sameToo.symm)
    have notBefore := leastToo.not_lt least thereToo there (sameToo.trans same.symm)
    omega
  · intro call
    constructor
    · intro declared
      by_cases again : call.node.id ∈ ctx.reported
      · exact ⟨ctx, ReportCall.visit_of_repeated (own ▸ declared) again, fun _ => rfl⟩
      · obtain ⟨template, named⟩ := Descriptor.exists_firstTemplate declared
        refine ⟨_, ReportCall.visit_of_new (own ▸ named) again, ?_⟩
        intro earlier
        exact absurd ((collects.reported _).mpr earlier) again
    · intro undeclared
      rw [ReportCall.visit_of_undeclared (own ▸ undeclared), own]

end RuleContext

end ArchLint
