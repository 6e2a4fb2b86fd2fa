import ArchLint.Proofs.Options.Resolved
import ArchLint.Proofs.Order.Keys
import ArchLint.Proofs.Runs.Gathered
import ArchLint.Proofs.Selection.Registry

/-!
# Selections restrict runs

Rules do not see each other, and findings that tie are of one rule. So a run with some of the rules finds what the
whole run finds by these rules, in the same order.
-/

namespace ArchLint

/-- What a report says of the rules that are kept. -/
def Report.only (keep : String → Bool) (r : Report) : Report where
  violations := r.violations.filter fun v => keep v.rule
  filesChecked := r.filesChecked
  faults := r.faults.filter fun f => keep f.rule

/-! ### Fewer rules -/

namespace Analyzer

variable {a : Analyzer}

theorem apart_rules_violations (read : Path → Except ReadError String) (decorates : ∀ rule ∈ a.rules, rule.Decorates)
    (codes : (a.rules.map (·.descriptor.code)).Nodup) (path : Path) :
    Apart Violation.compareKeys (fun rule => (a.foundBy read path rule).violations) a.rules := by
  refine apart_of_key (fun v => v.code) (fun rule => rule.descriptor.code) ?_ ?_ ?_
  · intro rule inside v found
    exact (bears_of_mem (decorates rule inside) v found).code
  · intro v w tie
    exact (Violation.tie tie).2
  · intro r inR s inS same
    exact List.inj_on_of_nodup_map codes inR inS same

theorem apart_rules_faults (read : Path → Except ReadError String) (ids : (a.rules.map (·.name)).Nodup)
    (path : Path) : Apart Fault.compareKeys (fun rule => (a.foundBy read path rule).faults) a.rules := by
  refine apart_of_key (fun f => f.rule) (fun rule => rule.name) ?_ ?_ ?_
  · intro rule _ f found
    exact (file_and_rule_of_mem f found).2
  · intro f g tie
    exact (Fault.tie tie).2
  · intro r inR s inS same
    exact List.inj_on_of_nodup_map ids inR inS same

theorem sorted_restriction {α : Type} {cmp : α → α → Ordering} [Std.TransCmp cmp] {found : Path → Rule → List α}
    {rules part : List Rule} {keep : String → Bool} {ruleOf : α → String}
    (perm : part.Perm (rules.filter fun rule => keep rule.name)) (apart : ∀ path, Apart cmp (found path) rules)
    (own : ∀ path, ∀ rule ∈ rules, ∀ x ∈ found path rule, ruleOf x = rule.name) (files : List Path) :
    sorted cmp (files.flatMap fun path => part.flatMap (found path)) =
      (sorted cmp (files.flatMap fun path => rules.flatMap (found path))).filter fun x => keep (ruleOf x) := by
  rw [filter_sorted, List.filter_flatMap]
  apply sorted_eq_of_sameTies
  apply SameTies.flatMap
  intro path _
  have picked : (rules.flatMap (found path)).filter (fun x => keep (ruleOf x)) =
      (rules.filter fun rule => keep rule.name).flatMap (found path) :=
    filter_flatMap_of_parts fun rule inside x there => congrArg keep (own path rule inside x there)
  rw [picked]
  refine (sameTies_of_perm perm.symm ?_).symm
  intro r inR s inS
  exact apart path r (List.mem_of_mem_filter inR) s (List.mem_of_mem_filter inS)

theorem analyzeFiles_withRules (a : Analyzer) (read : Path → Except ReadError String) {part : List Rule}
    {keep : String → Bool} (decorates : ∀ rule ∈ a.rules, rule.Decorates)
    (codes : (a.rules.map (·.descriptor.code)).Nodup) (ids : (a.rules.map (·.name)).Nodup)
    (perm : part.Perm (a.rules.filter fun rule => keep rule.name)) (files : List Path) :
    (a.withRules part).analyzeFiles read files = (a.analyzeFiles read files).map (·.only keep) := by
  have violations := sorted_restriction perm (apart_rules_violations read decorates codes)
    (fun path rule inside v found => (bears_of_mem (decorates rule inside) v found).rule) files
  have faults := sorted_restriction perm (apart_rules_faults read ids)
    (fun path rule _ f found => (file_and_rule_of_mem f found).2) files
  have gathered : ((a.withRules part).gathered read files).sort = (a.gathered read files).sort.only keep := by
    rw [gathered_eq, gathered_eq, Report.sort_eq, Report.sort_eq]
    exact (Report.mk.injEq ..).mpr ⟨violations, rfl, faults⟩
  rw [analyzeFiles_eq, analyzeFiles_eq, gathered]
  have refusals : (a.withRules part).refusal? read = a.refusal? read := rfl
  rw [refusals]
  cases files.findSome? (a.refusal? read) <;> rfl

end Analyzer

/-! ### Built-in rules -/

namespace Rules

theorem builtin_cases {e : RuleEntry} (inside : e ∈ builtin) :
    e = ParallelCache.entry ∨ e = UnifiedTime.entry ∨ e = UnifiedId.entry := by
  simpa [builtin] using inside

theorem of_make_builtin {e : RuleEntry} (inside : e ∈ builtin) {options : RuleOptions} {rule : Rule}
    (made : e.make options = .ok rule) : rule.descriptor = e.descriptor ∧ rule.Decorates := by
  rcases builtin_cases inside with rfl | rfl | rfl
  · obtain ⟨values, -, rfl⟩ := of_bind_return made
    exact ⟨rfl, ParallelCache.decorates values⟩
  · obtain ⟨values, -, rfl⟩ := of_bind_return made
    exact ⟨rfl, UnifiedTime.decorates values⟩
  · obtain ⟨values, -, rfl⟩ := of_bind_return made
    exact ⟨rfl, UnifiedId.decorates values⟩

theorem clear_builtin : Registry.Clear builtin where
  ids := by decide
  codes := by decide
  names := by
    intro e inE k inK name calledE calledK
    have both : ∀ d : Descriptor, d.isCalled name = true → d.id = name ∨ d.code = name := by
      intro d called
      simpa [Descriptor.isCalled] using called
    rcases builtin_cases inE with rfl | rfl | rfl <;> rcases builtin_cases inK with rfl | rfl | rfl
    all_goals first
      | rfl
      | rcases both _ calledE with rfl | rfl <;> exact absurd calledK (by decide)
  makes := fun _ inside _ _ made => (of_make_builtin inside made).1

variable [Pattern.Reader]

theorem of_select_builtin {settings : Settings} {rules : List Rule}
    (selected : Registry.select builtin settings none = .ok rules) :
    (∀ rule ∈ rules, rule.Decorates) ∧ (rules.map (·.descriptor.code)).Nodup ∧ (rules.map (·.name)).Nodup := by
  obtain ⟨-, fits, rfl⟩ := clear_builtin.makesOwn.select_none_eq_ok_iff.mp selected
  have known : ∀ e ∈ Registry.active settings builtin, e ∈ builtin :=
    fun e inside => (Registry.of_mem_active settings builtin inside).1
  have named : ∀ (f : Descriptor → String),
      ((Registry.active settings builtin).map (·.made settings)).map (fun rule => f rule.descriptor) =
        (Registry.active settings builtin).map fun e => f e.descriptor := by
    intro f
    rw [List.map_map]
    apply List.map_congr_left
    intro e inside
    rw [Function.comp_apply, clear_builtin.descriptor_made (known e inside)]
  have ids := Registry.nodup_active settings builtin
  refine ⟨?_, ?_, ?_⟩
  · intro rule inside
    obtain ⟨e, there, rfl⟩ := List.mem_map.mp inside
    obtain ⟨options, made⟩ := Registry.instantiate_eq_ok (fits e there)
    exact (of_make_builtin (known e there) made).2
  · rw [named (·.code)]
    refine List.Nodup.map_on ?_ (List.Nodup.of_map _ ids)
    intro e inE k inK same
    exact List.inj_on_of_nodup_map clear_builtin.codes (known e inE) (known k inK) same
  · have same : ((Registry.active settings builtin).map (·.made settings)).map (·.name) =
        (Registry.active settings builtin).map (·.descriptor.id) := named (·.id)
    rw [same]
    exact ids

theorem analyzeFiles_select {settings : Settings} {rules : List Rule}
    (whole : Registry.select builtin settings none = .ok rules) {names : List String}
    (known : Registry.Knows builtin names) :
    ∃ part, Registry.select builtin settings (some names) = .ok part ∧
      ∀ (a : Analyzer) read files, (a.withRules part).analyzeFiles read files =
        ((a.withRules rules).analyzeFiles read files).map (·.only (Registry.picks builtin names)) := by
  obtain ⟨part, selected, perm⟩ := clear_builtin.select_some whole known
  obtain ⟨decorates, codes, ids⟩ := of_select_builtin whole
  refine ⟨part, selected, ?_⟩
  intro a read files
  exact (a.withRules rules).analyzeFiles_withRules read decorates codes ids perm files

end Rules

end ArchLint
