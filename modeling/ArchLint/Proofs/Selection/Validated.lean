import ArchLint.Proofs.Selection.Outcome
import ArchLint.Proofs.Selection.Restriction

/-!
# Settings that were accepted

A built-in rule reads the options that its schema declares, so it is made as soon as its options can be resolved.
Settings that all built-in rules accept are therefore accepted for every selection, which only its own names can fail.
-/

namespace ArchLint

namespace Registry

variable [Pattern.Reader] {registry : Registry} {settings : Settings}

theorem of_mem_select (own : registry.MakesOwn) {only : Option (List String)} {rules : List Rule}
    (succeeded : registry.select settings only = .ok rules) {rule : Rule} (inside : rule ∈ rules) :
    ∃ e ∈ registry, e.instantiate settings = .ok rule := by
  obtain - | - | - | ⟨-, -, all⟩ := own.select_eq_iff.mp succeeded
  obtain ⟨e, chosen, made⟩ := exists_of_forall₂ all.flip inside
  exact ⟨e, (of_mem_chosen chosen).1, made⟩

theorem error_of_select (own : registry.MakesOwn) {only : Option (List String)} {cause : SettingsError}
    (failed : registry.select settings only = .error cause) :
    (∃ name, cause = .unknownRule name) ∨ ∃ e ∈ registry, e.instantiate settings = .error cause := by
  cases own.select_eq_iff.mp failed with
  | unregistered _ => exact Or.inl ⟨_, rfl⟩
  | unknown _ _ _ _ => exact Or.inl ⟨_, rfl⟩
  | @refused before after e _ _ _ split _ wrong =>
    have chosen : e ∈ registry.chosen settings only := by
      rw [split]
      exact List.mem_append_right _ List.mem_cons_self
    exact Or.inr ⟨e, (of_mem_chosen chosen).1, wrong⟩

end Registry

/-! ### Options of built-in rules -/

namespace Rules

/-- A built-in rule with the values of its options, in the order of its schema. -/
inductive Carries : Rule → List OptionValue → Prop
  | parallelCache (rule : ParallelCache) : Carries rule.toRule [.bool rule.allowLocal, .pattern rule.exempt]
  | unifiedTime (rule : UnifiedTime) : Carries rule.toRule [.pattern rule.exempt]
  | unifiedId (rule : UnifiedId) : Carries rule.toRule [.pattern rule.exempt]

section

variable {options : RuleOptions} {exempt : Pattern.Exemption} (read : options.pattern exemptionOption = .ok exempt)

include read

theorem ParallelCache.make_of_read {allowLocal : Bool} (readLocal : options.bool allowLocalOption = .ok allowLocal) :
    entry.make options = .ok (toRule ⟨allowLocal, exempt⟩) := by
  unfold entry ofOptions
  dsimp only
  rw [readLocal, read]
  rfl

theorem UnifiedTime.make_of_read : entry.make options = .ok (toRule ⟨exempt⟩) := by
  unfold entry ofOptions
  dsimp only
  rw [read]
  rfl

theorem UnifiedId.make_of_read : entry.make options = .ok (toRule ⟨exempt⟩) := by
  unfold entry ofOptions
  dsimp only
  rw [read]
  rfl

end

section

variable [Pattern.Reader]

/-- The value of an option as the settings give it, or else the default. -/
def Configures (settings : Settings) (id : String) (spec : OptionSpec) (v : OptionValue) : Prop :=
  Means ((((settings.options? id).getD []).lookup spec.name).getD spec.default.written) v

def Configured (settings : Settings) (d : Descriptor) (values : List OptionValue) : Prop :=
  List.Forall₂ (Configures settings d.id) d.schema values

section

variable {settings : Settings} {e : RuleEntry} (inside : e ∈ builtin)

include inside

theorem make_of_resolve {options : RuleOptions}
    (resolved : RuleOptions.resolve e.descriptor.id e.descriptor.schema
      ((settings.options? e.descriptor.id).getD []) = .ok options) :
    ∃ rule values, e.make options = .ok rule ∧ Carries rule values ∧ Configured settings e.descriptor values := by
  have schemas : ∀ e ∈ builtin, (e.descriptor.schema.map (·.name)).Nodup := by decide
  have distinct := schemas e inside
  rcases builtin_cases inside with rfl | rfl | rfl
  · obtain ⟨allowLocal, readLocal, meansLocal⟩ :=
      RuleOptions.bool_of_resolve distinct resolved List.mem_cons_self rfl
    obtain ⟨exempt, read, means⟩ :=
      RuleOptions.pattern_of_resolve distinct resolved (List.mem_cons_of_mem _ List.mem_cons_self) rfl
    exact ⟨_, _, ParallelCache.make_of_read read readLocal, .parallelCache ⟨allowLocal, exempt⟩,
      .cons meansLocal (.cons means .nil)⟩
  · obtain ⟨exempt, read, means⟩ := RuleOptions.pattern_of_resolve distinct resolved List.mem_cons_self rfl
    exact ⟨_, _, UnifiedTime.make_of_read read, .unifiedTime ⟨exempt⟩, .cons means .nil⟩
  · obtain ⟨exempt, read, means⟩ := RuleOptions.pattern_of_resolve distinct resolved List.mem_cons_self rfl
    exact ⟨_, _, UnifiedId.make_of_read read, .unifiedId ⟨exempt⟩, .cons means .nil⟩

theorem decorates_of_instantiate {rule : Rule} (made : e.instantiate settings = .ok rule) : rule.Decorates := by
  obtain ⟨options, -, built⟩ := Registry.resolve_of_instantiate made
  exact (of_make_builtin inside built).2

theorem configured_of_instantiate {rule : Rule} (made : e.instantiate settings = .ok rule) :
    ∃ values, Carries rule values ∧ Configured settings rule.descriptor values := by
  obtain ⟨options, resolved, built⟩ := Registry.resolve_of_instantiate made
  obtain ⟨other, values, again, carries, configured⟩ := make_of_resolve inside resolved
  obtain rfl := Except.ok.inj (built.symm.trans again)
  exact ⟨values, carries, (of_make_builtin inside built).1 ▸ configured⟩

theorem instantiate_ne_missingOption (rule option : String) :
    e.instantiate settings ≠ .error (.missingOption rule option) := by
  intro failed
  unfold RuleEntry.instantiate at failed
  dsimp only at failed
  cases resolved : RuleOptions.resolve e.descriptor.id e.descriptor.schema
      ((settings.options? e.descriptor.id).getD []) with
  | error cause =>
    rw [resolved] at failed
    obtain rfl := Except.error.inj failed
    rcases RuleOptions.error_of_resolve resolved with ⟨key, other⟩ | ⟨spec, -, refuses⟩
    · cases other
    · cases refuses
  | ok options =>
    obtain ⟨made, values, built, -, -⟩ := make_of_resolve inside resolved
    rw [resolved] at failed
    cases built.symm.trans failed

end

theorem decorates_of_select {settings : Settings} {only : Option (List String)} {rules : List Rule}
    (selected : Registry.select builtin settings only = .ok rules) : ∀ rule ∈ rules, rule.Decorates := by
  intro rule inside
  obtain ⟨e, there, made⟩ := Registry.of_mem_select clear_builtin.makesOwn selected inside
  exact decorates_of_instantiate there made

/-- Built-in rules never lack an option that they read. Settings that all of them accept fail for no selection but one
with a name that is none of theirs, and every selection makes its rules with the same configured values. -/
theorem select_validated (settings : Settings) :
    (∀ rule option, (∀ e ∈ builtin, e.instantiate settings ≠ .error (.missingOption rule option)) ∧
      ∀ only, Registry.select builtin settings only ≠ .error (.missingOption rule option)) ∧
    ∀ rules, Registry.select builtin settings none = .ok rules →
      (∀ rule ∈ rules, ∃ values, Carries rule values ∧ Configured settings rule.descriptor values) ∧
      (∀ before name after, Registry.Knows builtin before →
        (∀ e ∈ builtin, e.descriptor.id ≠ name ∧ e.descriptor.code ≠ name) →
        Registry.select builtin settings (some (before ++ name :: after)) = .error (.unknownRule name)) ∧
      ∀ names, Registry.Knows builtin names →
        ∃ part, Registry.select builtin settings (some names) = .ok part ∧
          part.Perm (rules.filter fun rule => Registry.picks builtin names rule.name) ∧
          ∀ rule ∈ part, ∃ values, Carries rule values ∧ Configured settings rule.descriptor values ∧
            ∀ other ∈ rules, other.name = rule.name → Carries other values := by
  refine ⟨?_, ?_⟩
  · intro rule option
    refine ⟨fun e inside => instantiate_ne_missingOption inside rule option, ?_⟩
    intro only failed
    rcases Registry.error_of_select clear_builtin.makesOwn failed with ⟨name, other⟩ | ⟨e, inside, wrong⟩
    · cases other
    · exact instantiate_ne_missingOption inside rule option wrong
  · intro rules whole
    obtain ⟨accepted, fits, made⟩ := clear_builtin.makesOwn.select_none_eq_ok_iff.mp whole
    obtain ⟨-, -, distinct⟩ := of_select_builtin whole
    have configured : ∀ rule ∈ rules, ∃ values, Carries rule values ∧ Configured settings rule.descriptor values := by
      intro rule inside
      rw [made] at inside
      obtain ⟨e, there, rfl⟩ := List.mem_map.mp inside
      exact configured_of_instantiate (Registry.of_mem_active settings builtin there).1 (fits e there)
    refine ⟨configured, ?_, ?_⟩
    · intro before name after known unknown
      refine Registry.select_of_unknown known ?_ accepted
      intro e inside
      simpa [Descriptor.isCalled] using unknown e inside
    · intro names known
      obtain ⟨part, selected, perm⟩ := clear_builtin.select_some whole known
      refine ⟨part, selected, perm, ?_⟩
      intro rule inside
      have there : rule ∈ rules := List.mem_of_mem_filter (perm.mem_iff.mp inside)
      obtain ⟨values, carries, given⟩ := configured rule there
      refine ⟨values, carries, given, ?_⟩
      intro other thereToo same
      rw [List.inj_on_of_nodup_map distinct thereToo there same]
      exact carries

end

/-- Maps are refused inside functions as well. -/
def cacheSettings : Settings :=
  { Settings.default with rules := [("no-parallel-cache", ⟨none, none, [("allowLocal", .boolean false)]⟩)] }

theorem select_validated_cacheSettings :
    ∃ rules part, Registry.select builtin cacheSettings none = .ok rules ∧
      Registry.select builtin cacheSettings (some ["CG003", "CG001", "prefer-unified-id"]) = .ok part ∧
      (∃ rule ∈ part, ∃ exempt, Carries rule [.bool false, .pattern exempt]) ∧
      Registry.select builtin cacheSettings (some ["CG001", "CG009", "CG010"]) = .error (.unknownRule "CG009") := by
  have named : (Registry.select builtin cacheSettings none).toOption.map (·.map (·.name)) =
      some ["no-parallel-cache", "prefer-unified-time", "prefer-unified-id"] := by decide +kernel
  obtain ⟨rules, whole, names⟩ := of_map_toOption named
  obtain ⟨-, validated⟩ := select_validated cacheSettings
  obtain ⟨-, unknown, known⟩ := validated rules whole
  obtain ⟨part, selected, perm, carried⟩ := known ["CG003", "CG001", "prefer-unified-id"] (by
    unfold Registry.Knows
    decide)
  refine ⟨rules, part, whole, selected, ?_, ?_⟩
  · obtain ⟨rule, inside, name⟩ := List.mem_map.mp (names ▸ List.mem_cons_self :
      "no-parallel-cache" ∈ rules.map (·.name))
    have chosen : rule ∈ part := perm.mem_iff.mpr (List.mem_filter.mpr ⟨inside, by rw [name]; decide⟩)
    obtain ⟨values, carries, configured, -⟩ := carried rule chosen
    refine ⟨rule, chosen, ?_⟩
    cases carries with
    | parallelCache rule =>
      have given : Means (.boolean false) (.bool rule.allowLocal) := (List.forall₂_cons.mp configured).1
      exact ⟨rule.exempt, OptionValue.bool.inj (given.unique (.bool false)) ▸ .parallelCache rule⟩
    | unifiedTime _ =>
      have other : UnifiedTime.descriptor.id = "no-parallel-cache" := name
      exact absurd other (by decide)
    | unifiedId _ =>
      have other : UnifiedId.descriptor.id = "no-parallel-cache" := name
      exact absurd other (by decide)
  · refine unknown ["CG001"] "CG009" ["CG010"] ?_ (by decide)
    unfold Registry.Knows
    decide

end Rules

end ArchLint
