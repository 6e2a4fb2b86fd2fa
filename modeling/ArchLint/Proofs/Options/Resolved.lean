import ArchLint.Proofs.Lists
import ArchLint.Rule.Options

/-!
# Resolved options

Options that could be resolved have a value for everything that the schema declares: the one that the settings give, or
else the default. What a text means as a pattern is for the reader to say, here and wherever options are resolved.
-/

namespace ArchLint

def OptionValue.kind : OptionValue → OptionKind
  | bool _ => .boolean
  | pattern _ => .regex

/-- A default as a settings file would say it. -/
def OptionDefault.written : OptionDefault → Toml.Value
  | bool b => .boolean b
  | text s => .string s

variable [Pattern.Reader]

/-- The value that a settings file means for an option. -/
inductive Means : Toml.Value → OptionValue → Prop
  | bool (b : Bool) : Means (.boolean b) (.bool b)
  | pattern {source : String} {e : Pattern.Exemption} :
    Pattern.Exemption.ofSource? source = some e → Means (.string source) (.pattern e)

theorem Means.unique {given : Toml.Value} {v w : OptionValue} (meansV : Means given v) (meansW : Means given w) :
    v = w := by
  cases meansV with
  | bool b =>
    cases meansW
    rfl
  | pattern read =>
    cases meansW with
    | pattern again => rw [Option.some.inj (read.symm.trans again)]

namespace RuleOptions

variable {rule : String} {schema : List OptionSpec} {raw : Toml.Table} {options : RuleOptions}

theorem values_of_resolve (resolved : resolve rule schema raw = .ok options) :
    List.Forall₂ (fun spec entry => entry.1 = spec.name ∧ value rule raw spec = .ok entry.2) schema options.values := by
  unfold resolve at resolved
  split at resolved
  · cases resolved
  · obtain ⟨values, all, rfl⟩ := of_bind_return resolved
    refine (mapM_eq_ok_iff.mp all).imp ?_
    intro spec entry found
    obtain ⟨v, valued, rfl⟩ := of_bind_return found
    exact ⟨rfl, valued⟩

/-! ### Values -/

theorem of_compile {option source : String} {v : OptionValue} (compiled : compile rule option source = .ok v) :
    Means (.string source) v ∧ v.kind = .regex := by
  unfold compile at compiled
  split at compiled
  · next e read =>
    obtain rfl := Except.ok.inj compiled
    exact ⟨.pattern read, rfl⟩
  · cases compiled

theorem means_of_convert {spec : OptionSpec} {given : Toml.Value} {v : OptionValue}
    (converted : convert rule spec given = .ok v) : Means given v ∧ v.kind = spec.kind := by
  unfold convert at converted
  split at converted
  · next b kind =>
    obtain rfl := Except.ok.inj converted
    exact ⟨.bool b, kind.symm⟩
  · next source kind => exact kind ▸ of_compile converted
  · cases converted

theorem means_of_defaultValue {spec : OptionSpec} {v : OptionValue} (valued : defaultValue rule spec = .ok v) :
    Means spec.default.written v ∧ v.kind = spec.kind := by
  unfold defaultValue at valued
  split at valued
  · next b kind default =>
    obtain rfl := Except.ok.inj valued
    exact ⟨default ▸ .bool b, kind.symm⟩
  · next source kind default => exact kind ▸ default ▸ of_compile valued
  · cases valued

theorem means_of_value {spec : OptionSpec} {v : OptionValue} (valued : value rule raw spec = .ok v) :
    Means ((raw.lookup spec.name).getD spec.default.written) v ∧ v.kind = spec.kind := by
  unfold value at valued
  split at valued
  · next given found =>
    rw [found]
    exact means_of_convert valued
  · next missing =>
    rw [missing]
    exact means_of_defaultValue valued

/-! ### Errors -/

/-- What can be wrong with a value, and the option that it is wrong with. -/
inductive Refuses (rule : String) (spec : OptionSpec) : SettingsError → Prop
  | kind (found : String) : Refuses rule spec (.invalidOption rule spec.name spec.kind found)
  | pattern : Refuses rule spec (.invalidPattern rule spec.name)

theorem refuses_of_compile {spec : OptionSpec} {source : String} {e : SettingsError}
    (failed : compile rule spec.name source = .error e) : Refuses rule spec e := by
  unfold compile at failed
  split at failed
  · cases failed
  · obtain rfl := Except.error.inj failed
    exact .pattern

theorem refuses_of_value {spec : OptionSpec} {e : SettingsError} (failed : value rule raw spec = .error e) :
    Refuses rule spec e := by
  unfold value at failed
  split at failed
  · unfold convert at failed
    split at failed
    · cases failed
    · exact refuses_of_compile failed
    · obtain rfl := Except.error.inj failed
      exact .kind _
  · unfold defaultValue at failed
    split at failed
    · cases failed
    · exact refuses_of_compile failed
    · obtain rfl := Except.error.inj failed
      exact .kind _

/-- Options fail for a key that the schema does not declare, or for a value of one that it does. -/
theorem error_of_resolve {e : SettingsError} (failed : resolve rule schema raw = .error e) :
    (∃ key, e = .unknownOption rule key) ∨ ∃ spec ∈ schema, Refuses rule spec e := by
  unfold resolve at failed
  split at failed
  · next key _ => exact Or.inl ⟨key, (Except.error.inj failed).symm⟩
  · obtain ⟨before, spec, after, split, -, wrong⟩ := mapM_eq_error_iff.mp (of_bind_return_error failed)
    refine Or.inr ⟨spec, ?_, refuses_of_value (of_bind_return_error wrong)⟩
    rw [split]
    exact List.mem_append_right _ List.mem_cons_self

/-! ### Reading options -/

theorem get?_of_resolve (distinct : (schema.map (·.name)).Nodup) (resolved : resolve rule schema raw = .ok options)
    {spec : OptionSpec} (declared : spec ∈ schema) :
    ∃ v, value rule raw spec = .ok v ∧ options.get? spec.name = some v := by
  have all := values_of_resolve resolved
  have names : schema.map (·.name) = options.values.map (·.1) := by
    rw [← List.forall₂_eq_eq_eq, List.forall₂_map_left_iff, List.forall₂_map_right_iff]
    exact all.imp fun _ _ here => here.1.symm
  obtain ⟨⟨_, v⟩, inside, rfl, valued⟩ := exists_of_forall₂ all declared
  refine ⟨v, valued, lookup_of_nodup ?_ (List.mem_reverse.mpr inside)⟩
  rw [List.map_reverse, List.nodup_reverse, ← names]
  exact distinct

section

variable (distinct : (schema.map (·.name)).Nodup) (resolved : resolve rule schema raw = .ok options) {spec : OptionSpec}
  (declared : spec ∈ schema)

include distinct resolved declared

theorem bool_of_resolve (kind : spec.kind = .boolean) :
    ∃ b, options.bool spec.name = .ok b ∧ Means ((raw.lookup spec.name).getD spec.default.written) (.bool b) := by
  obtain ⟨v, valued, got⟩ := get?_of_resolve distinct resolved declared
  obtain ⟨means, same⟩ := means_of_value valued
  rw [kind] at same
  cases v with
  | bool b => exact ⟨b, by rw [bool, got], means⟩
  | pattern e => cases same

theorem pattern_of_resolve (kind : spec.kind = .regex) :
    ∃ e, options.pattern spec.name = .ok e ∧ Means ((raw.lookup spec.name).getD spec.default.written) (.pattern e) := by
  obtain ⟨v, valued, got⟩ := get?_of_resolve distinct resolved declared
  obtain ⟨means, same⟩ := means_of_value valued
  rw [kind] at same
  cases v with
  | bool b => cases same
  | pattern e => exact ⟨e, by rw [pattern, got], means⟩

end

end RuleOptions

end ArchLint
