import ArchLint.Proofs.Options.Resolved
import ArchLint.Proofs.Order.Smallest

/-!
# What resolving comes to

Options resolve if the schema declares every key and every option fits, be it by what the settings say or by its
default. Of several mistakes one is reported, and it is the same one in whatever order the settings are kept.
-/

namespace ArchLint

/-- The kind of option that can be set to a value. -/
def Toml.Value.kind? : Toml.Value → Option OptionKind
  | .boolean _ => some .boolean
  | .string _ => some .regex
  | _ => none

namespace RuleOptions

section

variable {rule : String} {schema : List OptionSpec} {raw : Toml.Table} {spec : OptionSpec}

/-! ### Keys -/

/-- No option of the schema has the name. -/
def Undeclared (schema : List OptionSpec) (name : String) : Prop :=
  ∀ spec ∈ schema, spec.name ≠ name

theorem smallestUndeclared_iff {key : String} :
    (smallestRefused? (raw.map (·.1)) fun key => schema.any (·.name = key)) = some key ↔
      SmallestRefused (raw.map (·.1)) (Undeclared schema) key :=
  smallestRefused?_any_eq_some_iff

theorem noneUndeclared_iff :
    (smallestRefused? (raw.map (·.1)) fun key => schema.any (·.name = key)) = none ↔
      ∀ key ∈ raw.map (·.1), ¬Undeclared schema key :=
  smallestRefused?_any_eq_none_iff

theorem declared_or_smallest (schema : List OptionSpec) (raw : Toml.Table) :
    (∀ key ∈ raw.map (·.1), ¬Undeclared schema key) ∨ ∃ key, SmallestRefused (raw.map (·.1)) (Undeclared schema) key :=
  admitted_or_smallest _ schema (·.name)

variable [Pattern.Reader]

/-! ### Options that fit -/

/-- What an option is set to: by the settings, or else by its default. -/
def written (raw : Toml.Table) (spec : OptionSpec) : Toml.Value :=
  (raw.lookup spec.name).getD spec.default.written

/-- The value is what the option is set to, and of the option's kind. -/
structure Fits (raw : Toml.Table) (spec : OptionSpec) (v : OptionValue) : Prop where
  means : Means (written raw spec) v
  kind : v.kind = spec.kind

/-- What can be wrong with an option, and how it is reported. -/
inductive Misfits (rule : String) (raw : Toml.Table) (spec : OptionSpec) : SettingsError → Prop
  | given {value : Toml.Value} : raw.lookup spec.name = some value → value.kind? ≠ some spec.kind →
    Misfits rule raw spec (.invalidOption rule spec.name spec.kind value.typeName)
  | default : raw.lookup spec.name = none → spec.default.written.kind? ≠ some spec.kind →
    Misfits rule raw spec (.invalidOption rule spec.name spec.kind ("default " ++ spec.default.shown))
  | pattern {source : String} : spec.kind = .regex → written raw spec = .string source →
    Pattern.Exemption.ofSource? source = none → Misfits rule raw spec (.invalidPattern rule spec.name)

theorem Fits.unique {v w : OptionValue} (fits : Fits raw spec v) (fitsToo : Fits raw spec w) : v = w :=
  fits.means.unique fitsToo.means

theorem fits_or_misfits (rule : String) (raw : Toml.Table) (spec : OptionSpec) :
    (∃ v, Fits raw spec v) ∨ ∃ e, Misfits rule raw spec e := by
  by_cases kind : (written raw spec).kind? = some spec.kind
  · cases set : written raw spec with
    | boolean b =>
      rw [set] at kind
      exact Or.inl ⟨.bool b, set ▸ .bool b, Option.some.inj kind⟩
    | string source =>
      rw [set] at kind
      cases read : Pattern.Exemption.ofSource? source with
      | some e => exact Or.inl ⟨.pattern e, set ▸ .pattern read, Option.some.inj kind⟩
      | none => exact Or.inr ⟨_, .pattern (Option.some.inj kind).symm set read⟩
    | integer n | float x | datetime text | array items | table entries =>
      rw [set] at kind
      cases kind
  · cases found : raw.lookup spec.name with
    | some given =>
      rw [written, found, Option.getD_some] at kind
      exact Or.inr ⟨_, .given found kind⟩
    | none =>
      rw [written, found, Option.getD_none] at kind
      exact Or.inr ⟨_, .default found kind⟩

theorem convert_of_mismatch {given : Toml.Value} (other : given.kind? ≠ some spec.kind) :
    convert rule spec given = .error (.invalidOption rule spec.name spec.kind given.typeName) := by
  unfold convert
  split
  · next b kind => exact absurd kind.symm (by simpa [Toml.Value.kind?] using other)
  · next source kind => exact absurd kind.symm (by simpa [Toml.Value.kind?] using other)
  · rfl

theorem defaultValue_of_mismatch (other : spec.default.written.kind? ≠ some spec.kind) :
    defaultValue rule spec =
      .error (.invalidOption rule spec.name spec.kind ("default " ++ spec.default.shown)) := by
  unfold defaultValue
  split
  · next b kind set => exact absurd kind.symm (by simpa [set, OptionDefault.written, Toml.Value.kind?] using other)
  · next source kind set => exact absurd kind.symm (by simpa [set, OptionDefault.written, Toml.Value.kind?] using other)
  · rfl

/-- An option of the right kind is read alike from the settings and from its default. -/
theorem value_of_written_bool {b : Bool} (kind : spec.kind = .boolean) (set : written raw spec = .boolean b) :
    value rule raw spec = .ok (.bool b) := by
  unfold value
  cases found : raw.lookup spec.name with
  | some given =>
    obtain rfl : given = .boolean b := by simpa [written, found] using set
    simp [convert, kind]
  | none =>
    have default : spec.default = .bool b := by
      cases given : spec.default <;> simp_all [written, OptionDefault.written]
    simp [defaultValue, kind, default]

theorem value_of_written_text {source : String} (kind : spec.kind = .regex) (set : written raw spec = .string source) :
    value rule raw spec = compile rule spec.name source := by
  unfold value
  cases found : raw.lookup spec.name with
  | some given =>
    obtain rfl : given = .string source := by simpa [written, found] using set
    simp [convert, kind]
  | none =>
    have default : spec.default = .text source := by
      cases given : spec.default <;> simp_all [written, OptionDefault.written]
    simp [defaultValue, kind, default]

theorem value_of_fits {v : OptionValue} (fits : Fits raw spec v) : value rule raw spec = .ok v := by
  obtain ⟨means, kind⟩ := fits
  cases set : written raw spec with
  | boolean b =>
    rw [set] at means
    cases means
    exact value_of_written_bool kind.symm set
  | string source =>
    rw [set] at means
    cases means with
    | pattern read => rw [value_of_written_text kind.symm set, compile, read]
  | integer n | float x | datetime text | array items | table entries =>
    rw [set] at means
    cases means

theorem value_of_misfits {e : SettingsError} (misfits : Misfits rule raw spec e) : value rule raw spec = .error e := by
  cases misfits with
  | given found other =>
    rw [value, found]
    exact convert_of_mismatch other
  | default missing other =>
    rw [value, missing]
    exact defaultValue_of_mismatch other
  | pattern kind set unread => rw [value_of_written_text kind set, compile, unread]

theorem value_eq_ok_iff {v : OptionValue} : value rule raw spec = .ok v ↔ Fits raw spec v := by
  refine ⟨fun valued => ?_, value_of_fits⟩
  rcases fits_or_misfits rule raw spec with ⟨w, fits⟩ | ⟨e, misfits⟩
  · rw [value_of_fits fits] at valued
    exact Except.ok.inj valued ▸ fits
  · rw [value_of_misfits misfits] at valued
    cases valued

theorem value_eq_error_iff {e : SettingsError} : value rule raw spec = .error e ↔ Misfits rule raw spec e := by
  refine ⟨fun failed => ?_, value_of_misfits⟩
  rcases fits_or_misfits rule raw spec with ⟨w, fits⟩ | ⟨cause, misfits⟩
  · rw [value_of_fits fits] at failed
    cases failed
  · rw [value_of_misfits misfits] at failed
    exact Except.error.inj failed ▸ misfits

/-! ### Schemas -/

/-- What can be wrong with options, and which of several mistakes is reported: the smallest key that the schema does not
declare, or else the first option of the schema that does not fit. -/
inductive Rejects (rule : String) (schema : List OptionSpec) (raw : Toml.Table) : SettingsError → Prop
  | undeclared {key : String} : SmallestRefused (raw.map (·.1)) (Undeclared schema) key →
    Rejects rule schema raw (.unknownOption rule key)
  | misfit {before after : List OptionSpec} {spec : OptionSpec} {e : SettingsError} :
    (∀ key ∈ raw.map (·.1), ¬Undeclared schema key) → schema = before ++ spec :: after →
    (∀ earlier ∈ before, ∃ v, Fits raw earlier v) → Misfits rule raw spec e → Rejects rule schema raw e

/-- What resolved options answer: the value of every option, by the accessor of its kind, and nothing else. -/
structure Serves (options : RuleOptions) (rule : String) (schema : List OptionSpec) (raw : Toml.Table) : Prop where
  get : ∀ spec ∈ schema, ∃ v, options.get? spec.name = some v ∧ Fits raw spec v
  getOther : ∀ name, Undeclared schema name → options.get? name = none
  bool : ∀ spec ∈ schema, spec.kind = .boolean → ∃ b, options.bool spec.name = .ok b ∧ Fits raw spec (.bool b)
  boolOther : ∀ name, (∀ spec ∈ schema, spec.name = name → spec.kind ≠ .boolean) →
    options.bool name = .error (.missingOption rule name)
  pattern : ∀ spec ∈ schema, spec.kind = .regex → ∃ e, options.pattern spec.name = .ok e ∧ Fits raw spec (.pattern e)
  patternOther : ∀ name, (∀ spec ∈ schema, spec.name = name → spec.kind ≠ .regex) →
    options.pattern name = .error (.missingOption rule name)

/-- A value with the name of its option, as options keep it. -/
theorem entry_eq_ok_iff {entry : String × OptionValue} :
    (do return (spec.name, ← value rule raw spec) : Except SettingsError (String × OptionValue)) = .ok entry ↔
      entry.1 = spec.name ∧ Fits raw spec entry.2 := by
  constructor
  · intro made
    obtain ⟨v, valued, rfl⟩ := of_bind_return made
    exact ⟨rfl, value_eq_ok_iff.mp valued⟩
  · obtain ⟨name, v⟩ := entry
    rintro ⟨rfl, fits⟩
    rw [value_of_fits fits]
    rfl

theorem entry_eq_error_iff {e : SettingsError} :
    (do return (spec.name, ← value rule raw spec) : Except SettingsError (String × OptionValue)) = .error e ↔
      Misfits rule raw spec e := by
  refine ⟨fun failed => value_eq_error_iff.mp (of_bind_return_error failed), fun misfits => ?_⟩
  rw [value_of_misfits misfits]
  rfl

theorem exists_entry_iff : (∃ entry, (do return (spec.name, ← value rule raw spec) :
    Except SettingsError (String × OptionValue)) = .ok entry) ↔ ∃ v, Fits raw spec v := by
  constructor
  · rintro ⟨entry, made⟩
    exact ⟨entry.2, (entry_eq_ok_iff.mp made).2⟩
  · rintro ⟨v, fits⟩
    exact ⟨(spec.name, v), entry_eq_ok_iff.mpr ⟨rfl, fits⟩⟩

theorem resolve_of_undeclared {key : String} (smallest : SmallestRefused (raw.map (·.1)) (Undeclared schema) key) :
    resolve rule schema raw = .error (.unknownOption rule key) := by
  rw [resolve, smallestUndeclared_iff.mpr smallest]

section

variable (declared : ∀ key ∈ raw.map (·.1), ¬Undeclared schema key)

include declared

theorem resolve_of_declared : resolve rule schema raw =
    (schema.mapM fun spec => do return (spec.name, ← value rule raw spec)) >>= fun values => return ⟨rule, values⟩ := by
  rw [resolve, noneUndeclared_iff.mpr declared]

theorem resolve_eq_ok_iff_of_declared {options : RuleOptions} : resolve rule schema raw = .ok options ↔
    options.rule = rule ∧
      List.Forall₂ (fun spec entry => entry.1 = spec.name ∧ Fits raw spec entry.2) schema options.values := by
  have each : (fun (spec : OptionSpec) (entry : String × OptionValue) =>
      (do return (spec.name, ← value rule raw spec) : Except SettingsError (String × OptionValue)) = .ok entry) =
        fun spec entry => entry.1 = spec.name ∧ Fits raw spec entry.2 := by
    funext spec entry
    exact propext entry_eq_ok_iff
  rw [resolve_of_declared declared, ← each, ← mapM_eq_ok_iff]
  constructor
  · intro resolved
    obtain ⟨values, all, rfl⟩ := of_bind_return resolved
    exact ⟨rfl, all⟩
  · obtain ⟨owner, values⟩ := options
    rintro ⟨rfl, all⟩
    rw [all]
    rfl

theorem resolve_eq_error_iff_of_declared {e : SettingsError} : resolve rule schema raw = .error e ↔
    ∃ before spec after, schema = before ++ spec :: after ∧ (∀ earlier ∈ before, ∃ v, Fits raw earlier v) ∧
      Misfits rule raw spec e := by
  rw [resolve_of_declared declared, bind_return_eq_error_iff, mapM_eq_error_iff]
  simp only [exists_entry_iff, entry_eq_error_iff]

end

theorem resolve_eq_error_iff {e : SettingsError} : resolve rule schema raw = .error e ↔ Rejects rule schema raw e := by
  rcases declared_or_smallest schema raw with declared | ⟨key, smallest⟩
  · rw [resolve_eq_error_iff_of_declared declared]
    constructor
    · rintro ⟨before, spec, after, split, fine, misfits⟩
      exact .misfit declared split fine misfits
    · rintro (smallest | ⟨-, split, fine, misfits⟩)
      · exact absurd smallest.isRefused (declared _ smallest.inside)
      · exact ⟨_, _, _, split, fine, misfits⟩
  · rw [resolve_of_undeclared smallest]
    constructor
    · rintro ⟨⟩
      exact .undeclared smallest
    · rintro (other | ⟨all, -, -, -⟩)
      · rw [smallest.unique other]
      · exact absurd smallest.isRefused (all key smallest.inside)

theorem exists_resolve_iff : (∃ options, resolve rule schema raw = .ok options) ↔
    (∀ key ∈ raw.map (·.1), ¬Undeclared schema key) ∧ ∀ spec ∈ schema, ∃ v, Fits raw spec v := by
  constructor
  · rintro ⟨options, resolved⟩
    rcases declared_or_smallest schema raw with declared | ⟨key, smallest⟩
    · refine ⟨declared, fun spec inside => ?_⟩
      obtain ⟨-, all⟩ := (resolve_eq_ok_iff_of_declared declared).mp resolved
      obtain ⟨entry, -, -, fits⟩ := exists_of_forall₂ all inside
      exact ⟨entry.2, fits⟩
    · rw [resolve_of_undeclared smallest] at resolved
      cases resolved
  · rintro ⟨declared, fits⟩
    cases resolved : resolve rule schema raw with
    | ok options => exact ⟨options, rfl⟩
    | error e =>
      obtain ⟨before, spec, after, rfl, -, misfits⟩ := (resolve_eq_error_iff_of_declared declared).mp resolved
      obtain ⟨v, fits⟩ := fits spec (List.mem_append_right _ List.mem_cons_self)
      exact absurd ((value_of_fits fits).symm.trans (value_of_misfits misfits)) (by simp)

/-! ### Resolved options -/

theorem rule_of_resolve {options : RuleOptions} (resolved : resolve rule schema raw = .ok options) :
    options.rule = rule := by
  have declared := (exists_resolve_iff.mp ⟨options, resolved⟩).1
  exact ((resolve_eq_ok_iff_of_declared declared).mp resolved).1

theorem get?_eq_none_of_resolve {options : RuleOptions} (resolved : resolve rule schema raw = .ok options)
    {name : String} (undeclared : Undeclared schema name) : options.get? name = none := by
  rw [get?, List.lookup_eq_none_iff]
  intro entry inside
  obtain ⟨spec, there, same, -⟩ := exists_of_forall₂ (values_of_resolve resolved).flip (List.mem_reverse.mp inside)
  rw [bne_iff_ne, same]
  exact (undeclared spec there).symm

/-- Whatever a name stands for among resolved options stands for it because of an option of the schema. -/
theorem fits_of_get? (distinct : (schema.map (·.name)).Nodup) {options : RuleOptions}
    (resolved : resolve rule schema raw = .ok options) {name : String} {v : OptionValue}
    (got : options.get? name = some v) : ∃ spec ∈ schema, spec.name = name ∧ Fits raw spec v := by
  by_cases undeclared : Undeclared schema name
  · rw [get?_eq_none_of_resolve resolved undeclared] at got
    cases got
  · simp only [Undeclared, not_forall, not_not] at undeclared
    obtain ⟨spec, inside, rfl⟩ := undeclared
    obtain ⟨w, valued, there⟩ := get?_of_resolve distinct resolved inside
    obtain rfl := Option.some.inj (got.symm.trans there)
    exact ⟨spec, inside, rfl, value_eq_ok_iff.mp valued⟩

theorem serves_of_resolve (distinct : (schema.map (·.name)).Nodup) {options : RuleOptions}
    (resolved : resolve rule schema raw = .ok options) : options.Serves rule schema raw := by
  have owner := rule_of_resolve resolved
  have got : ∀ spec ∈ schema, ∃ v, options.get? spec.name = some v ∧ Fits raw spec v := by
    intro spec inside
    obtain ⟨v, valued, there⟩ := get?_of_resolve distinct resolved inside
    exact ⟨v, there, value_eq_ok_iff.mp valued⟩
  refine ⟨got, fun name => get?_eq_none_of_resolve resolved, ?_, ?_, ?_, ?_⟩
  · intro spec inside kind
    obtain ⟨v, there, fits⟩ := got spec inside
    cases v with
    | bool b => exact ⟨b, by rw [bool, there], fits⟩
    | pattern e => exact absurd (fits.kind.trans kind) (by simp [OptionValue.kind])
  · intro name none
    unfold bool
    split
    · next b there =>
      obtain ⟨spec, inside, same, fits⟩ := fits_of_get? distinct resolved there
      exact absurd fits.kind.symm (none spec inside same)
    · rw [owner]
  · intro spec inside kind
    obtain ⟨v, there, fits⟩ := got spec inside
    cases v with
    | bool b => exact absurd (fits.kind.trans kind) (by simp [OptionValue.kind])
    | pattern e => exact ⟨e, by rw [pattern, there], fits⟩
  · intro name none
    unfold pattern
    split
    · next e there =>
      obtain ⟨spec, inside, same, fits⟩ := fits_of_get? distinct resolved there
      exact absurd fits.kind.symm (none spec inside same)
    · rw [owner]

/-! ### Another order of the settings -/

theorem resolve_of_perm (once : (raw.map (·.1)).Nodup) {other : Toml.Table} (perm : raw.Perm other) :
    resolve rule schema other = resolve rule schema raw := by
  have values : value rule other = value rule raw := by
    funext spec
    rw [value, value, lookup_of_perm once perm]
  rw [resolve, resolve, smallestRefused?_of_perm (perm.map (·.1)), values]

/-- Options resolve if and only if every key is declared and every option fits. They answer with the value of each
option by its kind, and otherwise the smallest undeclared key or the first misfit is reported. The order of the settings
does not matter. -/
theorem resolve_settled (rule : String) {schema : List OptionSpec} (distinct : (schema.map (·.name)).Nodup)
    (raw : Toml.Table) :
    ((∃ options, resolve rule schema raw = .ok options) ↔
      (∀ key ∈ raw.map (·.1), ¬Undeclared schema key) ∧ ∀ spec ∈ schema, ∃ v, Fits raw spec v) ∧
    (∀ options, resolve rule schema raw = .ok options → options.Serves rule schema raw) ∧
    (∀ e, resolve rule schema raw = .error e ↔ Rejects rule schema raw e) ∧
    ((raw.map (·.1)).Nodup → ∀ other, raw.Perm other → resolve rule schema other = resolve rule schema raw) :=
  ⟨exists_resolve_iff, fun _ => serves_of_resolve distinct, fun _ => resolve_eq_error_iff,
    fun once _ => resolve_of_perm once⟩

end

/-- A switch and a pattern. -/
def cacheSchema : List OptionSpec :=
  [⟨"allowLocal", .boolean, .bool true, ""⟩, ⟨"allowFilesPattern", .regex, .text Pattern.Exemption.defaultSource, ""⟩]

/-- A value of the wrong type between two keys that are not declared. -/
def mistaken : Toml.Table :=
  [("zone", .boolean true), ("allowLocal", .string "no"), ("Zone", .boolean true)]

theorem resolve_settled_cacheSchema :
    resolve "cache" cacheSchema mistaken = .error (.unknownOption "cache" "Zone") ∧
      resolve "cache" cacheSchema mistaken.reverse = resolve "cache" cacheSchema mistaken ∧
      resolve "cache" cacheSchema [("allowFilesPattern", .string "(tests")] =
        .error (.invalidPattern "cache" "allowFilesPattern") ∧
      ∃ options, resolve "cache" cacheSchema [("allowLocal", .boolean false)] = .ok options ∧
        options.bool "allowLocal" = .ok false ∧
        options.bool "allowFilesPattern" = .error (.missingOption "cache" "allowFilesPattern") ∧
        ∃ exempt, options.pattern "allowFilesPattern" = .ok exempt ∧
          exempt.source = Pattern.Exemption.defaultSource := by
  have distinct : (cacheSchema.map (·.name)).Nodup := by decide
  obtain ⟨-, -, failure, reordered⟩ := resolve_settled "cache" distinct mistaken
  obtain ⟨-, -, unread, -⟩ := resolve_settled "cache" distinct [("allowFilesPattern", .string "(tests")]
  obtain ⟨succeeds, serves, -, -⟩ := resolve_settled "cache" distinct [("allowLocal", .boolean false)]
  refine ⟨?_, reordered (by simp [mistaken]) _ (List.reverse_perm _).symm, ?_, ?_⟩
  · refine (failure _).mpr (.undeclared ⟨by simp [mistaken], by simp [Undeclared, cacheSchema], ?_⟩)
    intro other inside refused
    have keys : other = "zone" ∨ other = "allowLocal" ∨ other = "Zone" := by simpa [mistaken] using inside
    rw [Text.bytes_le_iff]
    rcases keys with rfl | rfl | rfl
    · decide
    · exact absurd rfl (refused _ List.mem_cons_self)
    · decide
  · have unclosed : (Pattern.Exemption.ofSource? "(tests") = none := by decide +kernel
    refine (unread _).mpr (.misfit (by simp [Undeclared, cacheSchema])
      (show cacheSchema = [_] ++ _ :: [] from rfl) ?_ (.pattern rfl rfl unclosed))
    exact List.forall_mem_singleton.mpr ⟨.bool true, .bool true, rfl⟩
  · have fits : ∀ spec ∈ cacheSchema, ∃ v, Fits [("allowLocal", .boolean false)] spec v := by
      have read : (Pattern.Exemption.ofSource? Pattern.Exemption.defaultSource).isSome = true := by decide +kernel
      obtain ⟨exempt, read⟩ := Option.isSome_iff_exists.mp read
      refine List.forall_mem_cons.mpr ⟨⟨.bool false, .bool false, rfl⟩, List.forall_mem_singleton.mpr ?_⟩
      exact ⟨.pattern exempt, .pattern read, rfl⟩
    obtain ⟨options, resolved⟩ := succeeds.mpr ⟨by simp [Undeclared, cacheSchema], fits⟩
    have answers := serves options resolved
    obtain ⟨b, got, set⟩ := answers.bool _ List.mem_cons_self rfl
    obtain rfl : b = false := OptionValue.bool.inj (set.means.unique (.bool false))
    obtain ⟨exempt, read, meant, -⟩ := answers.pattern _ (List.mem_cons_of_mem _ List.mem_cons_self) rfl
    refine ⟨options, resolved, got, answers.boolOther _ (by simp [cacheSchema]), exempt, read, ?_⟩
    change Means (.string Pattern.Exemption.defaultSource) _ at meant
    cases meant with
    | pattern made => exact Pattern.Exemption.source_of_ofSource? made

end RuleOptions

end ArchLint
