import ArchLint.Proofs.Options.Outcome
import ArchLint.Proofs.Selection.Registry

/-!
# What selecting comes to

A selection makes the entries that its names stand for, but those that are switched off or follow another one of their
id. If it fails, a rule in the settings that is not registered is reported first, then a name that no rule goes by, then
what is wrong with the options of the entries in turn.
-/

namespace ArchLint

namespace Registry

variable {registry : Registry} {settings : Settings} {only : Option (List String)}

/-- No rule has the id. -/
def Unregistered (registry : Registry) (id : String) : Prop :=
  ∀ e ∈ registry, e.descriptor.id ≠ id

/-- The name is neither the id nor the code of a rule. -/
def Unknown (registry : Registry) (name : String) : Prop :=
  ∀ e ∈ registry, e.descriptor.isCalled name = false

/-- The settings are about registered rules. -/
def Admits (registry : Registry) (settings : Settings) : Prop :=
  ∀ id ∈ settings.rules.map (·.1), ¬registry.Unregistered id

/-- The entries that names stand for, in the order of the names; all entries where there are no names. -/
def found (registry : Registry) : Option (List String) → List RuleEntry
  | none => registry
  | some names => names.filterMap registry.find

/-- The entries that a selection makes. -/
def chosen (registry : Registry) (settings : Settings) (only : Option (List String)) : List RuleEntry :=
  active settings (registry.found only)

theorem smallestUnregistered_iff {id : String} : (RuleOptions.smallestRefused? (settings.rules.map (·.1))
      fun id => registry.any (·.descriptor.id = id)) = some id ↔
    SmallestRefused (settings.rules.map (·.1)) registry.Unregistered id :=
  RuleOptions.smallestRefused?_any_eq_some_iff

theorem noneUnregistered_iff : (RuleOptions.smallestRefused? (settings.rules.map (·.1))
    fun id => registry.any (·.descriptor.id = id)) = none ↔ registry.Admits settings :=
  RuleOptions.smallestRefused?_any_eq_none_iff

theorem selected_of_named (named : ∀ names, only = some names → registry.Knows names) :
    registry.selected only = .ok (registry.found only) := by
  cases only with
  | none => rfl
  | some names => exact selected_of_knows (named names rfl)

theorem of_mem_chosen {e : RuleEntry} (inside : e ∈ registry.chosen settings only) :
    e ∈ registry ∧ settings.isEnabled e.descriptor.id = true := by
  obtain ⟨there, enabled⟩ := of_mem_active settings _ inside
  refine ⟨?_, enabled⟩
  cases only with
  | none => exact there
  | some names =>
    obtain ⟨name, -, called⟩ := List.mem_filterMap.mp there
    exact (of_find_eq_some called).1

variable [Pattern.Reader]

/-- What a selection comes to. A mistake is reported where there is none of the kinds before it. -/
inductive Selects (registry : Registry) (settings : Settings) (only : Option (List String)) :
    Except SettingsError (List Rule) → Prop
  | unregistered {id : String} : SmallestRefused (settings.rules.map (·.1)) registry.Unregistered id →
    Selects registry settings only (.error (.unknownRule id))
  | unknown {before after : List String} {name : String} : registry.Admits settings →
    only = some (before ++ name :: after) → registry.Knows before → registry.Unknown name →
    Selects registry settings only (.error (.unknownRule name))
  | refused {before after : List RuleEntry} {e : RuleEntry} {cause : SettingsError} : registry.Admits settings →
    (∀ names, only = some names → registry.Knows names) → registry.chosen settings only = before ++ e :: after →
    (∀ earlier ∈ before, ∃ rule, earlier.instantiate settings = .ok rule) → e.instantiate settings = .error cause →
    Selects registry settings only (.error cause)
  | made {rules : List Rule} : registry.Admits settings → (∀ names, only = some names → registry.Knows names) →
    List.Forall₂ (fun e rule => e.instantiate settings = .ok rule) (registry.chosen settings only) rules →
    Selects registry settings only (.ok rules)

/-! ### Every outcome -/

theorem MakesOwn.select_of_named (own : registry.MakesOwn) (admitted : registry.Admits settings)
    (named : ∀ names, only = some names → registry.Knows names) :
    registry.select settings only = (registry.chosen settings only).mapM (·.instantiate settings) := by
  rw [own.select_of_accepted only (noneUnregistered_iff.mpr admitted), selected_of_named named]
  rfl

theorem MakesOwn.select_of_selects (own : registry.MakesOwn) {outcome : Except SettingsError (List Rule)}
    (selects : Selects registry settings only outcome) : registry.select settings only = outcome := by
  cases selects with
  | unregistered smallest => exact select_of_refused only (smallestUnregistered_iff.mpr smallest)
  | unknown admitted split known unknown =>
    rw [split]
    exact select_of_unknown known unknown (noneUnregistered_iff.mpr admitted)
  | refused admitted named split fine wrong =>
    rw [own.select_of_named admitted named]
    exact mapM_eq_error_iff.mpr ⟨_, _, _, split, fine, wrong⟩
  | made admitted named all =>
    rw [own.select_of_named admitted named]
    exact mapM_eq_ok_iff.mpr all

theorem exists_selects (registry : Registry) (settings : Settings) (only : Option (List String)) :
    ∃ outcome, Selects registry settings only outcome := by
  rcases RuleOptions.admitted_or_smallest (settings.rules.map (·.1)) registry (·.descriptor.id) with
    admitted | ⟨id, smallest⟩
  · by_cases named : ∀ names, only = some names → registry.Knows names
    · cases run : (registry.chosen settings only).mapM (·.instantiate settings) with
      | ok rules => exact ⟨_, .made admitted named (mapM_eq_ok_iff.mp run)⟩
      | error cause =>
        obtain ⟨before, e, after, split, fine, wrong⟩ := mapM_eq_error_iff.mp run
        exact ⟨_, .refused admitted named split fine wrong⟩
    · simp only [not_forall] at named
      obtain ⟨names, given, unknown⟩ := named
      rcases registry.knows_or_unknown names with known | ⟨before, name, after, rfl, known, missing⟩
      · exact absurd known unknown
      · exact ⟨_, .unknown admitted given known missing⟩
  · exact ⟨_, .unregistered smallest⟩

theorem MakesOwn.select_eq_iff (own : registry.MakesOwn) {outcome : Except SettingsError (List Rule)} :
    registry.select settings only = outcome ↔ Selects registry settings only outcome := by
  refine ⟨?_, own.select_of_selects⟩
  rintro rfl
  obtain ⟨outcome, selects⟩ := exists_selects registry settings only
  rw [own.select_of_selects selects]
  exact selects

/-! ### The rules made -/

theorem MakesOwn.names_of_select (own : registry.MakesOwn) {rules : List Rule}
    (succeeded : registry.select settings only = .ok rules) :
    rules.map (·.name) = (registry.chosen settings only).map (·.descriptor.id) := by
  obtain - | - | - | ⟨-, -, all⟩ := own.select_eq_iff.mp succeeded
  rw [← List.forall₂_eq_eq_eq, List.forall₂_map_left_iff, List.forall₂_map_right_iff]
  refine List.Forall₂.flip (List.Forall₂.imp ?_ ((List.forall₂_and_left _ _).mpr ⟨fun _ inside => inside, all⟩))
  rintro e rule ⟨inside, made⟩
  obtain ⟨options, built⟩ := instantiate_eq_ok made
  exact own e (of_mem_chosen inside).1 options rule built

theorem MakesOwn.of_select (own : registry.MakesOwn) {rules : List Rule}
    (succeeded : registry.select settings only = .ok rules) :
    (rules.map (·.name)).Nodup ∧ ∀ rule ∈ rules, settings.isEnabled rule.name = true := by
  have names := own.names_of_select succeeded
  refine ⟨names ▸ nodup_active settings _, ?_⟩
  intro rule inside
  have there : rule.name ∈ (registry.chosen settings only).map (·.descriptor.id) :=
    names ▸ List.mem_map_of_mem inside
  obtain ⟨e, chosen, same⟩ := List.mem_map.mp there
  rw [← same]
  exact (of_mem_chosen chosen).2

/-! ### Settings that select alike -/

section

variable {other : Settings}

omit [Pattern.Reader] in
theorem chosen_congr (enabled : ∀ id, other.isEnabled id = settings.isEnabled id) :
    registry.chosen other only = registry.chosen settings only := by
  rw [chosen, chosen, active, active]
  simp only [enabled]

section

variable (strangers : ∀ id, registry.Unregistered id → (id ∈ settings.rules.map (·.1) ↔ id ∈ other.rules.map (·.1)))

include strangers

omit [Pattern.Reader] in
theorem Admits.congr (admitted : registry.Admits settings) : registry.Admits other :=
  fun id inside stranger => admitted id ((strangers id stranger).mpr inside) stranger

/-- A selection sees of the settings which unregistered rules they are about, which rules are switched off, and what
makes the rules that it makes. -/
theorem Selects.congr (enabled : ∀ id, other.isEnabled id = settings.isEnabled id)
    (alike : ∀ e ∈ registry.chosen settings only, e.instantiate other = e.instantiate settings)
    {outcome : Except SettingsError (List Rule)} (selects : Selects registry settings only outcome) :
    Selects registry other only outcome := by
  have same : registry.chosen other only = registry.chosen settings only := chosen_congr enabled
  cases selects with
  | unregistered smallest => exact .unregistered (smallest.of_mem_iff strangers)
  | unknown admitted split known unknown => exact .unknown (admitted.congr strangers) split known unknown
  | refused admitted named split fine wrong =>
    rw [split] at alike
    refine .refused (admitted.congr strangers) named (same.trans split) ?_ ?_
    · intro earlier inside
      rw [alike earlier (List.mem_append_left _ inside)]
      exact fine earlier inside
    · rw [alike _ (List.mem_append_right _ List.mem_cons_self)]
      exact wrong
  | made admitted named all =>
    refine .made (admitted.congr strangers) named ?_
    rw [same]
    refine List.Forall₂.imp ?_ ((List.forall₂_and_left _ _).mpr ⟨alike, all⟩)
    rintro e rule ⟨equal, made⟩
    exact equal.trans made

theorem MakesOwn.select_congr_of_strangers (own : registry.MakesOwn)
    (enabled : ∀ id, other.isEnabled id = settings.isEnabled id)
    (alike : ∀ e ∈ registry.chosen settings only, e.instantiate other = e.instantiate settings) :
    registry.select other only = registry.select settings only := by
  obtain ⟨outcome, selects⟩ := exists_selects registry settings only
  rw [own.select_of_selects selects, own.select_of_selects (selects.congr strangers enabled alike)]

end

theorem MakesOwn.select_congr (own : registry.MakesOwn)
    (ids : (settings.rules.map (·.1)).Perm (other.rules.map (·.1)))
    (enabled : ∀ id, other.isEnabled id = settings.isEnabled id)
    (alike : ∀ e ∈ registry.chosen settings only, e.instantiate other = e.instantiate settings) :
    registry.select other only = registry.select settings only :=
  own.select_congr_of_strangers (fun _ _ => ids.mem_iff) enabled alike

end

end Registry

/-- The same settings of a rule, with its options in any order. -/
structure RuleSettings.Reorders (r s : RuleSettings) : Prop where
  enabled : s.enabled = r.enabled
  severity : s.severity = r.severity
  once : (r.options.map (·.1)).Nodup
  options : r.options.Perm s.options

namespace Settings

variable {s t : Settings}

/-- The same settings, with the rules and the options of each rule in any order. -/
structure Reorders (s t : Settings) : Prop where
  failOn : t.failOn = s.failOn
  files : t.files = s.files
  once : (s.rules.map (·.1)).Nodup
  ids : (s.rules.map (·.1)).Perm (t.rules.map (·.1))
  rules : ∀ entry ∈ s.rules, ∃ r, (entry.1, r) ∈ t.rules ∧ entry.2.Reorders r

theorem Reorders.rule? (reorders : s.Reorders t) (id : String) :
    Option.Rel RuleSettings.Reorders (s.rule? id) (t.rule? id) := by
  unfold Settings.rule?
  cases found : s.rules.lookup id with
  | some r =>
    obtain ⟨before, after, split, -⟩ := List.lookup_eq_some_iff.mp found
    obtain ⟨other, there, same⟩ := reorders.rules (id, r) (by simp [split])
    rw [lookup_of_nodup (reorders.ids.nodup_iff.mp reorders.once) there]
    exact .some same
  | none =>
    have missing : t.rules.lookup id = none := by
      rw [List.lookup_eq_none_iff] at found ⊢
      intro entry inside
      obtain ⟨mine, there, same⟩ := List.mem_map.mp (reorders.ids.mem_iff.mpr (List.mem_map_of_mem inside))
      exact same ▸ found mine there
    rw [missing]
    exact .none

theorem Reorders.isEnabled (reorders : s.Reorders t) (id : String) : t.isEnabled id = s.isEnabled id := by
  have related := reorders.rule? id
  unfold Settings.isEnabled
  generalize s.rule? id = mine, t.rule? id = theirs at related ⊢
  cases related with
  | none => rfl
  | some same => rw [Option.bind_some, Option.bind_some, same.enabled]

theorem Reorders.instantiate [Pattern.Reader] (reorders : s.Reorders t) (e : RuleEntry) :
    e.instantiate t = e.instantiate s := by
  have related := reorders.rule? e.descriptor.id
  unfold RuleEntry.instantiate Settings.options?
  generalize s.rule? e.descriptor.id = mine, t.rule? e.descriptor.id = theirs at related ⊢
  cases related with
  | none => rfl
  | some same =>
    dsimp only [Option.map_some, Option.getD_some]
    rw [RuleOptions.resolve_of_perm same.once same.options]

end Settings

namespace Registry

/-- Where entries make rules of their own ids, a selection comes to exactly one of four ends. The rules that it makes
are enabled and of distinct ids. Options of rules that are not made have no part in it, nor has the order of the
settings. -/
theorem select_settled [Pattern.Reader] {registry : Registry} (own : registry.MakesOwn) (settings : Settings)
    (only : Option (List String)) :
    (∀ outcome, registry.select settings only = outcome ↔ Selects registry settings only outcome) ∧
    (∀ rules, registry.select settings only = .ok rules →
      (rules.map (·.name)).Nodup ∧ ∀ rule ∈ rules, settings.isEnabled rule.name = true) ∧
    (∀ other : Settings, (settings.rules.map (·.1)).Perm (other.rules.map (·.1)) →
      (∀ id, other.isEnabled id = settings.isEnabled id) →
      (∀ e ∈ registry.chosen settings only,
        other.options? e.descriptor.id = settings.options? e.descriptor.id) →
      registry.select other only = registry.select settings only) ∧
    (∀ other, settings.Reorders other → registry.select other only = registry.select settings only) := by
  refine ⟨fun _ => own.select_eq_iff, fun _ => own.of_select, ?_, ?_⟩
  · intro other ids enabled options
    refine own.select_congr ids enabled fun e chosen => ?_
    rw [RuleEntry.instantiate, RuleEntry.instantiate, options e chosen]
  · intro other reorders
    exact own.select_congr reorders.ids reorders.isEnabled fun e _ => reorders.instantiate e

/-- An entry that makes rules without handlers. -/
def silentEntry (id code : String) : RuleEntry :=
  ⟨⟨id, code, .problem, "", true, [], []⟩, fun _ => .ok ⟨⟨id, code, .problem, "", true, [], []⟩, fun _ => .empty⟩⟩

/-- Two entries share an id. -/
def silentRegistry : Registry :=
  [silentEntry "cache" "A1", silentEntry "time" "A2", silentEntry "cache" "A3"]

/-- One rule is switched off, with an option that it does not take. -/
def timeless : Settings :=
  ⟨none, .default, [("time", ⟨some false, none, [("strict", .boolean true)]⟩), ("cache", ⟨none, none, []⟩)]⟩

theorem select_settled_silentRegistry :
    (∃ rules, silentRegistry.select timeless (some ["A3", "time", "cache", "A1"]) = .ok rules ∧
        rules.map (·.descriptor.code) = ["A3"]) ∧
      silentRegistry.select timeless (some ["A2", "nobody"]) = .error (.unknownRule "nobody") ∧
      silentRegistry.select { timeless with rules := timeless.rules.reverse } none =
        silentRegistry.select timeless none := by
  have own : silentRegistry.MakesOwn := by
    intro e inside options rule made
    obtain ⟨id, code, rfl⟩ : ∃ id code, e = silentEntry id code := by
      simp only [silentRegistry, List.mem_cons, List.not_mem_nil, or_false] at inside
      rcases inside with rfl | rfl | rfl <;> exact ⟨_, _, rfl⟩
    cases made
    rfl
  have admitted : silentRegistry.Admits timeless := by
    simp [Admits, Unregistered, timeless, silentRegistry, silentEntry]
  refine ⟨?_, ?_, ?_⟩
  · have chosen : silentRegistry.chosen timeless (some ["A3", "time", "cache", "A1"]) =
        [silentEntry "cache" "A3"] := by
      simp [Registry.chosen, found, find, active, firstOfEachId, silentRegistry, silentEntry, Descriptor.isCalled,
        timeless, Settings.isEnabled, Settings.rule?, List.lookup_cons]
    obtain ⟨options, resolved⟩ : ∃ options, RuleOptions.resolve "cache" [] [] = .ok options :=
      RuleOptions.exists_resolve_iff.mpr ⟨by simp, by simp⟩
    refine ⟨[⟨⟨"cache", "A3", .problem, "", true, [], []⟩, fun _ => .empty⟩], ?_, rfl⟩
    refine ((select_settled own timeless _).1 _).mpr (.made admitted ?_ ?_)
    · intro names given
      obtain rfl := Option.some.inj given
      simp [Knows, silentRegistry, silentEntry, Descriptor.isCalled]
    · rw [chosen]
      refine .cons ?_ .nil
      change RuleOptions.resolve "cache" [] [] >>= _ = _
      rw [resolved]
      rfl
  · have split : some ["A2", "nobody"] = some (["A2"] ++ "nobody" :: []) := rfl
    refine ((select_settled own timeless _).1 _).mpr (.unknown admitted split ?_ ?_)
    · simp [Knows, silentRegistry, silentEntry, Descriptor.isCalled]
    · simp [Unknown, silentRegistry, silentEntry, Descriptor.isCalled]
  · refine (select_settled own timeless none).2.2.2 _ ⟨rfl, rfl, by simp [timeless], ?_, ?_⟩
    · exact (List.reverse_perm _).symm.map _
    · intro entry inside
      refine ⟨entry.2, List.mem_reverse.mpr inside, rfl, rfl, ?_, .refl _⟩
      simp only [timeless, List.mem_cons, List.not_mem_nil, or_false] at inside
      rcases inside with rfl | rfl <;> simp

end Registry

end ArchLint
