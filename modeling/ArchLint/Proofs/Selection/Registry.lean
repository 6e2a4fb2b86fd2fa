import ArchLint.Proofs.Lists
import ArchLint.Proofs.Visits.Decoration
import Mathlib.Data.List.Nodup
import Mathlib.Data.List.Perm.Basic

/-!
# Selections from a registry

In a registry whose names are clear, a selection makes the rules that it names, whatever the order in which it names
them and however often.
-/

namespace ArchLint

namespace Registry

/-- Whether a list of names picks the rule of an id. -/
def picks (registry : Registry) (names : List String) (id : String) : Bool :=
  List.any registry fun e => e.descriptor.id = id && names.any e.descriptor.isCalled

/-- Every name of a list is the id or the code of a rule. -/
def Knows (registry : Registry) (names : List String) : Prop :=
  ∀ name ∈ names, ∃ e ∈ registry, e.descriptor.isCalled name = true

/-- Rules go by their own names, and no name stands for two of them. -/
structure Clear (registry : Registry) : Prop where
  ids : (registry.map (·.descriptor.id)).Nodup
  codes : (registry.map (·.descriptor.code)).Nodup
  names : ∀ e ∈ registry, ∀ k ∈ registry, ∀ name, e.descriptor.isCalled name → k.descriptor.isCalled name → e = k
  makes : ∀ e ∈ registry, ∀ options rule, e.make options = .ok rule → rule.descriptor = e.descriptor

/-- Every entry makes rules that go by its own id. -/
def MakesOwn (registry : Registry) : Prop :=
  ∀ e ∈ registry, ∀ options rule, e.make options = .ok rule → rule.name = e.descriptor.id

theorem Clear.makesOwn {registry : Registry} (clear : registry.Clear) : registry.MakesOwn := by
  intro e inside options rule made
  rw [Rule.name, clear.makes e inside options rule made]

/-! ### Enabled entries, once each -/

/-- The entries without those that follow another one of their id. -/
def firstOfEachId : List RuleEntry → List RuleEntry
  | [] => []
  | e :: rest => e :: (firstOfEachId rest).filter fun k => k.descriptor.id ≠ e.descriptor.id

/-- The enabled entries, the first of each id. -/
def active (settings : Settings) (entries : List RuleEntry) : List RuleEntry :=
  firstOfEachId (entries.filter fun e => settings.isEnabled e.descriptor.id)

theorem firstOfEachId_sublist (entries : List RuleEntry) : (firstOfEachId entries).Sublist entries := by
  induction entries with
  | nil => exact .slnil
  | cons e rest ih => exact (List.filter_sublist.trans ih).cons_cons e

theorem nodup_firstOfEachId (entries : List RuleEntry) : ((firstOfEachId entries).map (·.descriptor.id)).Nodup := by
  induction entries with
  | nil => exact List.nodup_nil
  | cons e rest ih =>
    rw [firstOfEachId, List.map_cons, List.nodup_cons]
    refine ⟨?_, ih.sublist (List.filter_sublist.map _)⟩
    intro inside
    obtain ⟨k, there, same⟩ := List.mem_map.mp inside
    exact of_decide_eq_true (List.mem_filter.mp there).2 same

theorem exists_mem_firstOfEachId {entries : List RuleEntry} {e : RuleEntry} (inside : e ∈ entries) :
    ∃ k ∈ firstOfEachId entries, k.descriptor.id = e.descriptor.id := by
  induction entries with
  | nil => cases inside
  | cons first rest ih =>
    by_cases same : first.descriptor.id = e.descriptor.id
    · exact ⟨first, List.mem_cons_self, same⟩
    · rcases List.mem_cons.mp inside with rfl | later
      · exact absurd rfl same
      · obtain ⟨k, there, equal⟩ := ih later
        refine ⟨k, List.mem_cons_of_mem _ (List.mem_filter.mpr ⟨there, ?_⟩), equal⟩
        exact decide_eq_true fun taken => same (taken.symm.trans equal)

section

variable (settings : Settings) (entries : List RuleEntry)

theorem nodup_active : ((active settings entries).map (·.descriptor.id)).Nodup :=
  nodup_firstOfEachId _

theorem of_mem_active {e : RuleEntry} (inside : e ∈ active settings entries) :
    e ∈ entries ∧ settings.isEnabled e.descriptor.id = true :=
  List.mem_filter.mp ((firstOfEachId_sublist _).subset inside)

theorem exists_mem_active {e : RuleEntry} (inside : e ∈ entries)
    (enabled : settings.isEnabled e.descriptor.id = true) :
    ∃ k ∈ active settings entries, k.descriptor.id = e.descriptor.id :=
  exists_mem_firstOfEachId (List.mem_filter.mpr ⟨inside, enabled⟩)

theorem active_cons_of_enabled {e : RuleEntry} (enabled : settings.isEnabled e.descriptor.id = true) :
    active settings (e :: entries) =
      e :: (active settings entries).filter fun k => k.descriptor.id ≠ e.descriptor.id := by
  simp [active, enabled, firstOfEachId]

theorem active_cons_of_disabled {e : RuleEntry} (disabled : ¬settings.isEnabled e.descriptor.id = true) :
    active settings (e :: entries) = active settings entries := by
  simp [active, disabled]

end

variable {registry : Registry} {settings : Settings}

theorem Clear.eq_of_id (clear : registry.Clear) {e k : RuleEntry} (inE : e ∈ registry) (inK : k ∈ registry)
    (same : e.descriptor.id = k.descriptor.id) : e = k :=
  List.inj_on_of_nodup_map clear.ids inE inK same

theorem Clear.mem_active (clear : registry.Clear) {entries : List RuleEntry} (part : entries ⊆ registry)
    {e : RuleEntry} : e ∈ active settings entries ↔ e ∈ entries ∧ settings.isEnabled e.descriptor.id = true := by
  refine ⟨of_mem_active settings entries, ?_⟩
  rintro ⟨inside, enabled⟩
  obtain ⟨k, there, same⟩ := exists_mem_active settings entries inside enabled
  rw [← clear.eq_of_id (part (of_mem_active settings entries there).1) (part inside) same]
  exact there

/-! ### Named entries -/

theorem of_find_eq_some {name : String} {e : RuleEntry} (found : registry.find name = some e) :
    e ∈ registry ∧ e.descriptor.isCalled name = true :=
  ⟨List.mem_of_find?_eq_some found, List.find?_some (p := fun e : RuleEntry => e.descriptor.isCalled name) found⟩

theorem Clear.find_eq_some_iff (clear : registry.Clear) {name : String} {e : RuleEntry} :
    registry.find name = some e ↔ e ∈ registry ∧ e.descriptor.isCalled name = true := by
  refine ⟨of_find_eq_some, ?_⟩
  rintro ⟨inside, called⟩
  cases found : registry.find name with
  | none => exact absurd called (List.find?_eq_none.mp found e inside)
  | some k =>
    obtain ⟨there, calledToo⟩ := of_find_eq_some found
    rw [clear.names k there e inside name calledToo called]

theorem Clear.mem_chosen (clear : registry.Clear) {names : List String} {e : RuleEntry} :
    e ∈ names.filterMap registry.find ↔ e ∈ registry ∧ registry.picks names e.descriptor.id = true := by
  rw [List.mem_filterMap]
  constructor
  · rintro ⟨name, there, found⟩
    obtain ⟨inside, called⟩ := clear.find_eq_some_iff.mp found
    refine ⟨inside, List.any_eq_true.mpr ⟨e, inside, ?_⟩⟩
    rw [decide_eq_true rfl, Bool.true_and]
    exact List.any_eq_true.mpr ⟨name, there, called⟩
  · rintro ⟨inside, picked⟩
    obtain ⟨k, inK, both⟩ := List.any_eq_true.mp picked
    rw [Bool.and_eq_true, decide_eq_true_iff] at both
    obtain ⟨name, there, called⟩ := List.any_eq_true.mp both.2
    rw [clear.eq_of_id inK inside both.1] at called
    exact ⟨name, there, clear.find_eq_some_iff.mpr ⟨inside, called⟩⟩

theorem Clear.perm_active (clear : registry.Clear) (settings : Settings) (names : List String) :
    (active settings (names.filterMap registry.find)).Perm
      ((active settings registry).filter fun e => registry.picks names e.descriptor.id) := by
  have onceAll : (active settings registry).Nodup := List.Nodup.of_map _ (nodup_active settings registry)
  have onceSome := List.Nodup.of_map _ (nodup_active settings (names.filterMap registry.find))
  refine (List.perm_ext_iff_of_nodup onceSome (onceAll.filter _)).mpr ?_
  intro e
  rw [clear.mem_active fun _ inside => (clear.mem_chosen.mp inside).1, clear.mem_chosen, List.mem_filter,
    clear.mem_active fun _ inside => inside]
  exact and_right_comm

theorem exists_find_of_called {e : RuleEntry} (inside : e ∈ registry) {name : String}
    (called : e.descriptor.isCalled name = true) : ∃ k, registry.find name = some k := by
  cases found : registry.find name with
  | none => exact absurd called (List.find?_eq_none.mp found e inside)
  | some k => exact ⟨k, rfl⟩

theorem selected_of_knows {names : List String} (known : registry.Knows names) :
    registry.selected (some names) = .ok (names.filterMap registry.find) := by
  unfold selected
  induction names with
  | nil => rfl
  | cons name names ih =>
    obtain ⟨⟨e, inside, called⟩, others⟩ := List.forall_mem_cons.mp known
    obtain ⟨k, found⟩ := exists_find_of_called inside called
    have rest := ih others
    dsimp only at rest ⊢
    rw [List.mapM_cons, found, rest, List.filterMap_cons_some found]
    rfl

/-- A selection stops at its first name that no rule goes by. -/
theorem selected_of_unknown {before after : List String} {name : String} (known : registry.Knows before)
    (unknown : ∀ e ∈ registry, e.descriptor.isCalled name = false) :
    registry.selected (some (before ++ name :: after)) = .error (.unknownRule name) := by
  have missing : registry.find name = none := by
    refine List.find?_eq_none.mpr fun e inside => ?_
    rw [unknown e inside]
    exact Bool.false_ne_true
  refine mapM_eq_error_iff.mpr ⟨before, name, after, rfl, ?_, by rw [missing]⟩
  intro other inside
  obtain ⟨e, there, called⟩ := known other inside
  obtain ⟨k, found⟩ := exists_find_of_called there called
  exact ⟨k, by rw [found]⟩

theorem knows_or_unknown (registry : Registry) (names : List String) : registry.Knows names ∨
    ∃ before name after, names = before ++ name :: after ∧ registry.Knows before ∧
      ∀ e ∈ registry, e.descriptor.isCalled name = false := by
  induction names with
  | nil => exact Or.inl fun _ inside => absurd inside List.not_mem_nil
  | cons name names ih =>
    by_cases called : ∃ e ∈ registry, e.descriptor.isCalled name = true
    · rcases ih with known | ⟨before, other, after, rfl, known, unknown⟩
      · exact Or.inl (List.forall_mem_cons.mpr ⟨called, known⟩)
      · exact Or.inr ⟨name :: before, other, after, rfl, List.forall_mem_cons.mpr ⟨called, known⟩, unknown⟩
    · refine Or.inr ⟨[], name, names, rfl, fun _ inside => absurd inside List.not_mem_nil, fun e inside => ?_⟩
      exact Bool.eq_false_iff.mpr fun called' => called ⟨e, inside, called'⟩

theorem selected_subset {only : Option (List String)} {entries : List RuleEntry}
    (succeeded : registry.selected only = .ok entries) : entries ⊆ registry := by
  unfold selected at succeeded
  split at succeeded
  · exact Except.ok.inj succeeded ▸ List.Subset.refl _
  · intro e inside
    obtain ⟨name, -, found⟩ := exists_of_forall₂ (mapM_eq_ok_iff.mp succeeded).flip inside
    split at found
    · next k called =>
      obtain rfl := Except.ok.inj found
      exact (of_find_eq_some called).1
    · cases found

/-! ### Entries of new ids -/

/-- No rule goes by the entry's id. -/
def isNew (rules : List Rule) (e : RuleEntry) : Bool :=
  !rules.any (·.name = e.descriptor.id)

section

variable {e : RuleEntry} {kept : List Rule}

/-- Once a rule of an id is there, entries of this id are left out like those of the rules before. -/
theorem filter_isNew_of_known (known : ¬isNew kept e = true) (entries : List RuleEntry) :
    (entries.filter fun k => k.descriptor.id ≠ e.descriptor.id).filter (isNew kept) = entries.filter (isNew kept) := by
  rw [List.filter_filter]
  apply List.filter_congr
  intro k _
  by_cases same : k.descriptor.id = e.descriptor.id
  · have knownToo : isNew kept k = isNew kept e := by rw [isNew, isNew, same]
    simp [knownToo, known]
  · simp [same]

theorem filter_isNew_concat {rule : Rule} (named : rule.name = e.descriptor.id) (entries : List RuleEntry) :
    (entries.filter fun k => k.descriptor.id ≠ e.descriptor.id).filter (isNew kept) =
      entries.filter (isNew (kept ++ [rule])) := by
  rw [List.filter_filter]
  apply List.filter_congr
  intro k _
  simp [isNew, named, eq_comm (a := e.descriptor.id), Bool.and_comm]

end

end Registry

/-! ### Rules made -/

variable [Pattern.Reader]

/-- The rule that an entry makes, or an idle one where the settings do not fit. -/
def RuleEntry.made (e : RuleEntry) (settings : Settings) : Rule :=
  match e.instantiate settings with
  | .ok rule => rule
  | .error _ => ⟨e.descriptor, fun _ => .empty⟩

namespace Registry

variable {registry : Registry} {settings : Settings}

theorem mapM_instantiate_eq_ok_iff {entries : List RuleEntry} {rules : List Rule} :
    entries.mapM (·.instantiate settings) = .ok rules ↔
      (∀ e ∈ entries, e.instantiate settings = .ok (e.made settings)) ∧ rules = entries.map (·.made settings) := by
  have each : (fun (e : RuleEntry) rule => e.instantiate settings = .ok rule) = fun e rule =>
      e.instantiate settings = .ok (e.made settings) ∧ e.made settings = rule := by
    funext e rule
    refine propext ⟨?_, ?_⟩
    · intro made
      have same : e.made settings = rule := by rw [RuleEntry.made, made]
      exact ⟨same ▸ made, same⟩
    · rintro ⟨made, rfl⟩
      exact made
  rw [mapM_eq_ok_iff, each, List.forall₂_and_left, ← List.forall₂_map_left_iff (R := Eq), List.forall₂_eq_eq_eq,
    eq_comm (a := rules)]

theorem resolve_of_instantiate {e : RuleEntry} {rule : Rule} (made : e.instantiate settings = .ok rule) :
    ∃ options, RuleOptions.resolve e.descriptor.id e.descriptor.schema
        ((settings.options? e.descriptor.id).getD []) = .ok options ∧ e.make options = .ok rule := by
  unfold RuleEntry.instantiate at made
  dsimp only at made
  cases resolved : RuleOptions.resolve e.descriptor.id e.descriptor.schema
      ((settings.options? e.descriptor.id).getD []) with
  | error cause =>
    rw [resolved] at made
    exact absurd made (by simp [bind, Except.bind])
  | ok options =>
    rw [resolved] at made
    exact ⟨options, rfl, made⟩

theorem instantiate_eq_ok {e : RuleEntry} {rule : Rule} (made : e.instantiate settings = .ok rule) :
    ∃ options, e.make options = .ok rule :=
  (resolve_of_instantiate made).imp fun _ both => both.2

theorem Clear.descriptor_made (clear : registry.Clear) {e : RuleEntry} (inside : e ∈ registry) :
    (e.made settings).descriptor = e.descriptor := by
  unfold RuleEntry.made
  cases made : e.instantiate settings with
  | error _ => rfl
  | ok rule =>
    obtain ⟨options, built⟩ := instantiate_eq_ok made
    exact clear.makes e inside options rule built

/-! ### Selections -/

section

variable (settings : Settings) {e : RuleEntry} {kept : List Rule}

theorem takeUp_of_disabled (disabled : ¬settings.isEnabled e.descriptor.id = true) :
    takeUp settings kept e = .ok kept := by
  simp [takeUp, disabled]

theorem takeUp_of_known (known : ¬isNew kept e = true) : takeUp settings kept e = .ok kept := by
  have there : kept.any (·.name = e.descriptor.id) = true := by simpa [isNew] using known
  rw [takeUp, if_pos there]
  split <;> rfl

theorem takeUp_of_new (enabled : settings.isEnabled e.descriptor.id = true) (new : isNew kept e = true) :
    takeUp settings kept e = e.instantiate settings >>= fun rule => .ok (kept ++ [rule]) := by
  have missing : ¬kept.any (·.name = e.descriptor.id) = true := by simpa [isNew] using new
  rw [takeUp, if_neg (by simp [enabled]), if_neg missing]
  rfl

end

/-- Taking entries up one by one comes to making those that are active, but for the ids of the rules so far. -/
theorem foldlM_takeUp (settings : Settings) {entries : List RuleEntry}
    (own : ∀ e ∈ entries, ∀ options rule, e.make options = .ok rule → rule.name = e.descriptor.id) (kept : List Rule) :
    entries.foldlM (takeUp settings) kept =
      ((active settings entries).filter (isNew kept)).mapM (·.instantiate settings) >>= fun made =>
        .ok (kept ++ made) := by
  induction entries generalizing kept with
  | nil => simp [active, firstOfEachId, bind, Except.bind, pure, Except.pure]
  | cons e rest ih =>
    obtain ⟨first, others⟩ := List.forall_mem_cons.mp own
    rw [List.foldlM_cons]
    by_cases enabled : settings.isEnabled e.descriptor.id = true
    · rw [active_cons_of_enabled settings rest enabled]
      by_cases new : isNew kept e = true
      · rw [takeUp_of_new settings enabled new, List.filter_cons_of_pos new, List.mapM_cons]
        cases made : e.instantiate settings with
        | error cause => rfl
        | ok rule =>
          obtain ⟨options, built⟩ := instantiate_eq_ok made
          rw [filter_isNew_concat (first options rule built)]
          change rest.foldlM (takeUp settings) (kept ++ [rule]) = _
          rw [ih others]
          cases ((active settings rest).filter (isNew (kept ++ [rule]))).mapM (·.instantiate settings) with
          | error cause => rfl
          | ok rules => simp [bind, Except.bind, pure, Except.pure]
      · rw [takeUp_of_known settings new, List.filter_cons_of_neg new, filter_isNew_of_known new]
        exact ih others kept
    · rw [takeUp_of_disabled settings enabled, active_cons_of_disabled settings rest enabled]
      exact ih others kept

theorem select_of_refused {id : String} (only : Option (List String))
    (refused : RuleOptions.smallestRefused? (settings.rules.map (·.1))
      (fun id => registry.any (·.descriptor.id = id)) = some id) :
    registry.select settings only = .error (.unknownRule id) := by
  rw [select, refused]

theorem MakesOwn.select_of_accepted (own : registry.MakesOwn) (only : Option (List String))
    (accepted : RuleOptions.smallestRefused? (settings.rules.map (·.1))
      (fun id => registry.any (·.descriptor.id = id)) = none) :
    registry.select settings only =
      registry.selected only >>= fun entries => (active settings entries).mapM (·.instantiate settings) := by
  rw [select, accepted]
  cases chosen : registry.selected only with
  | error cause => rfl
  | ok entries =>
    have ownToo : ∀ e ∈ entries, ∀ options rule, e.make options = .ok rule → rule.name = e.descriptor.id :=
      fun e inside => own e (selected_subset chosen inside)
    have all : (active settings entries).filter (isNew []) = active settings entries := by simp [isNew]
    change entries.foldlM (takeUp settings) [] = List.mapM (·.instantiate settings) (active settings entries)
    rw [foldlM_takeUp settings ownToo, all]
    cases List.mapM (·.instantiate settings) (active settings entries) <;> simp [bind, Except.bind]

theorem select_of_unknown {before after : List String} {name : String} (known : registry.Knows before)
    (unknown : ∀ e ∈ registry, e.descriptor.isCalled name = false)
    (accepted : RuleOptions.smallestRefused? (settings.rules.map (·.1))
      (fun id => registry.any (·.descriptor.id = id)) = none) :
    registry.select settings (some (before ++ name :: after)) = .error (.unknownRule name) := by
  rw [select, accepted, selected_of_unknown known unknown]
  rfl

theorem MakesOwn.select_none_eq_ok_iff (own : registry.MakesOwn) {rules : List Rule} :
    registry.select settings none = .ok rules ↔
      RuleOptions.smallestRefused? (settings.rules.map (·.1)) (fun id => registry.any (·.descriptor.id = id)) = none ∧
        (∀ e ∈ active settings registry, e.instantiate settings = .ok (e.made settings)) ∧
          rules = (active settings registry).map (·.made settings) := by
  cases found : RuleOptions.smallestRefused? (settings.rules.map (·.1)) fun id =>
      registry.any (·.descriptor.id = id) with
  | some id => simp [select_of_refused none found]
  | none =>
    rw [own.select_of_accepted none found, ← mapM_instantiate_eq_ok_iff]
    simp [selected, bind, Except.bind]

theorem Clear.select_some (clear : registry.Clear) {rules : List Rule}
    (whole : registry.select settings none = .ok rules) {names : List String} (known : registry.Knows names) :
    ∃ part, registry.select settings (some names) = .ok part ∧
      part.Perm (rules.filter fun rule => registry.picks names rule.name) := by
  obtain ⟨accepted, fits, rfl⟩ := clear.makesOwn.select_none_eq_ok_iff.mp whole
  have perm := clear.perm_active settings names
  have made : (active settings (names.filterMap registry.find)).mapM (·.instantiate settings) =
      .ok ((active settings (names.filterMap registry.find)).map (·.made settings)) := by
    refine mapM_instantiate_eq_ok_iff.mpr ⟨?_, rfl⟩
    intro e inside
    exact fits e (List.mem_of_mem_filter (perm.mem_iff.mp inside))
  refine ⟨(active settings (names.filterMap registry.find)).map (·.made settings), ?_, ?_⟩
  · rw [clear.makesOwn.select_of_accepted _ accepted, selected_of_knows known]
    exact made
  · have named : ((active settings registry).map (·.made settings)).filter
          (fun rule => registry.picks names rule.name) =
        ((active settings registry).filter fun e => registry.picks names e.descriptor.id).map (·.made settings) := by
      rw [List.filter_map]
      congr 1
      apply List.filter_congr
      intro e inside
      rw [Function.comp_apply, Rule.name, clear.descriptor_made (of_mem_active settings registry inside).1]
    rw [named]
    exact perm.map _

end Registry

end ArchLint
