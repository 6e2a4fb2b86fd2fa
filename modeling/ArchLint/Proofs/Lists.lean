import Mathlib.Data.List.Forall2
import Mathlib.Data.List.Nodup

/-!
# Runs over lists

Runs that must succeed at every item, lookups among entries with distinct keys, and searches that start at the end.
-/

namespace ArchLint

/-! ### Runs -/

theorem bind_of_eq_some {α β : Type} {x : Option α} {a : α} (found : x = some a) (next : α → Option β) :
    x >>= next = next a := by
  rw [found]
  rfl

theorem bind_bind_of_eq_some {α β γ : Type} {x : Option α} {a : α} {read : α → Option β} {b : β} (found : x = some a)
    (readable : read a = some b) (next : β → Option γ) : (x >>= fun a => read a >>= next) = next b := by
  rw [bind_of_eq_some found, bind_of_eq_some readable]

theorem of_bind {ε α β : Type} {x : Except ε α} {next : α → Except ε β} {b : β} (succeeded : x >>= next = .ok b) :
    ∃ a, x = .ok a ∧ next a = .ok b := by
  cases x with
  | error e => cases succeeded
  | ok a => exact ⟨a, rfl, succeeded⟩

theorem error_of_bind {ε α β : Type} {x : Except ε α} {next : α → Except ε β} {e : ε}
    (failed : x >>= next = .error e) : x = .error e ∨ ∃ a, x = .ok a ∧ next a = .error e := by
  cases x with
  | error cause =>
    obtain rfl := Except.error.inj failed
    exact Or.inl rfl
  | ok a => exact Or.inr ⟨a, rfl, failed⟩

theorem mapM_of_forall₂ {m : Type → Type} [Monad m] [LawfulMonad m] {α β : Type} {f : α → m β} {xs : List α}
    {ys : List β} (each : List.Forall₂ (fun x y => f x = pure y) xs ys) : xs.mapM f = pure ys := by
  induction each with
  | nil => rfl
  | cons here _ ih => rw [List.mapM_cons, here, pure_bind, ih, pure_bind]

theorem mapM_eq_ok_iff {ε α β : Type} {f : α → Except ε β} {xs : List α} {ys : List β} :
    xs.mapM f = .ok ys ↔ List.Forall₂ (fun x y => f x = .ok y) xs ys := by
  constructor
  · intro answered
    induction xs generalizing ys with
    | nil =>
      obtain rfl := Except.ok.inj answered
      exact .nil
    | cons x xs ih =>
      rw [List.mapM_cons] at answered
      obtain ⟨y, first, answered⟩ := of_bind answered
      obtain ⟨more, rest, answered⟩ := of_bind answered
      obtain rfl := Except.ok.inj answered
      exact .cons first (ih rest)
  · exact mapM_of_forall₂

theorem mapM_eq_error_iff {ε α β : Type} {f : α → Except ε β} {xs : List α} {e : ε} :
    xs.mapM f = .error e ↔
      ∃ before x after, xs = before ++ x :: after ∧ (∀ y ∈ before, ∃ b, f y = .ok b) ∧ f x = .error e := by
  induction xs with
  | nil =>
    constructor
    · intro failed
      cases failed
    · rintro ⟨before, x, after, split, -⟩
      cases before <;> cases split
  | cons first xs ih =>
    rw [List.mapM_cons]
    cases here : f first with
    | error cause =>
      constructor
      · intro failed
        obtain rfl := Except.error.inj failed
        exact ⟨[], first, xs, rfl, fun _ inside => absurd inside List.not_mem_nil, here⟩
      · rintro ⟨before, x, after, split, fine, failed⟩
        rcases List.cons_eq_append_iff.mp split with ⟨rfl, same⟩ | ⟨earlier, rfl, -⟩
        · obtain ⟨rfl, -⟩ := List.cons.inj same
          obtain rfl := Except.error.inj (here.symm.trans failed)
          rfl
        · obtain ⟨b, passed⟩ := fine first List.mem_cons_self
          rw [here] at passed
          cases passed
    | ok b =>
      have later : (Except.ok b >>= fun b => xs.mapM f >>= fun bs => pure (b :: bs)) = .error e ↔
          xs.mapM f = .error e := by
        cases xs.mapM f <;> simp [bind, Except.bind, pure, Except.pure]
      rw [later, ih]
      constructor
      · rintro ⟨before, x, after, rfl, fine, failed⟩
        exact ⟨first :: before, x, after, rfl, List.forall_mem_cons.mpr ⟨⟨b, here⟩, fine⟩, failed⟩
      · rintro ⟨before, x, after, split, fine, failed⟩
        rcases List.cons_eq_append_iff.mp split with ⟨rfl, same⟩ | ⟨earlier, rfl, rest⟩
        · obtain ⟨rfl, -⟩ := List.cons.inj same
          rw [here] at failed
          cases failed
        · exact ⟨earlier, x, after, rest, (List.forall_mem_cons.mp fine).2, failed⟩

theorem of_bind_return {ε α β : Type} {x : Except ε α} {f : α → β} {b : β}
    (succeeded : (do return f (← x) : Except ε β) = .ok b) : ∃ a, x = .ok a ∧ f a = b := by
  obtain ⟨a, found, last⟩ := of_bind succeeded
  exact ⟨a, found, Except.ok.inj last⟩

theorem of_bind_return_error {ε α β : Type} {x : Except ε α} {f : α → β} {e : ε}
    (failed : (do return f (← x) : Except ε β) = .error e) : x = .error e := by
  rcases error_of_bind failed with here | ⟨a, -, last⟩
  · exact here
  · cases last

theorem bind_return_eq_error_iff {ε α β : Type} {x : Except ε α} {f : α → β} {e : ε} :
    (do return f (← x) : Except ε β) = .error e ↔ x = .error e := by
  refine ⟨of_bind_return_error, ?_⟩
  rintro rfl
  rfl

theorem of_map_toOption {ε α β : Type} {x : Except ε α} {f : α → β} {b : β} (seen : x.toOption.map f = some b) :
    ∃ a, x = .ok a ∧ f a = b := by
  cases x with
  | error e => cases seen
  | ok a => exact ⟨a, rfl, Option.some.inj seen⟩

theorem mapError_eq_ok_iff {ε δ α : Type} {x : Except ε α} {f : ε → δ} {a : α} :
    x.mapError f = .ok a ↔ x = .ok a := by
  cases x <;> simp [Except.mapError]

theorem error_of_mapError {ε δ α : Type} {x : Except ε α} {f : ε → δ} {e : δ} (failed : x.mapError f = .error e) :
    ∃ cause, x = .error cause ∧ f cause = e := by
  cases x with
  | error cause => exact ⟨cause, rfl, Except.error.inj failed⟩
  | ok a => cases failed

theorem exists_of_forall₂ {α β : Type} {R : α → β → Prop} {xs : List α} {ys : List β} (side : List.Forall₂ R xs ys)
    {x : α} (inside : x ∈ xs) : ∃ y ∈ ys, R x y := by
  induction side with
  | nil => cases inside
  | @cons first y xs ys here _ ih =>
    rcases List.mem_cons.mp inside with rfl | later
    · exact ⟨y, List.mem_cons_self, here⟩
    · obtain ⟨other, there, related⟩ := ih later
      exact ⟨other, List.mem_cons_of_mem _ there, related⟩

/-! ### Lookups -/

theorem lookup_of_nodup {β : Type} {entries : List (String × β)} (distinct : (entries.map (·.1)).Nodup) {key : String}
    {value : β} (inside : (key, value) ∈ entries) : entries.lookup key = some value := by
  obtain ⟨before, after, rfl⟩ := List.append_of_mem inside
  refine List.lookup_eq_some_iff.mpr ⟨before, after, rfl, ?_⟩
  intro entry earlier
  rw [List.map_append, List.map_cons, List.nodup_append'] at distinct
  have apart := List.disjoint_left.mp distinct.2.2 (List.mem_map_of_mem earlier)
  rw [bne_iff_ne]
  rintro rfl
  exact apart List.mem_cons_self

theorem lookup_of_perm {β : Type} {entries others : List (String × β)} (distinct : (entries.map (·.1)).Nodup)
    (perm : entries.Perm others) (key : String) : others.lookup key = entries.lookup key := by
  cases found : entries.lookup key with
  | some value =>
    obtain ⟨before, after, rfl, -⟩ := List.lookup_eq_some_iff.mp found
    refine lookup_of_nodup ((perm.map (·.1)).nodup_iff.mp distinct) (perm.mem_iff.mp ?_)
    exact List.mem_append_right _ List.mem_cons_self
  | none =>
    rw [List.lookup_eq_none_iff] at found ⊢
    exact fun entry inside => found entry (perm.mem_iff.mpr inside)

/-- Entries that are left out do not matter to the keys of the others. -/
theorem lookup_filter {β : Type} {entries : List (String × β)} (keep : String → Bool) {key : String}
    (kept : keep key = true) : (entries.filter fun entry => keep entry.1).lookup key = entries.lookup key := by
  induction entries with
  | nil => rfl
  | cons entry entries ih =>
    rw [List.filter_cons, List.lookup_cons]
    split
    · rw [List.lookup_cons, ih]
    · next dropped =>
      have apart : (key == entry.1) = false := by
        rw [beq_eq_false_iff_ne]
        rintro rfl
        exact dropped kept
      rw [ih, apart]

theorem keys_zip_sublist {β : Type} (keys : List String) (values : List β) :
    ((keys.zip values).map (·.1)).Sublist keys := by
  induction keys generalizing values with
  | nil => exact .slnil
  | cons key keys ih =>
    cases values with
    | nil => exact List.nil_sublist _
    | cons value values => exact (ih values).cons_cons key

/-- A key is looked up by its place. The last keys may have no value. -/
theorem lookup_of_perm_zip {β : Type} {keys : List String} {values : List β} {entries : List (String × β)}
    (distinct : keys.Nodup) (same : entries.Perm (keys.zip values)) {place : Nat} {key : String}
    (known : keys[place]? = some key) : entries.lookup key = values[place]? := by
  cases found : values[place]? with
  | some value =>
    refine lookup_of_nodup ?_ (same.mem_iff.mpr ?_)
    · rw [(same.map (·.1)).nodup_iff]
      exact distinct.sublist (keys_zip_sublist keys values)
    · exact List.mem_of_getElem? (List.getElem?_zip_eq_some.mpr ⟨known, found⟩)
  | none =>
    rw [List.lookup_eq_none_iff]
    intro entry inside
    obtain ⟨other, there⟩ := List.getElem?_of_mem (same.mem_iff.mp inside)
    obtain ⟨knownOther, foundOther⟩ := List.getElem?_zip_eq_some.mp there
    rw [bne_iff_ne]
    rintro rfl
    have length : place < keys.length := (List.getElem?_eq_some_iff.mp known).1
    obtain rfl := (List.getElem?_inj length distinct).mp (known.trans knownOther.symm)
    rw [found] at foundOther
    cases foundOther

/-! ### Searches -/

theorem of_findSome?_reverse_range {α : Type} {f : Nat → Option α} {bound : Nat} {found : α}
    (met : (List.range bound).reverse.findSome? f = some found) :
    ∃ n < bound, f n = some found ∧ ∀ m < bound, n < m → f m = none := by
  induction bound with
  | zero => cases met
  | succ bound ih =>
    rw [List.range_succ, List.reverse_append, List.reverse_singleton, List.singleton_append, List.findSome?_cons] at met
    cases top : f bound with
    | some value =>
      rw [top] at met
      exact ⟨bound, Nat.lt_succ_self _, top.trans met, fun m small large => absurd large (by omega)⟩
    | none =>
      rw [top] at met
      obtain ⟨n, small, value, later⟩ := ih met
      refine ⟨n, by omega, value, fun m lower large => ?_⟩
      by_cases last : m = bound
      · exact last ▸ top
      · exact later m (by omega) large

end ArchLint
