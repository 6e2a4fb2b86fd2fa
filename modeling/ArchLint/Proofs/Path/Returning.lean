import ArchLint.Proofs.Path.Relative
import ArchLint.Rule.Context

/-!
# Paths that lead back

Steps that end where they start fold away, and no others do. A relative path of such steps is all that a project sees as
a blank path: below a root there is always a name left, and outside of it the whole normal form is kept.
-/

namespace ArchLint.Path

/-- Steps that end where they start: each `..` takes a name back, and each name is taken back. -/
inductive Returns : List Component → Prop
  | stay : Returns []
  | excursion {inner rest : List Component} (name : String) :
    Returns inner → Returns rest → Returns (.name name :: (inner ++ .parent :: rest))

/-! ### Folding -/

theorem Returns.foldl_foldStep {steps : List Component} (returns : Returns steps) (kept : List Component) :
    steps.foldl foldStep kept = kept := by
  induction returns generalizing kept with
  | stay => rfl
  | excursion name _ _ inner rest =>
    rw [List.foldl_cons, List.foldl_append, inner, List.foldl_cons, rest]
    rfl

theorem Returns.foldl_excursion {inner : List Component} (returns : Returns inner) (name : String)
    (rest kept : List Component) :
    (.name name :: (inner ++ .parent :: rest)).foldl foldStep kept = rest.foldl foldStep kept := by
  rw [List.foldl_cons, List.foldl_append, returns.foldl_foldStep]
  rfl

/-- What follows a name takes it back after steps that return, or leaves it where it is. -/
theorem taken_back_or_kept {steps : List Component} (plain : ∀ c ∈ steps, c.Plain) (name : String) :
    (∃ inner rest, Returns inner ∧ steps = inner ++ .parent :: rest) ∨
      ∃ top, ∀ kept, steps.foldl foldStep (.name name :: kept) = top ++ .name name :: kept := by
  induction counted : steps.length using Nat.strongRecOn generalizing steps name with
  | ind count ih =>
    cases steps with
    | nil => exact Or.inr ⟨[], fun _ => rfl⟩
    | cons c steps =>
      obtain ⟨first, others⟩ := List.forall_mem_cons.mp plain
      rw [List.length_cons] at counted
      cases c with
      | root => exact absurd first Component.not_plain_root
      | current => exact absurd rfl first.not_blank.2
      | parent => exact Or.inl ⟨[], steps, .stay, rfl⟩
      | name text =>
        rcases ih steps.length (by omega) others text rfl with ⟨inner, rest, returns, rfl⟩ | ⟨top, stays⟩
        · -- The second name is taken back, so the first one is on top again.
          obtain ⟨-, later⟩ := List.forall_mem_cons.mp (List.forall_mem_append.mp others).2
          have shorter : rest.length < count := by
            rw [List.length_append, List.length_cons] at counted
            omega
          rcases ih rest.length shorter later name rfl with ⟨inner', rest', returns', rfl⟩ | ⟨top, stays⟩
          · refine Or.inl ⟨.name text :: (inner ++ .parent :: inner'), rest', .excursion text returns returns', ?_⟩
            simp
          · refine Or.inr ⟨top, ?_⟩
            intro kept
            rw [returns.foldl_excursion, stays]
        · refine Or.inr ⟨top ++ [.name text], ?_⟩
          intro kept
          rw [List.foldl_cons, List.append_assoc]
          exact stays (.name name :: kept)

theorem parent_mem_foldStep {kept : List Component} (inside : .parent ∈ kept) (c : Component) :
    .parent ∈ foldStep kept c := by
  cases c with
  | current => exact inside
  | root | name text => exact List.mem_cons_of_mem _ inside
  | parent =>
    cases kept with
    | nil => cases inside
    | cons last kept =>
      cases last with
      | root => exact inside
      | current | parent => exact List.mem_cons_self
      | name text =>
        rcases List.mem_cons.mp inside with same | below
        · cases same
        · exact below

theorem parent_mem_foldl {steps kept : List Component} (inside : .parent ∈ kept) :
    .parent ∈ steps.foldl foldStep kept := by
  induction steps generalizing kept with
  | nil => exact inside
  | cons c steps ih => exact ih (parent_mem_foldStep inside c)

theorem foldl_foldStep_eq_nil_iff {steps : List Component} (plain : ∀ c ∈ steps, c.Plain) :
    steps.foldl foldStep [] = [] ↔ Returns steps := by
  refine ⟨?_, fun returns => returns.foldl_foldStep []⟩
  induction counted : steps.length using Nat.strongRecOn generalizing steps with
  | ind count ih =>
    intro folded
    cases steps with
    | nil => exact .stay
    | cons c steps =>
      obtain ⟨first, others⟩ := List.forall_mem_cons.mp plain
      rw [List.length_cons] at counted
      cases c with
      | root => exact absurd first Component.not_plain_root
      | current => exact absurd rfl first.not_blank.2
      | parent =>
        -- A `..` at the bottom is never taken back.
        have bottom : .parent ∈ steps.foldl foldStep [.parent] := parent_mem_foldl List.mem_cons_self
        rw [show steps.foldl foldStep [.parent] = [] from folded] at bottom
        cases bottom
      | name text =>
        rcases taken_back_or_kept others text with ⟨inner, rest, returns, rfl⟩ | ⟨top, stays⟩
        · rw [returns.foldl_excursion] at folded
          obtain ⟨-, later⟩ := List.forall_mem_cons.mp (List.forall_mem_append.mp others).2
          have shorter : rest.length < count := by
            rw [List.length_append, List.length_cons] at counted
            omega
          exact .excursion text returns (ih rest.length shorter later rfl folded)
        · have left : (Component.name text :: steps).foldl foldStep [] = top ++ [.name text] := stays []
          rw [folded] at left
          exact absurd left.symm (List.append_ne_nil_of_right_ne_nil _ (List.cons_ne_nil _ _))

/-! ### What a project sees -/

theorem components_normalize_eq_nil_iff (p : Path) :
    p.normalize.components = [] ↔ p.isAbsolute = false ∧ Returns p.steps := by
  cases absolute : p.isAbsolute with
  | true =>
    obtain ⟨place, named, folded⟩ := normalize_of_absolute absolute
    rw [folded, components_ofPlace named]
    exact iff_of_false (List.cons_ne_nil _ _) fun ⟨relative, _⟩ => Bool.noConfusion relative
  | false =>
    rw [components_normalize_eq_stack, List.reverse_eq_nil_iff, stack_of_relative absolute,
      foldl_foldStep_eq_nil_iff p.plain_steps]
    exact (and_iff_right rfl).symm

theorem components_relativeTo_eq_nil_iff (p root : Path) :
    (p.relativeTo root).components = [] ↔ p.normalize.components = [] := by
  by_cases below : p.StrictlyBelow root
  · obtain ⟨⟨rest, split⟩, strict⟩ := below
    have further : rest ≠ [] := by
      rintro rfl
      exact strict (by rw [← split, List.append_nil])
    have folded := folded_normalize p
    rw [← split] at folded
    rw [relativeTo_of_below further split.symm, components_ofComponents folded.right.spelled, ← split]
    simp [further]
  · rw [relativeTo_of_outside below]

theorem relativeTo_eq_blank_iff (p root : Path) :
    (p.relativeTo root).text = "" ↔ p.normalize.components = [] := by
  rw [← components_relativeTo_eq_nil_iff p root]
  constructor
  · exact components_of_blank
  · intro none
    rw [relativeTo_eq_ofComponents, none]
    rfl

/-- A project sees a path as blank exactly if the path is relative and its steps lead back to where they start, whatever
the root. A path with a file name is never blank to a project. -/
theorem relativeTo_blank_iff_returns (p root : Path) (content : String) :
    ((p.relativeTo root).text = "" ↔ p.isAbsolute = false ∧ Returns p.steps) ∧
    ((SourceFile.within root p content).relativePath.text = "" ↔ p.isAbsolute = false ∧ Returns p.steps) ∧
    (p.fileName?.isSome = true → (SourceFile.within root p content).relativePath.text ≠ "") := by
  have seen : (p.relativeTo root).text = "" ↔ p.isAbsolute = false ∧ Returns p.steps := by
    rw [relativeTo_eq_blank_iff, components_normalize_eq_nil_iff]
  refine ⟨seen, seen, ?_⟩
  intro file blank
  obtain ⟨name, named⟩ := Option.isSome_iff_exists.mp file
  have none := (relativeTo_eq_blank_iff p root).mp blank
  have kept := fileName?_normalize named
  rw [fileName?, none] at kept
  cases kept

theorem relativeTo_blank_iff_returns_file :
    (⟨"lib/../clock.ts"⟩ : Path).fileName?.isSome = true ∧
      (SourceFile.within ⟨"lib/.."⟩ ⟨"lib/../clock.ts"⟩ "").relativePath.text ≠ "" := by
  have file : (⟨"lib/../clock.ts"⟩ : Path).fileName?.isSome = true := by decide +kernel
  exact ⟨file, (relativeTo_blank_iff_returns ⟨"lib/../clock.ts"⟩ ⟨"lib/.."⟩ "").2.2 file⟩

/-- Not every path that is not blank stays so: one that goes into a directory and out again does not. -/
theorem relativeTo_blank_of_excursion :
    (⟨"src/.."⟩ : Path).text ≠ "" ∧ (Path.relativeTo ⟨"src/.."⟩ ⟨"/repo"⟩).text = "" ∧
      (SourceFile.within ⟨"/repo"⟩ ⟨"src/.."⟩ "").relativePath.text = "" := by
  decide +kernel

end ArchLint.Path
