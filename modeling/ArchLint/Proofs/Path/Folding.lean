import ArchLint.Proofs.Path.Places
import Mathlib.Data.List.Induction

/-!
# Folding and joining

Folding `..` works on a stack of steps, and folded steps do to any stack what the steps themselves do. So it does not
matter whether paths are joined before or after they are brought into normal form.
-/

namespace ArchLint

namespace Text

theorem fields_append_separator (sep : Char) (front rest : List Char) :
    fields sep (front ++ sep :: rest) = fields sep front ++ fields sep rest := by
  induction front with
  | nil => exact fields_separator sep rest
  | cons c front ih =>
    obtain ⟨piece, pieces, found⟩ := List.exists_cons_of_ne_nil (fields_ne_nil sep front)
    rw [List.cons_append, fields, fields, ih, found]
    split <;> rfl

theorem fieldsOf_of_append {sep : Char} {text front rest : String}
    (letters : text.toList = front.toList ++ sep :: rest.toList) :
    fieldsOf sep text = fieldsOf sep front ++ fieldsOf sep rest := by
  rw [fieldsOf, letters, fields_append_separator, List.map_append]
  rfl

theorem fieldsOf_append_separator (sep : Char) (front rest : String) :
    fieldsOf sep (front ++ String.singleton sep ++ rest) = fieldsOf sep front ++ fieldsOf sep rest :=
  fieldsOf_of_append (by simp)

end Text

namespace Path

/-- The steps of a path after the root or a leading `.`. -/
def steps (p : Path) : List Component :=
  p.segments.filterMap Component.ofSegment?

/-- What folding leaves of a path, the last step first. -/
def stack (p : Path) : List Component :=
  p.steps.foldl foldStep (if p.isAbsolute then [.root] else [])

theorem components_normalize_eq_stack (p : Path) : p.normalize.components = p.stack.reverse := by
  rw [components_normalize]
  unfold components foldDots stack
  dsimp only
  split
  · rfl
  · split <;> rfl

theorem normalize_eq_of_stack {p q : Path} (same : p.stack = q.stack) : p.normalize = q.normalize := by
  rw [normalize_eq p, normalize_eq q, components_normalize_eq_stack, components_normalize_eq_stack, same]

theorem isAbsolute_normalize (p : Path) : p.normalize.isAbsolute = p.isAbsolute := by
  obtain ⟨ups, names, -, spelled⟩ := canonical_normalize p
  rw [Bool.eq_iff_iff, isAbsolute_iff_root_mem, spelled]
  cases p.isAbsolute <;> simp

/-! ### Stacks -/

theorem foldl_reverse_cons (kept top : List Component) (c : Component) :
    (c :: top).reverse.foldl foldStep kept = foldStep (top.reverse.foldl foldStep kept) c := by
  rw [List.reverse_cons, List.foldl_append, List.foldl_cons, List.foldl_nil]

/-- What one step does to a folded stack it does to any stack that the folded steps are put on. -/
theorem foldl_reverse_foldStep {top : List Component} (canonical : Canonical false top.reverse) {c : Component}
    (plain : c.Plain) (kept : List Component) :
    (foldStep top c).reverse.foldl foldStep kept = foldStep (top.reverse.foldl foldStep kept) c := by
  cases c with
  | root => exact absurd plain Component.not_plain_root
  | current => rfl
  | name text => exact foldl_reverse_cons kept top (.name text)
  | parent =>
    obtain ⟨ups, names, -, spelled⟩ := canonical
    rw [List.reverse_eq_iff] at spelled
    rcases List.eq_nil_or_concat names with rfl | ⟨front, last, rfl⟩
    · have run : top = List.replicate ups .parent := by simpa using spelled
      have grown : foldStep top .parent = .parent :: top := by
        rw [run]
        cases ups <;> rfl
      rw [grown, foldl_reverse_cons]
    · -- The name is put on the stack and taken back again.
      obtain ⟨rest, rfl⟩ : ∃ rest, top = .name last :: rest := ⟨_, by simpa using spelled⟩
      rw [foldl_reverse_cons]
      rfl

theorem foldl_foldDots {steps : List Component} (plain : ∀ c ∈ steps, c.Plain) (kept : List Component) :
    (foldDots steps).foldl foldStep kept = steps.foldl foldStep kept := by
  induction steps using List.reverseRecOn with
  | nil => rfl
  | append_singleton steps c ih =>
    have before : ∀ d ∈ steps, d.Plain := fun d inside => plain d (List.mem_append_left _ inside)
    have last : c.Plain := plain c (List.mem_append_right _ List.mem_cons_self)
    have canonical : Canonical false (steps.foldl foldStep []).reverse :=
      canonical_foldl before [] ⟨0, [], rfl, rfl⟩
    calc (foldDots (steps ++ [c])).foldl foldStep kept
        = (foldStep (steps.foldl foldStep []) c).reverse.foldl foldStep kept := by
          rw [foldDots, List.foldl_append, List.foldl_cons, List.foldl_nil]
      _ = foldStep ((foldDots steps).foldl foldStep kept) c := foldl_reverse_foldStep canonical last kept
      _ = (steps ++ [c]).foldl foldStep kept := by
          rw [ih before, List.foldl_append, List.foldl_cons, List.foldl_nil]

theorem plain_steps (p : Path) : ∀ c ∈ p.steps, c.Plain :=
  plain_filterMap_segments p

theorem components_of_relative {p : Path} (relative : p.isAbsolute = false) :
    p.components = p.steps ∨ p.components = .current :: p.steps := by
  unfold components steps
  dsimp only
  rw [if_neg (by simp [relative])]
  split
  · exact Or.inr rfl
  · exact Or.inl rfl

theorem stack_of_relative {p : Path} (relative : p.isAbsolute = false) : p.stack = p.steps.foldl foldStep [] := by
  rw [stack, relative]
  rfl

theorem stack_of_absolute {p : Path} (absolute : p.isAbsolute = true) : p.stack = p.steps.foldl foldStep [.root] := by
  rw [stack, absolute]
  rfl

/-- The normal form of a relative path has the folded steps and no leading `.`. -/
theorem steps_normalize {p : Path} (relative : p.isAbsolute = false) : p.normalize.steps = foldDots p.steps := by
  have folded : p.normalize.components = foldDots p.steps := by
    rw [components_normalize_eq_stack, stack_of_relative relative, foldDots]
  have relativeToo : p.normalize.isAbsolute = false := (isAbsolute_normalize p).trans relative
  rcases components_of_relative relativeToo with same | dotted
  · exact same.symm.trans folded
  · obtain ⟨ups, names, -, spelled⟩ := canonical_normalize p
    rw [relative, dotted] at spelled
    cases ups with
    | zero => cases names <;> cases spelled
    | succ ups => cases spelled

theorem stack_normalize (p : Path) : p.normalize.stack = p.stack := by
  have absoluteToo := isAbsolute_normalize p
  cases absolute : p.isAbsolute with
  | true =>
    rw [absolute] at absoluteToo
    obtain ⟨place, named, folded⟩ := normalize_of_absolute absolute
    have names : p.normalize.steps = place.map .name := by
      have started := components_ofPlace named
      rw [← folded, components, if_pos absoluteToo] at started
      exact (List.cons.inj started).2
    have below : p.stack.reverse = .root :: place.map .name := by
      rw [← components_normalize_eq_stack, folded, components_ofPlace named]
    rw [List.reverse_eq_iff] at below
    rw [stack_of_absolute absoluteToo, names, foldl_foldStep_names, below, List.reverse_cons]
  | false =>
    rw [absolute] at absoluteToo
    rw [stack_of_relative absoluteToo, steps_normalize absolute, foldl_foldDots p.plain_steps,
      stack_of_relative absolute]

theorem normalize_normalize (p : Path) : p.normalize.normalize = p.normalize :=
  normalize_eq_of_stack (stack_normalize p)

/-! ### Joined paths -/

theorem segments_append_slash (front rest : String) :
    (⟨front ++ "/" ++ rest⟩ : Path).segments = (⟨front⟩ : Path).segments ++ (⟨rest⟩ : Path).segments :=
  Text.fieldsOf_append_separator '/' front rest

theorem steps_join {p q : Path} (relative : q.isAbsolute = false) : (p.join q).steps = p.steps ++ q.steps := by
  have slashed : ∀ front rest : String,
      (⟨front ++ "/" ++ rest⟩ : Path).steps = (⟨front⟩ : Path).steps ++ (⟨rest⟩ : Path).steps := by
    intro front rest
    rw [steps, segments_append_slash, List.filterMap_append]
    rfl
  have blank : (⟨""⟩ : Path).steps = [] := by decide
  rw [join, if_neg (by simp [relative])]
  split
  · next ends =>
    rcases ends with empty | slash
    · rw [show p = ⟨""⟩ from congrArg Path.mk empty, blank, String.empty_append]
      rfl
    · obtain ⟨front, letters⟩ := List.getLast?_eq_some_iff.mp slash
      have split : p.text = String.ofList front ++ "/" ++ "" := by
        rw [← String.toList_inj, letters]
        simp
      have own : p.steps = (⟨String.ofList front⟩ : Path).steps := by
        rw [show p = ⟨String.ofList front ++ "/" ++ ""⟩ from congrArg Path.mk split, slashed, blank, List.append_nil]
      rw [own, split, String.append_empty, slashed]
  · exact slashed p.text q.text

theorem isAbsolute_join_of_relative {p q : Path} (relative : q.isAbsolute = false) :
    (p.join q).isAbsolute = p.isAbsolute := by
  cases absolute : p.isAbsolute with
  | true => exact isAbsolute_join absolute q
  | false =>
    unfold isAbsolute at absolute relative
    rw [join, if_neg (by simp [isAbsolute, relative]), isAbsolute]
    cases letters : p.text.toList with
    | nil =>
      have empty : p.text = "" := String.toList_inj.mp letters
      rw [if_pos (Or.inl empty), empty, String.empty_append]
      exact relative
    | cons c text =>
      rw [letters] at absolute
      split <;> simpa [letters] using absolute

theorem stack_join {p q : Path} (relative : q.isAbsolute = false) :
    (p.join q).stack = q.steps.foldl foldStep p.stack := by
  rw [stack, stack, steps_join relative, isAbsolute_join_of_relative relative, List.foldl_append]

theorem normalize_join (p q : Path) : (p.join q).normalize = (p.normalize.join q.normalize).normalize := by
  have absoluteToo := isAbsolute_normalize q
  cases absolute : q.isAbsolute with
  | true =>
    rw [absolute] at absoluteToo
    rw [join, if_pos absolute, join, if_pos absoluteToo, normalize_normalize]
  | false =>
    rw [absolute] at absoluteToo
    apply normalize_eq_of_stack
    rw [stack_join absolute, stack_join absoluteToo, stack_normalize, steps_normalize absolute,
      foldl_foldDots q.plain_steps]

end Path

end ArchLint
