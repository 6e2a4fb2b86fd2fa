import ArchLint.Proofs.Path.SlashForm

/-!
# Slash forms read as paths

A slash form is a path too. It has the components that it was made of, but for the root directory, whose form is blank.
So slash forms tell paths apart up to `.`, and taking the slash form again changes nothing.
-/

namespace ArchLint.Path

/-- A slash form, read as a path. -/
def reread (p : Path) : Path :=
  ⟨p.slashForm⟩

/-! ### Visible components -/

theorem Component.Plain.ne_current {c : Component} (plain : c.Plain) : c ≠ .current := by
  rintro rfl
  exact plain.not_blank.2 rfl

theorem Component.Plain.slashSegment {c : Component} (plain : c.Plain) : c.slashSegment = c.text := by
  cases c with
  | root => exact absurd plain not_plain_root
  | current => exact absurd rfl plain.ne_current
  | parent | name text => rfl

theorem filter_ne_current {steps : List Component} (plain : ∀ c ∈ steps, c.Plain) :
    steps.filter (· ≠ .current) = steps :=
  List.filter_eq_self.mpr fun c inside => decide_eq_true (plain c inside).ne_current

theorem visible_of_folded {p : Path} (folded : Folded p.components) : p.visible = p.components := by
  obtain ⟨lead, rest, split, led, plain⟩ := folded
  rw [visible, split, List.filter_append, filter_ne_current plain]
  rcases led with rfl | rfl <;> rfl

theorem folded_visible (p : Path) : Folded p.visible := by
  obtain ⟨lead, rest, split, first, plain⟩ := spelled_components p
  rw [visible, split, List.filter_append, filter_ne_current plain]
  rcases first with rfl | rfl | rfl
  · exact ⟨[], rest, rfl, Or.inl rfl, plain⟩
  · exact ⟨[.root], rest, rfl, Or.inr rfl, plain⟩
  · exact ⟨[], rest, rfl, Or.inl rfl, plain⟩

/-! ### Reading a slash form -/

theorem map_slashSegment {steps : List Component} (plain : ∀ c ∈ steps, c.Plain) :
    steps.map Component.slashSegment = steps.map Component.text :=
  List.map_congr_left fun c inside => (plain c inside).slashSegment

/-- Apart from the root's, a slash form spells the visible components. -/
theorem reread_eq {p : Path} (further : p.visible ≠ [.root]) : p.reread = ofComponents p.visible := by
  have folded := folded_visible p
  rw [reread, slashForm_eq]
  cases steps : p.visible with
  | nil => rfl
  | cons c rest =>
    rw [steps] at further folded
    obtain ⟨first, plain⟩ := folded_cons_iff.mp folded
    rcases first with rfl | first
    · have more : rest.map Component.text ≠ [] := by
        intro none
        exact further (congrArg _ (List.map_eq_nil_iff.mp none))
      -- The blank segment of the root puts a slash before the rest.
      have blank : (Text.joinWith '/' [Component.root.slashSegment]).toList = [] := rfl
      apply eq_of_letters
      rw [toList_ofComponents_root, List.map_cons, map_slashSegment plain, ← List.singleton_append,
        Text.toList_joinWith_append (List.cons_ne_nil _ _) more, blank, List.nil_append]
    · have all : ∀ d ∈ c :: rest, d.Plain := List.forall_mem_cons.mpr ⟨first, plain⟩
      rw [map_slashSegment all, ofComponents_of_plain all]

theorem components_reread {p : Path} (further : p.visible ≠ [.root]) : p.reread.components = p.visible := by
  rw [reread_eq further, components_ofComponents (folded_visible p).spelled]

theorem slashForm_of_root {p : Path} (top : p.visible = [.root]) : p.slashForm = "" := by
  rw [slashForm_eq, top]
  rfl

theorem components_reread_iff (p : Path) : p.reread.components = p.visible ↔ p.visible ≠ [.root] := by
  refine ⟨?_, components_reread⟩
  intro same top
  have none : p.reread.components = [] := components_of_blank (slashForm_of_root top)
  rw [none, top] at same
  cases same

theorem slashForm_reread (p : Path) : p.reread.slashForm = p.slashForm := by
  by_cases top : p.visible = [.root]
  · have none : p.reread.components = [] := components_of_blank (slashForm_of_root top)
    rw [slashForm_eq, visible, none, slashForm_of_root top]
    rfl
  · have same := components_reread top
    have folded : Folded p.reread.components := by
      rw [same]
      exact folded_visible p
    rw [slashForm_eq, visible_of_folded folded, same, slashForm_eq]

theorem slashForm_eq_iff {p q : Path} (further : p.visible ≠ [.root]) (furtherToo : q.visible ≠ [.root]) :
    p.slashForm = q.slashForm ↔ p.visible = q.visible := by
  constructor
  · intro same
    rw [← components_reread further, ← components_reread furtherToo, reread, reread, same]
  · intro same
    rw [slashForm_eq, slashForm_eq, same]

/-! ### Slashes of a slash form -/

theorem isAbsolute_reread {p : Path} (further : p.visible ≠ [.root]) : p.reread.isAbsolute = p.isAbsolute := by
  rw [Bool.eq_iff_iff, isAbsolute_iff_root_mem, isAbsolute_iff_root_mem, components_reread further, visible,
    List.mem_filter]
  exact and_iff_left (decide_eq_true Component.noConfusion)

theorem fieldsOf_slashForm {p : Path} (some : p.visible ≠ []) :
    Text.fieldsOf '/' p.slashForm = p.visible.map Component.slashSegment := by
  rw [slashForm_eq, Text.fieldsOf_joinWith (by simpa using some) clear_of_mem_slashSegments]

/-- Only the root has a blank segment, and it comes first. -/
theorem full_of_mem_tail {p : Path} : ∀ segment ∈ (p.visible.map Component.slashSegment).tail, segment ≠ "" := by
  intro segment inside
  have folded := folded_visible p
  cases steps : p.visible with
  | nil =>
    rw [steps] at inside
    cases inside
  | cons first later =>
    rw [steps] at inside folded
    obtain ⟨c, there, rfl⟩ := List.mem_map.mp inside
    have plain : c.Plain := (folded_cons_iff.mp folded).2 c there
    rw [plain.slashSegment]
    exact plain.not_blank.1

/-- What follows a slash is a segment that is not blank. -/
theorem exists_after_slash {p : Path} {front rest : List Char} (split : p.slashForm.toList = front ++ '/' :: rest) :
    ∃ c, rest.head? = some c ∧ c ≠ '/' := by
  have some : p.visible ≠ [] := by
    intro none
    rw [slashForm_eq, none] at split
    simp [Text.joinWith] at split
  have letters : p.slashForm.toList = (String.ofList front).toList ++ '/' :: (String.ofList rest).toList := by
    simpa using split
  have cut := Text.fieldsOf_of_append letters
  rw [fieldsOf_slashForm some] at cut
  have full : ∀ segment ∈ Text.fieldsOf '/' (String.ofList rest), segment ≠ "" := by
    intro segment inside
    refine full_of_mem_tail segment (?_ : segment ∈ (p.visible.map Component.slashSegment).tail)
    rw [cut, List.tail_append_of_ne_nil (Text.fieldsOf_ne_nil _ _)]
    exact List.mem_append_right _ inside
  cases rest with
  | nil => exact absurd rfl (full "" (by simp [Text.fieldsOf, Text.fields]))
  | cons c rest =>
    refine ⟨c, rfl, ?_⟩
    rintro rfl
    exact full "" (by simp [Text.fieldsOf, Text.fields_separator]) rfl

theorem no_double_slash (p : Path) : ¬['/', '/'] <:+: p.slashForm.toList := by
  rintro ⟨front, rest, split⟩
  have letters : p.slashForm.toList = front ++ '/' :: '/' :: rest := by simp [← split]
  obtain ⟨c, first, other⟩ := exists_after_slash letters
  exact other (Option.some.inj first).symm

theorem no_last_slash (p : Path) : p.slashForm.toList.getLast? ≠ some '/' := by
  intro last
  obtain ⟨front, split⟩ := List.getLast?_eq_some_iff.mp last
  obtain ⟨c, first, -⟩ := exists_after_slash split
  cases first

/-- The slash form loses the `.` components and nothing else, unless the path is the root directory. -/
theorem slashForm_readsBack (p : Path) :
    p.reread.slashForm = p.slashForm ∧
    (p.reread.components = p.visible ↔ p.visible ≠ [.root]) ∧
    (p.visible ≠ [.root] →
      (∀ q : Path, q.visible ≠ [.root] → (p.slashForm = q.slashForm ↔ p.visible = q.visible)) ∧
      (p.slashForm.toList.head? = some '/' ↔ p.isAbsolute = true) ∧
      ¬['/', '/'] <:+: p.slashForm.toList ∧ p.slashForm.toList.getLast? ≠ some '/') := by
  refine ⟨slashForm_reread p, components_reread_iff p, ?_⟩
  intro further
  refine ⟨fun q furtherToo => slashForm_eq_iff further furtherToo, ?_, no_double_slash p, no_last_slash p⟩
  rw [← isAbsolute_reread further, reread, isAbsolute, decide_eq_true_iff]

theorem slashForm_readsBack_dotted :
    (⟨"./src//../lib/"⟩ : Path).visible = [.name "src", .parent, .name "lib"] ∧
    (⟨"./src//../lib/"⟩ : Path).reread.components = [.name "src", .parent, .name "lib"] ∧
    (⟨"./src//../lib/"⟩ : Path).slashForm = (⟨"src/./../lib"⟩ : Path).slashForm ∧
    (⟨"./src//../lib/"⟩ : Path).slashForm ≠ (⟨"/src/../lib"⟩ : Path).slashForm := by
  have steps : (⟨"./src//../lib/"⟩ : Path).visible = [.name "src", .parent, .name "lib"] := by decide +kernel
  have other : (⟨"src/./../lib"⟩ : Path).visible = [.name "src", .parent, .name "lib"] := by decide +kernel
  have absolute : (⟨"/src/../lib"⟩ : Path).visible = [.root, .name "src", .parent, .name "lib"] := by decide +kernel
  have further : (⟨"./src//../lib/"⟩ : Path).visible ≠ [.root] := by
    rw [steps]
    decide
  obtain ⟨-, same, told⟩ := slashForm_readsBack ⟨"./src//../lib/"⟩
  obtain ⟨tells, -⟩ := told further
  refine ⟨steps, (same.mpr further).trans steps, ?_, ?_⟩
  · rw [tells _ (by rw [other]; decide), steps, other]
  · rw [Ne, tells _ (by rw [absolute]; decide), steps, absolute]
    decide

end ArchLint.Path
