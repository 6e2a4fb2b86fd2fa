import ArchLint.TypeScript.Lowering

/-!
# The lowering loop as a recursion

`lowerAll` walks a forest by recursion on the trees. `run_eq_resume` shows that the loop, started anywhere in a
tree, does what the recursion does to all that is still to come, level by level.
-/

namespace ArchLint.TypeScript

mutual

/-- Adds a node and what stands below it. A token adds nothing. -/
def lowerNode (source : String) (parent : NodeId) : Concrete → SyntaxTree → SyntaxTree
  | .node mark children, t =>
    if mark.named then lowerAll source t.size children (lowerMark source parent mark t) else t

/-- Adds the trees of a forest, one after another. -/
def lowerAll (source : String) (parent : NodeId) : List Concrete → SyntaxTree → SyntaxTree
  | [], t => t
  | child :: rest, t => lowerAll source parent rest (lowerNode source parent child t)

end

theorem lowerNode_eq (source : String) (parent : NodeId) (tree : Concrete) (t : SyntaxTree) :
    lowerNode source parent tree t =
      if tree.mark.named then lowerAll source t.size tree.children (lowerMark source parent tree.mark t) else t := by
  cases tree
  rw [lowerNode]
  rfl

namespace Lowering

/-- Adds the forests that are left at each level, the innermost first, each below its open node. -/
def resume (source : String) : List NodeId → List (List Concrete) → SyntaxTree → SyntaxTree
  | parent :: parents, forest :: forests, t => resume source parents forests (lowerAll source parent forest t)
  | _, _, t => t

/-- What is left at each level behind the cursor's node. -/
def behind (cursor : Cursor) : List (List Concrete) :=
  cursor.after :: cursor.above.map (·.2)

/-- What is left at each level, the cursor's node included. -/
def pending (cursor : Cursor) : List (List Concrete) :=
  (cursor.node :: cursor.after) :: cursor.above.map (·.2)

/-- The stack holds one open node for each level above the cursor, and the cursor is below the root. -/
structure InStep (parents : List NodeId) (cursor : Cursor) : Prop where
  level : parents.length = cursor.above.length
  below : 0 < parents.length

/-! ### Leaving a node -/

theorem pending_nextSibling {cursor next : Cursor} (h : cursor.nextSibling? = some next) :
    behind cursor = pending next ∧ next.above = cursor.above := by
  unfold Cursor.nextSibling? at h
  split at h
  · cases h
  · rename_i first rest right
    obtain rfl := Option.some.inj h
    exact ⟨by simp only [behind, pending, right], rfl⟩

theorem behind_parent {cursor up : Cursor} (last : cursor.nextSibling? = none) (h : cursor.parent? = some up) :
    behind cursor = [] :: behind up ∧ cursor.above.length = up.above.length + 1 := by
  have done : cursor.after = [] := by
    unfold Cursor.nextSibling? at last
    split at last
    · assumption
    · cases last
  unfold Cursor.parent? at h
  split at h
  · cases h
  · rename_i node after above higher
    obtain rfl := Option.some.inj h
    exact ⟨by simp only [behind, done, higher, List.map_cons], by simp only [higher, List.length_cons]⟩

/-- Climbing skips only levels at which nothing is left. -/
theorem climb_resumes (source : String) {parents : List NodeId} {cursor : Cursor} (h : InStep parents cursor)
    (t : SyntaxTree) :
    match climb parents cursor with
    | none => resume source parents (behind cursor) t = t
    | some (parents', next) =>
      InStep parents' next ∧ resume source parents (behind cursor) t = resume source parents' (pending next) t := by
  fun_induction climb parents cursor with
  | case1 parents cursor next right =>
    obtain ⟨same, level⟩ := pending_nextSibling right
    exact ⟨⟨by rw [level, h.level], h.below⟩, by rw [same]⟩
  | case2 parents cursor last top =>
    -- A cursor without a parent is at the root, which no stack is in step with.
    have root : cursor.above = [] := by
      unfold Cursor.parent? at top
      split at top
      · assumption
      · cases top
    have level := h.level
    rw [root, List.length_nil] at level
    exact absurd h.below (by omega)
  | case3 parents cursor last up higher lowest =>
    obtain ⟨parent, rfl⟩ := List.length_eq_one_iff.mp (Nat.le_antisymm lowest h.below)
    rw [(behind_parent last higher).1]
    rfl
  | case4 parents cursor last up higher deeper ih =>
    obtain ⟨empty, level⟩ := behind_parent last higher
    obtain ⟨parent, rest, rfl⟩ := List.exists_cons_of_length_pos h.below
    have up_in_step : InStep rest up :=
      ⟨by have := h.level; simp only [List.length_cons] at this; omega,
        by simp only [List.length_cons] at deeper; omega⟩
    rw [empty]
    exact ih up_in_step

/-! ### The whole loop -/

theorem pending_firstChild {cursor child : Cursor} (h : cursor.firstChild? = some child) :
    pending child = cursor.node.children :: behind cursor ∧ child.above.length = cursor.above.length + 1 := by
  unfold Cursor.firstChild? at h
  split at h
  · cases h
  · rename_i first rest below
    obtain rfl := Option.some.inj h
    exact ⟨by simp only [pending, behind, below, List.map_cons], rfl⟩

theorem children_of_firstChild_none {cursor : Cursor} (h : cursor.firstChild? = none) : cursor.node.children = [] := by
  unfold Cursor.firstChild? at h
  split at h
  · assumption
  · cases h

theorem resume_pending (source : String) (parent : NodeId) (parents : List NodeId) (cursor : Cursor) (t : SyntaxTree) :
    resume source (parent :: parents) (pending cursor) t =
      resume source (parent :: parents) (behind cursor) (lowerNode source parent cursor.node t) := by
  simp only [pending, behind, resume, lowerAll]

/-- What one turn leaves to the recursion is what the loop had before it. -/
theorem step_resumes (source : String) {l : Lowering} (h : InStep l.parents l.cursor) :
    match l.step source with
    | .inl arena => resume source l.parents (pending l.cursor) l.arena = arena
    | .inr next =>
      InStep next.parents next.cursor ∧
        resume source l.parents (pending l.cursor) l.arena =
          resume source next.parents (pending next.cursor) next.arena := by
  obtain ⟨arena, parents, cursor⟩ := l
  obtain ⟨parent, rest, rfl⟩ := List.exists_cons_of_length_pos h.below
  have leave (t : SyntaxTree) (same : lowerNode source parent cursor.node arena = t) :
      match proceed t (climb (parent :: rest) cursor) with
      | .inl arena' => resume source (parent :: rest) (pending cursor) arena = arena'
      | .inr next =>
        InStep next.parents next.cursor ∧
          resume source (parent :: rest) (pending cursor) arena =
            resume source next.parents (pending next.cursor) next.arena := by
    have climbed := climb_resumes source h t
    rw [resume_pending, same]
    cases place : climb (parent :: rest) cursor with
    | none =>
      rw [place] at climbed
      exact climbed
    | some found =>
      rw [place] at climbed
      exact climbed
  simp only [step, List.headD_cons]
  by_cases named : cursor.node.mark.named = true
  · rw [if_pos named]
    cases first : cursor.firstChild? with
    | none =>
      refine leave _ ?_
      rw [lowerNode_eq, if_pos named, children_of_firstChild_none first, lowerAll]
    | some child =>
      obtain ⟨below, level⟩ := pending_firstChild first
      have deeper := h.level
      refine ⟨⟨by simp only [List.length_cons] at deeper ⊢; omega, by simp⟩, ?_⟩
      rw [resume_pending, lowerNode_eq, if_pos named, below]
      rfl
  · rw [if_neg named]
    refine leave _ ?_
    rw [lowerNode_eq, if_neg named]

/-- The loop does to a place in a tree what the recursion does to all that is still to come there. -/
theorem run_eq_resume (source : String) {l : Lowering} (h : InStep l.parents l.cursor) :
    l.run source = resume source l.parents (pending l.cursor) l.arena := by
  fun_induction run source l with
  | case1 l arena stop =>
    have turn := step_resumes source h
    rw [stop] at turn
    exact turn.symm
  | case2 l next turn ih =>
    have kept := step_resumes source h
    rw [turn] at kept
    rw [ih kept.1, kept.2]

/-- The loop, started at a state, stops with an arena after finitely many turns. -/
inductive Ends (source : String) : Lowering → SyntaxTree → Prop where
  | stop {l : Lowering} {arena : SyntaxTree} (last : l.step source = .inl arena) : Ends source l arena
  | turn {l next : Lowering} {arena : SyntaxTree} (first : l.step source = .inr next) (rest : Ends source next arena) :
      Ends source l arena

theorem run_ends (source : String) (l : Lowering) : Ends source l (l.run source) := by
  fun_induction run source l with
  | case1 l arena last => exact .stop last
  | case2 l next first ih => exact .turn first ih

end Lowering

/-- The loop over a whole tree adds what stands below the root. -/
theorem lower_eq_lowerAll (source : String) (tree : Concrete) :
    lower source tree = lowerAll source 0 tree.children (.root tree.mark.span) := by
  unfold lower
  split
  · rename_i leaf
    rw [show tree.children = [] from Lowering.children_of_firstChild_none leaf, lowerAll]
  · rename_i child first
    obtain ⟨below, level⟩ := Lowering.pending_firstChild first
    have start : Lowering.InStep [0] child := ⟨by rw [level]; rfl, by simp⟩
    rw [Lowering.run_eq_resume source start, below]
    rfl

end ArchLint.TypeScript
