import ArchLint.Proofs.Path.Folding
import ArchLint.Proofs.Walks.Reach

/-!
# Following paths in a tree

A tree has no links, so a path that can be followed leads where its normal form leads.
-/

namespace ArchLint.FileTree

variable {t : FileTree}

def LeadsTo (t : FileTree) (place : Place) : Prop :=
  place.all Path.isName = true ∧ place.foldlM t.follow [] = .ok place

/-- The steps to a place, the last one first. -/
def stepsTo (place : Place) : List Path.Component :=
  (place.map .name).reverse ++ [.root]

theorem LeadsTo.dropLast {place : Place} (leads : t.LeadsTo place) : t.LeadsTo place.dropLast := by
  rcases List.eq_nil_or_concat place with rfl | ⟨front, last, rfl⟩
  · exact leads
  · rw [List.concat_eq_append] at leads ⊢
    obtain ⟨named, led⟩ := leads
    have namedFront := (Path.named_append_iff.mp named).1
    rw [List.dropLast_concat]
    refine ⟨namedFront, ?_⟩
    rw [List.foldlM_append] at led
    obtain ⟨found, before, -⟩ := of_bind led
    rw [before, foldlM_follow namedFront before, List.nil_append]

/-- A segment leads on just as folding takes its step. -/
theorem LeadsTo.follow {place next : Place} (leads : t.LeadsTo place) {segment : String}
    (clear : '/' ∉ segment.toList) (led : t.follow place segment = .ok next) :
    t.LeadsTo next ∧ (Path.Component.ofSegment? segment).toList.foldl Path.foldStep (stepsTo place) = stepsTo next := by
  have whole := led
  unfold FileTree.follow at led
  split at led
  · have here := Except.ok.inj led
    split at here
    · exact here ▸ ⟨leads, rfl⟩
    · exact here ▸ ⟨leads, rfl⟩
    · subst here
      refine ⟨leads.dropLast, ?_⟩
      -- Above the root directory there is the root directory again, and folding keeps the root too.
      rcases List.eq_nil_or_concat place with rfl | ⟨front, last, rfl⟩
      · rfl
      · simp [stepsTo, Path.Component.ofSegment?, Path.foldStep]
    · next full undotted unparented =>
      subst here
      have differs : segment ≠ "" ∧ segment ≠ "." ∧ segment ≠ ".." := ⟨full, undotted, unparented⟩
      have other : Path.isName segment = true := by simp [Path.isName, differs, clear]
      have step : Path.Component.ofSegment? segment = some (.name segment) := (Path.plain_name other).1
      refine ⟨⟨Path.named_concat leads.1 other, ?_⟩, ?_⟩
      · rw [List.foldlM_append, leads.2]
        exact (bind_pure _).trans whole
      · rw [step]
        simp [stepsTo, Path.foldStep]
  · split at led <;> cases led

theorem LeadsTo.foldlM {segments : List String} (clear : ∀ segment ∈ segments, '/' ∉ segment.toList)
    {start place : Place} (leads : t.LeadsTo start) (led : segments.foldlM t.follow start = .ok place) :
    t.LeadsTo place ∧
      (segments.filterMap Path.Component.ofSegment?).foldl Path.foldStep (stepsTo start) = stepsTo place := by
  induction segments generalizing start with
  | nil =>
    obtain rfl := Except.ok.inj led
    exact ⟨leads, rfl⟩
  | cons segment segments ih =>
    obtain ⟨first, others⟩ := List.forall_mem_cons.mp clear
    rw [List.foldlM_cons] at led
    obtain ⟨next, here, led⟩ := of_bind led
    obtain ⟨leadsOn, step⟩ := leads.follow first here
    obtain ⟨reached, run⟩ := ih others leadsOn led
    refine ⟨reached, ?_⟩
    rw [← run, ← step, List.filterMap_cons]
    cases Path.Component.ofSegment? segment <;> rfl

theorem locate_normalize {p : Path} (absolute : p.isAbsolute = true) {place : Place} (led : t.locate p = .ok place) :
    p.normalize = .ofPlace place ∧ t.locate p.normalize = .ok place := by
  have clear : ∀ segment ∈ p.segments, '/' ∉ segment.toList := fun _ => Path.clear_of_mem_segments
  obtain ⟨⟨named, reached⟩, run⟩ := LeadsTo.foldlM clear ⟨rfl, rfl⟩ led
  have stack : p.stack = stepsTo place := (Path.stack_of_absolute absolute).trans run
  have folded : p.normalize = .ofPlace place := by
    rw [Path.normalize_eq, Path.components_normalize_eq_stack, stack, stepsTo, List.reverse_append,
      List.reverse_reverse]
    rfl
  refine ⟨folded, ?_⟩
  rw [folded, locate_ofPlace named, reached]

theorem locate_eq_of_normalize {p q : Path} (absoluteP : p.isAbsolute = true) (absoluteQ : q.isAbsolute = true)
    (same : p.normalize = q.normalize) {place other : Place} (led : t.locate p = .ok place)
    (ledOther : t.locate q = .ok other) : place = other := by
  have normal := (locate_normalize absoluteP led).2
  rw [same, (locate_normalize absoluteQ ledOther).2] at normal
  exact (Except.ok.inj normal).symm

theorem read_normalize {p : Path} (absolute : p.isAbsolute = true) {content : String} (found : t.read p = .ok content) :
    t.read p.normalize = .ok content := by
  obtain ⟨place, led, content⟩ := of_bind found
  rw [read, (locate_normalize absolute led).2]
  exact content

end ArchLint.FileTree
