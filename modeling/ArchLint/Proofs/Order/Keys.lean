import ArchLint.Proofs.Order.StableSort
import ArchLint.Proofs.Path.Spelling
import ArchLint.Report.Basic

/-!
# Keys of reports

Paths are ordered by their steps, violations and faults by their keys. What ties on its key is in one file, under one
code or rule.
-/

namespace ArchLint

namespace Path

instance : Std.TransOrd Component :=
  inferInstanceAs (Std.TransCmp (compareLex (compareOn fun c : Component => c.rank.1) (compareOn fun c => c.rank.2)))

theorem Component.rank_injective {a b : Component} (same : a.rank = b.rank) : a = b := by
  cases a <;> cases b <;> simp_all [Component.rank]

instance : Std.LawfulEqOrd Component where
  eq_of_compare := by
    intro a b tie
    obtain ⟨kind, text⟩ := compareLex_eq_eq.mp tie
    exact Component.rank_injective (Prod.ext (Std.LawfulEqOrd.eq_of_compare kind) (Std.LawfulEqOrd.eq_of_compare text))

instance : Std.TransOrd Path :=
  inferInstanceAs (Std.TransCmp (compareOn Path.components))

theorem components_eq_of_compare {p q : Path} (tie : compare p q = .eq) : p.components = q.components := by
  have steps : compare p.components q.components = .eq := tie
  exact Std.LawfulEqOrd.eq_of_compare steps

end Path

instance : Std.TransCmp Violation.compareKeys := by
  unfold Violation.compareKeys
  infer_instance

instance : Std.TransCmp Fault.compareKeys := by
  unfold Fault.compareKeys
  infer_instance

theorem Violation.tie {v w : Violation} (tie : v.compareKeys w = .eq) :
    v.location.file.components = w.location.file.components ∧ v.code = w.code := by
  obtain ⟨file, rest⟩ := compareLex_eq_eq.mp tie
  obtain ⟨-, rest⟩ := compareLex_eq_eq.mp rest
  obtain ⟨-, rest⟩ := compareLex_eq_eq.mp rest
  obtain ⟨code, -⟩ := compareLex_eq_eq.mp rest
  exact ⟨Path.components_eq_of_compare file, Std.LawfulEqOrd.eq_of_compare code⟩

theorem Fault.tie {f g : Fault} (tie : f.compareKeys g = .eq) :
    f.file.components = g.file.components ∧ f.rule = g.rule := by
  obtain ⟨file, rest⟩ := compareLex_eq_eq.mp tie
  obtain ⟨-, rule⟩ := compareLex_eq_eq.mp rest
  exact ⟨Path.components_eq_of_compare file, Std.LawfulEqOrd.eq_of_compare rule⟩

theorem Report.sort_eq (r : Report) :
    r.sort = ⟨sorted Violation.compareKeys r.violations, r.filesChecked, sorted Fault.compareKeys r.faults⟩ := rfl

end ArchLint
