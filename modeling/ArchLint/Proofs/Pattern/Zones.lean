import ArchLint.Pattern.Exemption
import ArchLint.Proofs.Path.SlashForm
import ArchLint.Proofs.Pattern.Words

/-!
# Default exemptions

Unless configured otherwise, the files are exempt that lie in a directory whose name ends with `tests`, `scripts` or
`ui`. The name of the file itself does not matter.
-/

namespace ArchLint.Pattern.Exemption

open ArchLint.Path

/-- How the names of exempt directories end. -/
def zoneWords : List String :=
  ["tests", "scripts", "ui"]

/-- The default pattern as it is read. -/
def defaultZone : Exemption :=
  ⟨defaultSource, .seq (Regex.anyOf (zoneWords.map Regex.word)) (.set (.single '/'))⟩

theorem ofSource?_defaultSource : ofSource? defaultSource = some defaultZone := by
  decide +kernel

/-- Only names end with a zone word. -/
theorem suffix_slashSegment_iff {w : String} (zone : w ∈ zoneWords) {c : Component} :
    w.toList <:+ c.slashSegment.toList ↔ ∃ text, c = .name text ∧ w.toList <:+ text.toList := by
  have three : w = "tests" ∨ w = "scripts" ∨ w = "ui" := by simpa [zoneWords] using zone
  cases c with
  | name text => simp [Component.slashSegment, Component.slashSegment?]
  | root | current | parent =>
    refine ⟨fun ends => absurd ends ?_, fun ⟨text, other, _⟩ => by cases other⟩
    rcases three with rfl | rfl | rfl <;> decide

theorem defaultZone_covers_iff {p : Path} : defaultZone.covers p = true ↔
    ∃ text, .name text ∈ p.visible.dropLast ∧ ∃ w ∈ zoneWords, w.toList <:+ text.toList := by
  have clear : ∀ w ∈ zoneWords, '/' ∉ w.toList := by decide
  rw [covers, defaultZone, zoneWords, Regex.isMatch_anyOf_word_before, ← zoneWords]
  constructor
  · rintro ⟨w, zone, occurs⟩
    obtain ⟨c, inside, ends⟩ := (infix_slashForm_iff (clear w zone)).mp occurs
    obtain ⟨text, rfl, ends⟩ := (suffix_slashSegment_iff zone).mp ends
    exact ⟨text, inside, w, zone, ends⟩
  · rintro ⟨text, inside, w, zone, ends⟩
    exact ⟨w, zone, (infix_slashForm_iff (clear w zone)).mpr
      ⟨_, inside, (suffix_slashSegment_iff zone).mpr ⟨text, rfl, ends⟩⟩⟩

/-- The default pattern exempts the files below a directory whose name ends with `tests`, `scripts` or `ui`. So it does
not look at the last component of a path. -/
theorem defaultSource_covers : ∃ e, ofSource? defaultSource = some e ∧
    (∀ p : Path, e.covers p = true ↔
      ∃ text, .name text ∈ (p.components.filter (· ≠ .current)).dropLast ∧
        ∃ w ∈ ["tests", "scripts", "ui"], w.toList <:+ text.toList) ∧
    ∀ p q : Path, (p.components.filter (· ≠ .current)).dropLast = (q.components.filter (· ≠ .current)).dropLast →
      e.covers p = e.covers q := by
  refine ⟨defaultZone, ofSource?_defaultSource, fun p => defaultZone_covers_iff, fun p q same => ?_⟩
  have alike : p.visible.dropLast = q.visible.dropLast := same
  rw [Bool.eq_iff_iff, defaultZone_covers_iff, defaultZone_covers_iff, alike]

example : defaultZone.covers ⟨"./unittests/../a.ts"⟩ = true ∧ defaultZone.covers ⟨"/src/ui/."⟩ = false := by
  decide +kernel

end ArchLint.Pattern.Exemption
