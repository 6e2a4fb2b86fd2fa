import ArchLint.Analysis.Analyzer
import ArchLint.Proofs.Path.Folding
import ArchLint.Settings.Workspace

/-!
# Absolute paths of a workspace

A workspace makes paths absolute, and it takes a path for its normal form only. What it has made absolute stays as it
is, also where an analysis is set up in another directory.
-/

namespace ArchLint

theorem AnalysisPlan.map_start_build (plan : AnalysisPlan) {start : Path} (absolute : start.isAbsolute = true)
    (directory : Path) :
    ({ plan with directory := directory, start := some start } : AnalysisPlan).build.map (·.start) =
      plan.build.map fun _ => start.normalize := by
  have whole : ({ plan with directory := directory, start := some start } : AnalysisPlan).wholeStart =
      start.normalize :=
    Path.absoluteFrom_of_absolute absolute directory
  unfold build
  cases plan.language with
  | none => rfl
  | some language =>
    dsimp only
    cases Exclusions.ofSources (plan.exclude ++ plan.settings.files.exclude) with
    | error e => rfl
    | ok exclusions => exact congrArg Except.ok whole

namespace Workspace

variable {w : Workspace}

theorem isAbsolute_absolute (rooted : w.directory.isAbsolute = true) (p : Path) :
    (w.absolute p).isAbsolute = true :=
  (Path.isAbsolute_normalize _).trans (Path.isAbsolute_join rooted p)

theorem normalize_absolute (p : Path) : (w.absolute p).normalize = w.absolute p :=
  Path.normalize_normalize _

theorem absolute_absolute (rooted : w.directory.isAbsolute = true) (p : Path) :
    w.absolute (w.absolute p) = w.absolute p :=
  (Path.absoluteFrom_of_absolute (isAbsolute_absolute rooted p) w.directory).trans (normalize_absolute p)

theorem absolute_congr {p q : Path} (same : p.normalize = q.normalize) : w.absolute p = w.absolute q := by
  unfold absolute Path.absoluteFrom
  rw [Path.normalize_join, same, ← Path.normalize_join]

theorem absolute_ofDirectory (directory : Path) (globalDirectory : Option Path) (p : Path) :
    (ofDirectory directory globalDirectory).absolute p = p.absoluteFrom directory := by
  unfold absolute Path.absoluteFrom ofDirectory
  rw [Path.normalize_join, Path.normalize_normalize, ← Path.normalize_join]

/-- Normal forms are canonical and agree with joining, and so do the absolute paths of a workspace. -/
theorem normalize_join_canonical :
    (∀ p : Path, p.normalize.isAbsolute = p.isAbsolute ∧ Path.Canonical p.isAbsolute p.normalize.components ∧
      p.normalize.normalize = p.normalize) ∧
    (∀ p q : Path, (p.join q).normalize = (p.normalize.join q.normalize).normalize) ∧
    (∀ directory globalDirectory p,
      (ofDirectory directory globalDirectory).absolute p = p.absoluteFrom directory) ∧
    ∀ w : Workspace, w.directory.isAbsolute = true → ∀ p,
      w.absolute (w.absolute p) = w.absolute p ∧
      (∀ q, p.normalize = q.normalize → w.absolute p = w.absolute q) ∧
      ∀ (plan : AnalysisPlan) (directory : Path),
        ({ plan with directory := directory, start := some (w.absolute p) } : AnalysisPlan).build.map (·.start) =
          plan.build.map fun _ => w.absolute p := by
  refine ⟨?_, Path.normalize_join, absolute_ofDirectory, ?_⟩
  · intro p
    exact ⟨p.isAbsolute_normalize, Path.canonical_normalize p, Path.normalize_normalize p⟩
  · intro w rooted p
    refine ⟨absolute_absolute rooted p, fun q same => absolute_congr same, ?_⟩
    intro plan directory
    rw [plan.map_start_build (isAbsolute_absolute rooted p), normalize_absolute]

theorem normalize_join_canonical_spellings :
    let w := ofDirectory ⟨"/work//x/.."⟩ none
    w.absolute ⟨"a/../../b/./c/"⟩ = ⟨"/b/c"⟩ ∧ w.absolute ⟨"../b/c"⟩ = ⟨"/b/c"⟩ ∧
      w.absolute (w.absolute ⟨"../b/c"⟩) = ⟨"/b/c"⟩ := by
  intro w
  have rooted : w.directory.isAbsolute = true := by decide +kernel
  have plain : w.absolute ⟨"../b/c"⟩ = ⟨"/b/c"⟩ := by decide +kernel
  obtain ⟨-, -, -, workspaces⟩ := normalize_join_canonical
  obtain ⟨again, -⟩ := workspaces w rooted ⟨"../b/c"⟩
  obtain ⟨-, alike, -⟩ := workspaces w rooted ⟨"a/../../b/./c/"⟩
  exact ⟨(alike ⟨"../b/c"⟩ (by decide +kernel)).trans plain, plain, again.trans plain⟩

end Workspace

end ArchLint
