import ArchLint.Analysis.Analyzer
import ArchLint.Ignore.Walk

/-!
# File discovery

The files that an analysis is about: those that a walk from its start comes to, with one of its extensions and
not excluded, in the order of their paths.
-/

namespace ArchLint.Analyzer

def wants (a : Analyzer) (path : Path) : Bool :=
  path.extension?.any a.extensions.contains && !a.exclusions.cover a.projectRoot path

/-- The files to analyse. There must be something where the walk starts. -/
def discover (a : Analyzer) (t : FileTree) : Except AnalysisError (List Path) :=
  match t.locate a.start with
  | .error _ => .error .nothingThere
  | .ok place =>
    if t.isFile place || t.isDirectory place then
      let reached := (Ignore.walk t a.settings.files.respectGitignore place).map Path.ofPlace
      .ok ((reached.filter a.wants).mergeSort fun p q => (compare p q).isLE)
    else .error .nothingThere

def analyze (a : Analyzer) (t : FileTree) : Except AnalysisError Report := do
  a.analyzeFiles t.read (← a.discover t)

end ArchLint.Analyzer
