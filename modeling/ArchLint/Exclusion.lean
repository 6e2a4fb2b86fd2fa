import ArchLint.Path.Normal
import ArchLint.Pattern.Glob
import ArchLint.Text.Occurrence

/-!
# Exclusions

An exclusion is a glob over project-relative paths. It also excludes every path that holds the glob's text
without its recursive wildcards, so that `**/dist/**` means any directory of that name.
-/

namespace ArchLint

abbrev Exclusions := List Pattern.Glob

namespace Exclusions

/-- The exclusions of given texts, or the first mistake in the first glob that has one. -/
def ofSources (sources : List String) : Except Pattern.GlobError Exclusions :=
  sources.mapM Pattern.Glob.ofSource

/-- What must occur in a path that a glob excludes by its text alone. -/
def needle (g : Pattern.Glob) : List Char :=
  Text.erasePair '*' '*' g.source.toList

/-- A relative path with a slash before it, so that its first name stands between slashes too. -/
def anchored (relative : String) : List Char :=
  if relative.toList.head? = some '/' then relative.toList else '/' :: relative.toList

def excludes (g : Pattern.Glob) (relative : String) : Bool :=
  g.covers relative || !(needle g).isEmpty && Text.occurs (needle g) (anchored relative)

def cover (exclusions : Exclusions) (projectRoot path : Path) : Bool :=
  let relative := (path.relativeTo projectRoot).slashForm
  exclusions.any fun g => excludes g relative

end Exclusions

end ArchLint
