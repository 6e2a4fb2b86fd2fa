import ArchLint.Rules.ParallelCache
import ArchLint.Rules.UnifiedId
import ArchLint.Rules.UnifiedTime

/-!
# Built-in rules

The rules that come with the linter, in the order in which they are listed and run.
-/

namespace ArchLint.Rules

def builtin : Registry :=
  [ParallelCache.entry, UnifiedTime.entry, UnifiedId.entry]

end ArchLint.Rules
