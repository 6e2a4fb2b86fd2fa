import ArchLint.Report.Violation

/-!
# Reports

What a run found: violations, and the faults of handlers that were passed over. `sort` orders both by keys and
leaves ties as they were found.
-/

namespace ArchLint

/-- A handler that failed on one node. -/
structure Fault where
  file : Path
  rule : String
  nodeKind : String
  line : Nat
  message : String
  deriving DecidableEq

namespace Fault

/-- Faults sort by file, line and rule. -/
def compareKeys : Fault → Fault → Ordering :=
  compareLex (compareOn (·.file)) <| compareLex (compareOn (·.line)) (compareOn (·.rule))

end Fault

/-- What the rules found in one file, rule by rule. -/
structure FileReport where
  violations : List Violation
  faults : List Fault
  deriving DecidableEq

namespace FileReport

def empty : FileReport :=
  ⟨[], []⟩

def append (a b : FileReport) : FileReport :=
  ⟨a.violations ++ b.violations, a.faults ++ b.faults⟩

end FileReport

structure Report where
  violations : List Violation
  filesChecked : Nat
  faults : List Fault
  deriving DecidableEq

namespace Report

def empty : Report :=
  ⟨[], 0, []⟩

def addFile (r : Report) (file : FileReport) : Report :=
  ⟨r.violations ++ file.violations, r.filesChecked + 1, r.faults ++ file.faults⟩

def reaches (r : Report) (threshold : Severity) : Bool :=
  r.violations.any fun v => threshold ≤ v.severity

def byRule (r : Report) (rule : String) : List Violation :=
  r.violations.filter (·.rule = rule)

def count (r : Report) (severity : Severity) : Nat :=
  r.violations.countP (·.severity = severity)

def sort (r : Report) : Report where
  violations := r.violations.mergeSort fun a b => (a.compareKeys b).isLE
  filesChecked := r.filesChecked
  faults := r.faults.mergeSort fun a b => (a.compareKeys b).isLE

end Report

end ArchLint
