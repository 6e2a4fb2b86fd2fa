import ArchLint.Inspection
import ArchLint.Main
import ArchLint.Proofs.Arena
import ArchLint.Proofs.Lowering.Address
import ArchLint.Proofs.Lowering.Placement
import ArchLint.Proofs.Lowering.Recursion
import ArchLint.Proofs.Lowering.Refinement
import ArchLint.Proofs.Visits.Calls
import ArchLint.Proofs.Visits.Isolation
import ArchLint.Proofs.Order.Keys
import ArchLint.Proofs.Runs.FileOrder
import ArchLint.Proofs.Selection.Registry
import ArchLint.Proofs.Selection.Restriction
import ArchLint.Proofs.Selection.Checks
import ArchLint.Proofs.Exclusion.Glob
import ArchLint.Proofs.Exclusion.Promise
import ArchLint.Proofs.Findings.Verdicts
import ArchLint.Proofs.Syntax.Ancestors
import ArchLint.Proofs.Findings.ParallelCache
import ArchLint.Proofs.Lowering.Fields
import ArchLint.Proofs.Pattern.Words
import ArchLint.Proofs.Findings.UnifiedCalls
import ArchLint.Proofs.Path.Places
import ArchLint.Proofs.Walks.Reach
import ArchLint.Proofs.Walks.Roots
import ArchLint.Proofs.Findings.FileIndependence
import ArchLint.Proofs.Runs.Relocation
import ArchLint.Proofs.Settings.Search
import ArchLint.Proofs.Report.RoundTrip
import ArchLint.Proofs.Syntax.Scopes
import ArchLint.Proofs.Path.Folding
import ArchLint.Proofs.Selection.Validated
import ArchLint.Proofs.Settings.Absolute
import ArchLint.Proofs.Runs.Sources
import ArchLint.Proofs.Order.Bytes
import ArchLint.Proofs.Options.Outcome
import ArchLint.Proofs.Selection.Outcome
import ArchLint.Proofs.Exclusion.Directories
import ArchLint.Proofs.Path.SlashForm
import ArchLint.Proofs.Pattern.Zones
import ArchLint.Proofs.Findings.Reporting
import ArchLint.Proofs.Syntax.DepthFirst
import ArchLint.Proofs.Runs.Overrides
import ArchLint.Proofs.Runs.Handling
import ArchLint.Proofs.Path.SlashReading
import ArchLint.Proofs.Path.Returning
import ArchLint.Proofs.Syntax.Edits
