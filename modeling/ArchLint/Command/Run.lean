import ArchLint.Analysis.Discovery
import ArchLint.Command.Arguments
import ArchLint.Command.Texts
import ArchLint.Settings.Workspace

/-!
# Runs

What a command does in a workspace: what it prints, the status it ends with, and the file it writes. A check
ends with 1 if some violation is as severe as the settings ask for; every error ends with 2.
-/

namespace ArchLint.Command

inductive RunError where
  | settings (cause : LoadError)
  | selection (cause : SettingsError)
  | setup (cause : AnalysisError)
  | analysis (cause : AnalysisError)
  | rendering (cause : RenderError)
  | fileExists (path : Path)
  | unwritable (cause : ReadError)
  deriving DecidableEq

namespace RunError

def message : RunError → String
  | settings cause => cause.message
  | selection _ => "Invalid rule selection"
  | setup _ => "Failed to build analyzer"
  | analysis _ => "Analysis failed"
  | rendering cause => cause.message
  | fileExists path => s!"Configuration file already exists at {path.text}. Use --force to overwrite."
  | unwritable cause => s!"Cannot write the configuration file: {cause.message}"

end RunError

structure Outcome where
  status : Nat
  output : String
  error : Option RunError
  written : Option (Path × String)

namespace Outcome

def ok (output : String) : Outcome :=
  ⟨0, output, none, none⟩

def failed (error : RunError) : Outcome :=
  ⟨2, "", some error, none⟩

end Outcome

/-- The names in a selection: what stands between commas, without white space around it. -/
def selectedNames (selection : String) : List String :=
  ((Text.fieldsOf ',' selection).map fun field => String.ofList (Text.trim field.toList)).filter (· ≠ "")

/-- The analysis that a check asks for, and the severity at which it fails. -/
def prepare [Pattern.Reader] (w : Workspace) (t : FileTree) (language : Language) (settingsFile path : Option Path)
    (selection : Option String) (exclude : List String) : Except RunError (Analyzer × Severity) := do
  let loaded ← (w.load t (path.getD w.directory) settingsFile).mapError .settings
  let rules ← (Rules.builtin.select loaded.settings (selection.map selectedNames)).mapError .selection
  let plan : AnalysisPlan := {
    directory := w.directory
    projectRoot := loaded.projectRoot
    start := path.map w.absolute
    rules := rules
    language := some language
    exclude := exclude
    settings := loaded.settings
    failOnParseError := false }
  let analyzer ← plan.build.mapError .setup
  return (analyzer, loaded.settings.threshold)

def check [Pattern.Reader] (w : Workspace) (t : FileTree) (language : Language) (settingsFile path : Option Path)
    (format : OutputFormat) (selection : Option String) (exclude : List String) : Except RunError Outcome := do
  let (analyzer, threshold) ← prepare w t language settingsFile path selection exclude
  let report ← (analyzer.analyze t).mapError .analysis
  let output ← (report.render (fun path => (t.read path).isOk) analyzer.projectRoot format).mapError .rendering
  return { Outcome.ok output with status := if report.reaches threshold then 1 else 0 }

/-- The settings file that `init` writes, as seen from the working directory. -/
def starterPath : Path :=
  ⟨"./coreguard.toml"⟩

/-- Writes a settings file to start from. One that is there is kept unless it is to be overwritten. -/
def init (w : Workspace) (t : FileTree) (force : Bool) : Except RunError Outcome := do
  let path := w.directory.join starterPath
  if t.holds path && !force then
    throw (.fileExists starterPath)
  let place ← (t.locate path).mapError .unwritable
  if t.isDirectory place then
    throw (.unwritable .isDirectory)
  let output := s!"Created {starterPath.text}\n\nNext steps:\n  1. Edit coreguard.toml to configure rules\n"
    ++ "  2. Run: coreguard check\n"
  return { Outcome.ok output with written := some (path, starter Rules.builtin) }

def run [Pattern.Reader] (w : Workspace) (t : FileTree) (language : Language) (i : Invocation) : Outcome :=
  let result : Except RunError Outcome := match i.task with
    | .listRules => .ok (Outcome.ok (ruleList Rules.builtin))
    | .init force => init w t force
    | .check path format selection exclude => check w t language i.settingsFile path format selection exclude
  match result with
  | .ok outcome => outcome
  | .error error => .failed error

end ArchLint.Command
