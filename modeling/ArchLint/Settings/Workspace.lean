import ArchLint.Path.Normal
import ArchLint.Rules.Builtin

/-!
# Workspaces

Where a run takes place, and which settings it finds there: a named file, or the nearest settings file at or
above the checked path, or the user's own file, or none. The directory of a named or found file is the project
root. The user's directory is taken as it is written, and a relative one is looked up from the working
directory.
-/

namespace ArchLint

namespace Path

/-- A path and all above it, the nearest first. -/
def upward (p : Path) : List Path :=
  (List.range p.components.length).reverse.map fun n => ofComponents (p.components.take (n + 1))

end Path

/-- The working directory of a run, and the directory of the user's own settings. -/
structure Workspace where
  directory : Path
  globalDirectory : Option Path
  deriving DecidableEq

inductive SettingsSource where
  | explicit (path : Path)
  | project (path : Path)
  | global (path : Path)
  | default
  deriving DecidableEq

namespace SettingsSource

def path? : SettingsSource → Option Path
  | explicit path | project path | global path => some path
  | default => none

def projectRoot? : SettingsSource → Option Path
  | explicit path | project path => path.parent?
  | global _ | default => none

end SettingsSource

/-- Settings that fit the rules, with where they come from and the project root they make. -/
structure LoadedSettings where
  settings : Settings
  source : SettingsSource
  projectRoot : Path

inductive LoadError where
  | file (path : Path) (cause : SettingsError)
  | rules (path : Option Path) (cause : SettingsError)
  deriving DecidableEq

namespace LoadError

def cause : LoadError → SettingsError
  | file _ cause | rules _ cause => cause

def message : LoadError → String
  | file path _ => s!"Failed to load config: {path.text}"
  | rules (some path) _ => s!"Invalid rule configuration in {path.text}"
  | rules none _ => "Invalid rule configuration"

end LoadError

namespace Workspace

/-- The names of a project's settings file, the preferred one first. -/
def projectNames : List String :=
  ["coreguard.toml", ".coreguard.toml"]

def globalName : String :=
  "config.toml"

def ofDirectory (directory : Path) (globalDirectory : Option Path) : Workspace :=
  ⟨directory.normalize, globalDirectory⟩

def absolute (w : Workspace) (path : Path) : Path :=
  path.absoluteFrom w.directory

def settingsIn? (t : FileTree) (directory : Path) : Option Path :=
  (projectNames.map fun name => directory.join ⟨name⟩).find? t.holdsFile

/-- The directories that may hold the settings for a path, the nearest first. -/
def searched (t : FileTree) (path : Path) : List Path :=
  if t.holdsFile path then path.upward.drop 1 else path.upward

def locate (w : Workspace) (t : FileTree) (start : Path) (explicit : Option Path) : SettingsSource :=
  match explicit with
  | some path => .explicit (w.absolute path)
  | none =>
    match (searched t (w.absolute start)).findSome? (settingsIn? t) with
    | some path => .project path
    | none =>
      match (w.globalDirectory.map (·.join ⟨globalName⟩)).filter fun path => t.holdsFile (w.directory.join path) with
      | some path => .global path
      | none => .default

def readSettings (w : Workspace) (t : FileTree) (path : Path) : Except SettingsError Settings :=
  match t.read (w.directory.join path) with
  | .ok document => Settings.parse document
  | .error cause => .error (.unreadable path cause)

/-- The settings of a source, whether or not they fit the rules. -/
def settingsOf (w : Workspace) (t : FileTree) (source : SettingsSource) : Except LoadError Settings :=
  match source.path? with
  | none => .ok .default
  | some path =>
    match w.readSettings t path with
    | .ok settings => .ok settings
    | .error cause => .error (.file path cause)

/-- The settings for a run from `start`. All built-in rules must accept them, also those that will not run. -/
def load [Pattern.Reader] (w : Workspace) (t : FileTree) (start : Path) (explicit : Option Path) :
    Except LoadError LoadedSettings := do
  let source := w.locate t start explicit
  let settings ← w.settingsOf t source
  match Rules.builtin.select settings none with
  | .error cause => .error (.rules source.path? cause)
  | .ok _ => .ok ⟨settings, source, source.projectRoot?.getD w.directory⟩

end Workspace

end ArchLint
