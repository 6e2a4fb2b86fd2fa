import ArchLint.Command.Run
import ArchLint.TypeScript.Listing

/-!
# The program

Takes a picture of the files that a command can look at, runs the command on the picture, and carries out what
it says. The trees of source files come from the listings beside them.
-/

namespace ArchLint.Program

def placeOf (path : Path) : Place :=
  path.normalize.components.filterMap fun
    | .name text => some text
    | _ => none

def addFile (t : FileTree) (path : Path) : IO FileTree := do
  let file := (← IO.currentDir) / path.text
  if (← file.pathExists) && !(← file.isDir) then
    return t.write (placeOf path) (← IO.FS.readBinFile file)
  else return t

def addBelow (t : FileTree) (path : Path) : IO FileTree := do
  let start := (← IO.currentDir) / path.text
  if ← start.isDir then
    (← start.walkDir).foldlM
      (fun t entry => do
        let path : Path := ⟨entry.toString⟩
        if ← entry.isDir then return t.makeDirectory (placeOf path) else addFile t path)
      (t.makeDirectory (placeOf path))
  else addFile t path

/-- Adds the settings and ignore files in the directories above a path. -/
def addAround (t : FileTree) (path : Path) : IO FileTree := do
  let names := Workspace.projectNames ++ [".ignore", ".gitignore"]
  let paths := path.upward.flatMap fun directory => names.map fun name => directory.join ⟨name⟩
  paths.foldlM addFile t

/-- A picture of what the workspace holds and what is around a path. -/
def picture (w : Workspace) (path : Path) : IO FileTree := do
  let t ← addBelow FileTree.empty w.directory
  addAround (← addAround (← addBelow t path) w.directory) path

/-- The picture that a command needs. What a check looks at depends on the settings. -/
def pictureFor (w : Workspace) (i : Command.Invocation) : IO FileTree := do
  match i.task with
  | .listRules | .init _ =>
    addFile (FileTree.empty.makeDirectory (placeOf w.directory)) (w.directory.join Command.starterPath)
  | .check path _ selection exclude =>
    let t ← picture w (w.absolute (path.getD w.directory))
    let extra := i.settingsFile.toList.map w.absolute ++ w.globalDirectory.toList.map (·.join ⟨Workspace.globalName⟩)
    let t ← extra.foldlM addFile t
    match Command.prepare w t (TypeScript.language fun _ _ => none) i.settingsFile path selection exclude with
    | .error _ => return t
    | .ok (analyzer, _) => addAround (← addBelow t analyzer.start) analyzer.start

def workspace : IO Workspace := do
  let own ← IO.getEnv "COREGUARD_CONFIG_DIR"
  let home ← IO.getEnv "HOME"
  let globalDirectory := match own with
    | some directory => some ⟨directory⟩
    | none => home.map fun home => Path.join ⟨home⟩ ⟨".coreguard"⟩
  return .ofDirectory ⟨(← IO.currentDir).toString⟩ globalDirectory

def run (i : Command.Invocation) : IO UInt32 := do
  let w ← workspace
  let t ← pictureFor w i
  let outcome := Command.run w t (TypeScript.language (TypeScript.Listing.grammar t)) i
  IO.print outcome.output
  if let some error := outcome.error then
    IO.eprintln s!"Error: {error.message}"
  if let some (path, text) := outcome.written then
    IO.FS.writeFile path.text text
  return outcome.status.toUInt32

end ArchLint.Program

def main (arguments : List String) : IO UInt32 := do
  match ArchLint.Command.parse (← IO.getEnv "COREGUARD_CONFIG") arguments with
  | .ok invocation => ArchLint.Program.run invocation
  | .error stop =>
    IO.print stop.output
    if stop = .mistake then
      IO.eprint ArchLint.Command.Stop.usage
    return stop.status.toUInt32
