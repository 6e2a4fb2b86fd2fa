import ArchLint.Path.Basic

/-!
# File trees

The files of a machine as a value: regular files with their bytes, and directories. A place in the tree is the
list of names that lead to it from the root directory. Every prefix of a place is a directory; there are no
links.
-/

namespace ArchLint

inductive ReadError where
  | notFound
  | isDirectory
  | notDirectory
  | invalidData
  deriving DecidableEq, Repr

/-- The names that lead from the root directory to a file or directory. -/
abbrev Place := List String

namespace Path

def isName (text : String) : Bool :=
  text ≠ "" && text ≠ "." && text ≠ ".." && !text.toList.contains '/'

def ofPlace (place : Place) : Path :=
  ofComponents (.root :: place.map .name)

end Path

/-- Files and directories. No two files are at the same place. -/
structure FileTree where
  files : List (Place × ByteArray)
  directories : List Place
  named : ∀ file ∈ files, file.1.all Path.isName = true
  distinct : (files.map (·.1)).Nodup

namespace FileTree

def empty : FileTree :=
  ⟨[], [], by simp, by simp⟩

/-- The tree without the file at a place. The directories around it stay. -/
def remove (t : FileTree) (place : Place) : FileTree where
  files := t.files.filter (·.1 ≠ place)
  directories := place.dropLast :: t.directories
  named file h := t.named file (List.mem_filter.1 h).1
  distinct := t.distinct.sublist (List.filter_sublist.map _)

/-- The tree with a file in place of any that was there. A place that no path can spell holds no file. -/
def write (t : FileTree) (place : Place) (content : ByteArray) : FileTree :=
  if named : place.all Path.isName then
    { files := (place, content) :: (t.remove place).files
      directories := t.directories
      named := by
        intro file h
        rcases List.mem_cons.1 h with rfl | h
        · exact named
        · exact (t.remove place).named file h
      distinct := by
        refine List.nodup_cons.2 ⟨fun h => ?_, (t.remove place).distinct⟩
        obtain ⟨file, h, same⟩ := List.mem_map.1 h
        simp [remove, same] at h }
  else t

def makeDirectory (t : FileTree) (place : Place) : FileTree :=
  { t with directories := place :: t.directories }

def bytes? (t : FileTree) (place : Place) : Option ByteArray :=
  t.files.lookup place

theorem bytes?_write (t : FileTree) {place : Place} (content : ByteArray)
    (named : place.all Path.isName = true) : (t.write place content).bytes? place = some content := by
  simp [bytes?, write, named]

theorem bytes?_remove (t : FileTree) (place : Place) : (t.remove place).bytes? place = none := by
  rw [bytes?, List.lookup_eq_none_iff]
  intro file h
  simp only [remove, List.mem_filter, decide_eq_true_eq] at h
  simpa using Ne.symm h.2

def isFile (t : FileTree) (place : Place) : Bool :=
  (t.bytes? place).isSome

/-- Directories are the root, those made, and all around files and directories. -/
def isDirectory (t : FileTree) (place : Place) : Bool :=
  place.isEmpty || t.directories.any place.isPrefixOf
    || t.files.any fun file => place.isPrefixOf file.1 && place ≠ file.1

/-- The place one segment further. Only a directory has places below and above it. -/
def follow (t : FileTree) (place : Place) (segment : String) : Except ReadError Place :=
  if t.isDirectory place then
    .ok <| match segment with
      | "" | "." => place
      | ".." => place.dropLast
      | name => place ++ [name]
  else if t.isFile place then .error .notDirectory
  else .error .notFound

/-- The place that a path leads to from the root directory. It may be empty, all before it must be there. -/
def locate (t : FileTree) (path : Path) : Except ReadError Place :=
  path.segments.foldlM t.follow []

def holdsFile (t : FileTree) (path : Path) : Bool :=
  match t.locate path with
  | .ok place => t.isFile place
  | .error _ => false

def holds (t : FileTree) (path : Path) : Bool :=
  match t.locate path with
  | .ok place => t.isFile place || t.isDirectory place
  | .error _ => false

def read (t : FileTree) (path : Path) : Except ReadError String := do
  let place ← t.locate path
  match t.bytes? place with
  | some content =>
    match String.fromUTF8? content with
    | some text => return text
    | none => throw .invalidData
  | none => throw (if t.isDirectory place then .isDirectory else .notFound)

end FileTree

end ArchLint
