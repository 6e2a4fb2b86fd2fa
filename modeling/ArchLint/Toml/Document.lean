import ArchLint.Toml.Scalar

/-!
# TOML documents

`parse?` reads a document. Statements are read first, then put into place: a table may be opened once by a
header, and tables made by dotted keys take further dotted keys only. A document that names a key twice is
refused.
-/

namespace ArchLint.Toml

/-! ### Tables under construction -/

/-- How a table came into being: by its own header, by a header below it, or by a dotted key. -/
inductive Origin where
  | header
  | implied
  | dotted
  deriving DecidableEq, Repr

/-- An entry under construction. Of an array of tables the last one is open. -/
inductive Draft where
  | leaf (value : Value)
  | table (origin : Origin) (entries : List (String × Draft))
  | tables (elements : List (List (String × Draft)))

abbrev Drafts := List (String × Draft)

/-- The entries with one of them set, in its old place if it has one. -/
def Drafts.set (entries : Drafts) (key : String) (draft : Draft) : Drafts :=
  if (entries.lookup key).isSome then entries.map fun (k, d) => if k = key then (k, draft) else (k, d)
  else entries ++ [(key, draft)]

/-- Acts on the table at the end of a path, which is made where it is missing. -/
def Drafts.descend (dotted : Bool) (act : Origin → Drafts → Option Drafts) :
    Origin → List String → Drafts → Option Drafts
  | origin, [], entries => act origin entries
  | _, key :: path, entries =>
    match entries.lookup key with
    | none => do
      let origin := if dotted then Origin.dotted else .implied
      let inner ← descend dotted act origin path []
      return entries.set key (.table origin inner)
    | some (.leaf _) => none
    | some (.tables elements) => do
      let inner ← descend dotted act .header path (← elements.getLast?)
      return entries.set key (.tables (elements.dropLast ++ [inner]))
    | some (.table origin inner) =>
      if dotted ∧ origin = .header then none
      else do
        let inner ← descend dotted act origin path inner
        return entries.set key (.table origin inner)

/-- Splits a key into the path to its table and its last part. -/
def splitKey? (key : List String) : Option (List String × String) :=
  key.getLast?.map fun last => (key.dropLast, last)

def Drafts.assign (entries : Drafts) (key : List String) (draft : Draft) : Option Drafts := do
  let (path, last) ← splitKey? key
  let add (origin : Origin) (inner : Drafts) : Option Drafts :=
    if (origin = .dotted) ≠ (path ≠ []) ∨ (inner.lookup last).isSome then none
    else some (inner ++ [(last, draft)])
  entries.descend true add .header path

mutual

def Draft.finish : Draft → Value
  | .leaf value => value
  | .table _ entries => .table (finishEntries entries)
  | .tables elements => .array (finishElements elements)

def finishEntries : List (String × Draft) → Table
  | [] => []
  | (key, draft) :: rest => (key, draft.finish) :: finishEntries rest

def finishElements : List (List (String × Draft)) → List Value
  | [] => []
  | entries :: rest => .table (finishEntries entries) :: finishElements rest

end

/-! ### Values -/

mutual

/-- A value, nested in at most `room` others. -/
def valueWithin (room : Nat) : Nat → List Char → Option (Value × List Char)
  | 0, _ => none
  | fuel + 1, text =>
    match text with
    | '[' :: rest => if room = 0 then none else itemsWithin (room - 1) fuel [] rest
    | '\x7B' :: rest =>
      if room = 0 then none
      else match skipSpaces rest with
        | '\x7D' :: rest => some (.table [], rest)
        | rest => pairsWithin (room - 1) fuel [] rest
    | 't' :: 'r' :: 'u' :: 'e' :: rest => some (.boolean true, rest)
    | 'f' :: 'a' :: 'l' :: 's' :: 'e' :: rest => some (.boolean false, rest)
    | text =>
      match string? text with
      | some (s, rest) => some (.string s, rest)
      | none =>
        match datetime? text with
        | some result => some result
        | none => number? text

/-- The items of an array up to its closing bracket; the last one may have a comma after it. -/
def itemsWithin (room : Nat) : Nat → List Value → List Char → Option (Value × List Char)
  | 0, _, _ => none
  | fuel + 1, read, text =>
    match skipLines text with
    | ']' :: rest => some (.array read.reverse, rest)
    | text =>
      match valueWithin room fuel text with
      | none => none
      | some (value, rest) =>
        match skipLines rest with
        | ',' :: rest => itemsWithin room fuel (value :: read) rest
        | ']' :: rest => some (.array (value :: read).reverse, rest)
        | _ => none

/-- The pairs of an inline table up to its closing brace, on one line and with no comma at the end. -/
def pairsWithin (room : Nat) : Nat → Drafts → List Char → Option (Value × List Char)
  | 0, _, _ => none
  | fuel + 1, read, text =>
    match key? text with
    | some (key, '=' :: rest) =>
      match valueWithin room fuel (skipSpaces rest) with
      | none => none
      | some (value, rest) =>
        match read.assign key (.leaf value) with
        | none => none
        | some read =>
          match skipSpaces rest with
          | ',' :: rest => pairsWithin room fuel read rest
          | '\x7D' :: rest => some (.table (finishEntries read), rest)
          | _ => none
    | _ => none

end

/-- A value. Two calls of the reader take a character at least. -/
def value? (text : List Char) : Option (Value × List Char) :=
  valueWithin depthLimit (2 * text.length + 1) text

/-! ### Statements -/

inductive Statement where
  | pair (key : List String) (value : Value)
  | header (key : List String)
  | element (key : List String)

/-- The statement at the start of a line, and the lines after it. -/
def statement? (text : List Char) : Option (Statement × List Char) :=
  match text with
  | '[' :: '[' :: rest =>
    match key? rest with
    | some (key, ']' :: ']' :: rest) => (endLine? rest).map fun rest => (.element key, rest)
    | _ => none
  | '[' :: rest =>
    match key? rest with
    | some (key, ']' :: rest) => (endLine? rest).map fun rest => (.header key, rest)
    | _ => none
  | text =>
    match key? text with
    | some (key, '=' :: rest) =>
      match value? (skipSpaces rest) with
      | some (value, rest) => (endLine? rest).map fun rest => (.pair key value, rest)
      | none => none
    | _ => none

def statementsWithin : Nat → List Char → Option (List Statement)
  | 0, _ => none
  | fuel + 1, text =>
    match skipLines text with
    | [] => some []
    | text =>
      match statement? text with
      | none => none
      | some (statement, rest) => (statementsWithin fuel rest).map (statement :: ·)

/-! ### Sections -/

structure Section where
  isElement : Bool
  key : List String
  pairs : List (List String × Value)

/-- The pairs before the first header, and the sections. -/
def sections (statements : List Statement) : List (List String × Value) × List Section :=
  statements.foldr
    (fun statement (pairs, sections) =>
      match statement with
      | .pair key value => ((key, value) :: pairs, sections)
      | .header key => ([], ⟨false, key, pairs⟩ :: sections)
      | .element key => ([], ⟨true, key, pairs⟩ :: sections))
    ([], [])

def Drafts.assignAll (entries : Drafts) (pairs : List (List String × Value)) : Option Drafts :=
  pairs.foldlM (fun entries (key, value) => entries.assign key (.leaf value)) entries

/-- Puts a section into place. A header opens a table that is new or only implied, an element header adds to
an array of tables. -/
def Drafts.addSection (root : Drafts) (s : Section) : Option Drafts := do
  let (path, last) ← splitKey? s.key
  let place (_ : Origin) (parent : Drafts) : Option Drafts :=
    if s.isElement then
      match parent.lookup last with
      | none => (Drafts.assignAll [] s.pairs).map fun t => parent.set last (.tables [t])
      | some (.tables elements) =>
        (Drafts.assignAll [] s.pairs).map fun t => parent.set last (.tables (elements ++ [t]))
      | _ => none
    else
      match parent.lookup last with
      | none => (Drafts.assignAll [] s.pairs).map fun t => parent.set last (.table .header t)
      | some (.table .implied inner) => (Drafts.assignAll inner s.pairs).map fun t => parent.set last (.table .header t)
      | _ => none
  root.descend false place .header path

/-- The table that a document spells, or nothing if it is malformed. -/
def parse? (document : String) : Option Table := do
  let text := match document.toList with
    | '\uFEFF' :: rest => rest
    | text => text
  let statements ← statementsWithin (text.length + 1) text
  let (pairs, sections) := sections statements
  let root ← Drafts.assignAll [] pairs
  let root ← sections.foldlM Drafts.addSection root
  return finishEntries root

end ArchLint.Toml
