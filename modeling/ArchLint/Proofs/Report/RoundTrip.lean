import ArchLint.Proofs.Lists
import ArchLint.Report.Codec
import Mathlib.Data.List.Zip

/-!
# Reports that are read back

A record may be written as an object with its fields in any order among others, or as the array of its values, each
record of a report in its own way. All of that reads back as the same report, as long as its numbers fit a word.
-/

namespace ArchLint

namespace Json

/-- The ways to write a record with declared names and values. The last names may be without a value. -/
inductive Writes (names : List String) (values : List Json) : Json → Prop where
  | named {fields : List (String × Json)}
      (declared : (fields.filter fun field => names.contains field.1).Perm (names.zip values)) :
      Writes names values (.object fields)
  | inOrder : Writes names values (.array values)

/-- The ways to write a list, item by item. -/
inductive WritesList {α : Type} (spells : α → Json → Prop) (xs : List α) : Json → Prop where
  | items {items : List Json} (each : List.Forall₂ spells xs items) : WritesList spells xs (.array items)

/-- The value of a last field that holds a list, if it is written at all. -/
inductive WritesLast {α : Type} (spells : α → Json → Prop) (xs : List α) : List Json → Prop where
  | written {value : Json} (list : WritesList spells xs value) : WritesLast spells xs [value]
  | dropped (none : xs = []) : WritesLast spells xs []

/-- However a record is written, each declared name has its value. -/
theorem Writes.parts {names : List String} {values : List Json} {json : Json} (writes : Writes names values json)
    (distinct : names.Nodup) (fit : values.length ≤ names.length) :
    ∃ parts, Parts.of? names.length json = some parts ∧
      ∀ place name, names[place]? = some name → parts.get? place name = values[place]? := by
  cases writes with
  | inOrder => exact ⟨.inOrder values, if_pos fit, fun _ _ _ => rfl⟩
  | @named fields declared =>
    refine ⟨.named fields, rfl, fun place name known => ?_⟩
    -- Names are told apart among the declared fields only, others may repeat.
    have inside : names.contains name = true := List.contains_iff_mem.mpr (List.mem_of_getElem? known)
    rw [Parts.get?, ← lookup_filter names.contains inside]
    exact lookup_of_perm_zip distinct declared known

theorem string?_string (text : String) : string? (.string text) = some text :=
  rfl

theorem word64?_nat {n : Nat} (small : n < 0x10000000000000000) : word64? (.nat n) = some n :=
  if_pos small

theorem list?_of_writesList {α : Type} {spells : α → Json → Prop} {decode : Json → Option α} {xs : List α} {json : Json}
    (writes : WritesList spells xs json) (reads : ∀ x ∈ xs, ∀ item, spells x item → decode item = some x) :
    list? decode json = some xs := by
  obtain ⟨each⟩ := writes
  apply mapM_of_forall₂
  induction each with
  | nil => exact .nil
  | cons here _ ih =>
    refine .cons (reads _ List.mem_cons_self _ here) (ih ?_)
    exact fun x inside => reads x (List.mem_cons_of_mem _ inside)

theorem list?_of_writesLast {α : Type} {spells : α → Json → Prop} {decode : Json → Option α} {xs : List α}
    {values : List Json} (writes : WritesLast spells xs values)
    (reads : ∀ x ∈ xs, ∀ item, spells x item → decode item = some x) :
    list? decode (values[0]?.getD (.array [])) = some xs := by
  cases writes with
  | written list => exact list?_of_writesList list reads
  | dropped none =>
    subst none
    rfl

theorem writesList_map {α : Type} {spells : α → Json → Prop} {encode : α → Json} (each : ∀ x, spells x (encode x))
    (xs : List α) : WritesList spells xs (.array (xs.map encode)) :=
  .items (List.forall₂_map_right_iff.mpr (List.forall₂_same.mpr fun x _ => each x))

theorem writesLast_map {α : Type} {spells : α → Json → Prop} {encode : α → Json} (each : ∀ x, spells x (encode x))
    (xs : List α) : WritesLast spells xs (if xs.isEmpty then [] else [.array (xs.map encode)]) := by
  split
  · next none => exact .dropped (List.isEmpty_iff.mp none)
  · exact .written (writesList_map each xs)

theorem WritesLast.length_append_le {α : Type} {spells : α → Json → Prop} {xs : List α} {values : List Json}
    (writes : WritesLast spells xs values) (front : List Json) : (front ++ values).length ≤ front.length + 1 := by
  rw [List.length_append]
  cases writes with
  | written _ => exact Nat.le_refl _
  | dropped _ => exact Nat.le_succ _

end Json

/-! ### Records and their fields -/

/-- A location whose numbers are below `2 ^ 64`. -/
structure Location.Fits (l : Location) : Prop where
  line : l.line < 0x10000000000000000
  column : l.column < 0x10000000000000000
  offset : l.offset < 0x10000000000000000
  length : l.length < 0x10000000000000000

structure Violation.Fits (v : Violation) : Prop where
  location : v.location.Fits
  labels : ∀ label ∈ v.labels, label.location.Fits

structure Report.Fits (r : Report) : Prop where
  violations : ∀ v ∈ r.violations, v.Fits
  filesChecked : r.filesChecked < 0x10000000000000000
  faults : ∀ fault ∈ r.faults, fault.line < 0x10000000000000000

namespace Location

def Spells (l : Location) (json : Json) : Prop :=
  Json.Writes ["file", "line", "column", "offset", "length"]
    [.string l.file.text, .nat l.line, .nat l.column, .nat l.offset, .nat l.length] json

theorem spells_toJson (l : Location) : l.Spells l.toJson := by
  apply Json.Writes.named
  simp

theorem ofJson?_of_spells {l : Location} (fits : l.Fits) {json : Json} (spells : l.Spells json) :
    ofJson? json = some l := by
  obtain ⟨parts, read, found⟩ := spells.parts (by decide) (by simp)
  change Parts.of? 5 json = some parts at read
  have file : parts.get? 0 "file" = some (.string l.file.text) := found 0 "file" rfl
  have line : parts.get? 1 "line" = some (.nat l.line) := found 1 "line" rfl
  have column : parts.get? 2 "column" = some (.nat l.column) := found 2 "column" rfl
  have offset : parts.get? 3 "offset" = some (.nat l.offset) := found 3 "offset" rfl
  have length : parts.get? 4 "length" = some (.nat l.length) := found 4 "length" rfl
  rw [ofJson?, bind_of_eq_some read, bind_bind_of_eq_some file (Json.string?_string _),
    bind_bind_of_eq_some line (Json.word64?_nat fits.line), bind_bind_of_eq_some column (Json.word64?_nat fits.column),
    bind_bind_of_eq_some offset (Json.word64?_nat fits.offset),
    bind_bind_of_eq_some length (Json.word64?_nat fits.length)]
  rfl

end Location

namespace Label

def Spells (l : Label) (json : Json) : Prop :=
  ∃ location, l.location.Spells location ∧ Json.Writes ["location", "message"] [location, .string l.message] json

theorem spells_toJson (l : Label) : l.Spells l.toJson := by
  refine ⟨_, l.location.spells_toJson, .named ?_⟩
  simp

theorem ofJson?_of_spells {l : Label} (fits : l.location.Fits) {json : Json} (spells : l.Spells json) :
    ofJson? json = some l := by
  obtain ⟨location, spelled, writes⟩ := spells
  obtain ⟨parts, read, found⟩ := writes.parts (by decide) (by simp)
  change Parts.of? 2 json = some parts at read
  have place : parts.get? 0 "location" = some location := found 0 "location" rfl
  have message : parts.get? 1 "message" = some (.string l.message) := found 1 "message" rfl
  rw [ofJson?, bind_of_eq_some read, bind_bind_of_eq_some place (Location.ofJson?_of_spells fits spelled),
    bind_bind_of_eq_some message (Json.string?_string _)]
  rfl

end Label

namespace Suggestion

def Spells (s : Suggestion) (json : Json) : Prop :=
  Json.Writes ["message"] [.string s.message] json

theorem spells_toJson (s : Suggestion) : s.Spells s.toJson := by
  apply Json.Writes.named
  simp

theorem ofJson?_of_spells {s : Suggestion} {json : Json} (spells : s.Spells json) : ofJson? json = some s := by
  obtain ⟨parts, read, found⟩ := spells.parts (by decide) (by simp)
  change Parts.of? 1 json = some parts at read
  have message : parts.get? 0 "message" = some (.string s.message) := found 0 "message" rfl
  rw [ofJson?, bind_of_eq_some read, bind_bind_of_eq_some message (Json.string?_string _)]
  rfl

end Suggestion

theorem Severity.ofJson?_toJson (s : Severity) : ofJson? s.toJson = some s :=
  ofName?_name s

namespace Violation

/-- No suggestion is written as null. -/
def SpellsSuggestion : Option Suggestion → Json → Prop
  | none, json => json = .null
  | some s, json => s.Spells json

def Spells (v : Violation) (json : Json) : Prop :=
  ∃ location suggestion labels, v.location.Spells location ∧ SpellsSuggestion v.suggestion suggestion ∧
    Json.WritesLast Label.Spells v.labels labels ∧
      Json.Writes ["code", "rule", "message_id", "severity", "location", "message", "suggestion", "labels"]
        ([.string v.code, .string v.rule, .string v.messageId, v.severity.toJson, location, .string v.message,
          suggestion] ++ labels) json

theorem spells_toJson (v : Violation) : v.Spells v.toJson := by
  have suggestion : SpellsSuggestion v.suggestion (v.suggestion.elim .null Suggestion.toJson) := by
    cases v.suggestion with
    | none => rfl
    | some s => exact s.spells_toJson
  refine ⟨_, _, _, v.location.spells_toJson, suggestion, Json.writesLast_map Label.spells_toJson v.labels, .named ?_⟩
  split <;> simp

theorem suggestionOf?_of_spells {suggestion : Option Suggestion} {json : Json}
    (spells : SpellsSuggestion suggestion json) {parts : Parts} (found : parts.get? 6 "suggestion" = some json) :
    suggestionOf? parts = some suggestion := by
  rw [suggestionOf?, found]
  cases suggestion with
  | none =>
    obtain rfl : json = .null := spells
    rfl
  | some s =>
    -- A suggestion is never written as null, so null is not mistaken for one.
    have read := Suggestion.ofJson?_of_spells spells
    cases spells with
    | named _ => exact congrArg (Option.map some) read
    | inOrder => exact congrArg (Option.map some) read

theorem ofJson?_of_spells {v : Violation} (fits : v.Fits) {json : Json} (spells : v.Spells json) :
    ofJson? json = some v := by
  obtain ⟨location, suggestion, labels, spelled, suggested, listed, writes⟩ := spells
  obtain ⟨parts, read, found⟩ := writes.parts (by decide) (listed.length_append_le _)
  change Parts.of? 8 json = some parts at read
  have remarks : Json.list? Label.ofJson? ((parts.get? 7 "labels").getD (.array [])) = some v.labels := by
    rw [found 7 "labels" rfl]
    exact Json.list?_of_writesLast listed fun label inside _ => Label.ofJson?_of_spells (fits.labels label inside)
  have code : parts.get? 0 "code" = some (.string v.code) := found 0 "code" rfl
  have rule : parts.get? 1 "rule" = some (.string v.rule) := found 1 "rule" rfl
  have messageId : parts.get? 2 "message_id" = some (.string v.messageId) := found 2 "message_id" rfl
  have severity : parts.get? 3 "severity" = some v.severity.toJson := found 3 "severity" rfl
  have place : parts.get? 4 "location" = some location := found 4 "location" rfl
  have message : parts.get? 5 "message" = some (.string v.message) := found 5 "message" rfl
  have help := suggestionOf?_of_spells suggested (found 6 "suggestion" rfl)
  rw [ofJson?, bind_of_eq_some read, bind_bind_of_eq_some code (Json.string?_string _),
    bind_bind_of_eq_some rule (Json.string?_string _), bind_bind_of_eq_some messageId (Json.string?_string _),
    bind_bind_of_eq_some severity v.severity.ofJson?_toJson,
    bind_bind_of_eq_some place (Location.ofJson?_of_spells fits.location spelled),
    bind_bind_of_eq_some message (Json.string?_string _), bind_of_eq_some help, bind_of_eq_some remarks]
  rfl

end Violation

namespace Fault

def Spells (f : Fault) (json : Json) : Prop :=
  Json.Writes ["file", "rule", "node_kind", "line", "message"]
    [.string f.file.text, .string f.rule, .string f.nodeKind, .nat f.line, .string f.message] json

theorem spells_toJson (f : Fault) : f.Spells f.toJson := by
  apply Json.Writes.named
  simp

theorem ofJson?_of_spells {f : Fault} (small : f.line < 0x10000000000000000) {json : Json} (spells : f.Spells json) :
    ofJson? json = some f := by
  obtain ⟨parts, read, found⟩ := spells.parts (by decide) (by simp)
  change Parts.of? 5 json = some parts at read
  have file : parts.get? 0 "file" = some (.string f.file.text) := found 0 "file" rfl
  have rule : parts.get? 1 "rule" = some (.string f.rule) := found 1 "rule" rfl
  have nodeKind : parts.get? 2 "node_kind" = some (.string f.nodeKind) := found 2 "node_kind" rfl
  have line : parts.get? 3 "line" = some (.nat f.line) := found 3 "line" rfl
  have message : parts.get? 4 "message" = some (.string f.message) := found 4 "message" rfl
  rw [ofJson?, bind_of_eq_some read, bind_bind_of_eq_some file (Json.string?_string _),
    bind_bind_of_eq_some rule (Json.string?_string _), bind_bind_of_eq_some nodeKind (Json.string?_string _),
    bind_bind_of_eq_some line (Json.word64?_nat small), bind_bind_of_eq_some message (Json.string?_string _)]
  rfl

end Fault

namespace Report

/-- The values that say the same as a report: each of its records in one of the ways to write it. -/
def Spells (r : Report) (json : Json) : Prop :=
  ∃ violations faults, Json.WritesList Violation.Spells r.violations violations ∧
    Json.WritesLast Fault.Spells r.faults faults ∧
      Json.Writes ["violations", "files_checked", "faults"] ([violations, .nat r.filesChecked] ++ faults) json

theorem spells_toJson (r : Report) : r.Spells r.toJson := by
  refine ⟨_, _, Json.writesList_map Violation.spells_toJson r.violations,
    Json.writesLast_map Fault.spells_toJson r.faults, .named ?_⟩
  split <;> simp

theorem ofJson?_of_spells {r : Report} (fits : r.Fits) {json : Json} (spells : r.Spells json) :
    ofJson? json = some r := by
  obtain ⟨violations, faults, listed, failed, writes⟩ := spells
  obtain ⟨parts, read, found⟩ := writes.parts (by decide) (failed.length_append_le _)
  change Parts.of? 3 json = some parts at read
  have breaches : violations.list? Violation.ofJson? = some r.violations :=
    Json.list?_of_writesList listed fun v inside _ => Violation.ofJson?_of_spells (fits.violations v inside)
  have failures : Json.list? Fault.ofJson? ((parts.get? 2 "faults").getD (.array [])) = some r.faults := by
    rw [found 2 "faults" rfl]
    exact Json.list?_of_writesLast failed fun f inside _ => Fault.ofJson?_of_spells (fits.faults f inside)
  have first : parts.get? 0 "violations" = some violations := found 0 "violations" rfl
  have filesChecked : parts.get? 1 "files_checked" = some (.nat r.filesChecked) := found 1 "files_checked" rfl
  rw [ofJson?, bind_of_eq_some read, bind_bind_of_eq_some first breaches,
    bind_bind_of_eq_some filesChecked (Json.word64?_nat fits.filesChecked), bind_of_eq_some failures]
  rfl

/-- A report whose numbers fit a word is read back as it was: from what is written, which leaves out empty lists, and
from all else that spells it. -/
theorem toJson_readsBack {r : Report} (fits : r.Fits) :
    ofJson? r.toJson = some r ∧ (r.toJson.field? "faults" = none ↔ r.faults = []) ∧
      (∀ v ∈ r.violations, v.toJson.field? "labels" = none ↔ v.labels = []) ∧
      ∀ json, r.Spells json → ofJson? json = some r := by
  refine ⟨ofJson?_of_spells fits r.spells_toJson, ?_, fun v _ => ?_, fun _ => ofJson?_of_spells fits⟩
  · cases faults : r.faults <;> simp [toJson, Json.field?, List.lookup_cons, faults]
  · cases labels : v.labels <;> simp [Violation.toJson, Json.field?, List.lookup_cons, labels]

/-- A report on one clock that is read twice. -/
def clockReport : Report where
  violations := [⟨"CG002", "prefer-unified-time", "direct", .warning, ⟨⟨"src/a.ts"⟩, 1, 1, 0, 10⟩, "No clocks.", none,
    [⟨⟨⟨"src/a.ts"⟩, 2, 1, 12, 10⟩, "again"⟩]⟩]
  filesChecked := 1
  faults := []

/-- Records in several forms, with fields that no record has. -/
def clockJson : Json :=
  let first : Json := .array [.string "src/a.ts", .nat 1, .nat 1, .nat 0, .nat 10]
  let second : Json := .object [("end", .null), ("line", .nat 2), ("file", .string "src/a.ts"), ("column", .nat 1),
    ("offset", .nat 12), ("length", .nat 10)]
  .array [.array [.object [("code", .string "CG002"), ("rule", .string "prefer-unified-time"),
    ("message_id", .string "direct"), ("fix", .nat 7), ("severity", .string "warning"), ("location", first),
    ("message", .string "No clocks."), ("suggestion", .null), ("labels", .array [.array [second, .string "again"]])]],
    .nat 1]

theorem toJson_readsBack_clockReport : clockReport.Fits ∧ clockReport.Spells clockJson ∧
    ofJson? clockReport.toJson = some clockReport ∧ ofJson? clockJson = some clockReport ∧
    clockReport.toJson.field? "faults" = none := by
  have fits : clockReport.Fits := by
    refine ⟨fun v inside => ?_, by decide, fun f inside => absurd inside List.not_mem_nil⟩
    rw [List.mem_singleton.mp inside]
    refine ⟨⟨by decide, by decide, by decide, by decide⟩, fun label there => ?_⟩
    rw [List.mem_singleton.mp there]
    exact ⟨by decide, by decide, by decide, by decide⟩
  have spells : clockReport.Spells clockJson := by
    refine ⟨_, [], .items (.cons ?_ .nil), .dropped rfl, .inOrder⟩
    refine ⟨_, _, [_], .inOrder, rfl, .written (.items (.cons ?_ .nil)), .named (.refl _)⟩
    refine ⟨_, .named ?_, .inOrder⟩
    exact .swap _ _ _
  obtain ⟨whole, faults, -, other⟩ := toJson_readsBack fits
  exact ⟨fits, spells, whole, other _ spells, faults.mpr rfl⟩

end Report

end ArchLint
