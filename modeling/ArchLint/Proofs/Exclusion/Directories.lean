import ArchLint.Proofs.Exclusion.Promise
import ArchLint.Proofs.Path.Folding

/-!
# Excluded directories

The glob `**/lib/gen/**` and its text `/lib/gen/` exclude the same paths: those with `lib` and `gen` as consecutive
segments and at least one segment below them.
-/

namespace ArchLint

namespace Pattern

/-- A character that a glob takes for itself. -/
structure Literal (c : Char) : Prop where
  star : c ≠ '*'
  mark : c ≠ '?'
  bracket : c ≠ '['

namespace Glob

open GlobPiece

variable {word : List Char}

/-! ### Reading -/

theorem readFrom_cons {c : Char} (literal : Literal c) (position : Nat) (opens : Bool) (rest : List Char) :
    readFrom position opens (c :: rest) =
      (readFrom (position + 1) (c = '/') rest >>= fun pieces => .ok (.char c :: pieces)) := by
  obtain ⟨star, mark, bracket⟩ := literal
  rw [readFrom.eq_def]
  split <;> simp_all
  rfl

theorem readFrom_directories (position : Nat) (rest : List Char) :
    readFrom position true ('*' :: '*' :: '/' :: rest) =
      (readFrom (position + 3) true rest >>= fun pieces => .ok (.directories :: pieces)) := by
  rw [readFrom.eq_def]
  rfl

theorem readFrom_word (literal : ∀ c ∈ word, Literal c) (position : Nat) (opens : Bool) :
    readFrom position opens (word ++ "/**".toList) = .ok (word.map .char ++ [.char '/', .directories]) := by
  induction word generalizing position opens with
  | nil =>
    have last : readFrom (position + 1) true ['*', '*'] = .ok [.directories] := by simp [readFrom]
    change readFrom position opens ['/', '*', '*'] = _
    rw [readFrom_cons ⟨by decide, by decide, by decide⟩, decide_eq_true rfl, last]
    rfl
  | cons c word ih =>
    obtain ⟨first, others⟩ := List.forall_mem_cons.mp literal
    rw [List.cons_append, readFrom_cons first, ih others]
    rfl

/-! ### Standing -/

theorem stand_word_iff {rest : List GlobPiece} {text : List Char} :
    Stand (word.map .char ++ rest) text ↔ ∃ tail, text = word ++ tail ∧ Stand rest tail := by
  induction word generalizing text with
  | nil => simp
  | cons c word ih =>
    rw [List.map_cons, List.cons_append, stand_cons_iff ⟨by simp, by simp⟩]
    simp only [admits, decide_eq_true_eq, ih]
    constructor
    · rintro ⟨_, _, rfl, rfl, tail, rfl, stands⟩
      exact ⟨tail, rfl, stands⟩
    · rintro ⟨tail, rfl, stands⟩
      exact ⟨_, _, rfl, rfl, tail, rfl, stands⟩

/-- Leading directories are left out whole, up to a slash or not at all. -/
theorem stand_below_iff {text : List Char} :
    Stand (.directories :: (word.map .char ++ [.char '/', .directories])) text ↔
      word ++ ['/'] <+: text ∨ '/' :: (word ++ ['/']) <:+: text := by
  have below : ∀ text, Stand (word.map .char ++ [.char '/', .directories]) text ↔ word ++ ['/'] <+: text := by
    intro text
    have slash : ∀ tail, Stand [.char '/', .directories] tail ↔ ∃ rest, tail = '/' :: rest := by
      intro tail
      rw [stand_cons_iff ⟨by simp, by simp⟩]
      simp [admits, stand_directories_iff]
    simp only [stand_word_iff, slash]
    constructor
    · rintro ⟨_, rfl, rest, rfl⟩
      exact ⟨rest, by simp⟩
    · rintro ⟨rest, rfl⟩
      exact ⟨'/' :: rest, by simp, rest, rfl⟩
  rw [stand_directories_iff, below]
  simp only [below]
  constructor
  · rintro (none | here | ⟨tail, ⟨front, rfl⟩, rest, rfl⟩)
    · simp at none
    · exact Or.inl here
    · exact Or.inr ⟨front, rest, by simp⟩
  · rintro (here | ⟨front, rest, rfl⟩)
    · exact Or.inr (Or.inl here)
    · exact Or.inr (Or.inr ⟨word ++ ['/'] ++ rest, ⟨front, by simp⟩, rest, rfl⟩)

end Glob

end Pattern

/-! ### Segments -/

/-- The names are consecutive segments of the text, and another one follows. -/
def LiesUnder (names : List String) (relative : String) : Prop :=
  ∃ front rest, Text.fieldsOf '/' relative = front ++ names ++ rest ∧ rest ≠ []

/-- A name that a glob takes for itself. -/
structure LiteralName (name : String) : Prop where
  filled : name ≠ ""
  single : '/' ∉ name.toList
  star : '*' ∉ name.toList
  mark : '?' ∉ name.toList
  bracket : '[' ∉ name.toList

theorem LiteralName.literal {name : String} (whole : LiteralName name) : ∀ c ∈ name.toList, Pattern.Literal c := by
  intro c inside
  constructor <;> rintro rfl
  · exact whole.star inside
  · exact whole.mark inside
  · exact whole.bracket inside

section

variable {names : List String} (some : names ≠ []) (literal : ∀ name ∈ names, LiteralName name)

include some literal

theorem fieldsOf_names : Text.fieldsOf '/' (Text.joinWith '/' names) = names :=
  Text.fieldsOf_joinWith some fun name inside => (literal name inside).single

theorem exists_joinWith : ∃ c rest, (Text.joinWith '/' names).toList = c :: rest ∧ c ≠ '/' := by
  obtain ⟨name, more, rfl⟩ := List.exists_cons_of_ne_nil some
  obtain ⟨filled, single, -, -, -⟩ := literal name List.mem_cons_self
  obtain ⟨c, rest, letters⟩ := List.exists_cons_of_ne_nil (mt String.toList_eq_nil_iff.mp filled)
  have apart : c ≠ '/' := fun same => single (by simp [letters, same])
  have alone : (Text.joinWith '/' [name]).toList = c :: rest := by simp [Text.joinWith, letters]
  by_cases last : more = []
  · exact ⟨c, rest, last ▸ alone, apart⟩
  · refine ⟨c, rest ++ '/' :: (Text.joinWith '/' more).toList, ?_, apart⟩
    rw [← List.singleton_append, Text.toList_joinWith_append (List.cons_ne_nil _ _) last, alone, List.cons_append]

theorem liesUnder_iff {relative : String} : LiesUnder names relative ↔
    (Text.joinWith '/' names).toList ++ ['/'] <+: relative.toList ∨
      '/' :: ((Text.joinWith '/' names).toList ++ ['/']) <:+: relative.toList := by
  constructor
  · rintro ⟨front, rest, split, more⟩
    rw [← Text.joinWith_fieldsOf '/' relative, split, Text.toList_joinWith_append (by simp [some]) more]
    by_cases first : front = []
    · exact Or.inl ⟨(Text.joinWith '/' rest).toList, by simp [first]⟩
    · rw [Text.toList_joinWith_append first some]
      exact Or.inr ⟨(Text.joinWith '/' front).toList, (Text.joinWith '/' rest).toList, by simp⟩
  · have cut := fieldsOf_names some literal
    rintro (⟨rest, text⟩ | ⟨front, rest, text⟩)
    · refine ⟨[], Text.fieldsOf '/' (String.ofList rest), ?_, Text.fieldsOf_ne_nil _ _⟩
      have letters : relative.toList = (Text.joinWith '/' names).toList ++ '/' :: (String.ofList rest).toList := by
        simp [← text]
      rw [Text.fieldsOf_of_append letters, cut, List.nil_append]
    · refine ⟨Text.fieldsOf '/' (String.ofList front), Text.fieldsOf '/' (String.ofList rest), ?_,
        Text.fieldsOf_ne_nil _ _⟩
      have letters : relative.toList = (String.ofList front ++ "/" ++ Text.joinWith '/' names).toList ++
          '/' :: (String.ofList rest).toList := by
        simp [← text]
      have before : (String.ofList front ++ "/" ++ Text.joinWith '/' names).toList =
          (String.ofList front).toList ++ '/' :: (Text.joinWith '/' names).toList := by
        simp
      rw [Text.fieldsOf_of_append letters, Text.fieldsOf_of_append before, cut]

theorem infix_anchored_iff {relative : String} :
    '/' :: ((Text.joinWith '/' names).toList ++ ['/']) <:+: Exclusions.anchored relative ↔
      (Text.joinWith '/' names).toList ++ ['/'] <+: relative.toList ∨
        '/' :: ((Text.joinWith '/' names).toList ++ ['/']) <:+: relative.toList := by
  obtain ⟨c, rest, first, apart⟩ := exists_joinWith some literal
  unfold Exclusions.anchored
  split
  · next slash =>
    obtain ⟨tail, text⟩ := List.head?_eq_some_iff.mp slash
    have other : ¬(Text.joinWith '/' names).toList ++ ['/'] <+: relative.toList := by
      rw [first, text]
      exact fun inside => apart (List.cons_prefix_cons.mp inside).1
    rw [or_iff_right other]
  · rw [List.infix_cons_iff, List.cons_prefix_cons, and_iff_right rfl]

end

/-! ### Exclusions -/

namespace Exclusions

open Pattern

/-- The glob for what lies under the names. -/
def directoryGlob (names : List String) : String :=
  "**/" ++ Text.joinWith '/' names ++ "/**"

/-- The glob as it is read. -/
def readDirectoryGlob (names : List String) : Glob :=
  ⟨directoryGlob names, .directories :: ((Text.joinWith '/' names).toList.map .char ++ [.char '/', .directories])⟩

section

variable {names : List String} (some : names ≠ []) (literal : ∀ name ∈ names, LiteralName name)

include literal

theorem literal_joinWith : ∀ c ∈ (Text.joinWith '/' names).toList, Literal c := by
  intro c inside
  rcases Text.mem_joinWith inside with rfl | ⟨name, there, letter⟩
  · exact ⟨by decide, by decide, by decide⟩
  · exact (literal name there).literal c letter

theorem ofSources_directoryGlob : ofSources [directoryGlob names] = .ok [readDirectoryGlob names] := by
  have letters : (directoryGlob names).toList =
      '*' :: '*' :: '/' :: ((Text.joinWith '/' names).toList ++ "/**".toList) := by
    simp [directoryGlob]
  have read : Glob.ofSource (directoryGlob names) = .ok (readDirectoryGlob names) := by
    rw [Glob.ofSource, letters, Glob.readFrom_directories, Glob.readFrom_word (literal_joinWith literal)]
    rfl
  rw [ofSources, List.mapM_cons, read]
  rfl

include some

theorem needle_directoryGlob : needle (readDirectoryGlob names) =
    '/' :: ((Text.joinWith '/' names).toList ++ ['/']) := by
  obtain ⟨c, rest, first, -⟩ := exists_joinWith some literal
  refine leftover_of_namesDirectory ⟨?_, ?_, ?_⟩
  · simp [readDirectoryGlob, directoryGlob]
  · simp [first]
  · exact fun inside => (literal_joinWith literal _ inside).star rfl

theorem covers_directoryGlob_iff {relative : String} :
    (readDirectoryGlob names).covers relative = true ↔ LiesUnder names relative := by
  rw [Glob.covers_iff, liesUnder_iff some literal]
  exact Glob.stand_below_iff

theorem occurs_directoryGlob_iff {relative : String} :
    Text.occurs (needle (readDirectoryGlob names)) (anchored relative) = true ↔ LiesUnder names relative := by
  rw [Text.occurs_iff_infix, needle_directoryGlob some literal, infix_anchored_iff some literal,
    liesUnder_iff some literal]

theorem cover_iff_liesUnder {root path : Path} : cover [readDirectoryGlob names] root path = true ↔
    LiesUnder names (path.relativeTo root).slashForm := by
  have filled : needle (readDirectoryGlob names) ≠ [] := by
    rw [needle_directoryGlob some literal]
    exact List.cons_ne_nil _ _
  simp [cover, excludes, filled, covers_directoryGlob_iff some literal, occurs_directoryGlob_iff some literal]

end

/-- The glob for a directory and its text exclude the same files: those with the names as consecutive segments and a
segment below them. So names that are last, or that are only parts of segments, exclude nothing. -/
theorem directoryGlob_excludes {names : List String} (some : names ≠ [])
    (literal : ∀ name ∈ names, LiteralName name) :
    ∃ g, ofSources [directoryGlob names] = .ok [g] ∧
      needle g = '/' :: ((Text.joinWith '/' names).toList ++ ['/']) ∧
      ∀ root path : Path,
        let relative := (path.relativeTo root).slashForm
        g.covers relative = Text.occurs (needle g) (anchored relative) ∧
        (g.covers relative = true ↔ LiesUnder names relative) ∧
        (cover [g] root path = true ↔ LiesUnder names relative) ∧
        ((∃ name ∈ names, name ∉ (Text.fieldsOf '/' relative).dropLast) → cover [g] root path = false) := by
  refine ⟨readDirectoryGlob names, ofSources_directoryGlob literal, needle_directoryGlob some literal, ?_⟩
  intro root path relative
  have covers : (readDirectoryGlob names).covers relative = true ↔ LiesUnder names relative :=
    covers_directoryGlob_iff some literal
  have occurs : Text.occurs (needle (readDirectoryGlob names)) (anchored relative) = true ↔ LiesUnder names relative :=
    occurs_directoryGlob_iff some literal
  have excluded : cover [readDirectoryGlob names] root path = true ↔ LiesUnder names relative :=
    cover_iff_liesUnder some literal
  refine ⟨Bool.eq_iff_iff.mpr (covers.trans occurs.symm), covers, excluded, ?_⟩
  rintro ⟨name, inside, missing⟩
  refine Bool.eq_false_iff.mpr fun covered => ?_
  obtain ⟨front, rest, split, more⟩ := excluded.mp covered
  rw [split, List.dropLast_append_of_ne_nil more] at missing
  exact missing (List.mem_append_left _ (List.mem_append_right _ inside))

theorem directoryGlob_excludes_libGen : ∃ g, ofSources ["**/lib/gen/**"] = .ok [g] ∧
    cover [g] ⟨"/p"⟩ ⟨"/p/src/lib/gen/a.ts"⟩ = true ∧ cover [g] ⟨"/p"⟩ ⟨"/lib/gen/a.ts"⟩ = true ∧
    cover [g] ⟨"/p"⟩ ⟨"/p/lib/gen"⟩ = false ∧ cover [g] ⟨"/p"⟩ ⟨"/p/mylib/gen/a.ts"⟩ = false := by
  have literal : ∀ name ∈ ["lib", "gen"], LiteralName name := by
    refine List.forall_mem_cons.mpr ⟨?_, List.forall_mem_singleton.mpr ?_⟩
    all_goals constructor <;> decide
  obtain ⟨g, read, -, excludes⟩ := directoryGlob_excludes (List.cons_ne_nil "lib" ["gen"]) literal
  have inside : (Path.relativeTo ⟨"/p/src/lib/gen/a.ts"⟩ ⟨"/p"⟩).slashForm = "src/lib/gen/a.ts" := by decide +kernel
  have outside : (Path.relativeTo ⟨"/lib/gen/a.ts"⟩ ⟨"/p"⟩).slashForm = "/lib/gen/a.ts" := by decide +kernel
  have last : (Path.relativeTo ⟨"/p/lib/gen"⟩ ⟨"/p"⟩).slashForm = "lib/gen" := by decide +kernel
  have longer : (Path.relativeTo ⟨"/p/mylib/gen/a.ts"⟩ ⟨"/p"⟩).slashForm = "mylib/gen/a.ts" := by decide +kernel
  refine ⟨g, read, (excludes _ _).2.2.1.mpr ?_, (excludes _ _).2.2.1.mpr ?_, (excludes _ _).2.2.2 ?_,
    (excludes _ _).2.2.2 ?_⟩
  · rw [inside]
    exact ⟨["src"], ["a.ts"], by decide, by decide⟩
  · rw [outside]
    exact ⟨[""], ["a.ts"], by decide, by decide⟩
  · rw [last]
    exact ⟨"gen", by decide, by decide⟩
  · rw [longer]
    exact ⟨"lib", by decide, by decide⟩

end Exclusions

end ArchLint
