import ArchLint.Proofs.Lists
import ArchLint.Proofs.Path.Relative
import ArchLint.Proofs.Walks.Reach
import ArchLint.Settings.Workspace

/-!
# The search for settings

Without a named file the settings of the nearest directory at or above the start are found, and those of the user only
if there is none. So all starts in a project find the same, as far down as no other settings file stands in between.
-/

namespace ArchLint

namespace FileTree

def HoldsSettings (t : FileTree) (directory : Place) : Prop :=
  t.isFile (directory ++ ["coreguard.toml"]) = true ∨ t.isFile (directory ++ [".coreguard.toml"]) = true

/-- The settings file of a directory is the one with the plain name, if there are two. -/
inductive Offers (t : FileTree) (directory : Place) : String → Prop where
  | plain (there : t.isFile (directory ++ ["coreguard.toml"]) = true) : t.Offers directory "coreguard.toml"
  | hidden (missing : t.isFile (directory ++ ["coreguard.toml"]) = false)
      (there : t.isFile (directory ++ [".coreguard.toml"]) = true) : t.Offers directory ".coreguard.toml"

/-- The directories that a place is in. A place that is not a file is in itself. -/
def Encloses (t : FileTree) (directory place : Place) : Prop :=
  directory <+: place ∧ (t.isFile place = true → directory ≠ place)

/-- The longest of the directories that a place is in and that hold settings. -/
structure Nearest (t : FileTree) (place directory : Place) : Prop where
  encloses : t.Encloses directory place
  holds : t.HoldsSettings directory
  longest : ∀ other, t.Encloses other place → t.HoldsSettings other → other.length ≤ directory.length

def Bare (t : FileTree) (top place : Place) : Prop :=
  ∀ between, top <+: between → between ≠ top → t.Encloses between place → ¬t.HoldsSettings between

variable {t : FileTree}

theorem Nearest.unique {place p q : Place} (nearestP : t.Nearest place p) (nearestQ : t.Nearest place q) : p = q := by
  have shorter := nearestP.longest q nearestQ.encloses nearestQ.holds
  have longer := nearestQ.longest p nearestP.encloses nearestP.holds
  have before := List.prefix_of_prefix_length_le nearestP.encloses.1 nearestQ.encloses.1 longer
  exact before.eq_of_length (Nat.le_antisymm longer shorter)

theorem Offers.unique {directory : Place} {p q : String} (offersP : t.Offers directory p)
    (offersQ : t.Offers directory q) : p = q := by
  cases offersP with
  | plain there =>
    cases offersQ with
    | plain _ => rfl
    | hidden missing _ => exact absurd there (ne_true_of_eq_false missing)
  | hidden missing _ =>
    cases offersQ with
    | plain there => exact absurd there (ne_true_of_eq_false missing)
    | hidden _ _ => rfl

theorem Offers.holds {directory : Place} {name : String} (offers : t.Offers directory name) :
    t.HoldsSettings directory := by
  cases offers with
  | plain there => exact Or.inl there
  | hidden _ there => exact Or.inr there

theorem Offers.isName {directory : Place} {name : String} (offers : t.Offers directory name) :
    Path.isName name = true := by
  cases offers <;> decide

theorem encloses_iff_of_below {top place directory : Place} (noFile : t.isFile top = false) (below : top <+: place)
    (bare : t.Bare top place) (holds : t.HoldsSettings directory) :
    t.Encloses directory place ↔ t.Encloses directory top := by
  constructor
  · intro encloses
    -- Two directories around one place lie around each other, and none further down holds settings.
    rcases List.prefix_or_prefix_of_prefix encloses.1 below with above | deeper
    · exact ⟨above, fun file => absurd file (ne_true_of_eq_false noFile)⟩
    · by_cases same : directory = top
      · exact ⟨same ▸ List.prefix_rfl, fun file => absurd file (ne_true_of_eq_false noFile)⟩
      · exact absurd holds (bare directory deeper same encloses)
  · rintro ⟨above, -⟩
    refine ⟨above.trans below, ?_⟩
    rintro file rfl
    rw [(above.eq_of_length_le below.length_le)] at file
    exact absurd file (ne_true_of_eq_false noFile)

def levels (t : FileTree) (place : Place) : Nat :=
  if t.isFile place then place.length else place.length + 1

theorem encloses_iff {directory place : Place} :
    t.Encloses directory place ↔ ∃ n < t.levels place, directory = place.take n := by
  rw [Encloses, List.prefix_iff_eq_take, levels]
  constructor
  · rintro ⟨taken, apart⟩
    refine ⟨directory.length, ?_, taken⟩
    have short := congrArg List.length taken
    rw [List.length_take] at short
    split
    · next file =>
      by_contra long
      rw [List.take_of_length_le (Nat.not_lt.mp long)] at taken
      exact apart file taken
    · omega
  · rintro ⟨n, small, rfl⟩
    constructor
    · rw [List.length_take]
      simp
    · intro file whole
      rw [if_pos file] at small
      have short := congrArg List.length whole
      rw [List.length_take] at short
      omega

end FileTree

/-! ### What is found -/

namespace Path

theorem upward_ofPlace {place : Place} (named : place.all isName = true) :
    (ofPlace place).upward = (List.range (place.length + 1)).reverse.map fun n => ofPlace (place.take n) := by
  rw [upward, components_ofPlace named, List.length_cons, List.length_map]
  apply List.map_congr_left
  intro n _
  rw [List.take_succ_cons, ofPlace, List.map_take]

/-- A directory of which all that is strictly below is seen by the names that lead there. -/
def SeesBelow (root : Path) : Prop :=
  ∀ p : Path, p.isAbsolute = true → root.components <+: p.normalize.components →
    root.components ≠ p.normalize.components →
      p.normalize.components = root.components ++ (p.relativeTo root).components ∧ (p.relativeTo root).text ≠ "" ∧
        (p.relativeTo root).isAbsolute = false ∧ .parent ∉ (p.relativeTo root).components

theorem seesBelow_ofPlace {place : Place} (named : place.all isName = true) : (ofPlace place).SeesBelow := by
  intro p absolute inside strict
  obtain ⟨names, further, all, folded, seen⟩ := relativeTo_of_inside named absolute inside strict
  obtain ⟨visible, relative, down⟩ := ofComponents_names further all
  rw [seen]
  refine ⟨?_, visible, relative, down⟩
  rw [folded, components_ofPlace (named_append_iff.mpr ⟨named, all⟩), components_ofPlace named,
    components_of_plain (plain_names all), List.map_append]
  rfl

end Path

namespace Workspace

/-- What a search from a place finds: the nearest settings around it, or the user's, or none. The user's directory may
be given from the working directory. -/
inductive Finds (w : Workspace) (t : FileTree) (place : Place) : SettingsSource → Prop where
  | project {directory : Place} {name : String} (nearest : t.Nearest place directory)
      (offers : t.Offers directory name) : w.Finds t place (.project ((Path.ofPlace directory).join ⟨name⟩))
  | global {home : Path} (none : ∀ directory, t.Encloses directory place → ¬t.HoldsSettings directory)
      (known : w.globalDirectory = some home)
      (there : t.holdsFile (w.directory.join (home.join ⟨"config.toml"⟩)) = true) :
      w.Finds t place (.global (home.join ⟨"config.toml"⟩))
  | default (none : ∀ directory, t.Encloses directory place → ¬t.HoldsSettings directory)
      (missing : ∀ home, w.globalDirectory = some home →
        t.holdsFile (w.directory.join (home.join ⟨"config.toml"⟩)) = false) :
      w.Finds t place .default

theorem Finds.unique {w : Workspace} {t : FileTree} {place : Place} {p q : SettingsSource}
    (findsP : w.Finds t place p) (findsQ : w.Finds t place q) : p = q := by
  cases findsP with
  | project nearestP offersP =>
    cases findsQ with
    | project nearestQ offersQ =>
      obtain rfl := nearestP.unique nearestQ
      rw [offersP.unique offersQ]
    | global none _ _ => exact absurd nearestP.holds (none _ nearestP.encloses)
    | default none _ => exact absurd nearestP.holds (none _ nearestP.encloses)
  | global none known there =>
    cases findsQ with
    | project nearestQ _ => exact absurd nearestQ.holds (none _ nearestQ.encloses)
    | global _ knownQ _ => rw [Option.some.inj (known.symm.trans knownQ)]
    | default _ missing => exact absurd there (ne_true_of_eq_false (missing _ known))
  | default none missing =>
    cases findsQ with
    | project nearestQ _ => exact absurd nearestQ.holds (none _ nearestQ.encloses)
    | global _ known there => exact absurd there (ne_true_of_eq_false (missing _ known))
    | default _ _ => rfl

section

variable {t : FileTree} {place : Place} (named : place.all Path.isName = true)

include named

theorem holdsFile_join {name : String} (other : Path.isName name = true) :
    t.holdsFile ((Path.ofPlace place).join ⟨name⟩) = t.isFile (place ++ [name]) := by
  rw [Path.join_ofPlace named other, FileTree.holdsFile_ofPlace (Path.named_concat named other)]

theorem offers_of_settingsIn? {path : Path} (found : settingsIn? t (.ofPlace place) = some path) :
    ∃ name, t.Offers place name ∧ path = (Path.ofPlace place).join ⟨name⟩ := by
  simp only [settingsIn?, projectNames, List.map_cons, List.map_nil, List.find?_cons, List.find?_nil,
    holdsFile_join named (show Path.isName "coreguard.toml" = true by decide),
    holdsFile_join named (show Path.isName ".coreguard.toml" = true by decide)] at found
  split at found
  · next there => exact ⟨_, .plain there, (Option.some.inj found).symm⟩
  · next missing =>
    split at found
    · next there => exact ⟨_, .hidden missing there, (Option.some.inj found).symm⟩
    · cases found

theorem settingsIn?_eq_none_iff : settingsIn? t (.ofPlace place) = none ↔ ¬t.HoldsSettings place := by
  rw [settingsIn?, List.find?_eq_none, FileTree.HoldsSettings]
  simp only [projectNames, List.map_cons, List.map_nil, List.forall_mem_cons, List.not_mem_nil,
    holdsFile_join named (show Path.isName "coreguard.toml" = true by decide),
    holdsFile_join named (show Path.isName ".coreguard.toml" = true by decide)]
  simp

theorem searched_ofPlace : searched t (.ofPlace place) =
    (List.range (t.levels place)).reverse.map fun n => .ofPlace (place.take n) := by
  rw [searched, FileTree.holdsFile_ofPlace named, FileTree.levels, Path.upward_ofPlace named]
  split
  · rw [List.range_succ, List.reverse_append]
    rfl
  · rfl

end

section

variable {t : FileTree} {place : Place} (named : place.all Path.isName = true)

include named

theorem named_take (n : Nat) : (place.take n).all Path.isName = true :=
  Path.named_of_prefix (List.take_prefix n place) named

theorem nearest_of_found {path : Path}
    (found : (searched t (.ofPlace place)).findSome? (settingsIn? t) = some path) :
    ∃ directory name, t.Nearest place directory ∧ t.Offers directory name ∧
      path = (Path.ofPlace directory).join ⟨name⟩ := by
  rw [searched_ofPlace named, List.findSome?_map, Function.comp_def] at found
  obtain ⟨n, small, met, later⟩ := of_findSome?_reverse_range found
  obtain ⟨name, offers, rfl⟩ := offers_of_settingsIn? (named_take named n) met
  refine ⟨_, name, ⟨FileTree.encloses_iff.mpr ⟨n, small, rfl⟩, offers.holds, ?_⟩, offers, rfl⟩
  intro other encloses holds
  obtain ⟨m, lower, rfl⟩ := FileTree.encloses_iff.mp encloses
  -- Anything longer was searched before, in vain.
  by_contra longer
  have deeper : n < m := by
    rw [List.length_take, List.length_take] at longer
    omega
  exact (settingsIn?_eq_none_iff (named_take named m)).mp (later m lower deeper) holds

theorem not_holds_of_not_found (missing : (searched t (.ofPlace place)).findSome? (settingsIn? t) = none)
    (directory : Place) (encloses : t.Encloses directory place) : ¬t.HoldsSettings directory := by
  rw [searched_ofPlace named, List.findSome?_map, Function.comp_def, List.findSome?_eq_none_iff] at missing
  obtain ⟨n, small, rfl⟩ := FileTree.encloses_iff.mp encloses
  exact (settingsIn?_eq_none_iff (named_take named n)).mp
    (missing n (List.mem_reverse.mpr (List.mem_range.mpr small)))

theorem finds_locate {w : Workspace} {start : Path} (leads : w.absolute start = .ofPlace place) :
    w.Finds t place (w.locate t start none) := by
  unfold locate
  dsimp only
  rw [leads]
  cases found : (searched t (.ofPlace place)).findSome? (settingsIn? t) with
  | some path =>
    obtain ⟨directory, name, nearest, offers, rfl⟩ := nearest_of_found named found
    exact .project nearest offers
  | none =>
    have none := not_holds_of_not_found named found
    dsimp only
    cases known : w.globalDirectory with
    | none => exact .default none fun home other => by rw [known] at other; cases other
    | some home =>
      rw [Option.map_some, Option.filter_some]
      cases there : t.holdsFile (w.directory.join (home.join ⟨globalName⟩)) with
      | true => exact .global none known there
      | false =>
        refine .default none fun other same => ?_
        rw [Option.some.inj (same.symm.trans known)]
        exact there

end

section

variable {w : Workspace} {t : FileTree}

theorem locate_eq_of_bare {top place : Place} (named : place.all Path.isName = true) {start upper : Path}
    (leads : w.absolute start = .ofPlace place) (leadsTop : w.absolute upper = .ofPlace top)
    (noFile : t.isFile top = false) (below : top <+: place) (bare : t.Bare top place) :
    w.locate t start none = w.locate t upper none := by
  have around {directory : Place} (holds : t.HoldsSettings directory) :=
    FileTree.encloses_iff_of_below noFile below bare holds
  refine (finds_locate named leads).unique ?_
  have finds := finds_locate (t := t) (Path.named_of_prefix below named) leadsTop
  generalize w.locate t upper none = source at finds ⊢
  cases finds with
  | project nearest offers =>
    refine .project ⟨(around nearest.holds).mpr nearest.encloses, nearest.holds, ?_⟩ offers
    exact fun other encloses holds => nearest.longest other ((around holds).mp encloses) holds
  | global none known there =>
    exact .global (fun directory encloses holds => none directory ((around holds).mp encloses) holds) known there
  | default none missing =>
    exact .default (fun directory encloses holds => none directory ((around holds).mp encloses) holds) missing

/-! ### What is loaded -/

/-- The settings that a source supplies: those that its file holds, looked up from the working directory, or the default
where there is no file. -/
inductive Supplies (w : Workspace) (t : FileTree) : SettingsSource → Settings → Prop where
  | file {source : SettingsSource} {path : Path} {document : String} {settings : Settings}
      (named : source.path? = some path) (read : t.read (w.directory.join path) = .ok document)
      (parsed : Settings.parse document = .ok settings) : w.Supplies t source settings
  | default : w.Supplies t .default .default

theorem readSettings_eq_ok_iff {path : Path} {settings : Settings} : w.readSettings t path = .ok settings ↔
    ∃ document, t.read (w.directory.join path) = .ok document ∧ Settings.parse document = .ok settings := by
  unfold readSettings
  cases t.read (w.directory.join path) <;> simp

theorem settingsOf_eq_ok_iff {source : SettingsSource} {settings : Settings} :
    w.settingsOf t source = .ok settings ↔ w.Supplies t source settings := by
  unfold settingsOf
  constructor
  · intro supplied
    split at supplied
    · next none =>
      obtain rfl := Except.ok.inj supplied
      cases source with
      | default => exact .default
      | explicit path | project path | global path => cases none
    · next path named =>
      split at supplied
      · next loaded succeeded =>
        obtain rfl := Except.ok.inj supplied
        obtain ⟨document, read, parsed⟩ := readSettings_eq_ok_iff.mp succeeded
        exact .file named read parsed
      · cases supplied
  · rintro (⟨named, read, parsed⟩ | -)
    · simp only [named, readSettings_eq_ok_iff.mpr ⟨_, read, parsed⟩]
    · rfl

variable [Pattern.Reader]

/-- What is loaded comes from the source that is found. All built-in rules take it, and the source makes its project
root. -/
theorem load_eq_ok_iff {start : Path} {explicit : Option Path} {loaded : LoadedSettings} :
    w.load t start explicit = .ok loaded ↔ w.locate t start explicit = loaded.source ∧
      w.Supplies t loaded.source loaded.settings ∧
      (∃ rules, Rules.builtin.select loaded.settings none = .ok rules) ∧
      loaded.projectRoot = loaded.source.projectRoot?.getD w.directory := by
  constructor
  · intro succeeded
    obtain ⟨settings, supplied, checked⟩ := of_bind succeeded
    split at checked
    · cases checked
    · next rules selected =>
      obtain rfl := Except.ok.inj checked
      exact ⟨rfl, settingsOf_eq_ok_iff.mp supplied, ⟨rules, selected⟩, rfl⟩
  · obtain ⟨settings, source, root⟩ := loaded
    rintro ⟨located, supplies, ⟨rules, selected⟩, rootOf⟩
    dsimp only at located supplies selected rootOf
    subst located rootOf
    unfold load
    dsimp only
    rw [settingsOf_eq_ok_iff.mpr supplies]
    dsimp only [bind, Except.bind]
    rw [selected]

theorem load_congr {start other : Path} (same : w.locate t start none = w.locate t other none) :
    w.load t start none = w.load t other none := by
  rw [load, load, same]

end

/-- The search finds the settings of the nearest directory that has some, so everything below a directory is loaded with
what the directory itself is, unless other settings stand in between. A project root is above the start and sees what
is below it by relative names. -/
theorem locate_iff_finds [Pattern.Reader] {w : Workspace} (rooted : w.directory.isAbsolute = true) (t : FileTree)
    (start : Path) :
    ∃ place : Place, place.all Path.isName = true ∧ w.absolute start = .ofPlace place ∧
      (∀ source, w.locate t start none = source ↔ w.Finds t place source) ∧
      (∀ loaded, w.load t start none = .ok loaded ↔ w.Finds t place loaded.source ∧
        w.Supplies t loaded.source loaded.settings ∧
        (∃ rules, Rules.builtin.select loaded.settings none = .ok rules) ∧
        loaded.projectRoot = loaded.source.projectRoot?.getD w.directory) ∧
      (∀ upper top, w.absolute upper = .ofPlace top → t.isFile top = false → top <+: place → t.Bare top place →
        w.load t start none = w.load t upper none) ∧
      ∀ file, w.locate t start none = .project file →
        ∃ root, (SettingsSource.project file).projectRoot? = some root ∧
          (∀ loaded, w.load t start none = .ok loaded → loaded.projectRoot = root) ∧
          root.components <+: (w.absolute start).components ∧ root.SeesBelow := by
  obtain ⟨place, named, leads⟩ := Path.absoluteFrom_eq_ofPlace rooted start
  change w.absolute start = _ at leads
  have located : ∀ source, w.locate t start none = source ↔ w.Finds t place source := by
    intro source
    refine ⟨?_, (finds_locate named leads).unique⟩
    rintro rfl
    exact finds_locate named leads
  refine ⟨place, named, leads, located, fun loaded => ?_, ?_, ?_⟩
  · rw [load_eq_ok_iff, located]
  · exact fun upper top leadsTop noFile below bare =>
      load_congr (locate_eq_of_bare named leads leadsTop noFile below bare)
  · intro file found
    cases (located _).mp found with
    | @project directory name nearest offers =>
    have namedRoot : directory.all Path.isName = true := Path.named_of_prefix nearest.encloses.1 named
    have parent : ((Path.ofPlace directory).join ⟨name⟩).parent? = some (.ofPlace directory) := by
      rw [Path.join_ofPlace namedRoot offers.isName, Path.parent?_ofPlace namedRoot offers.isName]
    refine ⟨.ofPlace directory, parent, ?_, ?_, Path.seesBelow_ofPlace namedRoot⟩
    · intro loaded succeeded
      obtain ⟨same, -, -, rootOf⟩ := load_eq_ok_iff.mp succeeded
      rw [rootOf, ← same, found, SettingsSource.projectRoot?, parent, Option.getD_some]
    · rw [leads, Path.prefix_ofPlace namedRoot named]
      exact nearest.encloses.1

/-- A project with a package that has settings of its own, a file outside of it, and settings of the user. -/
def nestedProjects : FileTree :=
  ([(["work", "coreguard.toml"], ""), (["work", ".coreguard.toml"], ""),
    (["work", "pkg", ".coreguard.toml"], "fail_on = \"error\""), (["work", "pkg", "src", "a.ts"], ""),
    (["work", "home", "config.toml"], "fail_on = \"warning\""), (["lone", "b.ts"], "")] : List (Place × String)).foldl
      (fun t (place, text) => t.write place text.toUTF8) .empty

theorem bare_nestedProjects : nestedProjects.Bare ["work", "pkg"] ["work", "pkg", "src", "a.ts"] := by
  rintro between deeper apart encloses
  obtain ⟨n, small, rfl⟩ := FileTree.encloses_iff.mp encloses
  have none : nestedProjects.isFile ["work", "pkg", "src", "coreguard.toml"] = false ∧
      nestedProjects.isFile ["work", "pkg", "src", ".coreguard.toml"] = false := by decide +kernel
  have levels : nestedProjects.levels ["work", "pkg", "src", "a.ts"] = 4 := by decide +kernel
  rw [levels] at small
  have deep := deeper.length_le
  simp only [List.length_take, List.length_cons, List.length_nil] at deep
  obtain rfl | rfl : n = 2 ∨ n = 3 := by omega
  · exact absurd rfl apart
  · rintro (there | there)
    · exact absurd there (ne_true_of_eq_false none.1)
    · exact absurd there (ne_true_of_eq_false none.2)

theorem locate_iff_finds_nestedProjects :
    let w := Workspace.ofDirectory ⟨"/work/./lib/.."⟩ (some ⟨"home"⟩)
    let start : Path := ⟨"pkg//src/./a.ts"⟩
    w.directory.isAbsolute = true ∧
      w.Finds nestedProjects ["work", "pkg", "src", "a.ts"] (w.locate nestedProjects start none) ∧
      w.locate nestedProjects start none = .project ⟨"/work/pkg/.coreguard.toml"⟩ ∧
      w.load nestedProjects start none = w.load nestedProjects ⟨"../work/pkg"⟩ none ∧
      (∃ loaded, w.load nestedProjects start none = .ok loaded ∧ loaded.projectRoot = ⟨"/work/pkg"⟩ ∧
        w.Supplies nestedProjects (.project ⟨"/work/pkg/.coreguard.toml"⟩) loaded.settings ∧
        loaded.settings.failOn = some .error) ∧
      (⟨"/work/pkg"⟩ : Path).SeesBelow ∧
      ∃ loaded, w.load nestedProjects ⟨"/lone/b.ts"⟩ none = .ok loaded ∧ loaded.projectRoot = ⟨"/work"⟩ ∧
        w.Supplies nestedProjects (.global ⟨"home/config.toml"⟩) loaded.settings ∧
        loaded.settings.failOn = some .warning := by
  intro w start
  have rooted : w.directory.isAbsolute = true := by decide +kernel
  have spelled : w.absolute start = .ofPlace ["work", "pkg", "src", "a.ts"] := by decide +kernel
  have located : w.locate nestedProjects start none = .project ⟨"/work/pkg/.coreguard.toml"⟩ := by decide +kernel
  obtain ⟨place, named, leads, finds, loads, alike, root⟩ := locate_iff_finds rooted nestedProjects start
  obtain rfl := Path.ofPlace_injective (by decide) named (spelled.symm.trans leads)
  obtain ⟨root, parent, rootOf, -, sees⟩ := root _ located
  obtain rfl : (⟨"/work/pkg"⟩ : Path) = root := by
    rw [show (SettingsSource.project ⟨"/work/pkg/.coreguard.toml"⟩).projectRoot? = some ⟨"/work/pkg"⟩ by
      decide +kernel] at parent
    exact Option.some.inj parent
  refine ⟨rooted, (finds _).mp rfl, located, ?_, ?_, sees, ?_⟩
  · exact alike ⟨"../work/pkg"⟩ ["work", "pkg"] (by decide +kernel) (by decide +kernel) (by decide)
      bare_nestedProjects
  · have read : (w.load nestedProjects start none).toOption.map (·.settings.failOn) = some (some .error) := by
      decide +kernel
    obtain ⟨loaded, succeeded, failOn⟩ := of_map_toOption read
    obtain ⟨found, supplies, -, -⟩ := (loads loaded).mp succeeded
    rw [← (finds _).mpr found, located] at supplies
    exact ⟨loaded, succeeded, rootOf loaded succeeded, supplies, failOn⟩
  · have read : (w.load nestedProjects ⟨"/lone/b.ts"⟩ none).toOption.map (·.settings.failOn) =
        some (some .warning) := by
      decide +kernel
    have foundUser : w.locate nestedProjects ⟨"/lone/b.ts"⟩ none = .global ⟨"home/config.toml"⟩ := by decide +kernel
    obtain ⟨user, -, -, finds, loads, -, -⟩ := locate_iff_finds rooted nestedProjects ⟨"/lone/b.ts"⟩
    obtain ⟨loaded, succeeded, failOn⟩ := of_map_toOption read
    obtain ⟨found, supplies, -, rootOf⟩ := (loads loaded).mp succeeded
    rw [← (finds _).mpr found, foundUser] at supplies rootOf
    have directory : w.directory = ⟨"/work"⟩ := by decide +kernel
    exact ⟨loaded, succeeded, rootOf.trans directory, supplies, failOn⟩

end Workspace

end ArchLint
