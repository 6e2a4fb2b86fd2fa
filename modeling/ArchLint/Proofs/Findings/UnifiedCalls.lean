import ArchLint.Proofs.Findings.Verdicts
import ArchLint.Proofs.Lowering.Fields
import ArchLint.Proofs.Pattern.Words
import ArchLint.Rules.UnifiedTime
import ArchLint.TypeScript.Language
import Mathlib.Data.List.Forall2

/-!
# What the rules against scattered clocks and identifiers find

Both rules ban the calls of one member. In terms of the concrete tree, they report the calls whose callee is that member
and fail at the calls that lack a part, each once and in pre-order.
-/

namespace ArchLint

/-- The second list has one thing for each member of the first that is related to any, in the order of the members. -/
inductive Picks {α β : Type} (R : α → β → Prop) : List α → List β → Prop
  | nil : Picks R [] []
  | skip {a : α} {as : List α} {bs : List β} : (∀ b, ¬R a b) → Picks R as bs → Picks R (a :: as) bs
  | pick {a : α} {b : β} {as : List α} {bs : List β} : R a b → Picks R as bs → Picks R (a :: as) (b :: bs)

namespace Picks

variable {α β γ : Type}

theorem of_filter {R : α → γ → Prop} {p : α → Bool} (kept : ∀ a x, R a x → p a = true) {as : List α} {out : List γ}
    (picks : Picks R (as.filter p) out) : Picks R as out := by
  induction as generalizing out with
  | nil => exact picks
  | cons a as ih =>
    cases keep : p a with
    | false =>
      rw [List.filter_cons_of_neg (by simp [keep])] at picks
      refine .skip (fun x related => ?_) (ih picks)
      rw [kept a x related] at keep
      cases keep
    | true =>
      rw [List.filter_cons_of_pos keep] at picks
      cases picks with
      | skip unrelated rest => exact .skip unrelated (ih rest)
      | pick related rest => exact .pick related (ih rest)

theorem of_forall₂ {R : α → γ → Prop} {f : β → Option γ} {as : List α} {bs : List β}
    (side : List.Forall₂ (fun a b => ∀ x, R a x ↔ f b = some x) as bs) : Picks R as (bs.filterMap f) := by
  induction side with
  | nil => exact .nil
  | @cons a b as bs here _ ih =>
    cases found : f b with
    | none =>
      rw [List.filterMap_cons_none found]
      refine .skip (fun x related => ?_) ih
      rw [(here x).mp related] at found
      cases found
    | some x =>
      rw [List.filterMap_cons_some found]
      exact .pick ((here x).mpr found) ih

end Picks

namespace TypeScript

/-- The node at the address is a call, and it is not the root. -/
structure Concrete.IsCall (tree : Concrete) (address : Address) (c : Concrete) : Prop where
  below : address ≠ []
  found : tree.at? address = some c
  named : c.mark.named = true
  kind : c.mark.kind = "call_expression"

theorem forall₂_refs {source : String} {tree : Concrete} (spans : tree.Spans source) :
    List.Forall₂ (fun address node => (address = [] ∧ node.kind = .program) ∨
        address ≠ [] ∧ ∃ c, tree.at? address = some c ∧ Stands source tree c node)
      tree.shown (lower source tree).refs := by
  have ids := (lower source tree).map_id_refs
  have lengths : tree.shown.length = (lower source tree).refs.length := by
    have both := congrArg List.length ids
    rw [List.length_map, List.length_range, size_lower] at both
    exact both.symm
  rw [List.forall₂_iff_get]
  refine ⟨lengths, ?_⟩
  intro id inside inside'
  simp only [List.get_eq_getElem]
  have place := List.getElem?_eq_getElem inside
  have there : (lower source tree).ref? id = some (lower source tree).refs[id] := by
    have number : (lower source tree).refs[id].id = id := by
      have both := congrArg (fun l : List Nat => l[id]?) ids
      simpa [inside', size_lower, inside] using both
    have stored := SyntaxTree.mem_refs.mp (List.getElem_mem inside')
    rwa [number] at stored
  by_cases root : id = 0
  · subst root
    obtain ⟨program, first, kind, -⟩ := (lowered_lower spans).program
    rw [there] at first
    rw [shown_zero] at place
    left
    rw [Option.some.inj first]
    exact ⟨(Option.some.inj place).symm, kind⟩
  · right
    obtain ⟨c, node, found, -⟩ := (lowered_lower spans).marks id _ root place
    obtain ⟨p, placed, -, address⟩ := placed_of_shown root place
    refine ⟨?_, c, found, id, _, root, place, found, there⟩
    rw [← address]
    exact (placed_ne_root placed).2

theorem picks_calls {source : String} {tree : Concrete} (leaves : tree.TokensAreLeaves) (spans : tree.Spans source)
    {γ : Type} {f : NodeRef → Option γ} {R : Concrete → γ → Prop}
    (each : ∀ c node, Stands source tree c node → ∀ x, f node = some x ↔ R c x) :
    Picks (fun address x => ∃ c, tree.IsCall address c ∧ R c x) tree.preorder
      (((lower source tree).refs.filter (·.kind = .callExpression)).filterMap f) := by
  apply Picks.of_filter (p := tree.shows)
  · rintro address x ⟨c, call, -⟩
    exact (Concrete.shows_iff_named leaves call.below call.found).mpr call.named
  rw [List.filterMap_filter]
  apply Picks.of_forall₂
  refine (forall₂_refs spans).imp ?_
  rintro address node (⟨rfl, program⟩ | ⟨below, c, found, stands⟩) x
  · -- The root is no call, whatever its grammar kind: the arena has a program there.
    simp only [program, reduceCtorEq, decide_false, Bool.false_eq_true, if_false, iff_false]
    rintro ⟨c, call, -⟩
    exact call.below rfl
  have same : node.kind = .callExpression ↔ c.mark.kind = "call_expression" := by
    rw [(stands.mark spans).1, lowerKind_eq_callExpression]
  simp only [decide_eq_true_eq, same]
  constructor
  · rintro ⟨other, call, related⟩
    obtain rfl := Option.some.inj (found.symm.trans call.found)
    rw [if_pos call.kind]
    exact (each c node stands x).mpr related
  · intro answer
    by_cases kind : c.mark.kind = "call_expression"
    · rw [if_pos kind] at answer
      exact ⟨c, ⟨below, found, stands.named, kind⟩, (each c node stands x).mp answer⟩
    · rw [if_neg kind] at answer
      cases answer

/-! ### Banned members -/

/-- A rule's ban on calling a member. -/
structure Ban where
  descriptor : Descriptor
  object : String
  property : String
  messageId : String
  message : String
  suggestion : String
  declared : descriptor.message? messageId = some message

namespace Ban

variable (ban : Ban) (severity : Severity) (file : Path)

def violationAt (mark : Mark) : Violation where
  code := ban.descriptor.code
  rule := ban.descriptor.id
  messageId := ban.messageId
  severity := severity
  location := ⟨file, mark.row + 1, mark.column + 1, mark.startByte, mark.endByte - mark.startByte⟩
  message := ban.message
  suggestion := some ⟨ban.suggestion⟩
  labels := []

def faultAt (mark : Mark) (e : ShapeError) : Fault where
  file := file
  rule := ban.descriptor.id
  nodeKind := mark.kind
  line := mark.row + 1
  message := (VisitError.shape e).message

/-- What a ban finds in a concrete tree. -/
structure Finds (source : String) (tree : Concrete) (report : FileReport) : Prop where
  violations : Picks (fun address v => ∃ c, tree.IsCall address c ∧
      c.CallsMember source ban.object ban.property ∧ v = ban.violationAt severity file c.mark)
    tree.preorder report.violations
  faults : Picks (fun address f => ∃ c, tree.IsCall address c ∧ ∃ e, c.Broken e ∧ f = ban.faultAt file c.mark e)
    tree.preorder report.faults

/-! ### Findings of a ban -/

def visit : Handler := fun node => do
  if (← Visit.ask (·.memberCall? node)) = some (ban.object, ban.property) then
    Visit.reportWith node ban.messageId fun _ v => v.withSuggestion ban.suggestion

theorem asks_visit (source : SourceFile) (tree : SyntaxTree) :
    Handler.Asks ban.visit (.fresh source tree ban.descriptor severity) tree.memberCall?
      (fun _ callee => callee = some (ban.object, ban.property)) ban.messageId ban.message
      (fun _ _ v => v.withSuggestion ban.suggestion) where
  declared := ban.declared
  failing := by
    intro node reported violations e asked
    have same : ((RuleContext.fresh source tree ban.descriptor severity).after reported violations).tree = tree := rfl
    rw [visit, Visit.ask_bind, same, asked]
  passing := by
    intro node reported violations callee asked other
    have same : ((RuleContext.fresh source tree ban.descriptor severity).after reported violations).tree = tree := rfl
    rw [visit, Visit.ask_bind, same, asked]
    dsimp only
    rw [if_neg (of_decide_eq_false other)]
    rfl
  reporting := by
    intro node reported violations callee asked banned
    have same : ((RuleContext.fresh source tree ban.descriptor severity).after reported violations).tree = tree := rfl
    rw [visit, Visit.ask_bind, same, asked]
    dsimp only
    rw [if_pos (of_decide_eq_true banned)]
  decorating := fun _ _ _ _ => rfl

variable {ban severity} {source : SourceFile} {tree c : Concrete} {node : NodeRef}

theorem withSuggestion_violation (spans : tree.Spans source.content) (stands : Stands source.content tree c node) :
    ((RuleContext.fresh source (lower source.content tree) ban.descriptor severity).violation node ban.messageId
      ban.message).withSuggestion ban.suggestion = ban.violationAt severity source.relativePath c.mark := by
  obtain ⟨-, -, -, span⟩ := stands.mark spans
  simp only [RuleContext.violation, RuleContext.locate, Location.ofSpan, span]
  rfl

theorem fault_eq_faultAt (spans : tree.Spans source.content) (stands : Stands source.content tree c node) {rule : Rule}
    (banned : rule.descriptor = ban.descriptor) (e : ShapeError) :
    rule.fault source node (.shape e) = ban.faultAt source.relativePath c.mark e := by
  obtain ⟨-, grammarKind, -, span⟩ := stands.mark spans
  rw [Rule.fault, grammarKind, span, Rule.name, banned]
  rfl

theorem check_finds (source : SourceFile) (leaves : tree.TokensAreLeaves) (spans : tree.Spans source.content)
    {rule : Rule} (banned : rule.descriptor = ban.descriptor)
    (table : rule.visitors (.fresh source (lower source.content tree) rule.descriptor severity) =
      Rules.reportCallsOf ban.object ban.property ban.messageId ban.suggestion) :
    ban.Finds severity source.relativePath source.content tree
      (rule.check severity source (lower source.content tree)) := by
  have asks := ban.asks_visit severity source (lower source.content tree)
  rw [← banned] at asks
  rw [Rule.check_settled severity source (lower source.content tree) table asks.settles]
  constructor
  · apply picks_calls leaves spans
    intro c node stands v
    rw [Verdict.violation?_ofAnswer_eq_some_iff, banned, withSuggestion_violation spans stands,
      ← stands.memberCall?_eq_ok_iff leaves spans]
    refine and_congr_left fun _ => ?_
    constructor
    · rintro ⟨callee, asked, called⟩
      rw [asked, of_decide_eq_true called]
    · intro asked
      exact ⟨_, asked, decide_eq_true rfl⟩
  · apply picks_calls leaves spans
    intro c node stands f
    simp only [Option.map_eq_some_iff, Verdict.error?_ofAnswer_eq_some_iff,
      stands.memberCall?_eq_error_iff leaves spans]
    constructor
    · rintro ⟨_, ⟨e, broken, rfl⟩, rfl⟩
      exact ⟨e, broken, fault_eq_faultAt spans stands banned e⟩
    · rintro ⟨e, broken, rfl⟩
      exact ⟨_, ⟨e, broken, rfl⟩, fault_eq_faultAt spans stands banned e⟩

end Ban

def timeBan : Ban where
  descriptor := Rules.UnifiedTime.descriptor
  object := "Date"
  property := "now"
  messageId := "preferUnifiedTime"
  message := "Use the unified time source instead of Date.now()"
  suggestion := "Read the time from the shared clock module"
  declared := rfl

def idBan : Ban where
  descriptor := Rules.UnifiedId.descriptor
  object := "Math"
  property := "random"
  messageId := "preferUnifiedId"
  message := "Use the unified id generator instead of Math.random()"
  suggestion := "Generate identifiers with the shared id module"
  declared := rfl

/-! ### From sources to findings -/

theorem dialect?_of_handles {grammar : Grammar} {path : Path} (supported : (language grammar).handles path = true) :
    ∃ dialect, dialect? path = some dialect := by
  obtain ⟨extension, there, known⟩ := (Option.any_eq_true _ _).mp supported
  have listed : extension ∈ extensions := List.contains_iff_mem.mp known
  unfold dialect?
  rw [there]
  split
  · exact ⟨_, rfl⟩
  · exact ⟨_, rfl⟩
  · next other same =>
    obtain rfl := Option.some.inj same
    exact ⟨_, if_pos listed⟩
  · next none => cases none

section

variable (a : Analyzer) (grammar : Grammar) (path : Path) (content : String)

/-- The analyzer with this grammar and with a single rule, on a source. -/
def checkAlone (rule : Rule) : Except ParseError FileReport :=
  ({ a with language := language grammar, rules := [rule] } : Analyzer).checkSource path content

variable {a grammar path content} {tree : Concrete}

theorem checkAlone_eq (supported : (language grammar).handles path = true)
    (parsed : ∀ dialect, dialect? path = some dialect → grammar dialect content = some tree) (rule : Rule) :
    checkAlone a grammar path content rule =
      .ok (rule.check (a.severityOf rule) (.within a.projectRoot path content) (lower content tree)) := by
  obtain ⟨dialect, known⟩ := dialect?_of_handles supported
  have read : parse grammar path content = .ok (lower content tree) := by
    rw [parse, known]
    dsimp only
    rw [parsed dialect known]
  have alone := Analyzer.checkTree_eq_flatMap { a with language := language grammar, rules := [rule] }
    (.within a.projectRoot path content) (lower content tree)
  rw [checkAlone, Analyzer.checkSource]
  change (parse grammar path content).map _ = _
  rw [read, Except.map, alone]
  simp only [List.flatMap_singleton]
  rfl

end

/-- Both rules find the calls that they ban, wherever the grammar has put them; one of them only in sources that
mention an identifier. -/
theorem checkAlone_unified (a : Analyzer) (grammar : Grammar) (path : Path) (content : String) {tree : Concrete}
    (supported : (language grammar).handles path = true)
    (parsed : ∀ dialect, dialect? path = some dialect → grammar dialect content = some tree)
    (leaves : tree.TokensAreLeaves) (spans : tree.Spans content) :
    (∀ rule : Rules.UnifiedTime, rule.exempt.regex.isMatch (path.relativeTo a.projectRoot).slashForm = false →
      ∃ report, checkAlone a grammar path content rule.toRule = .ok report ∧
        timeBan.Finds (a.severityOf rule.toRule) (path.relativeTo a.projectRoot) content tree report) ∧
    ∀ rule : Rules.UnifiedId, rule.exempt.regex.isMatch (path.relativeTo a.projectRoot).slashForm = false →
      ∃ report, checkAlone a grammar path content rule.toRule = .ok report ∧
        ((∃ w ∈ ["id", "Id", "ID", "error_"], w.toList <:+: content.toList) →
          idBan.Finds (a.severityOf rule.toRule) (path.relativeTo a.projectRoot) content tree report) ∧
        ((¬∃ w ∈ ["id", "Id", "ID", "error_"], w.toList <:+: content.toList) → report = .empty) := by
  constructor
  · intro rule outside
    refine ⟨_, checkAlone_eq supported parsed _, ?_⟩
    apply Ban.check_finds (.within a.projectRoot path content) leaves spans rfl
    have open' : rule.exempt.covers (path.relativeTo a.projectRoot) = false := outside
    simp [Rules.UnifiedTime.toRule, Rules.unlessExempt, RuleContext.fresh, SourceFile.within, open', timeBan]
  · intro rule outside
    have open' : rule.exempt.covers (path.relativeTo a.projectRoot) = false := outside
    refine ⟨_, checkAlone_eq supported parsed _, ?_, ?_⟩
    · intro mentioned
      rw [← Rules.UnifiedId.isMatch_keywordPattern] at mentioned
      apply Ban.check_finds (.within a.projectRoot path content) leaves spans rfl
      simp [Rules.UnifiedId.toRule, Rules.unlessExempt, RuleContext.fresh, SourceFile.within, open', mentioned, idBan]
    · intro unmentioned
      rw [← Rules.UnifiedId.isMatch_keywordPattern] at unmentioned
      apply Rule.check_without_handlers
      simp [Rules.UnifiedId.toRule, Rules.unlessExempt, RuleContext.fresh, SourceFile.within, open', unmentioned]

def clockTree : Concrete :=
  .node ⟨"program", true, none, 0, 10, 0, 0⟩
    [.node ⟨"call_expression", true, none, 0, 10, 0, 0⟩
      [.node ⟨"member_expression", true, some "function", 0, 8, 0, 0⟩
        [.node ⟨"identifier", true, some "object", 0, 4, 0, 0⟩ [], .node ⟨".", false, none, 4, 5, 0, 4⟩ [],
          .node ⟨"property_identifier", true, some "property", 5, 8, 0, 5⟩ []],
        .node ⟨"arguments", true, some "arguments", 8, 10, 0, 8⟩ []]]

theorem spans_clockTree : clockTree.Spans "Date.now()" := by
  intro mark inside
  simp only [clockTree, Concrete.marks, Concrete.marksAll, List.cons_append, List.nil_append, List.mem_cons,
    List.not_mem_nil, or_false] at inside
  rcases inside with rfl | rfl | rfl | rfl | rfl | rfl | rfl
  · exact ⟨"Date.now()", "", "", rfl, rfl, rfl⟩
  · exact ⟨"Date.now()", "", "", rfl, rfl, rfl⟩
  · exact ⟨"Date.now", "", "()", rfl, rfl, rfl⟩
  · exact ⟨"Date", "", ".now()", rfl, rfl, rfl⟩
  · exact ⟨".", "Date", "now()", rfl, rfl, rfl⟩
  · exact ⟨"now", "Date.", "()", rfl, rfl, rfl⟩
  · exact ⟨"()", "Date.now", "", rfl, rfl, rfl⟩

theorem tokensAreLeaves_clockTree : clockTree.TokensAreLeaves := by
  intro address c _ found token
  have all : ∀ address ∈ clockTree.preorder,
      ((clockTree.at? address).all fun c => c.mark.named || c.children.isEmpty) = true := by
    decide +kernel
  have here := all address ((clockTree.mem_preorder address).mpr (by rw [found]; rfl))
  simpa [found, token] using here

theorem checkAlone_unified_clockTree :
    let rule : Rules.UnifiedTime := ⟨"tests", .word "tests"⟩
    ∃ a : Analyzer, ∃ report,
      checkAlone a (fun _ _ => some clockTree) ⟨"/p/a.ts"⟩ "Date.now()" rule.toRule = .ok report ∧
        timeBan.Finds (a.severityOf rule.toRule) ⟨"a.ts"⟩ "Date.now()" clockTree report ∧
        report.violations.map (·.location.length) = [10] := by
  intro rule
  let a : Analyzer := ⟨⟨"/p"⟩, ⟨"/p"⟩, [], language fun _ _ => some clockTree, [], ["ts"], .default, true⟩
  have seen : (Path.relativeTo ⟨"/p/a.ts"⟩ a.projectRoot) = ⟨"a.ts"⟩ := by decide +kernel
  obtain ⟨times, -⟩ := checkAlone_unified a (fun _ _ => some clockTree) ⟨"/p/a.ts"⟩ "Date.now()" (by decide +kernel)
    (fun _ _ => rfl) tokensAreLeaves_clockTree spans_clockTree
  have outside : rule.exempt.regex.isMatch (Path.relativeTo ⟨"/p/a.ts"⟩ a.projectRoot).slashForm = false := by
    decide +kernel
  obtain ⟨report, checked, finds⟩ := times rule outside
  rw [seen] at finds
  have computed : (checkAlone a (fun _ _ => some clockTree) ⟨"/p/a.ts"⟩ "Date.now()" rule.toRule).toOption.map
      (fun report => report.violations.map (·.location.length)) = some [10] := by
    decide +kernel
  rw [checked] at computed
  exact ⟨a, report, checked, finds, by simpa [Except.toOption] using computed⟩

end TypeScript

end ArchLint
