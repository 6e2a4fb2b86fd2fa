import ArchLint.Proofs.Findings.Verdicts
import ArchLint.Proofs.Syntax.Ancestors
import ArchLint.Proofs.Syntax.Callees
import ArchLint.Rules.ParallelCache

/-!
# What the rule against parallel caches finds

Outside exempt files the rule reports every construction of a `Map` by its plain name, local ones only if they are not
allowed, and fails at every construction that names nothing. A label points at the holder of the map.
-/

namespace ArchLint

namespace Rules.ParallelCache

open SyntaxTree

variable (rule : ParallelCache) (severity : Severity) (file : SourceFile) (tree : SyntaxTree)

/-- The rule has something against the node. -/
def Objects (node : NodeRef) : Prop :=
  tree.Constructs node "Map" ∧ ¬(rule.allowLocal = true ∧ tree.scope node = .functionLocal)

def labelAt (holder : NodeRef) : Label where
  location := ⟨file.relativePath, holder.span.line, holder.span.column, holder.span.startByte, holder.span.length⟩
  message :=
    if holder.kind = .classField then "retained by this class field" else "retained by this module-level binding"

def violationAt (node : NodeRef) : Violation where
  code := "CG001"
  rule := "no-parallel-cache"
  messageId := "noParallelCache"
  severity := severity
  location := ⟨file.relativePath, node.span.line, node.span.column, node.span.startByte, node.span.length⟩
  message := "Long-lived Map cache outside the shared cache layer"
  suggestion := some ⟨"Obtain the cache from the shared cache manager"⟩
  labels := (tree.retainingHolder? node).toList.map (labelAt file)

def faultAt (node : NodeRef) : Fault where
  file := file.relativePath
  rule := "no-parallel-cache"
  nodeKind := node.grammarKind
  line := node.span.line
  message := (VisitError.shape (.ofNode node "new expression without constructor")).message

def start : RuleContext :=
  .fresh file tree descriptor severity

def against (node : NodeRef) (name : Option String) : Bool :=
  name = some "Map" ∧ ¬(rule.allowLocal = true ∧ tree.scope node = .functionLocal)

theorem decorate_violation (node : NodeRef) :
    decorate node (start severity file tree) ((start severity file tree).violation node "noParallelCache"
        "Long-lived Map cache outside the shared cache layer") =
      violationAt severity file tree node := by
  have same : (start severity file tree).tree = tree := rfl
  unfold decorate violationAt
  rw [same]
  cases tree.retainingHolder? node <;> rfl

theorem asks_visit : Handler.Asks rule.visit (start severity file tree) tree.constructorName? (rule.against tree)
    "noParallelCache" "Long-lived Map cache outside the shared cache layer" decorate where
  declared := rfl
  failing := by
    intro node reported violations e asked
    have same : ((start severity file tree).after reported violations).tree = tree := rfl
    rw [visit, Visit.ask_bind, same, asked]
  passing := by
    intro node reported violations name asked kept
    have same : ((start severity file tree).after reported violations).tree = tree := rfl
    rw [visit, Visit.ask_bind, same, asked]
    dsimp only
    split
    · next named =>
      have allowed : (rule.allowLocal && decide (tree.scope node = .functionLocal)) = true := by
        simpa [against, named] using kept
      rw [Visit.get_bind, same, if_pos allowed]
      rfl
    · rfl
  reporting := by
    intro node reported violations name asked objected
    have same : ((start severity file tree).after reported violations).tree = tree := rfl
    obtain ⟨named, refused⟩ := of_decide_eq_true objected
    have kept : ¬(rule.allowLocal && decide (tree.scope node = .functionLocal)) = true := by simpa using refused
    rw [visit, Visit.ask_bind, same, asked]
    dsimp only
    rw [if_pos named, Visit.get_bind, same, if_neg kept]
  decorating := fun _ _ _ _ => rfl

/-- What the rule finds in a tree, outside exempt files. -/
structure Finds (report : FileReport) : Prop where
  violations : ∃ nodes, tree.Lists (rule.Objects tree) nodes ∧
    report.violations = nodes.map (violationAt severity file tree)
  faults : ∃ nodes, tree.Lists tree.ConstructsNothing nodes ∧ report.faults = nodes.map (faultAt file)

theorem check_finds (outside : rule.exempt.covers file.relativePath = false) :
    rule.Finds severity file tree (rule.toRule.check severity file tree) := by
  have table : rule.toRule.visitors (.fresh file tree rule.toRule.descriptor severity) =
      VisitorTable.empty.on .newExpression rule.visit := by
    simp [toRule, unlessExempt, RuleContext.fresh, outside]
  rw [Rule.check_settled severity file tree table (asks_visit rule severity file tree).settles]
  constructor
  · apply tree.lists_filterMap
    intro node v
    rw [Verdict.violation?_ofAnswer_eq_some_iff, decorate_violation, ← and_assoc]
    refine and_congr_left fun _ => ?_
    unfold Objects Constructs
    rw [and_assoc]
    refine and_congr_right fun _ => ?_
    constructor
    · rintro ⟨name, asked, objected⟩
      obtain ⟨rfl, refused⟩ := of_decide_eq_true objected
      exact ⟨constructorName?_eq_ok_iff.mp asked, refused⟩
    · rintro ⟨named, refused⟩
      exact ⟨_, constructorName?_eq_ok_iff.mpr named, decide_eq_true ⟨rfl, refused⟩⟩
  · apply tree.lists_filterMap
    intro node f
    simp only [Option.map_eq_some_iff, Verdict.error?_ofAnswer_eq_some_iff, constructorName?_eq_error_iff]
    unfold ConstructsNothing
    rw [and_assoc]
    refine and_congr_right fun _ => ?_
    constructor
    · rintro ⟨_, ⟨_, ⟨missing, rfl⟩, rfl⟩, rfl⟩
      exact ⟨missing, rfl⟩
    · rintro ⟨missing, rfl⟩
      exact ⟨_, ⟨_, ⟨missing, rfl⟩, rfl⟩, rfl⟩

/-! ### Labels -/

variable {rule severity file tree}

theorem objects_iff_of_allowed (allowed : rule.allowLocal = true) (node : NodeRef) :
    rule.Objects tree node ↔ tree.Constructs node "Map" ∧ tree.scope node ≠ .functionLocal := by
  simp [Objects, allowed]

/-- A map that no function encloses is labelled if some field or variable holds it, and then at the nearest. -/
theorem labels_violationAt (linked : tree.Linked) {node : NodeRef} (outside : tree.scope node ≠ .functionLocal) :
    (violationAt severity file tree node).labels =
        ((tree.ancestors node).find? (·.kind.isBindingHolder)).toList.map (labelAt file) ∧
      ((violationAt severity file tree node).labels ≠ [] ↔ tree.scope node = .member) := by
  have labels : (violationAt severity file tree node).labels = (tree.retainingHolder? node).toList.map (labelAt file) :=
    rfl
  constructor
  · rw [labels, retainingHolder?_of_outside linked outside]
  · rw [labels, ← isSome_retainingHolder?_iff linked outside]
    cases tree.retainingHolder? node <;> simp

end Rules.ParallelCache

theorem Analyzer.checkTree_parallelCache (a : Analyzer) (rule : Rules.ParallelCache) (file : SourceFile)
    {tree : SyntaxTree} (built : tree.Built) :
    if rule.exempt.regex.isMatch file.relativePath.slashForm then
      (a.withRules [rule.toRule]).checkTree file tree = .empty
    else
      rule.Finds (a.severityOf rule.toRule) file tree ((a.withRules [rule.toRule]).checkTree file tree) ∧
        (rule.allowLocal = true → ∀ node,
          rule.Objects tree node ↔ tree.Constructs node "Map" ∧ tree.scope node ≠ .functionLocal) ∧
        ∀ node, tree.scope node ≠ .functionLocal →
          (Rules.ParallelCache.violationAt (a.severityOf rule.toRule) file tree node).labels =
              ((tree.ancestors node).find? (·.kind.isBindingHolder)).toList.map
                (Rules.ParallelCache.labelAt file) ∧
            ((Rules.ParallelCache.violationAt (a.severityOf rule.toRule) file tree node).labels ≠ [] ↔
              tree.scope node = .member) := by
  have alone : (a.withRules [rule.toRule]).checkTree file tree =
      rule.toRule.check (a.severityOf rule.toRule) file tree := by
    rw [checkTree_eq_flatMap]
    simp only [withRules, List.flatMap_singleton]
    rfl
  rw [alone]
  split
  · next exempt =>
    apply Rule.check_without_handlers
    have covered : rule.exempt.covers file.relativePath = true := exempt
    simp [Rules.ParallelCache.toRule, Rules.unlessExempt, RuleContext.fresh, covered]
  · next exempt =>
    have outside : rule.exempt.covers file.relativePath = false := by simpa [Pattern.Exemption.covers] using exempt
    refine ⟨Rules.ParallelCache.check_finds rule _ file tree outside, ?_, ?_⟩
    · exact Rules.ParallelCache.objects_iff_of_allowed
    · intro node free
      exact Rules.ParallelCache.labels_violationAt built.linked free

/-- The tree with a `new Map()` of its own line below a node. -/
def withNewMap (t : SyntaxTree) (parent line : Nat) : SyntaxTree :=
  ((t.push parent .newExpression "new_expression" none ⟨line * 20, line * 20 + 9, line, 1⟩).push
    t.size .identifier "identifier" (some "constructor") ⟨line * 20 + 4, line * 20 + 7, line, 5⟩).setText
      (t.size + 1) "Map"

theorem built_withNewMap {t : SyntaxTree} (built : t.Built) {parent : Nat} (there : parent < t.size) (line : Nat) :
    (withNewMap t parent line).Built :=
  .setText _ _ (.push _ _ _ _ _ (.push _ _ _ _ _ built there) (by simp))

/-- A field that keeps a map, a function that makes one for itself, and a construction of nothing. -/
def mapTree : SyntaxTree :=
  (withNewMap ((withNewMap ((SyntaxTree.root ⟨0, 90, 1, 1⟩).push 0 .classField "public_field_definition" none
      ⟨10, 29, 1, 1⟩) 1 1).push 0 .functionDeclaration "function_declaration" none ⟨30, 50, 2, 1⟩) 4 2).push
    0 .newExpression "new_expression" none ⟨60, 63, 3, 1⟩

theorem built_mapTree : mapTree.Built :=
  .push _ _ _ _ _
    (built_withNewMap
      (.push _ _ _ _ _ (built_withNewMap (.push _ _ _ _ _ (.root _) (by simp)) (by simp) 1) (by simp [withNewMap]))
      (by simp [withNewMap]) 2)
    (by simp [withNewMap])

def mapAnalyzer : Analyzer where
  start := ⟨"/p"⟩
  projectRoot := ⟨"/p"⟩
  rules := []
  language := ⟨"typescript", ["ts"], fun _ _ => .ok mapTree⟩
  exclusions := []
  extensions := ["ts"]
  settings := .default
  failOnParseError := true

theorem checkTree_parallelCache_mapTree :
    let rule : Rules.ParallelCache := ⟨true, ⟨"tests", .word "tests"⟩⟩
    let file : SourceFile := ⟨⟨"/p/a.ts"⟩, "", ⟨"a.ts"⟩⟩
    let report := (mapAnalyzer.withRules [rule.toRule]).checkTree file mapTree
    mapTree.Built ∧ rule.Finds (mapAnalyzer.severityOf rule.toRule) file mapTree report ∧
      report.violations.map (fun v => (v.location.line, v.labels.map (·.location.offset))) = [(1, [10])] ∧
      report.faults.map (·.line) = [3] := by
  intro rule file report
  have found := mapAnalyzer.checkTree_parallelCache rule file built_mapTree
  have kept : rule.exempt.regex.isMatch file.relativePath.slashForm = false := by decide +kernel
  rw [kept] at found
  exact ⟨built_mapTree, found.1, by decide +kernel, by decide +kernel⟩

end ArchLint
