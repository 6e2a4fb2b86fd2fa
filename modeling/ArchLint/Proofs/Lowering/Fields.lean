import ArchLint.Proofs.Lowering.Refinement
import ArchLint.Proofs.Syntax.Callees
import Mathlib.Data.List.Basic
import Mathlib.Data.Option.Basic

/-!
# Calls in concrete trees

A field of a lowered node is the first named child in that field, so the questions that rules ask of a call can be
answered in the concrete tree already.
-/

namespace ArchLint.TypeScript

namespace Concrete

def TokensAreLeaves (tree : Concrete) : Prop :=
  ∀ address c, address ≠ [] → tree.at? address = some c → c.mark.named = false → c.children = []

def firstNamed? (c : Concrete) (field : String) : Option Concrete :=
  c.children.find? fun child => child.mark.named && child.mark.field = some field

/-- The node is an identifier with this text. -/
def Reads (source : String) (c : Concrete) (name : String) : Prop :=
  (c.mark.kind = "identifier" ∨ c.mark.kind = "property_identifier") ∧ c.mark.Covers source name

/-- What the node calls is a member that is accessed as `object.property`. -/
def CallsMember (source object property : String) (c : Concrete) : Prop :=
  ∃ callee receiver member, c.firstNamed? "function" = some callee ∧ callee.mark.kind = "member_expression" ∧
    callee.firstNamed? "object" = some receiver ∧ callee.firstNamed? "property" = some member ∧
    receiver.Reads source object ∧ member.Reads source property

/-- The call lacks a part. -/
inductive Broken (c : Concrete) : ShapeError → Prop
  | callee : c.firstNamed? "function" = none →
    Broken c ⟨c.mark.kind, c.mark.row + 1, "call without callee"⟩
  | object {callee : Concrete} : c.firstNamed? "function" = some callee → callee.mark.kind = "member_expression" →
    callee.firstNamed? "object" = none →
    Broken c ⟨callee.mark.kind, callee.mark.row + 1, "member access without object"⟩
  | property {callee receiver : Concrete} : c.firstNamed? "function" = some callee →
    callee.mark.kind = "member_expression" → callee.firstNamed? "object" = some receiver →
    callee.firstNamed? "property" = none →
    Broken c ⟨callee.mark.kind, callee.mark.row + 1, "member access without property"⟩

theorem firstNamed?_eq (c : Concrete) (field : String) :
    c.firstNamed? field = (c.children.filter (·.mark.named)).find? (·.mark.field = some field) := by
  rw [List.find?_filter]
  simp [firstNamed?]

theorem shown_of_idOf? {tree : Concrete} {address : Address} {id : Nat} (h : tree.idOf? address = some id) :
    tree.shown[id]? = some address := by
  obtain ⟨inside, there, -⟩ := List.idxOf?_eq_some_iff.mp h
  rw [List.getElem?_eq_getElem inside, there]

end Concrete

theorem lowerKind_eq_callExpression {kind : String} : lowerKind kind = .callExpression ↔ kind = "call_expression" := by
  unfold lowerKind
  split <;> simp_all

theorem lowerKind_eq_memberExpression {kind : String} :
    lowerKind kind = .memberExpression ↔ kind = "member_expression" := by
  unfold lowerKind
  split <;> simp_all

theorem lowerKind_eq_identifier {kind : String} :
    lowerKind kind = .identifier ↔ kind = "identifier" ∨ kind = "property_identifier" := by
  unfold lowerKind
  split <;> simp_all

/-- The arena has the node for the concrete node, which is not the root. -/
def Stands (source : String) (tree c : Concrete) (node : NodeRef) : Prop :=
  ∃ id address, id ≠ 0 ∧ tree.shown[id]? = some address ∧ tree.at? address = some c ∧
    (lower source tree).ref? id = some node

section

variable {source : String} {tree : Concrete} {c : Concrete} {node : NodeRef}

theorem Stands.named (stands : Stands source tree c node) : c.mark.named = true := by
  obtain ⟨id, address, below, place, found, -⟩ := stands
  have shows := (tree.mem_shown address).mp (List.mem_of_getElem? place)
  have some_step : address ≠ [] := by
    obtain ⟨p, placed, -, same⟩ := placed_of_shown below place
    rw [← same]
    exact (placed_ne_root placed).2
  obtain ⟨_, there, named⟩ := (tree.shows_iff address).mp shows.2 address some_step (List.prefix_refl _)
  rw [found] at there
  obtain rfl := Option.some.inj there
  exact named

theorem Stands.mark (spans : tree.Spans source) (stands : Stands source tree c node) :
    node.kind = lowerKind c.mark.kind ∧ node.grammarKind = c.mark.kind ∧ node.field = c.mark.field ∧
      node.span = c.mark.span := by
  obtain ⟨id, address, below, place, found, there⟩ := stands
  obtain ⟨_, _, found', there', kind, grammarKind, field, span, -⟩ := (lowered_lower spans).marks id address below place
  obtain rfl := Option.some.inj (found.symm.trans found')
  obtain rfl := Option.some.inj (there.symm.trans there')
  exact ⟨kind, grammarKind, field, span⟩

theorem Stands.text (spans : tree.Spans source) (stands : Stands source tree c node) (named : node.kind = .identifier)
    (name : String) : node.text = some name ↔ c.mark.Covers source name := by
  obtain ⟨id, address, below, place, found, there⟩ := stands
  obtain ⟨_, _, found', there', -, -, -, -, -, kept, -⟩ := (lowered_lower spans).marks id address below place
  obtain rfl := Option.some.inj (found.symm.trans found')
  obtain rfl := Option.some.inj (there.symm.trans there')
  obtain ⟨text, stored, covers⟩ := kept named
  rw [stored]
  constructor
  · rintro ⟨⟩
    exact covers
  · intro other
    exact (Mark.text?_of_covers covers).symm.trans (Mark.text?_of_covers other)

theorem Stands.reads (spans : tree.Spans source) (stands : Stands source tree c node) (name : String) :
    node.kind = .identifier ∧ node.text = some name ↔ c.Reads source name := by
  have kind := (stands.mark spans).1
  unfold Concrete.Reads
  rw [← lowerKind_eq_identifier, ← kind]
  constructor
  · rintro ⟨named, text⟩
    exact ⟨named, (stands.text spans named name).mp text⟩
  · rintro ⟨named, covers⟩
    exact ⟨named, (stands.text spans named name).mpr covers⟩

/-! ### Children and fields -/

theorem forall₂_stands (leaves : tree.TokensAreLeaves) (spans : tree.Spans source) (address : Address)
    (rest : List Concrete) (s : Nat) (ids : List NodeId)
    (links : ids.map some =
      (((List.range' s rest.length).map fun k => address ++ [k]).filter tree.shows).map tree.idOf?)
    (found : ∀ k child, rest[k]? = some child → tree.at? (address ++ [s + k]) = some child) :
    List.Forall₂ (Stands source tree) (rest.filter (·.mark.named)) (ids.filterMap (lower source tree).ref?) := by
  -- By induction on the children; a token has no id, so it drops out of both lists.
  induction rest generalizing s ids with
  | nil =>
    obtain rfl : ids = [] := by simpa using links
    exact .nil
  | cons child rest ih =>
    have here : tree.at? (address ++ [s]) = some child := found 0 child rfl
    have later : ∀ k other, rest[k]? = some other → tree.at? (address ++ [s + 1 + k]) = some other := by
      intro k other there
      have next := found (k + 1) other there
      rwa [show s + (k + 1) = s + 1 + k by omega] at next
    have shows := Concrete.shows_iff_named leaves (by simp) here
    rw [List.length_cons, List.range'_succ, List.map_cons] at links
    cases named : child.mark.named with
    | false =>
      rw [List.filter_cons_of_neg (by simp [shows, named])] at links
      rw [List.filter_cons_of_neg (by simp [named])]
      exact ih (s + 1) ids links later
    | true =>
      rw [List.filter_cons_of_pos (shows.mpr named), List.map_cons] at links
      rw [List.filter_cons_of_pos (by exact named)]
      obtain ⟨id, ids, rfl, first, others⟩ := List.map_eq_cons_iff.mp links
      have place := Concrete.shown_of_idOf? first.symm
      have below : id ≠ 0 := by
        rintro rfl
        rw [shown_zero] at place
        simp at place
      obtain ⟨_, node, -, there, -⟩ := (lowered_lower spans).marks id _ below place
      rw [List.filterMap_cons_some there]
      exact .cons ⟨id, _, below, place, here, there⟩ (ih (s + 1) ids others later)

theorem Stands.children (leaves : tree.TokensAreLeaves) (spans : tree.Spans source)
    (stands : Stands source tree c node) :
    List.Forall₂ (Stands source tree) (c.children.filter (·.mark.named)) ((lower source tree).childrenOf node) := by
  obtain ⟨id, address, -, place, found, there⟩ := stands
  have links := children_lower source place found there
  rw [Concrete.shownChildren, List.range_eq_range'] at links
  refine forall₂_stands leaves spans address c.children 0 node.children links ?_
  intro k child inside
  rw [Concrete.at?_append, found, Option.bind_some, Nat.zero_add, Concrete.at?_cons, inside]
  rfl

theorem rel_find? {α β : Type} {R : α → β → Prop} {p : α → Bool} {q : β → Bool} (agree : ∀ a b, R a b → p a = q b)
    {as : List α} {bs : List β} (side : List.Forall₂ R as bs) : Option.Rel R (as.find? p) (bs.find? q) := by
  induction side with
  | nil => exact .none
  | @cons a b as bs here _ ih =>
    rw [List.find?_cons, List.find?_cons, ← agree a b here]
    cases p a with
    | true => exact .some here
    | false => exact ih

theorem Stands.field (leaves : tree.TokensAreLeaves) (spans : tree.Spans source) (stands : Stands source tree c node)
    (field : String) :
    Option.Rel (Stands source tree) (c.firstNamed? field) ((lower source tree).childByField? node field) := by
  have same : ∀ child below, Stands source tree child below →
      decide (child.mark.field = some field) = decide (below.field = some field) := by
    intro child below side
    rw [(side.mark spans).2.2.1]
  rw [Concrete.firstNamed?_eq]
  exact rel_find? same (stands.children leaves spans)

theorem rel_some_left {α β : Type} {R : α → β → Prop} {x : Option α} {y : Option β} (side : Option.Rel R x y) {a : α}
    (left : x = some a) : ∃ b, y = some b ∧ R a b := by
  subst left
  cases side with
  | some here => exact ⟨_, rfl, here⟩

theorem rel_some_right {α β : Type} {R : α → β → Prop} {x : Option α} {y : Option β} (side : Option.Rel R x y) {b : β}
    (right : y = some b) : ∃ a, x = some a ∧ R a b := by
  subst right
  cases side with
  | some here => exact ⟨_, rfl, here⟩

theorem rel_none {α β : Type} {R : α → β → Prop} {x : Option α} {y : Option β} (side : Option.Rel R x y) :
    x = none ↔ y = none := by
  cases side <;> simp

/-! ### Calls -/

theorem Stands.kind_eq_memberExpression (spans : tree.Spans source) (stands : Stands source tree c node) :
    node.kind = .memberExpression ↔ c.mark.kind = "member_expression" := by
  rw [(stands.mark spans).1, lowerKind_eq_memberExpression]

theorem Stands.ofNode (spans : tree.Spans source) (stands : Stands source tree c node) (detail : String) :
    ShapeError.ofNode node detail = ⟨c.mark.kind, c.mark.row + 1, detail⟩ := by
  obtain ⟨-, grammarKind, -, span⟩ := stands.mark spans
  rw [ShapeError.ofNode, grammarKind, span]
  rfl

theorem Stands.memberCall?_eq_ok_iff (leaves : tree.TokensAreLeaves) (spans : tree.Spans source)
    (stands : Stands source tree c node) (object property : String) :
    (lower source tree).memberCall? node = .ok (some (object, property)) ↔ c.CallsMember source object property := by
  rw [SyntaxTree.memberCall?_eq_ok_iff]
  constructor
  · rintro ⟨access, left, right, there, form, leftThere, rightThere, first, second⟩
    obtain ⟨callee, function, side⟩ := rel_some_right (stands.field leaves spans _) there
    obtain ⟨receiver, before, leftSide⟩ := rel_some_right (side.field leaves spans _) leftThere
    obtain ⟨member, after, rightSide⟩ := rel_some_right (side.field leaves spans _) rightThere
    exact ⟨callee, receiver, member, function, (side.kind_eq_memberExpression spans).mp form, before, after,
      (leftSide.reads spans _).mp first, (rightSide.reads spans _).mp second⟩
  · rintro ⟨callee, receiver, member, function, form, before, after, first, second⟩
    obtain ⟨access, there, side⟩ := rel_some_left (stands.field leaves spans _) function
    obtain ⟨left, leftThere, leftSide⟩ := rel_some_left (side.field leaves spans _) before
    obtain ⟨right, rightThere, rightSide⟩ := rel_some_left (side.field leaves spans _) after
    exact ⟨access, left, right, there, (side.kind_eq_memberExpression spans).mpr form, leftThere, rightThere,
      (leftSide.reads spans _).mpr first, (rightSide.reads spans _).mpr second⟩

theorem Stands.memberCall?_eq_error_iff (leaves : tree.TokensAreLeaves) (spans : tree.Spans source)
    (stands : Stands source tree c node) (e : ShapeError) :
    (lower source tree).memberCall? node = .error e ↔ c.Broken e := by
  rw [SyntaxTree.memberCall?_eq_error_iff]
  constructor
  · rintro (⟨bare, rfl⟩ | ⟨access, there, form, lacking⟩)
    · rw [stands.ofNode spans]
      exact .callee ((rel_none (stands.field leaves spans _)).mpr bare)
    obtain ⟨callee, function, side⟩ := rel_some_right (stands.field leaves spans _) there
    have form := (side.kind_eq_memberExpression spans).mp form
    rcases lacking with ⟨bare, rfl⟩ | ⟨left, leftThere, bare, rfl⟩
    · rw [side.ofNode spans]
      exact .object function form ((rel_none (side.field leaves spans _)).mpr bare)
    · obtain ⟨receiver, before, -⟩ := rel_some_right (side.field leaves spans _) leftThere
      rw [side.ofNode spans]
      exact .property function form before ((rel_none (side.field leaves spans _)).mpr bare)
  · intro broken
    cases broken with
    | callee missing =>
      exact Or.inl ⟨(rel_none (stands.field leaves spans _)).mp missing, stands.ofNode spans _⟩
    | object function form missing =>
      obtain ⟨access, there, side⟩ := rel_some_left (stands.field leaves spans _) function
      refine Or.inr ⟨access, there, (side.kind_eq_memberExpression spans).mpr form, Or.inl ⟨?_, side.ofNode spans _⟩⟩
      exact (rel_none (side.field leaves spans _)).mp missing
    | property function form before missing =>
      obtain ⟨access, there, side⟩ := rel_some_left (stands.field leaves spans _) function
      obtain ⟨left, leftThere, -⟩ := rel_some_left (side.field leaves spans _) before
      refine Or.inr ⟨access, there, (side.kind_eq_memberExpression spans).mpr form,
        Or.inr ⟨left, leftThere, ?_, side.ofNode spans _⟩⟩
      exact (rel_none (side.field leaves spans _)).mp missing

end

end ArchLint.TypeScript
