import ArchLint.TypeScript.Concrete

/-!
# Addresses in concrete trees

An address says which child to take at each level below the root. `preorder` lists the addresses of all nodes,
and `shown` those of the nodes that stand below named nodes only.
-/

namespace ArchLint.TypeScript

/-- The way from the root of a tree to one of its nodes. -/
abbrev Address := List Nat

namespace Concrete

def at? : Concrete → Address → Option Concrete
  | tree, [] => some tree
  | tree, k :: rest => tree.children[k]?.bind (·.at? rest)

mutual

/-- The addresses of all nodes, each before what stands below it. -/
def preorder : Concrete → List Address
  | node _ children => [] :: preorderAll 0 children

/-- The addresses of the nodes of a forest whose first tree is child number `k`. -/
def preorderAll (k : Nat) : List Concrete → List Address
  | [] => []
  | tree :: rest => tree.preorder.map (k :: ·) ++ preorderAll (k + 1) rest

end

/-- Whether a node below a forest's parent is there and named, like all nodes between. -/
def showsAll : List Concrete → Address → Bool
  | _, [] => true
  | forest, k :: rest => forest[k]?.any fun tree => tree.mark.named && showsAll tree.children rest

/-- Whether the node at an address and all nodes above it, but for the root, are named. -/
def shows (tree : Concrete) (address : Address) : Bool :=
  showsAll tree.children address

/-- The addresses of the nodes that are named like all nodes above them but the root, in pre-order. -/
def shown (tree : Concrete) : List Address :=
  tree.preorder.filter tree.shows

/-- The place of a node among those that are shown. -/
def idOf? (tree : Concrete) (address : Address) : Option Nat :=
  tree.shown.idxOf? address

/-- The addresses of a node's children that are shown, in order. -/
def shownChildren (tree : Concrete) (address : Address) (c : Concrete) : List Address :=
  ((List.range c.children.length).map fun k => address ++ [k]).filter tree.shows

theorem preorder_eq (tree : Concrete) : tree.preorder = [] :: preorderAll 0 tree.children := by
  cases tree
  simp only [preorder, children]

theorem at?_cons (tree : Concrete) (k : Nat) (rest : Address) :
    tree.at? (k :: rest) = tree.children[k]?.bind (·.at? rest) := rfl

theorem at?_append (tree : Concrete) (a b : Address) : tree.at? (a ++ b) = (tree.at? a).bind (·.at? b) := by
  induction a generalizing tree with
  | nil => rfl
  | cons k a ih =>
    rw [List.cons_append, at?_cons, at?_cons]
    cases tree.children[k]? with
    | none => rfl
    | some child => exact ih child

theorem shows_iff (tree : Concrete) (address : Address) :
    tree.shows address = true ↔
      ∀ above, above ≠ [] → above <+: address → ∃ c, tree.at? above = some c ∧ c.mark.named = true := by
  unfold shows
  induction address generalizing tree with
  | nil =>
    simp only [showsAll, true_iff]
    intro above some_step before
    exact absurd (List.prefix_nil.mp before) some_step
  | cons k rest ih =>
    rw [showsAll]
    cases found : tree.children[k]? with
    | none =>
      simp only [Option.any_none, Bool.false_eq_true, false_iff]
      intro all
      obtain ⟨c, there, -⟩ := all [k] (by simp) (by simp)
      simp [at?_cons, found] at there
    | some child =>
      simp only [Option.any_some, Bool.and_eq_true, ih child]
      constructor
      · rintro ⟨named, below⟩ above some_step before
        obtain ⟨j, way, rfl⟩ := List.exists_cons_of_ne_nil some_step
        obtain ⟨rfl, shorter⟩ := List.cons_prefix_cons.mp before
        rw [at?_cons, found, Option.bind_some]
        by_cases first : way = []
        · exact ⟨child, by rw [first]; rfl, named⟩
        · exact below way first shorter
      · intro all
        constructor
        · obtain ⟨c, there, named⟩ := all [k] (by simp) (by simp)
          rw [at?_cons, found] at there
          obtain rfl := Option.some.inj there
          exact named
        · intro way some_step before
          obtain ⟨c, there, named⟩ := all (k :: way) (by simp) (List.cons_prefix_cons.mpr ⟨rfl, before⟩)
          rw [at?_cons, found, Option.bind_some] at there
          exact ⟨c, there, named⟩

/-! ### Pre-order visits every node once -/

theorem mem_preorderAll_ge {k : Nat} {forest : List Concrete} {address : Address}
    (h : address ∈ preorderAll k forest) :
    ∃ j rest, address = j :: rest ∧ k ≤ j := by
  induction forest generalizing k with
  | nil => cases h
  | cons tree forest ih =>
    rw [preorderAll, List.mem_append] at h
    rcases h with here | later
    · obtain ⟨rest, -, rfl⟩ := List.mem_map.mp here
      exact ⟨k, rest, rfl, Nat.le_refl k⟩
    · obtain ⟨j, rest, same, above⟩ := ih later
      exact ⟨j, rest, same, by omega⟩

mutual

theorem nodup_preorder : (tree : Concrete) → tree.preorder.Nodup
  | node _ children => by
    rw [preorder, List.nodup_cons]
    refine ⟨?_, nodup_preorderAll 0 children⟩
    intro empty
    obtain ⟨j, rest, same, -⟩ := mem_preorderAll_ge empty
    cases same

theorem nodup_preorderAll (k : Nat) : (forest : List Concrete) → (preorderAll k forest).Nodup
  | [] => List.nodup_nil
  | tree :: rest => by
    rw [preorderAll, List.nodup_append]
    refine ⟨?_, nodup_preorderAll (k + 1) rest, ?_⟩
    · exact List.Pairwise.map _ (fun a b differ same => differ (List.cons.inj same).2) (nodup_preorder tree)
    · intro a here b later same
      obtain ⟨way, -, rfl⟩ := List.mem_map.mp here
      obtain ⟨j, way', rfl, above⟩ := mem_preorderAll_ge later
      have number := (List.cons.inj same).1
      omega

end

mutual

theorem mem_preorder : (tree : Concrete) → (address : Address) →
    (address ∈ tree.preorder ↔ (tree.at? address).isSome)
  | node mark children, [] => by simp [preorder, at?]
  | node mark children, k :: rest => by
    have step := mem_preorderAll 0 children k rest
    rw [preorder, at?_cons, List.mem_cons]
    simpa [Concrete.children] using step

theorem mem_preorderAll (k : Nat) : (forest : List Concrete) → (j : Nat) → (rest : Address) →
    (j :: rest ∈ preorderAll k forest ↔ k ≤ j ∧ (forest[j - k]?.bind (·.at? rest)).isSome)
  | [], j, rest => by simp [preorderAll]
  | tree :: forest, j, rest => by
    have here := mem_preorder tree rest
    have later := mem_preorderAll (k + 1) forest j rest
    rw [preorderAll, List.mem_append, later]
    have first : j :: rest ∈ tree.preorder.map (k :: ·) ↔ j = k ∧ (tree.at? rest).isSome := by
      rw [← here]
      constructor
      · intro mapped
        obtain ⟨way, inside, same⟩ := List.mem_map.mp mapped
        obtain ⟨rfl, rfl⟩ := List.cons.inj same
        exact ⟨rfl, inside⟩
      · rintro ⟨rfl, inside⟩
        exact List.mem_map.mpr ⟨rest, inside, rfl⟩
    rw [first]
    by_cases same : j = k
    · subst same
      have past : ¬j + 1 ≤ j := by omega
      simp [past]
    · by_cases above : k + 1 ≤ j
      · obtain ⟨d, rfl⟩ := Nat.exists_eq_add_of_le above
        have shift : k + 1 + d - k = d + 1 := by omega
        have shift' : k + 1 + d - (k + 1) = d := by omega
        simp [shift, shift', same]
        omega
      · simp only [same, false_and, false_or]
        constructor
        · intro h
          exact absurd h.1 above
        · intro h
          omega

end

theorem nodup_shown (tree : Concrete) : tree.shown.Nodup :=
  (nodup_preorder tree).filter _

theorem shown_eq (tree : Concrete) :
    tree.shown = [] :: (preorderAll 0 tree.children).filter (showsAll tree.children) := by
  rw [shown, preorder_eq, List.filter_cons_of_pos (by rfl)]
  rfl

theorem mem_shown (tree : Concrete) (address : Address) :
    address ∈ tree.shown ↔ (tree.at? address).isSome ∧ tree.shows address = true := by
  rw [shown, List.mem_filter, mem_preorder]

/-- Where tokens are leaves, a node is shown as soon as it is named itself. -/
theorem shows_iff_named {tree : Concrete}
    (leaves : ∀ address c, address ≠ [] → tree.at? address = some c → c.mark.named = false → c.children = [])
    {address : Address} {c : Concrete} (below : address ≠ []) (found : tree.at? address = some c) :
    tree.shows address = true ↔ c.mark.named = true := by
  rw [shows_iff]
  constructor
  · intro all
    obtain ⟨c', found', named⟩ := all address below (List.prefix_refl _)
    rw [found] at found'
    obtain rfl := Option.some.inj found'
    exact named
  · intro named above some_step before
    obtain ⟨rest, rfl⟩ := before
    rw [at?_append] at found
    obtain ⟨above', there, under⟩ := Option.bind_eq_some_iff.mp found
    refine ⟨above', there, ?_⟩
    -- A token above the node would have a child.
    cases token : above'.mark.named with
    | true => rfl
    | false =>
      have bare := leaves above above' some_step there token
      cases rest with
      | nil =>
        obtain rfl := Option.some.inj under
        exact token.symm.trans named
      | cons k rest =>
        rw [at?_cons, bare] at under
        cases under

/-! ### Children -/

def isBelow (address below : Address) : Bool :=
  below ≠ [] ∧ below.dropLast = address

theorem isBelow_cons (j k : Nat) (address below : Address) :
    isBelow (j :: address) (k :: below) = (decide (j = k) && isBelow address below) := by
  cases below with
  | nil => simp [isBelow]
  | cons first below => simp [isBelow, Bool.decide_and, eq_comm]

theorem preorder_filter_root (tree : Concrete) : tree.preorder.filter (·.isEmpty) = [[]] := by
  rw [preorder_eq, List.filter_cons_of_pos (by rfl)]
  have rest : (preorderAll 0 tree.children).filter (·.isEmpty) = [] := by
    apply List.filter_eq_nil_iff.mpr
    intro address inside
    obtain ⟨j, rest, rfl, -⟩ := mem_preorderAll_ge inside
    simp
  rw [rest]

theorem preorderAll_filter_root (k : Nat) (forest : List Concrete) :
    (preorderAll k forest).filter (isBelow []) = (List.range' k forest.length).map fun j => [j] := by
  induction forest generalizing k with
  | nil => rfl
  | cons tree forest ih =>
    have first : isBelow [] ∘ (k :: ·) = fun address : Address => address.isEmpty := by
      funext address
      cases address <;> simp [isBelow]
    rw [preorderAll, List.filter_append, List.filter_map, first, preorder_filter_root, ih, List.length_cons,
      List.range'_succ]
    rfl

mutual

theorem preorder_filter_below : (tree : Concrete) → (address : Address) → (c : Concrete) → tree.at? address = some c →
    tree.preorder.filter (isBelow address) = (List.range c.children.length).map fun k => address ++ [k]
  | node mark children, [], c, found => by
    obtain rfl := Option.some.inj found
    rw [preorder, List.filter_cons_of_neg (by simp [isBelow]), preorderAll_filter_root, List.range_eq_range']
    rfl
  | node mark children, j :: address, c, found => by
    obtain ⟨child, there, under⟩ := Option.bind_eq_some_iff.mp found
    rw [preorder, List.filter_cons_of_neg (by simp [isBelow]),
      preorderAll_filter_below 0 children j child address c (Nat.zero_le j) there under]

theorem preorderAll_filter_below (k : Nat) : (forest : List Concrete) → (j : Nat) → (child : Concrete) →
    (address : Address) → (c : Concrete) → k ≤ j → forest[j - k]? = some child → child.at? address = some c →
    (preorderAll k forest).filter (isBelow (j :: address)) =
      (List.range c.children.length).map fun i => j :: address ++ [i]
  | [], _, _, _, _, _, there, _ => by cases there
  | tree :: forest, j, child, address, c, le, there, under => by
    rw [preorderAll, List.filter_append, List.filter_map]
    by_cases same : j = k
    · subst same
      rw [Nat.sub_self] at there
      obtain rfl := Option.some.inj there
      have here : isBelow (j :: address) ∘ (j :: ·) = isBelow address := by
        funext below
        simp [isBelow_cons]
      have later : (preorderAll (j + 1) forest).filter (isBelow (j :: address)) = [] := by
        apply List.filter_eq_nil_iff.mpr
        intro other inside
        obtain ⟨i, rest, rfl, above⟩ := mem_preorderAll_ge inside
        have differ : j ≠ i := by omega
        simp [isBelow_cons, differ]
      rw [here, preorder_filter_below tree address c under, later, List.append_nil, List.map_map]
      rfl
    · have here : isBelow (j :: address) ∘ (k :: ·) = fun _ => false := by
        funext below
        simp [isBelow_cons, same]
      have shift : j - k = (j - (k + 1)) + 1 := by omega
      rw [shift, List.getElem?_cons_succ] at there
      rw [here, preorderAll_filter_below (k + 1) forest j child address c (by omega) there under]
      simp

end

theorem shown_filter_below {tree : Concrete} {address : Address} {c : Concrete} (found : tree.at? address = some c) :
    tree.shown.filter (isBelow address) = tree.shownChildren address c := by
  rw [shown, List.filter_filter, shownChildren, ← preorder_filter_below tree address c found, List.filter_filter]
  apply List.filter_congr
  intro other _
  exact Bool.and_comm _ _

end Concrete

end ArchLint.TypeScript
