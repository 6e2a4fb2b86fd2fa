import Mathlib.Data.List.Perm.Basic

/-!
# Stable sorting

A sorted list is settled by its ties: the elements that compare equal to a given one, in their order. Sorting keeps
ties, so it is enough to know the ties of a list to know what it sorts to.
-/

namespace ArchLint

section

variable {α β : Type} (cmp : α → α → Ordering)

def sorted (l : List α) : List α :=
  l.mergeSort fun a b => (cmp a b).isLE

def ties (l : List α) (a : α) : List α :=
  l.filter fun b => cmp a b = .eq

def SameTies (l m : List α) : Prop :=
  ∀ a, ties cmp l a = ties cmp m a

variable {cmp}

theorem SameTies.symm {l m : List α} (same : SameTies cmp l m) : SameTies cmp m l :=
  fun a => (same a).symm

theorem SameTies.trans {l m n : List α} (first : SameTies cmp l m) (second : SameTies cmp m n) : SameTies cmp l n :=
  fun a => (first a).trans (second a)

theorem ties_flatMap (l : List β) (f : β → List α) (a : α) :
    ties cmp (l.flatMap f) a = l.flatMap fun b => ties cmp (f b) a :=
  List.filter_flatMap ..

theorem ties_filter (l : List α) (p : α → Bool) (a : α) : ties cmp (l.filter p) a = (ties cmp l a).filter p := by
  unfold ties
  rw [List.filter_filter, List.filter_filter]
  apply List.filter_congr
  intro b _
  exact Bool.and_comm _ _

theorem SameTies.filter {l m : List α} (same : SameTies cmp l m) (p : α → Bool) :
    SameTies cmp (l.filter p) (m.filter p) := by
  intro a
  rw [ties_filter, ties_filter, same a]

theorem SameTies.flatMap {l : List β} {f g : β → List α} (same : ∀ b ∈ l, SameTies cmp (f b) (g b)) :
    SameTies cmp (l.flatMap f) (l.flatMap g) := by
  intro a
  rw [ties_flatMap, ties_flatMap]
  exact List.flatMap_congr fun b inside => same b inside a

theorem flatMap_perm_of_single {f : β → List α} {l m : List β} (perm : l.Perm m)
    (single : ∀ x ∈ l, ∀ y ∈ l, f x ≠ [] → f y ≠ [] → x = y) : l.flatMap f = m.flatMap f := by
  induction perm with
  | nil => rfl
  | cons x _ ih =>
    rw [List.flatMap_cons, List.flatMap_cons, ih]
    intro y inY z inZ
    exact single y (List.mem_cons_of_mem _ inY) z (List.mem_cons_of_mem _ inZ)
  | swap x y l =>
    rw [List.flatMap_cons, List.flatMap_cons, List.flatMap_cons, List.flatMap_cons, ← List.append_assoc,
      ← List.append_assoc]
    congr 1
    by_cases emptyX : f x = []
    · rw [emptyX, List.append_nil, List.nil_append]
    · by_cases emptyY : f y = []
      · rw [emptyY, List.append_nil, List.nil_append]
      · rw [single x (by simp) y (by simp) emptyX emptyY]
  | trans first _ ihFirst ihSecond =>
    rw [ihFirst single, ihSecond]
    intro x inX y inY
    exact single x (first.mem_iff.mpr inX) y (first.mem_iff.mpr inY)

/-- Every tie stays within one of the parts. -/
def Apart (cmp : α → α → Ordering) (f : β → List α) (l : List β) : Prop :=
  ∀ x ∈ l, ∀ y ∈ l, ∀ a, ties cmp (f x) a ≠ [] → ties cmp (f y) a ≠ [] → x = y

/-- Elements that carry a key of their part tie within it, if ties share the key. -/
theorem apart_of_key {γ : Type} {f : β → List α} {l : List β} (key : α → γ) (keyOf : β → γ)
    (own : ∀ b ∈ l, ∀ x ∈ f b, key x = keyOf b) (tied : ∀ x y, cmp x y = .eq → key x = key y)
    (unique : ∀ b ∈ l, ∀ c ∈ l, keyOf b = keyOf c → b = c) : Apart cmp f l := by
  intro b inB c inC x atB atC
  obtain ⟨y, here⟩ := List.exists_mem_of_ne_nil _ atB
  obtain ⟨z, there⟩ := List.exists_mem_of_ne_nil _ atC
  obtain ⟨foundY, tieY⟩ := List.mem_filter.mp here
  obtain ⟨foundZ, tieZ⟩ := List.mem_filter.mp there
  have same : key y = key z := (tied x y (of_decide_eq_true tieY)).symm.trans (tied x z (of_decide_eq_true tieZ))
  rw [own b inB y foundY, own c inC z foundZ] at same
  exact unique b inB c inC same

theorem sameTies_of_perm {f : β → List α} {l m : List β} (perm : l.Perm m) (apart : Apart cmp f l) :
    SameTies cmp (l.flatMap f) (m.flatMap f) := by
  intro a
  rw [ties_flatMap, ties_flatMap]
  exact flatMap_perm_of_single perm fun x inX y inY => apart x inX y inY a

theorem filter_flatMap_of_parts {f : β → List α} {l : List β} {p : α → Bool} {q : β → Bool}
    (own : ∀ b ∈ l, ∀ a ∈ f b, p a = q b) : (l.flatMap f).filter p = (l.filter q).flatMap f := by
  induction l with
  | nil => rfl
  | cons b l ih =>
    obtain ⟨here, later⟩ := List.forall_mem_cons.mp own
    rw [List.flatMap_cons, List.filter_append, ih later]
    cases chosen : q b with
    | true =>
      rw [List.filter_eq_self.mpr fun a inside => (here a inside).trans chosen, List.filter_cons_of_pos chosen,
        List.flatMap_cons]
    | false =>
      rw [List.filter_eq_nil_iff.mpr fun a inside => by rw [here a inside, chosen]; exact Bool.false_ne_true,
        List.filter_cons_of_neg (by rw [chosen]; exact Bool.false_ne_true), List.nil_append]

theorem perm_sorted (l : List α) : (sorted cmp l).Perm l :=
  List.mergeSort_perm l _

theorem SameTies.tail {l m : List α} {x : α} (same : SameTies cmp (x :: l) (x :: m)) : SameTies cmp l m := by
  intro a
  have both := same a
  unfold ties at both ⊢
  by_cases atX : cmp a x = .eq
  · rw [List.filter_cons_of_pos (by simpa using atX), List.filter_cons_of_pos (by simpa using atX)] at both
    exact (List.cons.inj both).2
  · rw [List.filter_cons_of_neg (by simpa using atX), List.filter_cons_of_neg (by simpa using atX)] at both
    exact both

section transitive

variable [Std.TransCmp cmp]

theorem isLE_total (a b : α) : ((cmp a b).isLE || (cmp b a).isLE) = true := by
  have swap : cmp a b = (cmp b a).swap := Std.OrientedCmp.eq_swap
  rw [swap]
  cases cmp b a <;> rfl

theorem pairwise_sorted (l : List α) : (sorted cmp l).Pairwise fun a b => (cmp a b).isLE :=
  List.pairwise_mergeSort (fun _ _ _ => Std.TransCmp.isLE_trans) isLE_total l

theorem sameTies_sorted (l : List α) : SameTies cmp (sorted cmp l) l := by
  intro a
  have tied : (ties cmp l a).Pairwise fun b c => (cmp b c).isLE := by
    apply List.pairwise_of_forall_mem_list
    intro b inB c inC
    have atB : cmp a b = .eq := by simpa using (List.mem_filter.mp inB).2
    have atC : cmp a c = .eq := by simpa using (List.mem_filter.mp inC).2
    rw [Std.TransCmp.eq_trans (Std.OrientedCmp.eq_symm atB) atC]
    rfl
  have kept : (ties cmp l a).Sublist (sorted cmp l) :=
    List.sublist_mergeSort (fun _ _ _ => Std.TransCmp.isLE_trans) isLE_total tied List.filter_sublist
  have inside := kept.filter fun b => cmp a b = .eq
  rw [ties, List.filter_filter] at inside
  simp only [Bool.and_self] at inside
  exact (inside.eq_of_length ((perm_sorted l).filter _).length_eq.symm).symm

theorem mem_ties_self {l : List α} {a : α} : a ∈ ties cmp l a ↔ a ∈ l := by
  have self : cmp a a = .eq := Std.ReflCmp.compare_self
  rw [ties, List.mem_filter, self]
  exact and_iff_left rfl

theorem SameTies.mem_iff {l m : List α} (same : SameTies cmp l m) {a : α} : a ∈ l ↔ a ∈ m := by
  have moved : a ∈ ties cmp l a ↔ a ∈ ties cmp m a := by rw [same a]
  exact mem_ties_self.symm.trans (moved.trans mem_ties_self)

theorem eq_of_sameTies {l m : List α} (sortedL : l.Pairwise fun a b => (cmp a b).isLE)
    (sortedM : m.Pairwise fun a b => (cmp a b).isLE) (same : SameTies cmp l m) : l = m := by
  induction l generalizing m with
  | nil =>
    cases m with
    | nil => rfl
    | cons y m => exact absurd (same.mem_iff.mpr List.mem_cons_self) List.not_mem_nil
  | cons x l ih =>
    cases m with
    | nil => exact absurd (same.mem_iff.mp List.mem_cons_self) List.not_mem_nil
    | cons y m =>
      -- Each head stands in the other list, so neither comes before the other, and the ties settle which it is.
      have below : (cmp x y).isLE := by
        rcases List.mem_cons.mp (same.mem_iff.mpr (List.mem_cons_self (a := y))) with rfl | later
        · exact Std.ReflCmp.isLE_rfl
        · exact (List.pairwise_cons.mp sortedL).1 y later
      have above : (cmp y x).isLE := by
        rcases List.mem_cons.mp (same.mem_iff.mp (List.mem_cons_self (a := x))) with rfl | later
        · exact Std.ReflCmp.isLE_rfl
        · exact (List.pairwise_cons.mp sortedM).1 x later
      have tie : cmp x y = .eq := Std.OrientedCmp.isLE_antisymm below above
      have first := same x
      rw [ties, ties, List.filter_cons_of_pos (by simp [Std.ReflCmp.compare_self]),
        List.filter_cons_of_pos (by simp [tie])] at first
      obtain rfl : x = y := (List.cons.inj first).1
      rw [ih (List.pairwise_cons.mp sortedL).2 (List.pairwise_cons.mp sortedM).2 same.tail]

theorem sorted_eq_of_sameTies {l m : List α} (same : SameTies cmp l m) : sorted cmp l = sorted cmp m :=
  eq_of_sameTies (pairwise_sorted l) (pairwise_sorted m)
    ((sameTies_sorted l).trans (same.trans (sameTies_sorted m).symm))

theorem filter_sorted (l : List α) (p : α → Bool) : (sorted cmp l).filter p = sorted cmp (l.filter p) :=
  eq_of_sameTies ((pairwise_sorted l).filter p) (pairwise_sorted _)
    (((sameTies_sorted l).filter p).trans (sameTies_sorted _).symm)

theorem sorted_flatMap_of_perm {f : β → List α} {l m : List β} (perm : l.Perm m) (apart : Apart cmp f l) :
    sorted cmp (l.flatMap f) = sorted cmp (m.flatMap f) :=
  sorted_eq_of_sameTies (sameTies_of_perm perm apart)

/-- Sorting some of the parts picks their elements out of the whole. -/
theorem sorted_flatMap_of_subperm [DecidableEq β] {f : β → List α} {l m : List β} (part : m.Subperm l) (once : l.Nodup)
    (apart : Apart cmp f l) {p : α → Bool} (own : ∀ b ∈ l, ∀ a ∈ f b, p a = decide (b ∈ m)) :
    sorted cmp (m.flatMap f) = (sorted cmp (l.flatMap f)).filter p := by
  have onceM : m.Nodup := by
    obtain ⟨inner, perm, inside⟩ := part
    exact perm.nodup_iff.mp (once.sublist inside)
  have chosen : (l.filter (· ∈ m)).Perm m := by
    refine (List.perm_ext_iff_of_nodup (once.filter _) onceM).mpr ?_
    intro b
    rw [List.mem_filter]
    refine ⟨fun inside => of_decide_eq_true inside.2, fun inside => ⟨part.subset inside, decide_eq_true inside⟩⟩
  rw [filter_sorted, filter_flatMap_of_parts own]
  refine (sorted_flatMap_of_perm chosen ?_).symm
  intro x inX y inY
  exact apart x (List.mem_of_mem_filter inX) y (List.mem_of_mem_filter inY)

end transitive

end

end ArchLint
