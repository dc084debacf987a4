import Mathlib.Data.List.Pairwise

/-!
# Search trees as sorted lists

A tree is the list of its entries, for a comparison that need not be the one of the type.
-/

namespace SortedTree

open Std List

variable {α : Type*} {cmp : α → α → Ordering}

def Sorted (cmp : α → α → Ordering) (l : List α) : Prop := l.Pairwise fun a b => cmp a b = .lt

/-- Insertion, where an equal entry stays in its place. -/
def insert (cmp : α → α → Ordering) (x : α) : List α → List α
  | [] => [x]
  | y :: l =>
    match cmp x y with
    | .lt => x :: y :: l
    | .eq => y :: l
    | .gt => y :: insert cmp x l

/-- The search, which stops at an entry that is greater. -/
def find (cmp : α → α → Ordering) (x : α) : List α → Bool
  | [] => false
  | y :: l =>
    match cmp x y with
    | .lt => false
    | .eq => true
    | .gt => find cmp x l

/-- Behind an entry that is greater there are only greater ones. -/
lemma find_eq_true {x : α} {l : List α}
    (h : l.Pairwise fun a b => cmp x a = .lt → cmp x b = .lt) :
    find cmp x l = true ↔ ∃ y ∈ l, cmp x y = .eq := by
  induction l with
  | nil => simp [find]
  | cons y l ih =>
    rw [find]
    cases hy : cmp x y with
    | lt =>
      have hl : ∀ z ∈ l, cmp x z = .lt := fun z hz => rel_of_pairwise_cons h hz hy
      simp +contextual [hy,hl]
    | eq => simp [hy]
    | gt => simp [hy,ih h.tail]

lemma Sorted.find_iff [TransCmp cmp] [LawfulEqCmp cmp] {l : List α} (h : Sorted cmp l) (x : α) :
    find cmp x l = true ↔ x ∈ l := by
  rw [find_eq_true (h.imp fun hab ha => TransCmp.lt_trans ha hab)]
  constructor
  · rintro ⟨y,hy,heq⟩
    rwa [LawfulEqCmp.eq_of_compare heq]
  · exact fun hx => ⟨x,hx,ReflCmp.compare_self⟩

lemma mem_insert [LawfulEqCmp cmp] {x y : α} {l : List α} :
    y ∈ insert cmp x l ↔ y = x ∨ y ∈ l := by
  induction l with
  | nil => simp [insert]
  | cons z l ih =>
    rw [insert]
    cases h : cmp x z with
    | lt => simp
    | eq =>
      obtain rfl := LawfulEqCmp.eq_of_compare h
      simp
    | gt => simp only [mem_cons,ih,or_left_comm]

lemma Sorted.insert [TransCmp cmp] [LawfulEqCmp cmp] {l : List α} (h : Sorted cmp l) (x : α) :
    Sorted cmp (insert cmp x l) := by
  induction l with
  | nil => exact pairwise_singleton _ _
  | cons z l ih =>
    have hz : ∀ y ∈ l, cmp z y = .lt := fun y hy => rel_of_pairwise_cons h hy
    rw [SortedTree.insert]
    cases hx : cmp x z with
    | lt =>
      refine pairwise_cons.mpr ⟨fun y hy => ?_,h⟩
      rcases mem_cons.mp hy with rfl | hy
      · exact hx
      · exact TransCmp.lt_trans hx (hz y hy)
    | eq => exact h
    | gt =>
      refine pairwise_cons.mpr ⟨fun y hy => ?_,ih (List.Pairwise.tail h)⟩
      rcases mem_insert.mp hy with rfl | hy
      · exact OrientedCmp.gt_iff_lt.mp hx
      · exact hz y hy

lemma insert_of_lt [OrientedCmp cmp] {x : α} {l : List α} (h : ∀ y ∈ l, cmp y x = .lt) :
    insert cmp x l = l ++ [x] := by
  induction l with
  | nil => rfl
  | cons z l ih =>
    have hgt : cmp x z = .gt := OrientedCmp.gt_iff_lt.mpr (h z mem_cons_self)
    rw [insert,hgt,cons_append]
    exact congrArg _ (ih fun y hy => h y (mem_cons_of_mem _ hy))

lemma foldl_insert [OrientedCmp cmp] {l xs : List α} (h : Sorted cmp (l ++ xs)) :
    xs.foldl (fun l x => insert cmp x l) l = l ++ xs := by
  induction xs generalizing l with
  | nil => rw [append_nil]; rfl
  | cons x xs ih =>
    have hx : ∀ y ∈ l, cmp y x = .lt := fun y hy =>
      (pairwise_append.mp h).2.2 y hy x mem_cons_self
    have happ : l ++ x :: xs = l ++ [x] ++ xs := by rw [append_assoc]; rfl
    rw [foldl_cons,insert_of_lt hx,ih (happ ▸ h),happ]

end SortedTree
