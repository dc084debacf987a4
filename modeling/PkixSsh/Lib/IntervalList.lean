import Mathlib.Data.List.Pairwise
import Mathlib.Order.Lattice

/-!
# Lists of intervals

Sets of numbers as lists of closed intervals. A list is canonical when its intervals are in
order and no two of them touch; such a list is determined by its members.
-/

namespace IntervalList

open List

@[ext] structure NatInterval where
  lo : Nat
  hi : Nat
  le : lo ≤ hi
  deriving DecidableEq

def NatInterval.Contains (a : NatInterval) (n : Nat) : Prop := a.lo ≤ n ∧ n ≤ a.hi

instance (a : NatInterval) (n : Nat) : Decidable (a.Contains n) :=
  inferInstanceAs (Decidable (_ ∧ _))

/-- The first interval ends before the second, and there is a number between them. -/
def Apart (a b : NatInterval) : Prop := a.hi + 1 < b.lo

def Canonical (l : List NatInterval) : Prop := l.Pairwise Apart

def Mem (l : List NatInterval) (n : Nat) : Prop := ∃ a ∈ l, a.Contains n

instance (l : List NatInterval) (n : Nat) : Decidable (Mem l n) :=
  inferInstanceAs (Decidable (∃ a ∈ l, _))

def hull (a b : NatInterval) : NatInterval :=
  ⟨min a.lo b.lo,max a.hi b.hi,(Nat.min_le_left _ _).trans (a.le.trans (Nat.le_max_left _ _))⟩

variable {a : NatInterval} {l : List NatInterval} {n : Nat}

lemma Apart.trans {b c : NatInterval} (h : Apart a b) (h' : Apart b c) : Apart a c := by
  have := b.le
  unfold Apart at *
  omega

lemma hull_contains {b : NatInterval} (h : ¬ Apart a b) (h' : ¬ Apart b a) (n : Nat) :
    (hull a b).Contains n ↔ a.Contains n ∨ b.Contains n := by
  simp only [NatInterval.Contains,hull,Apart] at *
  omega

@[simp] lemma mem_nil (n : Nat) : ¬ Mem [] n := by
  rintro ⟨a,ha,-⟩
  cases ha

lemma mem_cons : Mem (a :: l) n ↔ a.Contains n ∨ Mem l n := by
  simp [Mem]

lemma mem_append {l' : List NatInterval} : Mem (l ++ l') n ↔ Mem l n ∨ Mem l' n := by
  simp only [Mem,List.mem_append,or_and_right,exists_or]

lemma mem_reverse : Mem l.reverse n ↔ Mem l n := by
  simp [Mem]

lemma mem_lo (h : a ∈ l) : Mem l a.lo :=
  ⟨a,h,Nat.le_refl _,a.le⟩

lemma mem_hi (h : a ∈ l) : Mem l a.hi :=
  ⟨a,h,a.le,Nat.le_refl _⟩

namespace Canonical

variable {a b : NatInterval} {l l' : List NatInterval} {n : Nat}

lemma lt_of_mem_tail (h : Canonical (a :: l)) (hn : Mem l n) : a.hi + 1 < n := by
  obtain ⟨c,hc,hlo,-⟩ := hn
  exact Nat.lt_of_lt_of_le (rel_of_pairwise_cons h hc) hlo

lemma lo_le_of_mem (h : Canonical (a :: l)) (hn : Mem (a :: l) n) : a.lo ≤ n := by
  rcases mem_cons.mp hn with hn | hn
  · exact hn.1
  · have := h.lt_of_mem_tail hn
    have := a.le
    omega

lemma hi_le_of_mem_iff (h : Canonical (a :: l)) (hlo : a.lo = b.lo)
    (hm : ∀ n, Mem (b :: l') n → Mem (a :: l) n) : b.hi ≤ a.hi := by
  by_contra hlt
  -- the number behind the first interval is missing
  have hin : Mem (b :: l') (a.hi + 1) := by
    have := a.le
    exact mem_cons.mpr (.inl ⟨by omega,by omega⟩)
  rcases mem_cons.mp (hm _ hin) with hn | hn
  · have := hn.2
    omega
  · have := h.lt_of_mem_tail hn
    omega

lemma eq_of_mem_iff (h : Canonical l) (h' : Canonical l') (hm : ∀ n, Mem l n ↔ Mem l' n) :
    l = l' := by
  induction l generalizing l' with
  | nil =>
    cases l' with
    | nil => rfl
    | cons b l' => exact absurd ((hm _).mpr (mem_lo mem_cons_self)) (mem_nil _)
  | cons a l ih =>
    cases l' with
    | nil => exact absurd ((hm _).mp (mem_lo mem_cons_self)) (mem_nil _)
    | cons b l' =>
      have hlo : a.lo = b.lo := Nat.le_antisymm
        (h.lo_le_of_mem ((hm _).mpr (mem_lo mem_cons_self)))
        (h'.lo_le_of_mem ((hm _).mp (mem_lo mem_cons_self)))
      have hhi : a.hi = b.hi := Nat.le_antisymm
        (h'.hi_le_of_mem_iff hlo.symm fun n => (hm n).mp)
        (h.hi_le_of_mem_iff hlo fun n => (hm n).mpr)
      obtain rfl : a = b := NatInterval.ext hlo hhi
      congr 1
      apply ih h.tail h'.tail
      intro n
      constructor
      · intro hn
        have hgt := h.lt_of_mem_tail hn
        rcases mem_cons.mp ((hm n).mp (mem_cons.mpr (.inr hn))) with hc | hc
        · have := hc.2
          omega
        · exact hc
      · intro hn
        have hgt := h'.lt_of_mem_tail hn
        rcases mem_cons.mp ((hm n).mpr (mem_cons.mpr (.inr hn))) with hc | hc
        · have := hc.2
          omega
        · exact hc

lemma le_of_mem (h : Canonical l) (hl : l ≠ []) (hn : Mem l n) : n ≤ (l.getLast hl).hi := by
  obtain ⟨c,hc,-,hhi⟩ := hn
  rw [← dropLast_concat_getLast hl] at h hc
  rcases List.mem_append.mp hc with hc | hc
  · have hapart : c.hi + 1 < (l.getLast hl).lo :=
      (pairwise_append.mp h).2.2 c hc _ (mem_singleton_self _)
    have := (l.getLast hl).le
    omega
  · rw [mem_singleton] at hc
    rwa [← hc]

end Canonical

lemma canonical_middle {l' : List NatInterval} (hl : Canonical l) (hl' : Canonical l')
    (hb : ∀ c ∈ l, Apart c a) (ha : ∀ c ∈ l', Apart a c) : Canonical (l ++ a :: l') := by
  refine pairwise_append.mpr ⟨hl,pairwise_cons.mpr ⟨ha,hl'⟩,?_⟩
  intro c hc d hd
  rcases List.mem_cons.mp hd with rfl | hd
  · exact hb c hc
  · exact (hb c hc).trans (ha d hd)

end IntervalList
