import Mathlib.Data.Finset.Card
import Mathlib.Data.Finset.Range
import Mathlib.Logic.Function.Basic
import Mathlib.Logic.Relation

/-!
# Forests of numbered nodes

A forest is a map from nodes to their parents. A node may be needed for a descendant.
-/

namespace Forest

variable {f g : Nat → Option Nat} {n i j p : Nat}

/-- The nodes below `n` with parent `i`. -/
def kids (f : Nat → Option Nat) (n i : Nat) : Nat :=
  ((Finset.range n).filter fun j => f j = some i).card

lemma kids_congr (h : ∀ j, j < n → f j = g j) (i : Nat) : kids f n i = kids g n i := by
  unfold kids
  congr 1
  apply Finset.filter_congr
  intro j hj
  rw [h j (Finset.mem_range.mp hj)]

lemma kids_succ (f : Nat → Option Nat) (n i : Nat) :
    kids f (n + 1) i = kids f n i + if f n = some i then 1 else 0 := by
  unfold kids
  rw [Finset.range_add_one,Finset.filter_insert]
  split
  · exact Finset.card_insert_of_notMem (by simp)
  · rfl

lemma kids_update_none (hj : j < n) (i : Nat) :
    kids (Function.update f j none) n i + (if f j = some i then 1 else 0) = kids f n i := by
  unfold kids
  have hset : (Finset.range n).filter (fun k => Function.update f j none k = some i) =
      ((Finset.range n).filter fun k => f k = some i).erase j := by
    ext k
    by_cases hk : k = j
    · subst hk
      simp
    · simp [hk]
  rw [hset]
  split
  · next hf =>
    have hmem : j ∈ (Finset.range n).filter fun k => f k = some i := by simp [hj,hf]
    rw [Finset.card_erase_of_mem hmem]
    have := Finset.card_pos.mpr ⟨j,hmem⟩
    omega
  · next hf =>
    rw [Finset.erase_eq_of_notMem (by simp [hf]),Nat.add_zero]

lemma kids_pos_iff : 0 < kids f n i ↔ ∃ j, j < n ∧ f j = some i := by
  unfold kids
  rw [Finset.card_pos]
  constructor
  · rintro ⟨j,hj⟩
    rw [Finset.mem_filter,Finset.mem_range] at hj
    exact ⟨j,hj⟩
  · rintro ⟨j,hj⟩
    exact ⟨j,Finset.mem_filter.mpr ⟨Finset.mem_range.mpr hj.1,hj.2⟩⟩

/-- From a node to one of its ancestors, or to itself. -/
def Descends (f : Nat → Option Nat) : Nat → Nat → Prop :=
  Relation.ReflTransGen fun j i => f j = some i

lemma exists_wanted (live wanted : Nat → Prop)
    (h : ∀ i, live i → wanted i ∨ ∃ j, i < j ∧ j < n ∧ live j ∧ f j = some i) (hi : live i) :
    ∃ j, wanted j ∧ Descends f j i := by
  induction hk : n - i using Nat.strong_induction_on generalizing i with
  | _ k ih =>
    rcases h i hi with hw | ⟨j,hij,hjn,hj,hp⟩
    · exact ⟨i,hw,.refl⟩
    · obtain ⟨k,hw,hd⟩ := ih _ (by omega) hj rfl
      exact ⟨k,hw,hd.tail hp⟩

end Forest
