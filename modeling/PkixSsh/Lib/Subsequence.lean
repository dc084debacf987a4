import Mathlib.Data.List.Forall2

/-!
# Greedy subsequences

Patterns are consumed from the head by the events that match them. All are used up exactly when
some of the events match them in their order.
-/

namespace Subsequence

open List

variable {ι ε : Type} (r : ι → ε → Prop)

/-- The patterns are matched by a subsequence of the events. -/
def Embeds (l : List ι) (es : List ε) : Prop := ∃ es', es'.Sublist es ∧ List.Forall₂ r l es'

variable {r}

lemma embeds_nil (es : List ε) : Embeds r [] es := ⟨[],nil_sublist es,.nil⟩

lemma not_embeds_cons_nil (i : ι) (l : List ι) : ¬ Embeds r (i :: l) [] := by
  rintro ⟨es',hs,hf⟩
  cases sublist_nil.mp hs
  cases hf

variable {l : List ι} {es : List ε}

lemma Embeds.cons_right (h : Embeds r l es) (e : ε) :
    Embeds r l (e :: es) := by
  obtain ⟨es',hs,hf⟩ := h
  exact ⟨es',hs.cons e,hf⟩

lemma embeds_cons_of_match {i : ι} {e : ε} (h : r i e) :
    Embeds r (i :: l) (e :: es) ↔ Embeds r l es := by
  constructor
  · rintro ⟨es',hs,hf⟩
    cases hf with
    | @cons _ e' _ es'' _ hf =>
      cases hs with
      | cons _ hs => exact ⟨es'',(sublist_cons_self _ _).trans hs,hf⟩
      | cons_cons _ hs => exact ⟨es'',hs,hf⟩
  · rintro ⟨es',hs,hf⟩
    exact ⟨e :: es',hs.cons_cons e,.cons h hf⟩

lemma embeds_cons_of_not_match {i : ι} {e : ε} (h : ¬ r i e) :
    Embeds r (i :: l) (e :: es) ↔ Embeds r (i :: l) es := by
  constructor
  · rintro ⟨es',hs,hf⟩
    cases hf with
    | @cons _ e' _ es'' hr hf =>
      cases hs with
      | cons _ hs => exact ⟨e' :: es'',hs,.cons hr hf⟩
      | cons_cons _ hs => exact absurd hr h
  · exact fun h => h.cons_right e

section

variable (r) [∀ i e, Decidable (r i e)]

def consume (l : List ι) (e : ε) : List ι :=
  match l with
  | [] => []
  | i :: l => if r i e then l else i :: l

variable {r}

lemma embeds_consume {e : ε} :
    Embeds r (consume r l e) es ↔ Embeds r l (e :: es) := by
  cases l with
  | nil => exact iff_of_true (embeds_nil es) (embeds_nil _)
  | cons i l =>
    by_cases h : r i e
    · rw [consume,if_pos h,embeds_cons_of_match h]
    · rw [consume,if_neg h,embeds_cons_of_not_match h]

lemma foldl_consume_eq_nil (es : List ε) :
    es.foldl (consume r) l = [] ↔ Embeds r l es := by
  induction es generalizing l with
  | nil =>
    cases l with
    | nil => exact iff_of_true rfl (embeds_nil [])
    | cons i l => exact iff_of_false (cons_ne_nil i l) (not_embeds_cons_nil i l)
  | cons e es ih => rw [foldl_cons,ih,embeds_consume]

end

end Subsequence
