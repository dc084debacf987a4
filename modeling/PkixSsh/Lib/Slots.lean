import Mathlib.Data.List.Basic
import Mathlib.Order.Basic
import Mathlib.Order.Nat

/-!
# Tables of slots

A new element takes the first empty slot, and the table grows when there is none.
-/

namespace Slots

open List

variable {α : Type*} {t t' : List (Option α)}

def get (t : List (Option α)) (i : Nat) : Option α := t[i]?.join

def modify (f : α → α) (i : Nat) (t : List (Option α)) : List (Option α) :=
  t.modify i (Option.map f)

def update (f : α → α) (t : List (Option α)) : List (Option α) := t.map (Option.map f)

def clear (i : Nat) (t : List (Option α)) : List (Option α) := t.set i none

def find? (p : α → Bool) (t : List (Option α)) : Option Nat := t.findIdx? fun o => o.any p

/-- The slot that `e` is put into, and the table with it. A table without an empty slot grows by
`grow` of them, unless it has more than `most` already. -/
def insert (most grow : Nat) (e : α) (t : List (Option α)) : Option (Nat × List (Option α)) :=
  let found := t.findIdx Option.isNone
  if found < t.length then some (found,t.set found (some e))
  else if t.length > most then none
  else some (found,(t ++ replicate grow none).set found (some e))

variable {i : Nat}

lemma lt_length_of_get {e : α} (h : get t i = some e) : i < t.length := by
  by_contra hi
  rw [get,getElem?_eq_none (not_lt.mp hi)] at h
  cases h

lemma get_set (o : Option α) (hi : i < t.length) (j : Nat) :
    get (t.set i o) j = if j = i then o else get t j := by
  unfold get
  by_cases hj : j = i
  · subst hj
    simp [hi]
  · rw [if_neg hj,getElem?_set_ne (Ne.symm hj)]

lemma get_append (t : List (Option α)) (n j : Nat) :
    get (t ++ replicate n none) j = get t j := by
  unfold get
  by_cases hj : j < t.length
  · rw [getElem?_append_left hj]
  · rw [getElem?_append_right (not_lt.mp hj),getElem?_eq_none (not_lt.mp hj),getElem?_replicate]
    split <;> rfl

lemma get_modify (f : α → α) (i j : Nat) (t : List (Option α)) :
    get (modify f i t) j = if j = i then (get t j).map f else get t j := by
  unfold get modify
  rw [getElem?_modify]
  by_cases hj : j = i
  · subst hj
    rcases t[j]? with _ | _ | e <;> simp
  · rcases t[j]? with _ | _ | e <;> simp [hj,Ne.symm hj]

lemma get_update (f : α → α) (j : Nat) :
    get (update f t) j = (get t j).map f := by
  unfold get update
  rw [getElem?_map]
  rcases t[j]? with _ | _ | e <;> rfl

lemma get_clear (i j : Nat) (t : List (Option α)) :
    get (clear i t) j = if j = i then none else get t j := by
  by_cases hi : i < t.length
  · exact get_set none hi j
  · unfold get clear
    rw [set_eq_of_length_le (not_lt.mp hi)]
    split
    · next hj =>
      rw [hj,getElem?_eq_none (not_lt.mp hi)]
      rfl
    · rfl

lemma get_of_find? {p : α → Bool} {i : Nat} (h : find? p t = some i) :
    ∃ e, get t i = some e ∧ p e = true := by
  obtain ⟨hi,hp,-⟩ := findIdx?_eq_some_iff_getElem.mp h
  rw [get,getElem?_eq_getElem hi]
  cases hget : t[i] with
  | none =>
    rw [hget] at hp
    cases hp
  | some e =>
    rw [hget] at hp
    exact ⟨e,rfl,hp⟩

lemma find?_of_get {p : α → Bool} {i : Nat} {e : α} (h : get t i = some e) (hp : p e = true) :
    ∃ j, find? p t = some j := by
  cases hf : find? p t with
  | some j => exact ⟨j,rfl⟩
  | none =>
    have hi := lt_length_of_get h
    have hnone := findIdx?_eq_none_iff.mp hf _ (getElem_mem hi)
    rw [get,getElem?_eq_getElem hi] at h
    rw [show t[i] = some e from h] at hnone
    exact absurd hp (Bool.eq_false_iff.mp hnone)

lemma find?_modify {p : α → Bool} {f : α → α} {i : Nat}
    (h : ∀ e, get t i = some e → p (f e) = p e) : find? p (modify f i t) = find? p t := by
  unfold find? modify
  induction t generalizing i with
  | nil => simp
  | cons o t ih =>
    cases i with
    | zero =>
      rw [modify_zero_cons,findIdx?_cons,findIdx?_cons]
      rcases o with _ | e
      · rfl
      · rw [show (some e).any p = p e from rfl,← h e rfl]
        rfl
    | succ i =>
      rw [modify_succ_cons,findIdx?_cons,findIdx?_cons,ih h]

lemma insert_spec {most grow : Nat} {e : α} (hgrow : 0 < grow)
    (h : insert most grow e t = some (i,t')) :
    get t i = none ∧ ∀ j, get t' j = if j = i then some e else get t j := by
  unfold insert at h
  dsimp only at h
  split at h
  · next hlt =>
    cases h
    refine ⟨?_,get_set _ hlt⟩
    have hnone := findIdx_getElem (w := hlt)
    rw [get,getElem?_eq_getElem hlt,Option.isNone_iff_eq_none.mp hnone]
    rfl
  next hge =>
  split at h
  · cases h
  · cases h
    have heq : t.findIdx _ = t.length := le_antisymm findIdx_le_length (not_lt.mp hge)
    refine ⟨?_,fun j => ?_⟩
    · rw [get,getElem?_eq_none (not_lt.mp hge)]
      rfl
    · have hlt : t.findIdx Option.isNone < (t ++ replicate grow none).length := by
        rw [heq,length_append,length_replicate]
        omega
      rw [get_set _ hlt j,get_append]

end Slots
