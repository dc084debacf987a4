import Mathlib.Data.List.Basic

/-!
# First matches in a list

The first element with a property and its position, the search behind a position, and the loop of
such searches.
-/

namespace PkixSsh.FirstMatch

open List

variable {α : Type}

/-- The first element with the property, with its position counted from `k`. -/
def scan (p : α → Bool) : Nat → List α → Option (Nat × α)
  | _, [] => none
  | k, a :: rest => if p a then some (k,a) else scan p (k + 1) rest

def start : Option Nat → Nat
  | none => 0
  | some loc => loc + 1

def next (l : List α) (p : α → Bool) (loc : Option Nat) : Option (Nat × α) :=
  scan p (start loc) (l.drop (start loc))

/-- The search is continued until an element is found suitable. -/
def searchUntil (ind : Option Nat → Option (Nat × α)) (found : α → Bool) :
    Nat → Option Nat → Option (Nat × α)
  | 0, _ => none
  | fuel + 1, loc =>
    match ind loc with
    | none => none
    | some (k,a) => if found a then some (k,a) else searchUntil ind found fuel (some k)

variable {p : α → Bool}

lemma scan_none {k : Nat} {l : List α} (h : scan p k l = none) : ∀ a ∈ l, p a = false := by
  induction l generalizing k with
  | nil => simp
  | cons a rest ih =>
    rw [scan] at h
    by_cases ha : p a
    · rw [if_pos ha] at h
      cases h
    · rw [if_neg ha] at h
      intro b hb
      rcases mem_cons.mp hb with rfl | hb
      · simpa using ha
      · exact ih h b hb

lemma scan_some {k j : Nat} {l : List α} {a : α} (h : scan p k l = some (j,a)) :
    ∃ pre post, l = pre ++ a :: post ∧ j = k + pre.length ∧ p a = true ∧
      ∀ b ∈ pre, p b = false := by
  induction l generalizing k with
  | nil => simp [scan] at h
  | cons b rest ih =>
    rw [scan] at h
    by_cases hb : p b
    · rw [if_pos hb] at h
      cases h
      exact ⟨[],rest,rfl,rfl,hb,by simp⟩
    · rw [if_neg hb] at h
      obtain ⟨pre,post,rfl,hj,ha,hpre⟩ := ih h
      refine ⟨b :: pre,post,rfl,?_,ha,?_⟩
      · rw [hj,length_cons]
        omega
      · intro c hc
        rcases mem_cons.mp hc with rfl | hc
        · simpa using hb
        · exact hpre c hc

lemma scan_append (p : α → Bool) (k : Nat) (pre : List α) (a : α) (post : List α)
    (ha : p a = true) (hpre : ∀ b ∈ pre, p b = false) :
    scan p k (pre ++ a :: post) = some (k + pre.length,a) := by
  induction pre generalizing k with
  | nil => simp [scan,ha]
  | cons b pre ih =>
    have hb : p b = false := hpre b (by simp)
    rw [cons_append,scan,if_neg (by simp [hb]),ih _ fun c hc => hpre c (mem_cons_of_mem _ hc)]
    rw [length_cons,Nat.add_assoc,Nat.add_comm 1]

lemma scan_map_snd (p : α → Bool) (k : Nat) (l : List α) :
    (scan p k l).map Prod.snd = l.find? p := by
  induction l generalizing k with
  | nil => rfl
  | cons a rest ih =>
    by_cases ha : p a
    · rw [scan,if_pos ha,List.find?_cons_of_pos ha]
      rfl
    · rw [scan,if_neg ha,List.find?_cons_of_neg ha]
      exact ih _

/-- The loop finds the first suitable element, if it has a step for every element. -/
lemma searchUntil_eq (l : List α) (p found : α → Bool) (fuel : Nat) (loc : Option Nat)
    (hf : l.length < fuel + start loc) : (searchUntil (next l p) found fuel loc).map Prod.snd =
      (l.drop (start loc)).find? fun a => p a && found a := by
  induction fuel generalizing loc with
  | zero =>
    have hd : l.drop (start loc) = [] := drop_eq_nil_of_le (by omega)
    rw [hd]
    rfl
  | succ fuel ih =>
    rw [searchUntil]
    cases hn : next l p loc with
    | none =>
      have hall := scan_none hn
      symm
      apply List.find?_eq_none.mpr
      intro a ha
      simp [hall a ha]
    | some ka =>
      obtain ⟨k,a⟩ := ka
      obtain ⟨pre,post,hl,hk,ha,hpre⟩ := scan_some hn
      have hskip : pre.find? (fun a => p a && found a) = none := by
        apply List.find?_eq_none.mpr
        intro b hb
        simp [hpre b hb]
      rw [hl,List.find?_append,hskip,Option.none_or]
      by_cases hfa : found a
      · simp [hfa,ha]
      · -- the loop goes on with what follows the unsuitable element
        have hpost : l.drop (k + 1) = post := by
          have hd : l.drop (k + 1) = (l.drop (start loc)).drop (pre.length + 1) := by
            rw [drop_drop,hk,Nat.add_assoc]
          rw [hd,hl]
          simp
        have hi := ih (some k) (by simp only [start]; omega)
        simp only [start] at hi
        change Option.map _ (if found a then some (k,a)
          else searchUntil _ found fuel _) = _
        rw [if_neg hfa,hi,hpost,List.find?_cons_of_neg (by simp [hfa])]

lemma first_eq_of_both {l : List α} {q : α → Bool} {a b : α} (ha : l.find? p = some a)
    (hb : l.find? q = some b) (hpb : p b = true) (hqa : q a = true) : a = b := by
  induction l with
  | nil => cases ha
  | cons c l ih =>
    rw [List.find?_cons] at ha hb
    cases hp : p c with
    | true =>
      rw [hp] at ha
      cases ha
      rw [hqa] at hb
      cases hb
      rfl
    | false =>
      rw [hp] at ha
      cases hq : q c with
      | true =>
        rw [hq] at hb
        cases hb
        rw [hpb] at hp
        cases hp
      | false =>
        rw [hq] at hb
        exact ih ha hb

end PkixSsh.FirstMatch
