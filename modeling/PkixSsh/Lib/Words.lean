import Mathlib.Data.List.GetD
import Mathlib.Data.Nat.Digits.Defs
import Mathlib.Data.Nat.Size
import PkixSsh.Lib.BigEndian

/-!
# Numbers in words

A number kept as a list of words of `w` bits, least significant word first: its bits, its
length in bits and its bytes, by word.
-/

namespace Words

open List Nat

def value (w : Nat) (ws : List Nat) : Nat := ofDigits (2 ^ w) ws

@[simp] lemma value_nil (w : Nat) : value w [] = 0 := rfl

lemma value_cons (w x : Nat) : value w (x :: ws) = 2 ^ w * value w ws + x := by
  rw [value,ofDigits_cons,add_comm]
  rfl

lemma value_append_zeros (w k : Nat) (ws : List Nat) :
    value w (ws ++ List.replicate k 0) = value w ws :=
  ofDigits_append_replicate_zero ws

variable {w : Nat} {ws : List Nat}

lemma testBit_value (hw : 0 < w) (h : ∀ x ∈ ws, x < 2 ^ w) (n : Nat) :
    (value w ws).testBit n = (ws.getD (n / w) 0).testBit (n % w) := by
  induction ws generalizing n with
  | nil => simp
  | cons x ws ih =>
    rw [value_cons,testBit_two_pow_mul_add _ (h x (by simp))]
    by_cases hn : n < w
    · rw [if_pos hn,div_eq_of_lt hn,mod_eq_of_lt hn]
      rfl
    · have hdiv : n / w = (n - w) / w + 1 := by
        rw [← Nat.add_div_right _ hw,Nat.sub_add_cancel (by omega)]
      have hmod : (n - w) % w = n % w := (mod_eq_sub_mod (by omega)).symm
      rw [if_neg hn,ih (fun y hy => h y (mem_cons_of_mem _ hy)),hdiv,hmod]
      rfl

lemma value_modify_or (h : ∀ x ∈ ws, x < 2 ^ w) {i x : Nat} (hi : i < ws.length)
    (hx : x < 2 ^ w) : value w (ws.modify i (· ||| x)) = value w ws ||| x <<< (w * i) := by
  induction ws generalizing i with
  | nil => simp at hi
  | cons y ws ih =>
    have hy := h y (by simp)
    cases i with
    | zero =>
      rw [modify_zero_cons,value_cons,value_cons,mul_zero,shiftLeft_zero,
        two_pow_add_eq_or_of_lt (or_lt_two_pow hy hx),two_pow_add_eq_or_of_lt hy,
        Nat.or_assoc]
    | succ i =>
      have hrec := ih (fun z hz => h z (mem_cons_of_mem _ hz)) (by simpa using hi)
      rw [modify_succ_cons,value_cons,value_cons,hrec,two_pow_add_eq_or_of_lt hy,
        two_pow_add_eq_or_of_lt hy,mul_comm _,mul_comm (2 ^ w),
        ← shiftLeft_eq,← shiftLeft_eq,shiftLeft_or_distrib,← shiftLeft_add,
        ← Nat.mul_succ,Nat.or_assoc,Nat.or_comm _ y,← Nat.or_assoc]

lemma value_lt (h : ∀ x ∈ ws, x < 2 ^ w) : value w ws < 2 ^ (w * ws.length) := by
  induction ws with
  | nil => simp
  | cons x ws ih =>
    have hx := h x (by simp)
    have hws := ih fun y hy => h y (mem_cons_of_mem _ hy)
    rw [value_cons,length_cons,mul_succ,add_comm (w * _),pow_add]
    calc 2 ^ w * value w ws + x < 2 ^ w * value w ws + 2 ^ w := by omega
      _ = 2 ^ w * (value w ws + 1) := by rw [mul_succ]
      _ ≤ 2 ^ w * 2 ^ (w * ws.length) := mul_le_mul_left _ hws

lemma size_value (hw : 0 < w) (h : ∀ x ∈ ws, x < 2 ^ w) {i : Nat}
    (hi : ws.getD i 0 ≠ 0) (habove : ∀ j, i < j → ws.getD j 0 = 0) :
    (value w ws).size = w * i + (ws.getD i 0).size := by
  have hpos : 0 < (ws.getD i 0).size := size_pos.mpr (pos_of_ne_zero hi)
  have hlt : ws.getD i 0 < 2 ^ w := by
    by_cases hl : i < ws.length
    · rw [getD_eq_getElem _ _ hl]
      exact h _ (getElem_mem hl)
    · rw [getD_eq_default _ _ (by omega)]
      positivity
  have hsize : (ws.getD i 0).size ≤ w := size_le.mpr hlt
  apply le_antisymm
  · rw [size_le]
    apply lt_pow_two_of_testBit
    intro n hn
    rw [testBit_value hw h]
    have hdiv : i ≤ n / w := by
      rw [le_div_iff_mul_le hw,mul_comm]
      omega
    rcases lt_or_eq_of_le hdiv with hd | hd
    · rw [habove _ hd,zero_testBit]
    · rw [← hd]
      apply testBit_lt_two_pow
      apply lt_of_lt_of_le (lt_size_self _)
      apply Nat.pow_le_pow_right (by decide)
      have := Nat.div_add_mod n w
      rw [← hd] at this
      omega
  · obtain ⟨s,hs⟩ := exists_eq_succ_of_ne_zero hpos.ne'
    have hbit : (ws.getD i 0).testBit s = true := by
      obtain ⟨j,hj,hbit⟩ :=
        exists_ge_and_testBit_of_ge_two_pow (lt_size.mp (show s < (ws.getD i 0).size by omega))
      have hlt := lt_size.mpr (ge_two_pow_of_testBit hbit)
      have he : j = s := by omega
      rwa [he] at hbit
    have hn : (value w ws).testBit (w * i + s) = true := by
      rw [testBit_value hw h,mul_add_div hw,div_eq_of_lt (by omega),add_zero,
        mul_add_mod,mod_eq_of_lt (by omega)]
      exact hbit
    have hge := ge_two_pow_of_testBit hn
    have := lt_size.mpr hge
    omega

lemma encode_value {ws : List Nat} (h : ∀ x ∈ ws, x < 2 ^ 32) :
    BigEndian.encode (4 * ws.length) (value 32 ws) = ws.reverse.flatMap (BigEndian.encode 4) := by
  induction ws with
  | nil => rfl
  | cons x ws ih =>
    have hx : x < 256 ^ 4 := h x (by simp)
    have hrest := ih fun y hy => h y (mem_cons_of_mem _ hy)
    have hpow : 2 ^ 32 = 256 ^ 4 := by decide
    rw [length_cons,mul_succ,BigEndian.encode_add,value_cons,hpow,
      BigEndian.encode_mul_add,mul_add_div (by decide),div_eq_of_lt hx,add_zero,
      hrest,reverse_cons,flatMap_append]
    simp

end Words
