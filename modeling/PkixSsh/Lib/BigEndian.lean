import Mathlib.Data.List.Induction
import Mathlib.Tactic.Ring

/-!
# Big-endian numerals

Numbers written in a fixed number of bytes, most significant byte first.
-/

namespace BigEndian

open List

def encode : Nat → Nat → List UInt8
  | 0, _ => []
  | w + 1, n => encode w (n / 256) ++ [n.toUInt8]

def decode (bs : List UInt8) : Nat := bs.foldl (fun n b => n * 256 + b.toNat) 0

@[simp] lemma length_encode (w n : Nat) : (encode w n).length = w := by
  induction w generalizing n with
  | zero => rfl
  | succ w ih => simp [encode,ih]

lemma encode_succ (w n : Nat) : encode (w + 1) n = (n / 256 ^ w).toUInt8 :: encode w n := by
  induction w generalizing n with
  | zero => simp [encode]
  | succ w ih =>
    rw [encode,ih _,Nat.div_div_eq_div_mul,← pow_succ']
    rfl

lemma encode_add (a b n : Nat) : encode (a + b) n = encode a (n / 256 ^ b) ++ encode b n := by
  induction b generalizing n with
  | zero => simp [encode]
  | succ b ih =>
    rw [← Nat.add_assoc,encode,encode,ih _,Nat.div_div_eq_div_mul,← pow_succ',append_assoc]

lemma encode_mul_add (w v n : Nat) : encode w (256 ^ w * v + n) = encode w n := by
  induction w generalizing n with
  | zero => rfl
  | succ w ih =>
    have hdiv : (256 ^ (w + 1) * v + n) / 256 = 256 ^ w * v + n / 256 := by
      rw [pow_succ,Nat.mul_right_comm,Nat.mul_comm _ 256,Nat.mul_add_div (by decide)]
    have hmod : (256 ^ (w + 1) * v + n).toUInt8 = n.toUInt8 := by
      apply UInt8.toNat.inj
      simp only [Nat.toUInt8_eq,UInt8.toNat_ofNat']
      rw [pow_succ,Nat.mul_right_comm,Nat.mul_comm _ 256,Nat.mul_add_mod]
    rw [encode,encode,hdiv,ih,hmod]

@[simp] lemma decode_nil : decode [] = 0 := rfl

lemma decode_concat (bs : List UInt8) (b : UInt8) :
    decode (bs ++ [b]) = decode bs * 256 + b.toNat := by
  simp [decode]

lemma decode_append (as bs : List UInt8) :
    decode (as ++ bs) = decode as * 256 ^ bs.length + decode bs := by
  induction bs using List.reverseRecOn with
  | nil => simp
  | append_singleton bs b ih =>
    rw [← append_assoc,decode_concat,decode_concat,ih]
    simp only [length_append,length_singleton,pow_succ]
    ring

lemma decode_cons (b : UInt8) (bs : List UInt8) :
    decode (b :: bs) = b.toNat * 256 ^ bs.length + decode bs := by
  have h := decode_append [b] bs
  simpa [decode] using h

lemma decode_lt (bs : List UInt8) : decode bs < 256 ^ bs.length := by
  induction bs using List.reverseRecOn with
  | nil => simp
  | append_singleton bs b ih =>
    rw [decode_concat,length_append,length_singleton,pow_succ]
    have hb : b.toNat < 256 := b.toNat_lt
    omega

lemma decode_encode {w n : Nat} (h : n < 256 ^ w) : decode (encode w n) = n := by
  induction w generalizing n with
  | zero =>
    rw [pow_zero] at h
    simp [encode]
    omega
  | succ w ih =>
    rw [pow_succ] at h
    have hn : n / 256 < 256 ^ w := by omega
    rw [encode,decode_concat,ih hn]
    have hb : n.toUInt8.toNat = n % 256 := by simp
    rw [hb]
    omega

lemma encode_decode (bs : List UInt8) : encode bs.length (decode bs) = bs := by
  induction bs using List.reverseRecOn with
  | nil => rfl
  | append_singleton bs b ih =>
    have hb : b.toNat < 256 := b.toNat_lt
    have hq : (decode bs * 256 + b.toNat) / 256 = decode bs := by omega
    have hr : (decode bs * 256 + b.toNat).toUInt8 = b := by
      apply UInt8.toNat_inj.mp
      simp
    rw [length_append,length_singleton,encode,decode_concat,hq,hr,ih]

end BigEndian
