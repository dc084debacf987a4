import Mathlib.Data.Finset.Lattice.Fold
import Mathlib.Order.Lattice.Nat
import PkixSsh.Lib.Words
import PkixSsh.Libc

/-!
# Bitmaps

The bit array of `bitmap.c`, in words of 32 bits, as a number: the operations set and test
bits of it, and the two string functions write and read its bytes.
-/

namespace PkixSsh

open List Nat BigEndian

def bitmapMax : Nat := 2 ^ 24

/-- `struct bitmap`: its words and the position of the top word. The words above are
zero. -/
structure Bitmap where
  d : List Nat
  top : Nat
  words : ∀ x ∈ d, x < 2 ^ 32
  top_lt : top < d.length
  above : ∀ i, top < i → d.getD i 0 = 0

variable (b : Bitmap) (n : Nat)

def Bitmap.value : Nat := Words.value 32 b.d

variable {d : List Nat}

lemma Bitmap.getD_lt (h : ∀ x ∈ d, x < 2 ^ 32) (i : Nat) : d.getD i 0 < 2 ^ 32 := by
  by_cases hi : i < d.length
  · rw [getD_eq_getElem _ _ hi]
    exact h _ (getElem_mem hi)
  · rw [getD_eq_default _ _ (by omega)]
    decide

lemma Bitmap.modify_lt (h : ∀ x ∈ d, x < 2 ^ 32) {f : Nat → Nat}
    (hf : ∀ x, x < 2 ^ 32 → f x < 2 ^ 32) (i : Nat) : ∀ y ∈ d.modify i f, y < 2 ^ 32 := by
  intro y hy
  obtain ⟨j,hj,rfl⟩ := getElem_of_mem hy
  rw [getElem_modify]
  have hjd : j < d.length := by simpa using hj
  have hw := h _ (getElem_mem hjd)
  split
  · exact hf _ hw
  · exact hw

lemma Bitmap.zeros_lt (n : Nat) : ∀ x ∈ List.replicate n 0, x < 2 ^ 32 := by
  intro x hx
  rw [eq_of_mem_replicate hx]
  decide

lemma Bitmap.getD_modify_of_ne {i j : Nat} (f : Nat → Nat) (h : i ≠ j) :
    (d.modify i f).getD j 0 = d.getD j 0 := by
  simp [h]

def bitmapNew : Bitmap where
  d := [0]
  top := 0
  words := by decide
  top_lt := by decide
  above := by
    intro i hi
    exact getD_eq_default _ _ hi

def bitmapTestBit : Bool :=
  if b.top ≥ b.d.length then false
  else if b.d.length = 0 ∨ n / 32 > b.top then false
  else (b.d.getD (n / 32) 0).testBit (n % 32)

def Bitmap.reserve : Option {b : Bitmap // n / 32 < b.d.length} :=
  if b.top ≥ b.d.length ∨ n > bitmapMax then none
  else some ⟨{
    d := b.d ++ List.replicate (n / 32 + 1 - b.d.length) 0
    top := b.top
    words := forall_mem_append.mpr ⟨b.words,zeros_lt _⟩
    top_lt := by
      have := b.top_lt
      rw [length_append]
      omega
    above := by
      intro i hi
      by_cases hl : i < b.d.length
      · rw [getD_append _ _ _ _ hl]
        exact b.above i hi
      · rw [getD_append_right _ _ _ _ (by omega),getD_eq_getElem?_getD,List.getElem?_replicate]
        split <;> rfl },by
    rw [length_append,length_replicate]
    omega⟩

def bitmapSetBit : Option Bitmap :=
  (b.reserve n).map fun ⟨b,hn⟩ => {
    d := b.d.modify (n / 32) (· ||| 1 <<< (n % 32))
    top := if n / 32 > b.top then n / 32 else b.top
    words := by
      refine Bitmap.modify_lt b.words (fun x hx => or_lt_two_pow hx ?_) _
      rw [one_shiftLeft]
      exact Nat.pow_lt_pow_right (by decide) (Nat.mod_lt _ (by decide))
    top_lt := by
      have := b.top_lt
      rw [length_modify]
      split
      · exact hn
      · exact this
    above := by
      intro i hi
      have hle : n / 32 < i ∧ b.top < i := by
        split at hi
        · omega
        · omega
      rw [Bitmap.getD_modify_of_ne _ (by omega)]
      exact b.above i hle.2 }

def Bitmap.retopLoop (d : List Nat) : Nat → Nat
  | 0 => 0
  | t + 1 => if d.getD (t + 1) 0 = 0 then retopLoop d t else t + 1

lemma Bitmap.retopLoop_spec (d : List Nat) (t : Nat) :
    retopLoop d t ≤ t ∧ (∀ i, retopLoop d t < i → i ≤ t → d.getD i 0 = 0) ∧
      (retopLoop d t = 0 ∨ d.getD (retopLoop d t) 0 ≠ 0) := by
  induction t with
  | zero => exact ⟨le_refl 0,fun i h h' => absurd h (by omega),.inl rfl⟩
  | succ t ih =>
    rw [retopLoop]
    split
    · rename_i h0
      refine ⟨by omega,fun i hi hle => ?_,ih.2.2⟩
      by_cases he : i = t + 1
      · rw [he]
        exact h0
      · exact ih.2.1 i hi (by omega)
    · rename_i h0
      exact ⟨le_refl _,fun i hi hle => absurd hi (by omega),.inr h0⟩

def Bitmap.retop : Bitmap :=
  if b.top ≥ b.d.length then b
  else {
    d := b.d
    top := retopLoop b.d b.top
    words := b.words
    top_lt := lt_of_le_of_lt (retopLoop_spec b.d b.top).1 b.top_lt
    above := by
      intro i hi
      by_cases hle : i ≤ b.top
      · exact (retopLoop_spec b.d b.top).2.1 i hi hle
      · exact b.above i (by omega) }

def bitmapClearBit : Bitmap :=
  if b.top ≥ b.d.length ∨ n > bitmapMax then b
  else if h : n / 32 > b.top then b
  else Bitmap.retop {
    d := b.d.modify (n / 32) (· &&& ((2 ^ 32 - 1) ^^^ 1 <<< (n % 32)))
    top := b.top
    words := Bitmap.modify_lt b.words (fun _ hx => and_le_left.trans_lt hx) _
    top_lt := by
      rw [length_modify]
      exact b.top_lt
    above := by
      intro i hi
      rw [Bitmap.getD_modify_of_ne _ (by omega)]
      exact b.above i hi }

/-- The loop of `bitmap_nbits` that looks for the highest bit of a word. -/
def Bitmap.msbLoop : Nat → Nat → Nat → Nat
  | 0, _, bits => bits
  | fuel + 1, w, bits =>
    if w.testBit 31 then bits else msbLoop fuel ((w <<< 1) % 2 ^ 32) (bits - 1)

/-- `bitmap_nbits`. A word has at most 31 bits to be shifted out. -/
def bitmapNbits : Nat :=
  let b := b.retop
  if b.top ≥ b.d.length then 0
  else if b.d.length = 0 ∨ (b.top = 0 ∧ b.d.getD 0 0 = 0) then 0
  else Bitmap.msbLoop 32 (b.d.getD b.top 0) ((b.top + 1) * 32)

def bitmapNbytes : Nat := (bitmapNbits b + 7) / 8

def Bitmap.wordBytes (x : Nat) : Bytes :=
  (List.range 4).map fun j => ((x >>> (j * 8)) &&& 0xff).toUInt8

def bitmapToString (l : Nat) : Option Bytes :=
  let need := bitmapNbytes b
  let b := b.retop
  if l < need ∨ b.top ≥ b.d.length then none
  else some (((b.d.take (b.top + 1)).flatMap Bitmap.wordBytes).take need).reverse

def Bitmap.fromLoop : Bytes → Nat → Nat → List Nat → List Nat
  | [], _, _, d => d
  | c :: cs, offset, shift, d =>
    let d := d.modify offset (· ||| c.toNat <<< shift)
    if shift = 0 then fromLoop cs (offset - 1) (32 - 8) d else fromLoop cs offset (shift - 8) d

lemma Bitmap.shiftLeft_lt (c : UInt8) {shift : Nat} (hs : shift ≤ 24) :
    c.toNat <<< shift < 2 ^ 32 := by
  have hc : c.toNat < 2 ^ 8 := c.toNat_lt
  rw [shiftLeft_eq]
  calc c.toNat * 2 ^ shift < 2 ^ 8 * 2 ^ shift := mul_lt_mul_of_pos_right hc (by positivity)
    _ = 2 ^ (8 + shift) := by rw [pow_add]
    _ ≤ 2 ^ 32 := Nat.pow_le_pow_right (by decide) (by omega)

lemma Bitmap.fromLoop_spec (cs : Bytes) (offset : Nat) {shift : Nat}
    (hd : ∀ x ∈ d, x < 2 ^ 32) (hs : shift ≤ 24) : (fromLoop cs offset shift d).length = d.length ∧
      (∀ x ∈ fromLoop cs offset shift d, x < 2 ^ 32) ∧
      ∀ i, offset < i → (fromLoop cs offset shift d).getD i 0 = d.getD i 0 := by
  induction cs generalizing offset shift d with
  | nil => exact ⟨rfl,hd,fun _ _ => rfl⟩
  | cons c cs ih =>
    have hx := shiftLeft_lt c hs
    have hd' := modify_lt hd (fun y hy => or_lt_two_pow hy hx) offset
    rw [fromLoop]
    split
    · obtain ⟨hlen,hwords,habove⟩ := ih _ hd' (show 32 - 8 ≤ 24 by decide)
      refine ⟨by rw [hlen,length_modify],hwords,fun i hi => ?_⟩
      rw [habove i (by omega),getD_modify_of_ne _ (by omega)]
    · obtain ⟨hlen,hwords,habove⟩ := ih _ hd' (show shift - 8 ≤ 24 by omega)
      refine ⟨by rw [hlen,length_modify],hwords,fun i hi => ?_⟩
      rw [habove i (by omega),getD_modify_of_ne _ (by omega)]

def bitmapFromString (s : Bytes) : Option Bitmap :=
  if s.length > bitmapMax / 8 then none
  else
    (b.reserve (s.length * 8)).map fun ⟨b,hn⟩ =>
      let zero := List.replicate b.d.length 0
      let offset := (s.length + 3) / 4 - 1
      have hspec := Bitmap.fromLoop_spec s offset (Bitmap.zeros_lt b.d.length)
        (show (s.length + 3) % 4 * 8 ≤ 24 by omega)
      Bitmap.retop {
        d := Bitmap.fromLoop s offset ((s.length + 3) % 4 * 8) zero
        top := offset
        words := hspec.2.1
        top_lt := by
          rw [hspec.1,length_replicate]
          omega
        above := by
          intro i hi
          rw [hspec.2.2 i hi,getD_eq_getElem?_getD,List.getElem?_replicate]
          split <;> rfl }

namespace Bitmap

lemma testBit_value (b : Bitmap) (n : Nat) :
    b.value.testBit n = (b.d.getD (n / 32) 0).testBit (n % 32) :=
  Words.testBit_value (by decide) b.words n

lemma retop_spec (b : Bitmap) :
    b.retop.value = b.value ∧ (b.retop.top = 0 ∨ b.retop.d.getD b.retop.top 0 ≠ 0) := by
  rw [retop,if_neg (by have := b.top_lt; omega)]
  exact ⟨rfl,(retopLoop_spec b.d b.top).2.2⟩

lemma msbLoop_eq {w : Nat} (fuel bits : Nat) (hw : 0 < w) (hlt : w < 2 ^ 32)
    (hf : 32 ≤ w.size + fuel) (hb : 32 ≤ bits + w.size) :
    msbLoop fuel w bits + 32 = bits + w.size := by
  induction fuel generalizing w bits with
  | zero =>
    have hle := size_le.mpr hlt
    rw [msbLoop]
    omega
  | succ fuel ih =>
    have hle := size_le.mpr hlt
    rw [msbLoop]
    split
    · rename_i hbit
      have hsize := lt_size.mpr (ge_two_pow_of_testBit hbit)
      omega
    · rename_i hbit
      have hsmall : w < 2 ^ 31 := by
        by_contra hge
        exact hbit (testBit_of_two_pow_le_and_two_pow_add_one_gt (by omega) hlt)
      have hshift : w <<< 1 < 2 ^ 32 := by
        omega
      have hsize : (w <<< 1).size = w.size + 1 := size_shiftLeft (by omega) 1
      have hle' := size_le.mpr hsmall
      rw [mod_eq_of_lt hshift]
      have hrec := ih (bits - 1) (by rw [shiftLeft_eq]; omega) hshift (by omega) (by omega)
      omega

lemma wordBytes_eq (x : Nat) : wordBytes x = (encode 4 x).reverse := by
  have hbyte : ∀ y, (y &&& 0xff).toUInt8 = y.toUInt8 := by
    intro y
    have hmask : y &&& 0xff = y % 256 := Nat.and_two_pow_sub_one_eq_mod y 8
    rw [hmask]
    apply UInt8.toNat.inj
    simp
  have hshift : ∀ j, x >>> (8 * j) = x / 256 ^ j := by
    intro j
    rw [Nat.shiftRight_eq_div_pow,Nat.pow_mul]
  simp only [wordBytes,hbyte,encode]
  rw [show List.range 4 = [0,1,2,3] from rfl]
  simp only [Nat.mul_comm _ 8,hshift,Nat.div_div_eq_div_mul]
  norm_num

lemma value_take (b : Bitmap) : Words.value 32 (b.d.take (b.top + 1)) = b.value := by
  have hrest : b.d.drop (b.top + 1) = List.replicate (b.d.drop (b.top + 1)).length 0 := by
    rw [eq_replicate_iff]
    refine ⟨rfl,fun x hx => ?_⟩
    obtain ⟨i,hi,rfl⟩ := getElem_of_mem hx
    have ha := b.above (b.top + 1 + i) (by omega)
    rw [length_drop] at hi
    rw [getD_eq_getElem _ _ (by omega)] at ha
    rw [getElem_drop]
    exact ha
  rw [value]
  conv_rhs => rw [← take_append_drop _ b.d,hrest]
  rw [Words.value_append_zeros]

lemma value_fromLoop (cs : Bytes) (offset : Nat) {shift : Nat}
    (hd : ∀ x ∈ d, x < 2 ^ 32) (hs : shift ≤ 24) (ho : offset < d.length)
    (hpos : cs ≠ [] → offset * 32 + shift + 8 = 8 * cs.length) :
    Words.value 32 (fromLoop cs offset shift d) = Words.value 32 d ||| decode cs := by
  induction cs generalizing offset shift d with
  | nil => simp [fromLoop]
  | cons c cs ih =>
    have hp := hpos (by simp)
    rw [length_cons] at hp
    have hx := shiftLeft_lt c hs
    have hd' := modify_lt hd (fun y hy => Nat.or_lt_two_pow hy hx) offset
    have hlen : (d.modify offset (· ||| c.toNat <<< shift)).length = d.length := length_modify ..
    -- the byte is the top digit of what is left to read
    have hdigit : decode (c :: cs) =
        (c.toNat <<< shift) <<< (32 * offset) ||| decode cs := by
      have hlt : decode cs < 2 ^ (8 * cs.length) := by
        have := decode_lt cs
        rwa [Nat.pow_mul]
      rw [decode_cons,← Nat.shiftLeft_add,
        show shift + 32 * offset = 8 * cs.length by omega,
        ← Nat.shiftLeft_add_eq_or_of_lt hlt,Nat.shiftLeft_eq,Nat.pow_mul]
    have hvalue := Words.value_modify_or hd ho hx
    rw [fromLoop]
    split
    · rw [ih _ hd' (by decide) (by omega) (fun hne => ?_),hvalue,hdigit,Nat.or_assoc]
      have := length_pos_of_ne_nil hne
      omega
    · rw [ih _ hd' (by omega) (by omega) (fun hne => by omega),hvalue,hdigit,Nat.or_assoc]

end Bitmap

@[simp] lemma bitmapNew_value : bitmapNew.value = 0 := rfl

lemma bitmapTestBit_eq : bitmapTestBit b n = b.value.testBit n := by
  have htop := b.top_lt
  rw [bitmapTestBit,if_neg (by omega),b.testBit_value]
  split
  · rename_i h
    rcases h with h | h
    · omega
    · rw [b.above _ h,zero_testBit]
  · rfl

lemma bitmapSetBit_spec :
    if n ≤ bitmapMax then ∃ b', bitmapSetBit b n = some b' ∧ b'.value = b.value ||| 2 ^ n
    else bitmapSetBit b n = none := by
  have htop := b.top_lt
  by_cases hn : n ≤ bitmapMax
  · have hbit : 1 <<< (n % 32) < 2 ^ 32 := by
      rw [one_shiftLeft]
      exact Nat.pow_lt_pow_right (by decide) (Nat.mod_lt _ (by decide))
    rw [if_pos hn,bitmapSetBit,Bitmap.reserve,if_neg (by omega)]
    refine ⟨_,rfl,?_⟩
    have hmod := Words.value_modify_or (forall_mem_append.mpr
      ⟨b.words,Bitmap.zeros_lt (n / 32 + 1 - b.d.length)⟩) (i := n / 32)
      (by rw [length_append,length_replicate]; omega) hbit
    have hpow : 1 <<< (n % 32) <<< (32 * (n / 32)) = 2 ^ n := by
      rw [← shiftLeft_add,mod_add_div,one_shiftLeft]
    rw [Words.value_append_zeros,hpow] at hmod
    exact hmod
  · rw [if_neg hn,bitmapSetBit,Bitmap.reserve,if_pos (by omega)]
    rfl

lemma bitmapNbits_eq : bitmapNbits b = b.value.size := by
  obtain ⟨hvalue,htop⟩ := b.retop_spec
  have hlt := b.retop.top_lt
  rw [← hvalue,bitmapNbits,if_neg (by omega)]
  by_cases h0 : b.retop.top = 0 ∧ b.retop.d.getD 0 0 = 0
  · rw [if_pos (.inr h0)]
    have hzero : b.retop.value = 0 := by
      apply eq_of_testBit_eq
      intro i
      rw [Bitmap.testBit_value,zero_testBit]
      by_cases hi : i / 32 = 0
      · rw [hi,h0.2,zero_testBit]
      · rw [b.retop.above _ (by omega),zero_testBit]
    rw [hzero,size_zero]
  · have hne : b.retop.d.getD b.retop.top 0 ≠ 0 := by
      rcases htop with h | h
      · rw [h]
        exact fun hd => h0 ⟨h,hd⟩
      · exact h
    have hsome : ¬ (b.retop.d.length = 0 ∨ b.retop.top = 0 ∧ b.retop.d.getD 0 0 = 0) := by
      rintro (h | h)
      · omega
      · exact h0 h
    rw [if_neg hsome]
    have hsize := Words.size_value (by decide) b.retop.words hne b.retop.above
    have hword := Bitmap.getD_lt b.retop.words b.retop.top
    have hmsb := Bitmap.msbLoop_eq 32 ((b.retop.top + 1) * 32) (pos_of_ne_zero hne) hword
      (by omega) (by omega)
    rw [Bitmap.value]
    omega

lemma bitmapToString_eq :
    bitmapToString b (bitmapNbytes b) = some (encode (bitmapNbytes b) b.value) := by
  obtain ⟨hvalue,-⟩ := b.retop_spec
  have hlt := b.retop.top_lt
  have hneed : bitmapNbytes b ≤ 4 * (b.retop.top + 1) := by
    have hsize : b.retop.value.size ≤ 32 * (b.retop.top + 1) := by
      rw [size_le,← b.retop.value_take]
      have hw := Words.value_lt fun x hx =>
        b.retop.words x (mem_of_mem_take (i := b.retop.top + 1) hx)
      rwa [length_take,min_eq_left (by omega)] at hw
    rw [hvalue,← bitmapNbits_eq] at hsize
    rw [bitmapNbytes]
    omega
  have hbytes : ((b.retop.d.take (b.retop.top + 1)).flatMap Bitmap.wordBytes).reverse =
      encode (4 * (b.retop.top + 1)) b.value := by
    have hword : Bitmap.wordBytes = fun x => (encode 4 x).reverse :=
      funext Bitmap.wordBytes_eq
    have henc := Words.encode_value fun x hx =>
      b.retop.words x (mem_of_mem_take (i := b.retop.top + 1) hx)
    rw [length_take,min_eq_left (by omega),b.retop.value_take,hvalue] at henc
    rw [henc,hword,reverse_flatMap]
    simp [Function.comp_def]
  rw [bitmapToString,if_neg (by omega),reverse_take,hbytes]
  have hlen : ((b.retop.d.take (b.retop.top + 1)).flatMap Bitmap.wordBytes).length =
      4 * (b.retop.top + 1) := by
    rw [← length_reverse,hbytes,length_encode]
  obtain ⟨k,hk⟩ := Nat.exists_eq_add_of_le hneed
  rw [hlen,hk,Nat.add_comm,Nat.add_sub_cancel,encode_add,drop_left' (length_encode _ _)]

lemma bitmapFromString_spec {s : Bytes} (h : s.length ≤ bitmapMax / 8) :
    ∃ b', bitmapFromString b s = some b' ∧ b'.value = decode s := by
  have htop := b.top_lt
  rw [bitmapFromString,if_neg (by omega),Bitmap.reserve,if_neg (by omega)]
  refine ⟨_,rfl,?_⟩
  rw [(Bitmap.retop_spec _).1]
  have hvalue := Bitmap.value_fromLoop s ((s.length + 3) / 4 - 1)
    (Bitmap.zeros_lt (b.d ++ List.replicate (s.length * 8 / 32 + 1 - b.d.length) 0).length)
    (show (s.length + 3) % 4 * 8 ≤ 24 by omega)
    (by rw [length_replicate,length_append,length_replicate]; omega)
    (fun hne => by
      have := length_pos_of_ne_nil hne
      omega)
  have hnil : Words.value 32 (List.replicate
      (b.d ++ List.replicate (s.length * 8 / 32 + 1 - b.d.length) 0).length 0) = 0 := by
    have := Words.value_append_zeros 32
      (b.d ++ List.replicate (s.length * 8 / 32 + 1 - b.d.length) 0).length []
    rwa [nil_append] at this
  rw [hnil,zero_or] at hvalue
  exact hvalue

lemma bitmapClearBit_spec (hb : b.value.testBit n → n ≤ bitmapMax) (m : Nat) :
    (bitmapClearBit b n).value.testBit m = (b.value.testBit m && m ≠ n) := by
  have hsame : b.value.testBit n = false → b.value.testBit m = (b.value.testBit m && m ≠ n) := by
    intro h
    by_cases hm : m = n
    · simp [hm,h]
    · simp [hm]
  have htop := b.top_lt
  rw [bitmapClearBit]
  split
  · exact hsame (by by_contra h; have := hb (by simpa using h); omega)
  split
  · next h =>
    refine hsame ?_
    rw [b.testBit_value,b.above _ h,zero_testBit]
  · rw [(Bitmap.retop_spec _).1,Bitmap.testBit_value,Bitmap.testBit_value]
    dsimp only
    by_cases hi : n / 32 = m / 32
    · rw [hi,getD_eq_getElem?_getD,List.getElem?_modify,getD_eq_getElem?_getD]
      cases b.d[m / 32]? with
      | none => simp
      | some x =>
        have hm : m % 32 < 32 := mod_lt _ (by decide)
        have hne : n % 32 = m % 32 ↔ m = n := by omega
        simp only [if_true,Option.map_eq_map,Option.map_some,Option.getD_some]
        rw [testBit_and,testBit_xor,testBit_two_pow_sub_one,decide_eq_true hm,
          one_shiftLeft,testBit_two_pow]
        simp [hne]
    · rw [Bitmap.getD_modify_of_ne _ hi]
      have hne : m ≠ n := by
        rintro rfl
        exact hi rfl
      simp [hne]

/-- The bitmap is written and read back into another one, with the same members. -/
def Bitmap.ReadsBack : Prop := ∀ b0, ∃ s b', bitmapToString b (bitmapNbytes b) = some s ∧
  bitmapFromString b0 s = some b' ∧ ∀ n, bitmapTestBit b' n = bitmapTestBit b n

lemma readsBack_iff (hb : ∀ n, b.value.testBit n → n ≤ bitmapMax) :
    b.ReadsBack ↔ b.value.testBit bitmapMax = false := by
  have hmax : bitmapMax = 2 ^ 24 := rfl
  have hbytes : bitmapNbytes b = (b.value.size + 7) / 8 := by rw [bitmapNbytes,bitmapNbits_eq]
  constructor
  · intro h
    obtain ⟨s,b',hs,hb',-⟩ := h b
    by_contra hset
    have hsize := lt_size.mpr (ge_two_pow_of_testBit (by simpa using hset))
    rw [bitmapToString_eq] at hs
    cases hs
    rw [bitmapFromString,if_pos (by rw [length_encode]; omega)] at hb'
    cases hb'
  · intro h b0
    have hsize : b.value.size ≤ bitmapMax := by
      refine size_le.mpr (lt_pow_two_of_testBit _ fun i hi => ?_)
      by_contra hset
      have hle := hb i (by simpa using hset)
      rw [show i = bitmapMax by omega,h] at hset
      exact hset rfl
    obtain ⟨b',hb',hvalue⟩ := bitmapFromString_spec b0
      (s := encode (bitmapNbytes b) b.value) (by rw [length_encode]; omega)
    refine ⟨_,b',bitmapToString_eq b,hb',fun n => ?_⟩
    have hlt : b.value < 256 ^ bitmapNbytes b := by
      rw [show 256 = 2 ^ 8 from rfl,← pow_mul]
      exact size_le.mp (by omega)
    rw [bitmapTestBit_eq,bitmapTestBit_eq,hvalue,decode_encode hlt]

inductive BitOp where
  | set (n : Nat)
  | clear (n : Nat)

def BitOp.apply : BitOp → Option Bitmap
  | .set n => bitmapSetBit b n
  | .clear n => some (bitmapClearBit b n)

def BitOp.members (s : Finset Nat) : BitOp → Finset Nat
  | .set n => insert n s
  | .clear n => s.erase n

/-- The bits are the members, none of them too large. -/
structure Bitmap.Shows (s : Finset Nat) : Prop where
  bits : ∀ n, b.value.testBit n = decide (n ∈ s)
  bound : ∀ n ∈ s, n ≤ bitmapMax

lemma Bitmap.Shows.apply {b b' : Bitmap} {s : Finset Nat} {op : BitOp} (hb : b.Shows s)
    (h : op.apply b = some b') : b'.Shows (op.members s) := by
  cases op with
  | set n =>
    have hspec := bitmapSetBit_spec b n
    split at hspec
    · next hn =>
      obtain ⟨_,hset,hvalue⟩ := hspec
      cases hset.symm.trans h
      refine ⟨fun m => ?_,fun m hm => ?_⟩
      · rw [hvalue,testBit_or,hb.bits,testBit_two_pow,Bool.eq_iff_iff]
        simp [BitOp.members,eq_comm (a := n),or_comm]
      · rcases Finset.mem_insert.mp hm with rfl | hm
        · exact hn
        · exact hb.bound m hm
    · cases hspec.symm.trans h
  | clear n =>
    cases h
    refine ⟨fun m => ?_,fun m hm => hb.bound m (Finset.mem_of_mem_erase hm)⟩
    rw [bitmapClearBit_spec b n fun hn => hb.bound n (by simpa [hb.bits] using hn),hb.bits,
      Bool.eq_iff_iff]
    simp [BitOp.members,and_comm]

lemma Bitmap.Shows.run {b b' : Bitmap} {s : Finset Nat} {ops : List BitOp} (hb : b.Shows s)
    (h : ops.foldlM BitOp.apply b = some b') : b'.Shows (ops.foldl BitOp.members s) := by
  induction ops generalizing b s with
  | nil =>
    cases h
    exact hb
  | cons op ops ih =>
    obtain ⟨b1,hb1,h⟩ := Option.bind_eq_some_iff.mp h
    exact ih (hb.apply hb1) h

lemma Bitmap.Shows.size {b : Bitmap} {s : Finset Nat} (hb : b.Shows s) :
    b.value.size = s.sup succ := by
  refine eq_of_forall_ge_iff fun k => ?_
  rw [size_le,Finset.sup_le_iff]
  constructor
  · intro h n hn
    by_contra hk
    have hbit :=
      Nat.testBit_lt_two_pow (h.trans_le (Nat.pow_le_pow_right (by decide) (not_lt.mp hk)))
    rw [hb.bits n,decide_eq_false_iff_not] at hbit
    exact hbit hn
  · intro h
    refine lt_pow_two_of_testBit _ fun i hi => ?_
    rw [hb.bits,decide_eq_false_iff_not]
    intro hmem
    have := h i hmem
    omega

lemma bitmapNew_shows : bitmapNew.Shows ∅ := ⟨by simp,by simp⟩

/-- A bitmap is a finite set of numbers, and is read back unless the largest number that
`bitmap_set_bit` takes is a member. -/
theorem bitmap_members {ops : List BitOp} (h : ops.foldlM BitOp.apply bitmapNew = some b) :
    (∀ n, bitmapTestBit b n = decide (n ∈ ops.foldl BitOp.members ∅)) ∧
      bitmapNbits b = (ops.foldl BitOp.members ∅).sup succ ∧
      (b.ReadsBack ↔ bitmapMax ∉ ops.foldl BitOp.members ∅) := by
  have hb := bitmapNew_shows.run h
  refine ⟨fun n => ?_,?_,?_⟩
  · rw [bitmapTestBit_eq,hb.bits]
  · rw [bitmapNbits_eq,hb.size]
  · rw [readsBack_iff b fun n hn => hb.bound n (by simpa [hb.bits] using hn),hb.bits]
    simp

theorem bitmap_members_clear :
    ∃ b, [BitOp.set 3,.set 40,.clear 40].foldlM BitOp.apply bitmapNew = some b ∧
      bitmapNbits b = 4 ∧ b.ReadsBack := by
  have h : [BitOp.set 3,.set 40,.clear 40].foldlM BitOp.apply bitmapNew = some _ := rfl
  obtain ⟨-,hn,hr⟩ := bitmap_members _ h
  exact ⟨_,h,hn,hr.mpr (by decide)⟩

/-- The largest number is written in one byte more than are read. -/
theorem bitmap_largest_member :
    ∃ b, [BitOp.set bitmapMax].foldlM BitOp.apply bitmapNew = some b ∧ ¬ b.ReadsBack := by
  have hspec := bitmapSetBit_spec bitmapNew bitmapMax
  obtain ⟨b,hset,-⟩ := hspec
  have happly : BitOp.apply _ (.set _) = some b := hset
  have hb := bitmapNew_shows.apply happly
  refine ⟨b,by rw [foldlM_cons,happly]; rfl,fun hr => ?_⟩
  rw [readsBack_iff b fun n hn => hb.bound n (by simpa [hb.bits] using hn),hb.bits] at hr
  simp [BitOp.members] at hr

end PkixSsh
