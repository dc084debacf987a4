import Mathlib.Data.List.TakeWhile
import PkixSsh.Lib.BigEndian
import PkixSsh.Libc

/-!
# Buffers and their typed fields

A buffer is the list of its visible bytes; reads and writes fail with a code of `ssherr.h`. All
buffers come from `sshbuf_new` and so may hold `SSHBUF_SIZE_MAX` bytes.
-/

namespace PkixSsh

open List BigEndian Except

def sshbufSizeMax : Nat := 0x8000000

def sshbufMaxBignum : Nat := 16384 / 8

namespace Sshbuf

/-- A typed read: the value and the rest of the buffer. -/
abbrev Get (α : Type) := Bytes → Except SshErr (α × Bytes)

def get (len : Nat) : Get Bytes := fun buf =>
  if len > buf.length then .error .messageIncomplete else .ok (buf.take len,buf.drop len)

def getU8 : Get UInt8
  | [] => .error .messageIncomplete
  | b :: rest => .ok (b,rest)

/-- The unsigned integer reads `sshbuf_get_u32` and `sshbuf_get_u64`, by their width. -/
def getUint (width : Nat) : Get Nat := fun buf => do
  let (bs,rest) ← get width buf
  return (decode bs,rest)

def getU32 : Get Nat := getUint 4

def getU64 : Get Nat := getUint 8

def peekStringDirect (buf : Bytes) : Except SshErr Bytes :=
  if buf.length < 4 then .error .messageIncomplete
  else
    let len := decode (buf.take 4)
    if len > sshbufSizeMax - 4 then .error .stringTooLarge
    else if buf.length - 4 < len then .error .messageIncomplete
    else .ok ((buf.drop 4).take len)

/-- `sshbuf_get_string`, `sshbuf_get_string_direct` and `sshbuf_froms`, which differ in
who owns the bytes they return. -/
def getString : Get Bytes := fun buf => do
  let val ← peekStringDirect buf
  return (val,buf.drop (val.length + 4))

/-- The C string a buffer with a final NUL is read as. -/
def untilNul (s : Bytes) : Bytes := s.takeWhile (· ≠ 0)

/-- `sshbuf_get_cstring`. A NUL is accepted as the last byte only; the value is what the
callers see of the returned pointer. -/
def getCstring : Get Bytes := fun buf => do
  let val ← peekStringDirect buf
  if 0 ∈ val.dropLast then .error .invalidFormat
  else return (untilNul val,buf.drop (val.length + 4))

def getBignum2BytesDirect : Get Bytes := fun buf => do
  let d ← peekStringDirect buf
  if d.head?.any (· ≥ 0x80) then .error .bignumIsNegative
  else if d.length > sshbufMaxBignum + 1 ∨
      (d.length = sshbufMaxBignum + 1 ∧ d.head? ≠ some 0) then .error .bignumTooLarge
  else return (d.dropWhile (· = 0),buf.drop (d.length + 4))

def untilEmptyLoop {σ : Type} (step : σ → Get σ) : Nat → σ → Bytes → Except SshErr σ
  | _, s, [] => .ok s
  | 0, _, _ => .error .internalError
  | n + 1, s, buf => do
    let (s,buf) ← step s buf
    untilEmptyLoop step n s buf

/-- A loop `while (sshbuf_len(buf) > 0)` around reads. Every step reads a byte at least. -/
def untilEmpty {σ : Type} (step : σ → Get σ) (s : σ) (buf : Bytes) : Except SshErr σ :=
  untilEmptyLoop step buf.length s buf

def put (v buf : Bytes) : Except SshErr Bytes :=
  if v.length > sshbufSizeMax ∨ sshbufSizeMax - v.length < buf.length then .error .noBufferSpace
  else .ok (buf ++ v)

def putU8 (val : UInt8) (buf : Bytes) : Except SshErr Bytes := put [val] buf

def putU32 (val : Nat) (buf : Bytes) : Except SshErr Bytes := put (encode 4 val) buf

def putU64 (val : Nat) (buf : Bytes) : Except SshErr Bytes := put (encode 8 val) buf

def framed (v : Bytes) : Bytes := encode 4 v.length ++ v

/-- `sshbuf_put_string`, `sshbuf_put_cstring` and `sshbuf_put_stringb`. -/
def putString (v buf : Bytes) : Except SshErr Bytes :=
  if v.length > sshbufSizeMax - 4 then .error .noBufferSpace else put (framed v) buf

/-- The digits of a big number, with a zero byte before a set sign bit. -/
def bignumBytes (v : Bytes) : Bytes :=
  let s := v.dropWhile (· = 0)
  if s.head?.any (· ≥ 0x80) then 0 :: s else s

def putBignum2Bytes (v buf : Bytes) : Except SshErr Bytes :=
  if v.length > sshbufSizeMax - 5 then .error .noBufferSpace
  else put (framed (bignumBytes v)) buf

variable {α β ε ι σ : Type} {n : Nat} {b buf r rest v : Bytes} {xs : List ι} {s : σ}
  {step : σ → Get σ}

lemma bind_eq_ok {x : Except ε α} {f : α → Except ε β} {b : β} :
    (x >>= f) = .ok b ↔ ∃ a, x = .ok a ∧ f a = .ok b := by
  cases x <;> simp [bind,Except.bind]

lemma exists_ok {x : Except ε α} (h : x.isOk = true) : ∃ a, x = .ok a := by
  cases x with
  | error e => cases h
  | ok a => exact ⟨a,rfl⟩

lemma ite_error_eq_ok {c : Prop} [Decidable c] {e : ε} {x : Except ε α} {a : α} :
    (if c then .error e else x) = .ok a ↔ ¬ c ∧ x = .ok a := by
  by_cases h : c <;> simp [h]

@[simp] lemma ok_bind (a : α) (f : α → Except ε β) : ((.ok a) >>= f) = f a := rfl

@[simp] lemma error_bind (e : ε) (f : α → Except ε β) :
    ((.error e) >>= f) = .error e := rfl

@[simp] lemma pure_eq_ok (a : α) : (pure a : Except ε α) = .ok a := rfl

lemma foldlM_congr {f g : σ → ι → Except ε σ} (h : ∀ x ∈ xs, ∀ s, f s x = g s x) (s : σ) :
    xs.foldlM f s = xs.foldlM g s := by
  induction xs generalizing s with
  | nil => rfl
  | cons x xs ih =>
    rw [foldlM_cons,foldlM_cons,h x mem_cons_self]
    cases g s x with
    | error e => rfl
    | ok s' => exact ih (fun y hy => h y (mem_cons_of_mem _ hy)) s'

lemma foldlM_ok_mem {f : σ → ι → Except ε σ} {s' : σ} (h : xs.foldlM f s = .ok s') :
    ∀ x ∈ xs, ∃ t t', f t x = .ok t' := by
  induction xs generalizing s with
  | nil => exact nofun
  | cons x xs ih =>
    obtain ⟨t,ht,h⟩ := bind_eq_ok.mp h
    intro y hy
    rcases mem_cons.mp hy with rfl | hy
    · exact ⟨s,t,ht⟩
    · exact ih h y hy

lemma get_append (v rest : Bytes) : get v.length (v ++ rest) = .ok (v,rest) := by
  simp [get]

lemma getUint_encode {width : Nat} (h : n < 256 ^ width) (rest : Bytes) :
    getUint width (encode width n ++ rest) = .ok (n,rest) := by
  have hg := get_append (encode width n) rest
  rw [length_encode] at hg
  simp [getUint,hg,decode_encode h]

@[simp] lemma length_framed (v : Bytes) : (framed v).length = v.length + 4 := by
  simp [framed,Nat.add_comm]

lemma peekStringDirect_framed (h : v.length ≤ sshbufSizeMax - 4) (rest : Bytes) :
    peekStringDirect (framed v ++ rest) = .ok v := by
  have hlt : v.length < 256 ^ 4 := by
    unfold sshbufSizeMax at h
    omega
  have htake : (framed v ++ rest).take 4 = encode 4 v.length := by
    simp [framed]
  have hdrop : (framed v ++ rest).drop 4 = v ++ rest := by
    simp [framed]
  unfold peekStringDirect
  rw [htake,hdrop,decode_encode hlt]
  simp only [length_append,length_framed]
  rw [if_neg (by omega),if_neg (by omega),if_neg (by omega)]
  simp

lemma getString_framed (h : v.length ≤ sshbufSizeMax - 4) (rest : Bytes) :
    getString (framed v ++ rest) = .ok (v,rest) := by
  simp [getString,peekStringDirect_framed h]

lemma peekStringDirect_ok (h : peekStringDirect buf = .ok v) :
    v.length ≤ sshbufSizeMax - 4 ∧ buf = framed v ++ buf.drop (v.length + 4) := by
  unfold peekStringDirect at h
  split at h
  · simp at h
  · simp only at h
    split at h
    · simp at h
    · split at h
      · simp at h
      · have hv : (buf.drop 4).take (decode (buf.take 4)) = v := by simpa using h
        have hvl : v.length = decode (buf.take 4) := by
          rw [← hv,length_take,length_drop]
          omega
        have hhead : encode 4 v.length = buf.take 4 := by
          have he := encode_decode (buf.take 4)
          rw [length_take,Nat.min_eq_left (by omega)] at he
          rw [hvl,he]
        refine ⟨by omega,?_⟩
        rw [framed,hhead,append_assoc]
        conv_lhs => rw [← take_append_drop 4 buf,
          ← take_append_drop v.length (buf.drop 4)]
        rw [drop_drop,hvl,hv,Nat.add_comm 4]

lemma getString_ok (h : getString buf = .ok (v,rest)) :
    v.length ≤ sshbufSizeMax - 4 ∧ buf = framed v ++ rest := by
  obtain ⟨d,hd,hr⟩ := bind_eq_ok.mp h
  obtain ⟨hl,hb⟩ := peekStringDirect_ok hd
  obtain ⟨rfl,rfl⟩ := hr
  exact ⟨hl,hb⟩

lemma encode_four_head (h : n ≤ sshbufSizeMax) :
    ∃ b rest, encode 4 n = b :: rest ∧ b.toNat ≤ 8 := by
  refine ⟨_,_,encode_succ 3 n,?_⟩
  rw [sshbufSizeMax] at h
  have hb : (n / 256 ^ 3).toUInt8.toNat = n / 256 ^ 3 % 256 := by simp
  omega

lemma framed_append_inj {a x y : Bytes} (ha : a.length ≤ sshbufSizeMax - 4)
    (hb : b.length ≤ sshbufSizeMax - 4) (h : framed a ++ x = framed b ++ y) :
    a = b ∧ x = y := by
  have hg := getString_framed ha x
  rw [h,getString_framed hb] at hg
  cases hg
  exact ⟨rfl,rfl⟩

lemma framed_inj {a : Bytes} (ha : a.length ≤ sshbufSizeMax - 4)
    (hb : b.length ≤ sshbufSizeMax - 4) (h : framed a = framed b) : a = b := by
  have hn : framed a ++ [] = framed b ++ [] := by rw [h]
  exact (framed_append_inj ha hb hn).1

lemma getCstring_iff : getCstring buf = .ok (v,rest) ↔
      ∃ d, getString buf = .ok (d,rest) ∧ 0 ∉ d.dropLast ∧ v = untilNul d := by
  constructor
  · intro h
    obtain ⟨d,hd,hr⟩ := bind_eq_ok.mp h
    by_cases h0 : 0 ∈ d.dropLast
    · simp [h0] at hr
    · simp only [h0,if_false,pure_eq_ok,ok.injEq,Prod.mk.injEq] at hr
      refine ⟨d,?_,h0,hr.1.symm⟩
      simp [getString,hd,hr.2]
  · rintro ⟨d,hd,h0,rfl⟩
    obtain ⟨d',hd',hr⟩ := bind_eq_ok.mp hd
    obtain ⟨rfl,rfl⟩ := hr
    simp [getCstring,hd',h0]

lemma untilNul_of_not_mem {s : Bytes} (h : 0 ∉ s) : untilNul s = s := by
  apply takeWhile_eq_self_iff.mpr
  intro x hx
  simp only [decide_eq_true_eq]
  rintro rfl
  exact h hx

lemma getCstring_framed {n : Bytes} (hn : 0 ∉ n) (hl : n.length ≤ sshbufSizeMax - 4)
    (rest : Bytes) : getCstring (framed n ++ rest) = .ok (n,rest) :=
  getCstring_iff.mpr ⟨n,getString_framed hl rest,
    fun h => hn ((dropLast_sublist n).mem h),(untilNul_of_not_mem hn).symm⟩

/-- The strings that are read as a number: no sign bit, and not more than
`SSHBUF_MAX_BIGNUM` bytes besides a leading zero. -/
def Mpint (d : Bytes) : Prop :=
  d.head?.any (· ≥ 0x80) = false ∧
    ¬ (d.length > sshbufMaxBignum + 1 ∨
      (d.length = sshbufMaxBignum + 1 ∧ d.head? ≠ some 0))

lemma getBignum2BytesDirect_iff : getBignum2BytesDirect buf = .ok (v,rest) ↔
      ∃ d, getString buf = .ok (d,rest) ∧ Mpint d ∧ v = d.dropWhile (· = 0) := by
  constructor
  · intro h
    obtain ⟨d,hd,hr⟩ := bind_eq_ok.mp h
    by_cases hs : d.head?.any (· ≥ 0x80) = true
    · rw [if_pos hs] at hr
      cases hr
    rw [if_neg hs] at hr
    by_cases hl : d.length > sshbufMaxBignum + 1 ∨
        (d.length = sshbufMaxBignum + 1 ∧ d.head? ≠ some 0)
    · rw [if_pos hl] at hr
      cases hr
    rw [if_neg hl,pure_eq_ok,ok.injEq,Prod.mk.injEq] at hr
    refine ⟨d,?_,⟨by simpa using hs,hl⟩,hr.1.symm⟩
    simp [getString,hd,hr.2]
  · rintro ⟨d,hd,⟨hs,hl⟩,rfl⟩
    obtain ⟨d',hd',hr⟩ := bind_eq_ok.mp hd
    obtain ⟨rfl,rfl⟩ := hr
    simp only [getBignum2BytesDirect,hd',ok_bind]
    rw [if_neg (by simp [hs]),if_neg hl]
    rfl

/-- A number of up to `SSHBUF_MAX_BIGNUM` significant bytes is read back without leading zeros. -/
lemma getBignum2BytesDirect_bignumBytes (hv : v.length + 1 ≤ sshbufSizeMax - 4) (rest : Bytes) :
    getBignum2BytesDirect (framed (bignumBytes v) ++ rest) =
      if (v.dropWhile (· = 0)).length ≤ sshbufMaxBignum then .ok (v.dropWhile (· = 0),rest)
      else .error .bignumTooLarge := by
  have hle := (dropWhile_suffix (l := v) (· = (0))).length_le
  have hhead : ∀ c ∈ (v.dropWhile (· = 0)).head?, c ≠ 0 := by
    intro c hc
    have hnot := head?_dropWhile_not (· = (0)) v
    rw [hc] at hnot
    simpa using hnot
  rw [bignumBytes]
  generalize v.dropWhile _ = s at hle hhead
  generalize hd : (if s.head?.any _ then 0 :: s else s) = d
  have hsign : d.head?.any (· ≥ 0x80) = false := by
    rw [← hd]
    split
    · rfl
    · next h => simpa using h
  have hstrip : d.dropWhile (· = 0) = s := by
    have hs : s.dropWhile (· = 0) = s := by
      cases s with
      | nil => rfl
      | cons c s => simp [hhead c rfl]
    rw [← hd]
    split <;> simp [hs]
  have hlong : (d.length > sshbufMaxBignum + 1 ∨ d.length = sshbufMaxBignum + 1 ∧
    d.head? ≠ some 0) ↔
      ¬ s.length ≤ sshbufMaxBignum := by
    rw [← hd]
    split
    · simp
    · cases s with
      | nil => simp
      | cons c s =>
        have hc := hhead c rfl
        simp [hc]
        omega
  have hdl : d.length ≤ sshbufSizeMax - 4 := by
    rw [← hd]
    split
    · exact Nat.le_trans (Nat.succ_le_succ hle) hv
    · omega
  simp only [getBignum2BytesDirect,peekStringDirect_framed hdl,ok_bind,hsign,hlong,hstrip]
  by_cases hs : s.length ≤ sshbufMaxBignum <;> simp [hs]

lemma untilEmptyLoop_step (h : buf ≠ []) : untilEmptyLoop step (n + 1) s buf =
      step s buf >>= fun r => untilEmptyLoop step n r.1 r.2 := by
  cases buf with
  | nil => exact absurd rfl h
  | cons b buf => rfl

lemma untilEmpty_flatMap {enc : ι → Bytes} {f : σ → ι → Except SshErr σ}
    (hstep : ∀ x ∈ xs, enc x ≠ [] ∧ ∀ s rest, step s (enc x ++ rest) =
      (f s x).map fun s => (s,rest))
    (s : σ) : untilEmpty step s (xs.flatMap enc) = xs.foldlM f s := by
  suffices h : ∀ n, (xs.flatMap enc).length ≤ n →
      untilEmptyLoop step n s _ = xs.foldlM f s from h _ (Nat.le_refl _)
  induction xs generalizing s with
  | nil =>
    intro n _
    cases n <;> rfl
  | cons x xs ih =>
    obtain ⟨hne,hx⟩ := hstep x mem_cons_self
    intro n hn
    rw [flatMap_cons] at hn ⊢
    have hpos := length_pos_of_ne_nil hne
    rw [length_append] at hn
    cases n with
    | zero => omega
    | succ n =>
      have hcons : enc x ++ xs.flatMap enc ≠ [] := by simp [hne]
      rw [untilEmptyLoop_step hcons,hx,foldlM_cons]
      cases hf : f s x with
      | error e => rfl
      | ok s' => exact ih (fun y hy => hstep y (mem_cons_of_mem _ hy)) s' n (by omega)

lemma put_iff : put v buf = .ok r ↔ buf.length + v.length ≤ sshbufSizeMax ∧ r = buf ++ v := by
  rw [put]
  by_cases h : v.length > sshbufSizeMax ∨ sshbufSizeMax - v.length < buf.length
  · rw [if_pos h]
    constructor
    · intro he
      cases he
    · omega
  · rw [if_neg h,ok.injEq]
    constructor
    · rintro rfl
      exact ⟨by omega,rfl⟩
    · rintro ⟨-,rfl⟩
      rfl

lemma putString_iff : putString v buf = .ok r ↔
      buf.length + (v.length + 4) ≤ sshbufSizeMax ∧ r = buf ++ framed v := by
  rw [putString]
  by_cases h : v.length > sshbufSizeMax - 4
  · rw [if_pos h]
    constructor
    · intro he
      cases he
    · omega
  · rw [if_neg h,put_iff,length_framed]

lemma foldlM_putString_iff {f : α → Bytes} {xs : List α} (hb : b.length ≤ sshbufSizeMax) :
    xs.foldlM (fun b x => putString (f x) b) b = .ok r ↔
      r.length ≤ sshbufSizeMax ∧ r = b ++ xs.flatMap fun x => framed (f x) := by
  induction xs generalizing b with
  | nil =>
    simp only [foldlM_nil,pure_eq_ok,ok.injEq,flatMap_nil,append_nil]
    constructor
    · rintro rfl
      exact ⟨hb,rfl⟩
    · rintro ⟨-,rfl⟩
      rfl
  | cons x xs ih =>
    rw [foldlM_cons,bind_eq_ok,flatMap_cons]
    constructor
    · rintro ⟨b',hb',h⟩
      obtain ⟨hl,rfl⟩ := putString_iff.mp hb'
      rw [ih (by rw [length_append]; exact hl)] at h
      exact ⟨h.1,by rw [h.2,append_assoc]⟩
    · rintro ⟨hl,rfl⟩
      have hl' := hl
      simp only [length_append,length_framed] at hl'
      refine ⟨b ++ framed (f x),putString_iff.mpr ⟨by omega,rfl⟩,?_⟩
      rw [ih (by rw [length_append,length_framed]; omega),append_assoc]
      exact ⟨hl,rfl⟩

end Sshbuf

end PkixSsh
