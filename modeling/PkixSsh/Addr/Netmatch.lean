import PkixSsh.Addr.Basic

/-!
# Matching a network

Bits are numbered from the most significant one. A match with a network is agreement on the bits
of its mask, for either byte order of the host.
-/

namespace PkixSsh.Addr

open Nat

def Memory.bit (m : Memory) (k : Nat) : Bool :=
  if h : k < 128 then (m ⟨k / 8,by omega⟩).getMsbD (k % 8) else false

section

variable {host : Host} {j k l r : Nat} {m : Memory} {a : Xaddr}

lemma getMsbD_byteOf_bigEndian (w : BitVec 32) (hr : r < 4) (hj : j < 8) :
    (byteOf .bigEndian w r).getMsbD j = w.getMsbD (8 * r + j) := by
  simp only [byteOf,BitVec.getMsbD]
  have h1 : 8 - 1 - j < 8 := by omega
  have h2 : 8 * (3 - r) + (8 - 1 - j) = 32 - 1 - (8 * r + j) := by omega
  simp [hj,h1,h2,show 8 * r + j < 32 by omega]

lemma byteOf_wordOf (f : Nat → BitVec 8) (hr : r < 4) :
    byteOf host (wordOf host (f 0) (f 1) (f 2) (f 3)) r = f r := by
  have hcases : r = 0 ∨ r = 1 ∨ r = 2 ∨ r = 3 := by omega
  rcases hcases with rfl | rfl | rfl | rfl <;>
    simp [byteOf,wordOf] <;> grind

lemma byteOf_htonl (w : BitVec 32) (hr : r < 4) :
    byteOf host (htonl host w) r = byteOf .bigEndian w r :=
  byteOf_wordOf _ hr

lemma byteOf_and (v w : BitVec 32) :
    byteOf host (v &&& w) r = byteOf host v r &&& byteOf host w r := by
  cases host <;> exact BitVec.extractLsb'_and

lemma byteOf_not (w : BitVec 32) (hr : r < 4) : byteOf host (~~~ w) r = ~~~ byteOf host w r := by
  cases host <;> ext j hj <;> simp [byteOf] <;> omega

lemma byteOf_addr32 (m : Memory) (i : Fin 4) (hr : r < 4) :
    byteOf host (m.addr32 host i) r = m ⟨4 * i + r,by omega⟩ := by
  have h : byteOf host (m.addr32 host i) r =
      if hr : r < 4 then m ⟨4 * i + r,by omega⟩ else 0 :=
    byteOf_wordOf (fun r => if hr : r < 4 then m ⟨4 * i + r,by omega⟩ else 0) hr
  rw [h,dif_pos hr]

lemma addr32_eq_iff {m' : Memory} {i : Fin 4} : m.addr32 host i = m'.addr32 host i ↔
      ∀ r (hr : r < 4), m ⟨4 * i + r,by omega⟩ = m' ⟨4 * i + r,by omega⟩ := by
  constructor
  · intro h r hr
    rw [← byteOf_addr32 m i hr,h,byteOf_addr32 m' i hr]
  · intro h
    have h₀ := h 0 (by omega)
    have h1 := h 1 (by omega)
    have h2 := h 2 (by omega)
    have h3 := h 3 (by omega)
    simp only [add_zero] at h₀
    rw [Memory.addr32,Memory.addr32,h₀,h1,h2,h3]

lemma addr32_eq_zero_iff {i : Fin 4} :
    m.addr32 host i = 0 ↔ ∀ r (hr : r < 4), m ⟨4 * i + r,by omega⟩ = 0 := by
  have hzero : Memory.zero.addr32 host i = 0 := by
    show wordOf host 0 0 0 0 = 0
    cases host <;> decide
  rw [← hzero,addr32_eq_iff]
  rfl

lemma Memory.bit_eq (m : Memory) (h : k < 128) :
    m.bit k = (m ⟨k / 8,by omega⟩).getMsbD (k % 8) := by
  rw [Memory.bit,dif_pos h]

lemma Memory.byte_eq_iff {m' : Memory} {i : Nat} (hi : i < 16) :
    m ⟨i,hi⟩ = m' ⟨i,hi⟩ ↔ ∀ j, j < 8 → m.bit (8 * i + j) = m'.bit (8 * i + j) := by
  have hbit : ∀ (m : Memory) j, j < 8 → m.bit (8 * i + j) = (m ⟨i,hi⟩).getMsbD j := by
    intro m j hj
    have hdiv : (8 * i + j) / 8 = i := by omega
    have hmod : (8 * i + j) % 8 = j := by omega
    rw [m.bit_eq (by omega)]
    simp only [hdiv,hmod]
  constructor
  · intro h j hj
    rw [hbit m j hj,hbit m' j hj,h]
  · intro h
    refine BitVec.eq_of_getMsbD_eq fun j hj => ?_
    rw [← hbit m j hj,← hbit m' j hj,h j hj]

lemma Memory.bit_set32 (m : Memory) (i : Fin 4) (w : BitVec 32) (h : k < 128) :
    (m.set32 host i w).bit k =
      if k / 32 = i then (byteOf host w (k / 8 % 4)).getMsbD (k % 8) else m.bit k := by
  have hdiv : k / 8 / 4 = k / 32 := by omega
  rw [Memory.bit_eq _ h,Memory.bit_eq _ h,Memory.set32]
  simp only [hdiv]
  split <;> rfl

lemma getMsbD_maskWord (hj : j < 32) : (maskWord l).getMsbD j = decide (j < l) := by
  have hones : ∀ i, i < 32 → (0xffffffff#32).getLsbD i = true := by decide
  simp only [maskWord,BitVec.getMsbD,BitVec.getLsbD_and,BitVec.getLsbD_shiftLeft]
  rw [hones _ (by omega)]
  by_cases h : j < l
  · rw [hones _ (by omega)]
    simp [h]
    omega
  · simp [h]
    omega

lemma getMsbD_byteOf_ones (hr : r < 4) (hj : j < 8) :
    (byteOf host 0xffffffff#32 r).getMsbD j = true := by
  have hones : ∀ r, r < 4 → byteOf host 0xffffffff#32 r = 0xff#8 := by
    cases host <;> decide
  rw [hones r hr]
  revert j
  decide

lemma getMsbD_byteOf_mask (hr : r < 4) (hj : j < 8) :
    (byteOf host (htonl host (maskWord l)) r).getMsbD j = decide (8 * r + j < l) := by
  rw [byteOf_htonl _ hr,getMsbD_byteOf_bigEndian _ hr hj,getMsbD_maskWord (by omega)]

/-- The words before `i` are left, and those from `i` on get the bits of the mask. -/
lemma bit_netmask6 {is : List (Fin 4)} {i : Nat} (hi : i ≤ 4)
    (his : is.map Fin.val = List.range' i (4 - i)) (l : Nat) (m : Memory)
    (hm : ∀ k, 32 * i ≤ k → m.bit k = false) (hk : k < 128) : (netmask6 host is l m).bit k =
      if k < 32 * i then m.bit k else decide (k < 32 * i + l) := by
  induction is generalizing i l m with
  | nil =>
    have h4 : 4 - i = 0 := by
      have := congrArg List.length his
      simpa using this.symm
    rw [netmask6,if_pos (by omega)]
  | cons x is ih =>
    obtain ⟨n,hn⟩ : ∃ n, 4 - i = n + 1 := by
      cases h : 4 - i with
      | zero =>
        rw [h] at his
        cases his
      | succ n => exact ⟨n,rfl⟩
    rw [hn,List.range'_succ,List.map_cons,List.cons.injEq] at his
    obtain ⟨hx,his⟩ := his
    have hn' : n = 4 - (i + 1) := by omega
    rw [hn'] at his
    have hr : k / 8 % 4 < 4 := mod_lt _ (by omega)
    have hj : k % 8 < 8 := mod_lt _ (by omega)
    rw [netmask6]
    split
    · next hl =>
      rw [ih (by omega) his,Memory.bit_set32 _ _ _ hk,hx]
      · by_cases hlt : k < 32 * i
        · rw [if_pos (by omega),if_neg (by omega),if_pos hlt]
        · rw [if_neg hlt]
          by_cases hword : k / 32 = i
          · rw [if_pos (by omega),if_pos hword,getMsbD_byteOf_ones hr hj]
            simp only [true_eq_decide_iff]
            omega
          · rw [if_neg (by omega)]
            refine decide_eq_decide.mpr ?_
            omega
      · intro k' hk'
        by_cases h128 : k' < 128
        · rw [Memory.bit_set32 _ _ _ h128,if_neg (by omega)]
          exact hm k' (by omega)
        · rw [Memory.bit,dif_neg h128]
    · next hl =>
      split
      · rw [Memory.bit_set32 _ _ _ hk,hx]
        by_cases hlt : k < 32 * i
        · rw [if_neg (by omega),if_pos hlt]
        · rw [if_neg hlt]
          by_cases hword : k / 32 = i
          · rw [if_pos hword,getMsbD_byteOf_mask hr hj]
            refine decide_eq_decide.mpr ?_
            omega
          · rw [if_neg hword,hm k (by omega)]
            simp only [false_eq_decide_iff]
            omega
      · next hl0 =>
        by_cases hlt : k < 32 * i
        · rw [if_pos hlt]
        · rw [if_neg hlt,hm k (by omega)]
          simp only [false_eq_decide_iff]
          omega

lemma Memory.bit_zero (k : Nat) : Memory.zero.bit k = false := by
  rw [Memory.bit]
  split
  · simp [Memory.zero]
  · rfl

lemma addrNetmask_some (host : Host) {af : Af} (hl : masklenValid af l = true) :
    ∃ mask, addrNetmask host af l = some mask ∧ mask.af = af ∧
      ∀ k, k < addrUnicastMasklen af → mask.addr8.bit k = decide (k < l) := by
  unfold addrNetmask
  rw [hl]
  cases af with
  | inet =>
    simp only [Bool.not_true,Bool.false_eq_true,if_false,addrUnicastMasklen]
    split
    · next h0 =>
      refine ⟨_,rfl,rfl,fun k hk => ?_⟩
      rw [Memory.bit_zero,h0]
      rfl
    · refine ⟨_,rfl,rfl,fun k hk => ?_⟩
      have hr : k / 8 % 4 < 4 := mod_lt _ (by omega)
      have hj : k % 8 < 8 := mod_lt _ (by omega)
      have hword : k / 32 = ((0 : Fin 4)) := by
        omega
      rw [Memory.bit_set32 _ _ _ (by omega),if_pos hword,getMsbD_byteOf_mask hr hj]
      refine decide_eq_decide.mpr ?_
      omega
  | inet6 =>
    refine ⟨_,rfl,rfl,fun k hk => ?_⟩
    have h : (netmask6 host [0,1,2,3] l .zero).bit k =
        if k < 32 * 0 then Memory.zero.bit k else decide _ :=
      bit_netmask6 (by omega) rfl l .zero (fun k _ => Memory.bit_zero k) hk
    simpa using h

lemma Memory.bit_setWords (af : Af) (m : Memory) (f : Fin 4 → BitVec 32)
    (hk : k < addrUnicastMasklen af) (hk' : k < 128) : (m.setWords host af f).bit k =
      (byteOf host (f ⟨k / 32,by omega⟩) (k / 8 % 4)).getMsbD (k % 8) := by
  cases af with
  | inet =>
    have h0 : k / 32 = 0 := div_eq_of_lt hk
    rw [Memory.setWords,Memory.bit_set32 _ _ _ hk']
    simp only [h0]
    rfl
  | inet6 =>
    have hword : k / 32 = 0 ∨ k / 32 = 1 ∨ k / 32 = 2 ∨ k / 32 = 3 := by omega
    rw [Memory.setWords]
    simp only [Memory.bit_set32 _ _ _ hk']
    rcases hword with h | h | h | h <;> simp only [h] <;> rfl

lemma addrUnicastMasklen_le (af : Af) : addrUnicastMasklen af ≤ 128 := by
  cases af <;> decide

lemma getMsbD_byteOf_addr32 (m : Memory) (hk : k < 128) :
    (byteOf host (m.addr32 host ⟨k / 32,by omega⟩) (k / 8 % 4)).getMsbD (k % 8) = m.bit k := by
  have hr : k / 8 % 4 < 4 := mod_lt _ (by omega)
  have hbyte : 4 * (k / 32) + k / 8 % 4 = k / 8 := by omega
  rw [byteOf_addr32 m _ hr,m.bit_eq hk]
  simp only [hbyte]

lemma addrAnd_some (host : Host) {b : Xaddr} (h : a.af = b.af) :
    ∃ r, addrAnd host a b = some r ∧ r.af = a.af ∧ r.scopeId = a.scopeId ∧
      ∀ k, k < addrUnicastMasklen a.af → r.addr8.bit k = (a.addr8.bit k && b.addr8.bit k) := by
  rw [addrAnd,if_neg (not_not_intro h)]
  refine ⟨_,rfl,rfl,rfl,fun k hk => ?_⟩
  have hk' : k < 128 := lt_of_lt_of_le hk (addrUnicastMasklen_le a.af)
  rw [Memory.bit_setWords _ _ _ hk hk',byteOf_and,BitVec.getMsbD_and,
    getMsbD_byteOf_addr32 _ hk',getMsbD_byteOf_addr32 _ hk']

lemma addrInvert_bit (n : Xaddr) (hk : k < addrUnicastMasklen n.af) :
    (addrInvert host n).addr8.bit k = !n.addr8.bit k := by
  have hk' : k < 128 := lt_of_lt_of_le hk (addrUnicastMasklen_le n.af)
  rw [addrInvert,Memory.bit_setWords _ _ _ hk hk',byteOf_not _ (mod_lt _ (by omega)),
    BitVec.getMsbD_not,getMsbD_byteOf_addr32 _ hk']
  simp [mod_lt]

lemma cmpBytes_eq_zero {a b : Memory} {is : List (Fin 16)} :
    cmpBytes a b is = 0 ↔ ∀ i ∈ is, a i = b i := by
  induction is with
  | nil => simp [cmpBytes]
  | cons i is ih =>
    rw [cmpBytes]
    by_cases h : a i = b i
    · rw [if_neg (not_not_intro h),ih]
      simp [h]
    · have hne : (if a i > b i then (1) else -1) ≠ 0 := by
        split <;> decide
      simp [hne,h]

lemma bytes_eq_iff_bits {a b : Memory} {n : Nat} (hn : n ≤ 16) :
    (∀ i (h : i < n), a ⟨i,by omega⟩ = b ⟨i,by omega⟩) ↔ ∀ k, k < 8 * n → a.bit k = b.bit k := by
  constructor
  · intro h k hk
    have hbyte := (Memory.byte_eq_iff (by omega)).mp (h (k / 8) (by omega)) (k % 8)
      (mod_lt _ (by omega))
    rwa [div_add_mod] at hbyte
  · intro h i hi
    refine (Memory.byte_eq_iff (by omega)).mpr fun j hj => h _ (by omega)

lemma addrCmp_eq_zero {b : Xaddr} (h : a.af = b.af) :
    addrCmp host a b = 0 ↔ (∀ k, k < addrUnicastMasklen a.af → a.addr8.bit k = b.addr8.bit k) ∧
      (a.af = .inet6 → a.scopeId = b.scopeId) := by
  rw [addrCmp,if_neg (not_not_intro h)]
  cases haf : a.af with
  | inet =>
    have hword : a.addr8.addr32 host 0 = b.addr8.addr32 host 0 ↔
        ∀ k, k < 32 → a.addr8.bit k = b.addr8.bit k := by
      rw [← bytes_eq_iff_bits (show 4 ≤ 16 by omega),addr32_eq_iff]
      simp
    dsimp only [addrUnicastMasklen]
    rw [← hword]
    split
    · next heq => simp [heq]
    · next hne =>
      have hne' : (if htonl host (a.addr8.addr32 host 0) > htonl host (b.addr8.addr32 host 0)
          then (1) else -1) ≠ 0 := by
        split <;> decide
      simp [hne,hne']
  | inet6 =>
    have hbytes : cmpBytes a.addr8 b.addr8 (List.finRange 16) = 0 ↔
        ∀ k, k < 128 → a.addr8.bit k = b.addr8.bit k := by
      rw [← bytes_eq_iff_bits (show 16 ≤ 16 by omega),cmpBytes_eq_zero]
      constructor
      · exact fun h i hi => h _ (List.mem_finRange _)
      · exact fun h i _ => h i i.isLt
    dsimp only [addrUnicastMasklen]
    rw [← hbytes]
    split
    · next hne => simp [hne]
    · next heq =>
      rw [not_not] at heq
      have hne' : (if a.scopeId > b.scopeId then (1) else -1) ≠ 0 := by
        split <;> decide
      by_cases hs : a.scopeId = b.scopeId
      · simp [heq,hs]
      · simp [heq,hne']

lemma addrIsAll0s_iff :
    addrIsAll0s host a = true ↔ ∀ k, k < addrUnicastMasklen a.af → a.addr8.bit k = false := by
  have hbits : ∀ n (hn : n ≤ 16), (∀ i (h : i < n), a.addr8 ⟨i,by omega⟩ = 0) ↔
      ∀ k, k < 8 * n → a.addr8.bit k = false := by
    intro n hn
    have h := bytes_eq_iff_bits (a := a.addr8) (b := Memory.zero) hn
    simp only [Memory.bit_zero] at h
    exact h
  rw [addrIsAll0s]
  cases haf : a.af with
  | inet =>
    have h := hbits 4 (by omega)
    dsimp only [addrUnicastMasklen]
    rw [decide_eq_true_eq,addr32_eq_zero_iff,← h]
    simp
  | inet6 =>
    have h := hbits 16 (by omega)
    dsimp only [addrUnicastMasklen]
    simp only [Bool.and_eq_true,decide_eq_true_eq,addr32_eq_zero_iff]
    rw [← h]
    constructor
    · rintro ⟨⟨⟨h₀,h1⟩,h2⟩,h3⟩ i hi
      have hall : ∀ (w : Fin 4) r (hr : r < 4), a.addr8 ⟨4 * w + r,by omega⟩ = 0
        | 0 => h₀
        | 1 => h1
        | 2 => h2
        | 3 => h3
      have hbyte := hall ⟨i / 4,by omega⟩ (i % 4) (mod_lt _ (by omega))
      simpa only [div_add_mod] using hbyte
    · intro h
      have hall : ∀ (w : Fin 4) r (hr : r < 4), a.addr8 ⟨4 * w + r,by omega⟩ = 0 :=
        fun w r hr => h _ (by omega)
      exact ⟨⟨⟨hall 0,hall 1⟩,hall 2⟩,hall 3⟩

lemma addrHostIsAll0s_bits (h : addrHostIsAll0s host a l = true) (hl : l ≤ k)
    (hk : k < addrUnicastMasklen a.af) : a.addr8.bit k = false := by
  rw [addrHostIsAll0s,addrHostmask] at h
  by_cases hvalid : masklenValid a.af l = true
  · obtain ⟨mask,hmask,haf,hbits⟩ := addrNetmask_some host hvalid
    rw [hmask,Option.map_some] at h
    obtain ⟨r,hr,hraf,-,hrbits⟩ := addrAnd_some host
      (show a.af = (addrInvert host mask).af from haf.symm)
    dsimp only at h
    rw [hr] at h
    have hzero := addrIsAll0s_iff.mp h k (by rwa [hraf])
    rw [hrbits k hk,addrInvert_bit mask (by rwa [haf]),hbits k hk] at hzero
    simpa [not_lt.mpr hl] using hzero
  · have hnone : addrNetmask host a.af l = none := by
      unfold addrNetmask
      rw [Bool.not_eq_true] at hvalid
      rw [hvalid]
      rfl
    rw [hnone] at h
    cases h

lemma addrPtonCidr_ok {getaddrinfo : Bytes → Option Sockaddr} {p : Bytes} {net : Xaddr}
    (h : addrPtonCidr host getaddrinfo p = .ok (net,l)) :
    masklenValid net.af l = true ∧ addrHostIsAll0s host net l = true := by
  unfold addrPtonCidr at h
  split at h
  · cases h
  split at h
  · cases h
  split at h
  · cases h
  dsimp only at h
  split at h
  · cases h
  next hvalid =>
  split at h
  · cases h
  next hzero =>
  cases h
  exact ⟨by simpa using hvalid,by simpa using hzero⟩

/-- An address matches a network when it is of its family, agrees with it on the bits of the
mask and has its scope. -/
theorem addrNetmatch_eq_zero_iff {getaddrinfo : Bytes → Option Sockaddr} {p : Bytes} {net : Xaddr}
    {l : Nat} (h : addrPtonCidr host getaddrinfo p = .ok (net,l)) (a : Xaddr) :
    addrNetmatch host a net l = 0 ↔ a.af = net.af ∧
      (∀ k, k < l → a.addr8.bit k = net.addr8.bit k) ∧
        (a.af = .inet6 → a.scopeId = net.scopeId) := by
  obtain ⟨hvalid,hzero⟩ := addrPtonCidr_ok h
  rw [addrNetmatch]
  by_cases haf : a.af = net.af
  · rw [if_neg (not_not_intro haf)]
    rw [← haf] at hvalid
    obtain ⟨mask,hmask,hmaf,hbits⟩ := addrNetmask_some host hvalid
    obtain ⟨r,hr,hraf,hrs,hrbits⟩ := addrAnd_some host hmaf.symm
    rw [hmask]
    dsimp only
    rw [hr]
    rw [addrCmp_eq_zero (hraf.trans haf),hraf,hrs]
    have hlen : l ≤ addrUnicastMasklen a.af := by
      cases hf : a.af <;> rw [hf] at hvalid <;> simpa [masklenValid,addrUnicastMasklen] using hvalid
    have hagree : (∀ k, k < addrUnicastMasklen a.af → r.addr8.bit k = net.addr8.bit k) ↔
        ∀ k, k < l → a.addr8.bit k = net.addr8.bit k := by
      constructor
      · intro hk k hkl
        have hkw := hk k (lt_of_lt_of_le hkl hlen)
        rwa [hrbits k (lt_of_lt_of_le hkl hlen),hbits k (lt_of_lt_of_le hkl hlen),
          decide_eq_true hkl,Bool.and_true] at hkw
      · intro hk k hkw
        rw [hrbits k hkw,hbits k hkw]
        by_cases hkl : k < l
        · rw [decide_eq_true hkl,Bool.and_true]
          exact hk k hkl
        · rw [decide_eq_false hkl,Bool.and_false]
          exact (addrHostIsAll0s_bits hzero (not_lt.mp hkl) (by rwa [← haf])).symm
    rw [hagree]
    simp [haf]
  · simp [haf]

end

def exampleSockaddr (d : BitVec 8) : Sockaddr :=
  .inet fun i => if i.val = 0 then 10 else if i.val = 3 then d else 0

def exampleGetaddrinfo (p : Bytes) : Option Sockaddr :=
  if p = cstr "10.0.0.1" then some (exampleSockaddr 1)
  else if p = cstr "10.0.0.0" then some (exampleSockaddr 0)
  else none

theorem addrNetmatch_example : ∃ a net, addrPton exampleGetaddrinfo (cstr "10.0.0.1") = some a ∧
      addrPtonCidr .littleEndian exampleGetaddrinfo (cstr "10.0.0.0/9") = .ok (net,9) ∧
      addrNetmatch .littleEndian a net 9 = 0 := by
  have hnet : ∃ net, addrPtonCidr .littleEndian exampleGetaddrinfo (cstr "10.0.0.0/9") =
      .ok (net,9) ∧ addrSaToXaddr (exampleSockaddr 0) = some net := ⟨_,rfl,rfl⟩
  obtain ⟨net,hnet,hsa⟩ := hnet
  refine ⟨_,net,rfl,hnet,(addrNetmatch_eq_zero_iff hnet _).mpr ?_⟩
  cases hsa
  exact ⟨rfl,by decide,nofun⟩

end PkixSsh.Addr
