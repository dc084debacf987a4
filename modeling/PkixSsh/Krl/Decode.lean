import PkixSsh.Krl.Encode
import PkixSsh.Krl.Invariant
import PkixSsh.Krl.Parse

/-!
# Reading what was written

Every section that is written is read back as revocations of the serials, key IDs or blobs
in it, except for bitmaps that are too long for the reader of big numbers.
-/

namespace PkixSsh.Krl

open Key X509 Sshbuf IntervalList SortedTree BigEndian Nat
open List hiding Mem mem_cons

lemma dropWhile_encode_size {v : Nat} (hv : v ≠ 0) :
    (encode ((v.size + 7) / 8) v).dropWhile (· = 0) =
      encode ((v.size + 7) / 8) v := by
  have hpos : 0 < v.size := size_pos.mpr (pos_of_ne_zero hv)
  obtain ⟨m,hm⟩ : ∃ m, (v.size + 7) / 8 = m + 1 := ⟨(v.size + 7) / 8 - 1,by omega⟩
  have hpow : 256 ^ m = 2 ^ (8 * m) := by rw [Nat.pow_mul]
  -- the first digit is what is left of the number above the other bytes
  have hlt : v / 256 ^ m < 256 := by
    have hsize : v < 2 ^ (8 * m + 8) := size_le.mp (by omega)
    rw [div_lt_iff_lt_mul (by positivity),hpow]
    calc v < 2 ^ (8 * m + 8) := hsize
      _ = 256 * 2 ^ (8 * m) := by rw [Nat.pow_add,Nat.mul_comm]
  have hbyte : (v / 256 ^ m).toUInt8.toNat = v / 256 ^ m := by
    rw [UInt8.toNat_ofNat',mod_eq_of_lt hlt]
  rw [hm,encode_succ,dropWhile_cons_of_neg]
  intro h0
  have hzero : v / 256 ^ m = 0 := by
    rw [← hbyte,of_decide_eq_true h0]
    rfl
  have hge : 2 ^ (8 * m) ≤ v := lt_size.mp (by omega)
  rw [Nat.div_eq_zero_iff] at hzero
  rcases hzero with hzero | hzero
  · exact absurd hzero (by positivity)
  · omega

lemma length_bignumBytes_ge {v : Nat} (hv : v ≠ 0) :
    (v.size + 7) / 8 ≤ (bignumBytes (encode ((v.size + 7) / 8) v)).length := by
  rw [bignumBytes,dropWhile_encode_size hv]
  split <;> simp

lemma getBignum2BytesDirect_encode {v : Nat} (hv : v ≠ 0)
    (hl : (v.size + 7) / 8 + 1 ≤ sshbufSizeMax - 4) (rest : Bytes) : getBignum2BytesDirect
        (framed (bignumBytes (encode ((v.size + 7) / 8) v)) ++ rest) =
      if v.size ≤ 16384 then .ok (encode ((v.size + 7) / 8) v,rest)
      else .error .bignumTooLarge := by
  have hmax : (v.size + 7) / 8 ≤ sshbufMaxBignum ↔ v.size ≤ 16384 := by
    rw [sshbufMaxBignum]
    omega
  rw [getBignum2BytesDirect_bignumBytes (by rwa [length_encode]),
    dropWhile_encode_size hv,length_encode]
  simp only [hmax]

def oneSerial (n : Nat) : RevokedSerial := ⟨n,n,le_refl n⟩

lemma mem_map_oneSerial {ns : List Nat} {n : Nat} : Mem (ns.map oneSerial) n ↔ n ∈ ns := by
  simp only [Mem,mem_map]
  constructor
  · rintro ⟨a,⟨k,hk,rfl⟩,hlo,hhi⟩
    have he : k = n := le_antisymm hlo hhi
    rwa [← he]
  · intro hn
    exact ⟨oneSerial n,⟨n,hn,rfl⟩,le_refl _,le_refl _⟩

def revokeRange (ssl : Openssl) (ca : Option SshKey) (krl : SshKrl) (rs : RevokedSerial) :
    Except SshErr SshKrl :=
  sshKrlRevokeCertBySerialRange ssl krl ca rs.lo.toUInt64 rs.hi.toUInt64

/-- The ranges that are revoked when the section of a group is read. -/
def Group.revocations (g : Group) : List RevokedSerial :=
  match g.kind with
  | .list => (serials g.ranges).map oneSerial
  | .range => g.ranges
  | .bitmap =>
    (((range g.bits.size).filter g.bits.testBit).map (g.first.lo + ·)).map oneSerial

lemma Group.mem_revocations {g : Group} (h : Canonical g.ranges) {n : Nat} :
    Mem g.revocations n ↔ Mem g.ranges n := by
  rw [Group.revocations]
  cases g.kind with
  | list => rw [mem_map_oneSerial,mem_serials]
  | range => rfl
  | bitmap =>
    rw [mem_map_oneSerial]
    simp only [mem_map,mem_filter,mem_range,Group.testBit_bits h]
    constructor
    · rintro ⟨k,⟨-,hk⟩,rfl⟩
      exact hk
    · intro hn
      have hlo := h.lo_le_of_mem hn
      have hhi : n ≤ g.last.hi := h.le_of_mem _ hn
      refine ⟨n - g.first.lo,⟨?_,?_⟩,Nat.add_sub_cancel' hlo⟩
      · rw [Group.size_bits h]
        omega
      · rwa [Nat.add_sub_cancel' hlo]

section

variable {env : Env} {ca : Option SshKey} {krl : SshKrl}

lemma Group.bits_ne_zero {g : Group} (hcan : Canonical g.ranges) : g.bits ≠ 0 := by
  intro h0
  have hsize := Group.size_bits hcan
  rw [h0,size_zero] at hsize
  omega

lemma parseSerialList_serials {ss : List Nat} (h : ∀ s ∈ ss, s < 2 ^ 64) :
    parseSerialList env ca krl (ss.flatMap (encode 8)) =
      (ss.map oneSerial).foldlM (revokeRange env.ssl ca) krl := by
  rw [parseSerialList,foldlM_map]
  apply untilEmpty_flatMap
  intro s hs
  refine ⟨ne_nil_of_length_pos (by rw [length_encode]; decide),fun krl rest => ?_⟩
  rw [getU64,getUint_encode (h s hs)]
  cases hr : sshKrlRevokeCertBySerial env.ssl krl ca s.toUInt64 <;>
    simp [revokeRange,oneSerial,sshKrlRevokeCertBySerial] at hr ⊢ <;> simp [hr,Except.map]

lemma parseSerialRange_rangeBytes {rs : RevokedSerial} (h : rs.hi < 2 ^ 64) :
    parseSerialRange env ca krl (rangeBytes rs) = (revokeRange env.ssl ca krl rs).map (·,[]) := by
  have hlo : rs.lo < 256 ^ 8 := by
    have := rs.le
    omega
  have hhi : encode 8 rs.hi = encode 8 rs.hi ++ [] := by rw [append_nil]
  rw [parseSerialRange,rangeBytes,getU64,getUint_encode hlo,ok_bind]
  dsimp only
  rw [hhi,getUint_encode (by omega),ok_bind,revokeRange]
  cases sshKrlRevokeCertBySerialRange _ krl ca _ _ <;> rfl

lemma foldlM_revokeBit {start : Nat} {bitmap : Bitmap} {ks : List Nat} (h0 : 0 < start)
    (h : ∀ k ∈ ks, start + k < 2 ^ 64) : ks.foldlM (revokeBit env ca start.toUInt64 bitmap) krl =
      (((ks.filter bitmap.value.testBit).map (start + ·)).map oneSerial).foldlM
        (revokeRange env.ssl ca) krl := by
  rw [foldlM_map,foldlM_map,foldlM_filter]
  apply foldlM_congr
  intro k hk krl
  have hlt := h k hk
  have hsum : start.toUInt64 + k.toUInt64 = (start + k).toUInt64 := by
    simp
  have hne : ¬ (k > 0 ∧ start.toUInt64 + k.toUInt64 = 0) := by
    rintro ⟨-,hz⟩
    rw [hsum] at hz
    have := congrArg UInt64.toNat hz
    simp only [UInt64.toNat_ofNat',UInt64.toNat_zero] at this
    omega
  rw [revokeBit,if_neg hne,bitmapTestBit_eq,hsum]
  cases bitmap.value.testBit k <;> rfl

lemma parseSerialBitmap_group {g : Group} (hcan : Canonical g.ranges)
    (hb : ∀ rs ∈ g.ranges, 0 < rs.lo ∧ rs.hi < 2 ^ 64)
    (hl : (g.bits.size + 7) / 8 + 1 ≤ sshbufSizeMax - 4) :
    parseSerialBitmap env ca krl (encode 8 g.first.lo ++
        framed (bignumBytes (encode ((g.bits.size + 7) / 8) g.bits))) =
      if g.bits.size ≤ 16384 then
        (((((range g.bits.size).filter g.bits.testBit).map (g.first.lo + ·)).map
          oneSerial).foldlM (revokeRange env.ssl ca) krl).map (·,[])
      else .error .bignumTooLarge := by
  have hsize := Group.size_bits hcan
  have hfirst := hb _ mem_cons_self
  have hlast := hb g.last (getLast_mem _)
  have hspan : g.first.lo ≤ g.last.hi := hcan.lo_le_of_mem (mem_hi (getLast_mem _))
  have hlo : g.first.lo < 256 ^ 8 := by
    omega
  have hread := getBignum2BytesDirect_encode (Group.bits_ne_zero hcan) hl []
  rw [append_nil] at hread
  rw [parseSerialBitmap,getU64,getUint_encode hlo,ok_bind]
  dsimp only
  rw [hread]
  split
  · have hbytes : g.bits < 256 ^ ((g.bits.size + 7) / 8) := by
      have hpow : 256 ^ ((g.bits.size + 7) / 8) = 2 ^ (8 * ((g.bits.size + 7) / 8)) := by
        rw [Nat.pow_mul]
      rw [hpow]
      exact Nat.size_le.mp (by omega)
    obtain ⟨bitmap,hfrom,hvalue⟩ := bitmapFromString_spec _
      (s := encode ((g.bits.size + 7) / 8) _) (by
        have hmax : bitmapMax = 2 ^ 24 := rfl
        rw [length_encode]
        omega)
    rw [decode_encode hbytes] at hvalue
    have hbound : ∀ k ∈ range g.bits.size, g.first.lo + k < 2 ^ 64 := by
      intro k hk
      have := mem_range.mp hk
      omega
    rw [ok_bind]
    rw [hfrom]
    dsimp only
    rw [bitmapNbits_eq,hvalue,foldlM_revokeBit hfirst.1 hbound,hvalue]
    cases foldlM (revokeRange _ ca) krl _ <;> rfl
  · rfl

def Group.effect (ssl : Openssl) (ca : Option SshKey) (krl : SshKrl) (g : Group) :
    Except SshErr SshKrl :=
  if g.Fits then g.revocations.foldlM (revokeRange ssl ca) krl else .error .bignumTooLarge

lemma parseCertSection_group {g : Group} (hcan : Canonical g.ranges)
    (hb : ∀ rs ∈ g.ranges, 0 < rs.lo ∧ rs.hi < 2 ^ 64) (hl : g.body.length ≤ sshbufSizeMax - 4) :
    parseCertSection env ca g.kind.code krl g.body = (g.effect env.ssl ca krl).map (·,[]) := by
  have hfits : g.kind ≠ .bitmap → g.Fits := fun h h' => absurd h' h
  rw [Group.effect,Group.revocations]
  rw [Group.body] at hl ⊢
  cases hk : g.kind with
  | list =>
    rw [if_pos (hfits (by simp [hk]))]
    have hss : ∀ s ∈ serials g.ranges, s < 2 ^ 64 := by
      intro s hs
      obtain ⟨rs,hrs,-,hhi⟩ := mem_serials.mp hs
      have := hb rs hrs
      omega
    rw [parseCertSection,if_pos rfl]
    rw [parseSerialList_serials hss]
  | range =>
    rw [if_pos (hfits (by simp [hk]))]
    have hone : g.ranges = [g.first] := by rw [Group.ranges,g.single hk]
    rw [parseCertSection]
    simp only [hone,flatMap_cons,flatMap_nil,append_nil]
    rw [parseSerialRange_rangeBytes (hb _ mem_cons_self).2,foldlM_cons]
    cases revokeRange _ ca krl _ <;> rfl
  | bitmap =>
    rw [hk] at hl
    have hlen : (g.bits.size + 7) / 8 + 1 ≤ sshbufSizeMax - 4 := by
      have hge := length_bignumBytes_ge (Group.bits_ne_zero hcan)
      rw [length_append,length_framed] at hl
      omega
    rw [parseCertSection,if_neg (by decide),if_neg (by decide),if_pos rfl]
    rw [parseSerialBitmap_group hcan hb hlen]
    have hiff : g.Fits ↔ g.bits.size ≤ 16384 := by
      rw [Group.Fits,Group.size_bits hcan]
      simp only [hk,true_implies]
      omega
    by_cases hf : g.Fits
    · rw [if_pos hf,if_pos (hiff.mp hf)]
    · rw [if_neg hf,if_neg fun h => hf (hiff.mpr h)]
      rfl

lemma parseKeyIds_strings {ids : List CString}
    (hl : ∀ id ∈ ids, id.1.length ≤ sshbufSizeMax - 4) :
    parseKeyIds env ca krl (ids.flatMap fun id => framed id.1) =
      ids.foldlM (fun krl id => sshKrlRevokeCertByKeyId env.ssl krl ca id.1) krl := by
  rw [parseKeyIds]
  apply untilEmpty_flatMap
  intro id hid
  refine ⟨ne_nil_of_length_pos (by rw [length_framed]; omega),fun krl rest => ?_⟩
  rw [getCstring_framed id.2 (hl id hid),ok_bind]
  dsimp only
  cases sshKrlRevokeCertByKeyId _ krl ca id.1 <;> rfl

lemma parseCertSection_keyIds {ids : List CString}
    (hl : ∀ id ∈ ids, id.1.length ≤ sshbufSizeMax - 4) :
    parseCertSection env ca certKeyId krl (ids.flatMap fun id => framed id.1) =
      (ids.foldlM (fun krl id => sshKrlRevokeCertByKeyId env.ssl krl ca id.1) krl).map (·,[]) := by
  rw [parseCertSection,if_neg (by decide),if_neg (by decide),if_neg (by decide),if_pos rfl,
    parseKeyIds_strings hl]

def certEffect (env : Env) (ca : Option SshKey) (krl : SshKrl) (r : UInt8 × Bytes) :
    Except SshErr SshKrl := do
  let (krl,subsect) ← parseCertSection env ca r.1 krl r.2
  if subsect.length > 0 then .error .invalidFormat else return krl

lemma parseCertSections_records {rs : List (UInt8 × Bytes)}
    (hl : ∀ r ∈ rs, r.2.length ≤ sshbufSizeMax - 4) :
    parseCertSections env ca krl (rs.flatMap recordBytes) = rs.foldlM (certEffect env ca) krl := by
  rw [parseCertSections]
  apply untilEmpty_flatMap
  intro r hr
  refine ⟨cons_ne_nil _ _,fun krl rest => ?_⟩
  rw [recordBytes,cons_append,getU8,ok_bind]
  dsimp only
  rw [getString_framed (hl r hr),ok_bind,certEffect]
  cases parseCertSection env ca r.1 krl r.2 with
  | error e => rfl
  | ok p =>
    rw [ok_bind,ok_bind]
    dsimp only
    split <;> rfl

lemma certEffect_group {g : Group} (hcan : Canonical g.ranges)
    (hb : ∀ rs ∈ g.ranges, 0 < rs.lo ∧ rs.hi < 2 ^ 64) (hl : g.body.length ≤ sshbufSizeMax - 4) :
    certEffect env ca krl g.record = g.effect env.ssl ca krl := by
  rw [certEffect,Group.record,parseCertSection_group hcan hb hl]
  cases g.effect _ ca krl <;> rfl

lemma certEffect_keyIds {ids : List CString} (hl : ∀ id ∈ ids, id.1.length ≤ sshbufSizeMax - 4) :
    (stringsRecord certKeyId (ids.map Subtype.val)).foldlM (certEffect env ca) krl =
      ids.foldlM (fun krl id => sshKrlRevokeCertByKeyId env.ssl krl ca id.1) krl := by
  rw [stringsRecord]
  cases ids with
  | nil => rfl
  | cons id ids =>
    rw [if_neg (by simp),foldlM_cons,certEffect,flatMap_map,parseCertSection_keyIds hl]
    cases foldlM (fun krl id => sshKrlRevokeCertByKeyId _ krl ca id.1) krl (id :: ids) <;> rfl

end

end PkixSsh.Krl
