import PkixSsh.Key.Blob
import PkixSsh.Krl.Serials
import PkixSsh.Lib.SortedTree

/-!
# Key revocation lists

The structure of `krl.c` and the functions that add to it. Every tree is the list of its
entries in the order of its comparison. `HAVE_EVP_SHA256` is defined.
-/

namespace PkixSsh.Krl

open Key X509 Sshbuf IntervalList SortedTree Std List

/-- What a `char *` points to. -/
abbrev CString := {s : Bytes // 0 ∉ s}

lemma not_mem_untilNul (s : Bytes) : 0 ∉ untilNul s := by
  intro h
  have := mem_takeWhile_imp h
  simp at this

def strdup (s : Bytes) : CString := ⟨untilNul s,not_mem_untilNul s⟩

def keyIdCmp (a b : CString) : Ordering := compare (strcmp a.1 b.1) 0

def blobCmp (a b : Bytes) : Ordering :=
  if a.length ≠ b.length then
    let r := memcmp (min a.length b.length) a b
    if r ≠ 0 then compare r 0 else if a.length > b.length then .gt else .lt
  else compare (memcmp a.length a b) 0

lemma compare_byteDiff (a b : UInt8) : compare (byteDiff a b) 0 = compare a b := by
  change _ = compareOfLessAndEq a b
  rw [compareOfLessAndEq]
  split
  · rename_i hlt
    have := UInt8.lt_iff_toNat_lt.mp hlt
    rw [compare_lt_iff_lt,byteDiff]
    omega
  · rename_i hlt
    split
    · rename_i he
      rw [byteDiff_eq_zero.mpr he,compare_self]
    · rename_i hne
      rw [UInt8.lt_iff_toNat_lt] at hlt
      rw [← UInt8.toNat_inj] at hne
      rw [compare_gt_iff_gt,byteDiff]
      omega

lemma compare_strcmp {a b : Bytes} (ha : 0 ∉ a) (hb : 0 ∉ b) :
    compare (strcmp a b) 0 = compare a b := by
  induction a generalizing b with
  | nil =>
    cases b with
    | nil => rfl
    | cons y b =>
      have hy : y ≠ 0 := fun h => hb (h ▸ mem_cons_self)
      have hpos : 0 < y.toNat := Nat.pos_of_ne_zero fun h => hy (UInt8.toNat_inj.mp h)
      rw [List.compare_nil_cons,compare_lt_iff_lt,strcmp,byteDiff]
      simpa using hpos
  | cons x a ih =>
    cases b with
    | nil =>
      have hx : x ≠ 0 := fun h => ha (h ▸ mem_cons_self)
      have hpos : 0 < x.toNat := Nat.pos_of_ne_zero fun h => hx (UInt8.toNat_inj.mp h)
      rw [List.compare_cons_nil,compare_gt_iff_gt,strcmp,byteDiff]
      simpa using hpos
    | cons y b =>
      rw [List.compare_cons_cons,strcmp]
      split
      · rename_i he
        rw [he,compare_self,ih (fun h => ha (mem_cons_of_mem _ h))
          (fun h => hb (mem_cons_of_mem _ h))]
        rfl
      · rename_i hne
        rw [compare_byteDiff]
        cases h : compare x y with
        | lt => rfl
        | eq => exact absurd (LawfulEqCmp.eq_of_compare h) hne
        | gt => rfl

lemma keyIdCmp_eq (a b : CString) : keyIdCmp a b = compare a.1 b.1 := compare_strcmp a.2 b.2

instance : TransCmp keyIdCmp where
  eq_swap := by
    intro a b
    rw [keyIdCmp_eq,keyIdCmp_eq]
    exact OrientedCmp.eq_swap
  isLE_trans := by
    intro a b c
    rw [keyIdCmp_eq,keyIdCmp_eq,keyIdCmp_eq]
    exact TransCmp.isLE_trans

instance : LawfulEqCmp keyIdCmp where
  eq_of_compare := by
    intro a b h
    rw [keyIdCmp_eq] at h
    exact Subtype.ext (LawfulEqCmp.eq_of_compare h)

lemma compare_memcmp_then (a b : Bytes) :
    (compare (memcmp (min a.length b.length) a b) 0).then (compare a.length b.length) =
      compare a b := by
  induction a generalizing b with
  | nil =>
    cases b with
    | nil => rfl
    | cons y b =>
      rfl
  | cons x a ih =>
    cases b with
    | nil =>
      rfl
    | cons y b =>
      rw [List.compare_cons_cons,List.length_cons,List.length_cons,Nat.succ_min_succ,memcmp]
      split
      · rename_i he
        have hlen : compare (a.length + 1) (b.length + 1) = compare a.length b.length := by
          simp [compare,compareOfLessAndEq]
        rw [hlen,ih,he,compare_self]
        rfl
      · rename_i hne
        rw [compare_byteDiff]
        cases h : compare x y with
        | lt => rfl
        | eq => exact absurd (LawfulEqCmp.eq_of_compare h) hne
        | gt => rfl

lemma blobCmp_eq (a b : Bytes) : blobCmp a b = compare a b := by
  rw [← compare_memcmp_then,blobCmp]
  split
  · by_cases hr : memcmp (min a.length b.length) a b = 0
    · rw [hr]
      split
      · rename_i hgt
        exact ((compare_gt_iff_gt).mpr hgt).symm
      · exact ((compare_lt_iff_lt).mpr (by omega)).symm
    · rw [if_pos hr]
      cases h : compare (memcmp _ a b) 0 with
      | lt => rfl
      | eq => exact absurd (LawfulEqCmp.eq_of_compare h) hr
      | gt => rfl
  · rename_i hl
    rw [← not_not.mp hl,Nat.min_self,compare_self]
    cases compare (memcmp _ a b) 0 <;> rfl

instance : TransCmp blobCmp where
  eq_swap := by
    intro a b
    rw [blobCmp_eq,blobCmp_eq]
    exact OrientedCmp.eq_swap
  isLE_trans := by
    intro a b c
    rw [blobCmp_eq,blobCmp_eq,blobCmp_eq]
    exact TransCmp.isLE_trans

instance : LawfulEqCmp blobCmp where
  eq_of_compare := by
    intro a b h
    rw [blobCmp_eq] at h
    exact LawfulEqCmp.eq_of_compare h

@[ext] structure KeyIdTree where
  keyIds : List CString
  sorted : Sorted keyIdCmp keyIds

/-- `struct revoked_blob_tree`, for blobs of one length, or of any length when it is 0. -/
@[ext] structure BlobTree (expectedLen : Nat) where
  blobs : List Bytes
  sorted : Sorted blobCmp blobs
  lengths : ∀ b ∈ blobs, expectedLen = 0 ∨ b.length = expectedLen

@[ext] structure RevokedCerts where
  caKey : Option SshKey
  revokedSerials : SerialTree
  revokedKeyIds : KeyIdTree

structure SshKrl where
  krlVersion : UInt64
  generatedDate : UInt64
  flags : UInt64
  comment : Option CString
  revokedKeys : BlobTree 0
  revokedSha1s : BlobTree 20
  revokedSha256s : BlobTree 32
  revokedCerts : List RevokedCerts

namespace KeyIdTree

def empty : KeyIdTree := ⟨[],.nil⟩

def insert (t : KeyIdTree) (keyId : CString) : KeyIdTree :=
  ⟨SortedTree.insert keyIdCmp keyId t.keyIds,Sorted.insert t.sorted keyId⟩

end KeyIdTree

def BlobTree.empty (expectedLen : Nat) : BlobTree expectedLen :=
  ⟨[],.nil,nofun⟩

def sshKrlInit : SshKrl where
  krlVersion := 0
  generatedDate := 0
  flags := 0
  comment := none
  revokedKeys := .empty 0
  revokedSha1s := .empty 20
  revokedSha256s := .empty 32
  revokedCerts := []

/-- The comparison of `revoked_certs_for_ca_key`; no key is the wildcard. -/
def matchesCa (ssl : Openssl) : Option SshKey → Option SshKey → Bool
  | none, none => true
  | some a, some b => sshkeyEqual ssl a b
  | _, _ => false

def copyCa : Option SshKey → Except SshErr (Option SshKey)
  | none => .ok none
  | some k => (sshkeyFromPrivate k).map some

/-- `revoked_certs_for_ca_key` that may create an entry, with what its caller does to the
entry. -/
def updateCa (ssl : Openssl) (ca : Option SshKey) (f : RevokedCerts → RevokedCerts) :
    List RevokedCerts → Except SshErr (List RevokedCerts)
  | [] => do
    let k ← copyCa ca
    return [f ⟨k,.empty,.empty⟩]
  | rc :: rcs =>
    if matchesCa ssl rc.caKey ca then .ok (f rc :: rcs)
    else do
      let rcs ← updateCa ssl ca f rcs
      return rc :: rcs

def RevokedCerts.insertSerials (rs : RevokedSerial) (h : 0 < rs.lo ∧ rs.hi < 2 ^ 64)
    (rc : RevokedCerts) : RevokedCerts :=
  { rc with revokedSerials := insertSerialRange rc.revokedSerials rs h }

def RevokedCerts.insertKeyId (keyId : CString) (rc : RevokedCerts) : RevokedCerts :=
  { rc with revokedKeyIds := rc.revokedKeyIds.insert keyId }

/-- The range of two serials that `ssh_krl_revoke_cert_by_serial_range` accepts. -/
def serialRange (lo hi : UInt64) (h : ¬ (lo > hi ∨ lo = 0)) : RevokedSerial :=
  ⟨lo.toNat,hi.toNat,by
    rw [not_or] at h
    exact UInt64.le_iff_toNat_le.mp (UInt64.not_lt.mp h.1)⟩

lemma serialRange_bound {lo hi : UInt64} (h : ¬ (lo > hi ∨ lo = 0)) :
    0 < (serialRange lo hi h).lo ∧ (serialRange lo hi h).hi < 2 ^ 64 := by
  refine ⟨Nat.pos_of_ne_zero fun h0 => h (.inr ?_),hi.toNat_lt⟩
  exact UInt64.toNat_inj.mp h0

section

variable (ssl : Openssl) (c : Codec) (krl : SshKrl) (ca : Option SshKey)

def sshKrlRevokeCertBySerialRange (lo hi : UInt64) : Except SshErr SshKrl :=
  if h : lo > hi ∨ lo = 0 then .error .invalidArgument
  else do
    let rcs ← updateCa ssl ca (.insertSerials (serialRange lo hi h) (serialRange_bound h))
      krl.revokedCerts
    return { krl with revokedCerts := rcs }

def sshKrlRevokeCertBySerial (serial : UInt64) : Except SshErr SshKrl :=
  sshKrlRevokeCertBySerialRange ssl krl ca serial serial

def sshKrlRevokeCertByKeyId (keyId : Bytes) : Except SshErr SshKrl := do
  let rcs ← updateCa ssl ca (.insertKeyId (strdup keyId)) krl.revokedCerts
  return { krl with revokedCerts := rcs }

def sshkeyDropCert (k : SshKey) : Except SshErr SshKey :=
  if !sshkeyTypeIsCert k.type then .error .keyTypeUnknown
  else .ok { k with cert := none, type := sshkeyTypePlain k.type }

def plainKeyBlob (key : SshKey) : Except SshErr Bytes := do
  let kcopy ← sshkeyFromPrivate key
  let kcopy ← if sshkeyIsCert kcopy then sshkeyDropCert kcopy else .ok kcopy
  toBlobBuf c kcopy

def revokeBlob {n : Nat} (t : BlobTree n) (blob : Bytes) (h : n = 0 ∨ blob.length = n) :
    BlobTree n where
  blobs := SortedTree.insert blobCmp blob t.blobs
  sorted := Sorted.insert t.sorted blob
  lengths := by
    intro b hb
    rcases mem_insert.mp hb with rfl | hb
    · exact h
    · exact t.lengths b hb

def sshKrlRevokeKeyExplicit (key : SshKey) : Except SshErr SshKrl := do
  let blob ← plainKeyBlob c key
  return { krl with revokedKeys := revokeBlob krl.revokedKeys blob (.inl rfl) }

def sshKrlRevokeKeySha1 (p : Bytes) : Except SshErr SshKrl :=
  if h : p.length = 20 then
    .ok { krl with revokedSha1s := revokeBlob krl.revokedSha1s p (.inr h) }
  else .error .invalidFormat

def sshKrlRevokeKeySha256 (p : Bytes) : Except SshErr SshKrl :=
  if h : p.length = 32 then
    .ok { krl with revokedSha256s := revokeBlob krl.revokedSha256s p (.inr h) }
  else .error .invalidFormat

inductive Revocation where
  | certBySerialRange (ca : Option SshKey) (lo hi : UInt64)
  | certBySerial (ca : Option SshKey) (serial : UInt64)
  | certByKeyId (ca : Option SshKey) (keyId : Bytes)
  | keyExplicit (key : SshKey)
  | keySha1 (p : Bytes)
  | keySha256 (p : Bytes)

def revoke : Revocation → Except SshErr SshKrl
  | .certBySerialRange ca lo hi => sshKrlRevokeCertBySerialRange ssl krl ca lo hi
  | .certBySerial ca serial => sshKrlRevokeCertBySerial ssl krl ca serial
  | .certByKeyId ca keyId => sshKrlRevokeCertByKeyId ssl krl ca keyId
  | .keyExplicit key => sshKrlRevokeKeyExplicit c krl key
  | .keySha1 p => sshKrlRevokeKeySha1 krl p
  | .keySha256 p => sshKrlRevokeKeySha256 krl p

def revokeAll (revocations : List Revocation) : Except SshErr SshKrl :=
  revocations.foldlM (revoke ssl c) sshKrlInit

end

end PkixSsh.Krl
