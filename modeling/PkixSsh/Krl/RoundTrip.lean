import PkixSsh.Krl.Decode
import PkixSsh.Key.SignatureShape
import PkixSsh.X509.NameMatching

/-!
# Writing and reading revocation lists

A list is read back as it was, unless serials were written in a bitmap too long to be read.
-/

namespace PkixSsh.Krl

open Key X509 Sshbuf IntervalList SortedTree Nat
open List hiding Mem mem_cons

def RevokedCerts.addRange (rs : RevokedSerial) (rc : RevokedCerts) : RevokedCerts :=
  if h : 0 < rs.lo ∧ rs.hi < 2 ^ 64 then rc.insertSerials rs h else rc

def changeCa (ssl : Openssl) (ca : Option SshKey) (krl : SshKrl)
    (f : RevokedCerts → RevokedCerts) : Except SshErr SshKrl :=
  (updateCa ssl ca f krl.revokedCerts).map fun rcs => { krl with revokedCerts := rcs }

variable {ssl : Openssl} {ca : Option SshKey} {krl : SshKrl} {n : Nat} {env : Env} {y : Crypto}
  {now : UInt64} {b : Bytes}

lemma revokeRange_eq {rs : RevokedSerial} (h : 0 < rs.lo ∧ rs.hi < 2 ^ 64) :
    revokeRange ssl ca krl rs = changeCa ssl ca krl (.addRange rs) := by
  have hle := rs.le
  have hlo : rs.lo.toUInt64.toNat = rs.lo := by
    rw [UInt64.toNat_ofNat',mod_eq_of_lt (by omega)]
  have hhi : rs.hi.toUInt64.toNat = rs.hi := by
    rw [UInt64.toNat_ofNat',mod_eq_of_lt h.2]
  have hok : ¬ (rs.lo.toUInt64 > rs.hi.toUInt64 ∨ rs.lo.toUInt64 = 0) := by
    rw [gt_iff_lt,UInt64.lt_iff_toNat_lt,← UInt64.toNat_inj]
    have hz : (0 : UInt64).toNat = 0 := rfl
    omega
  have hrange : serialRange _ _ hok = rs := NatInterval.ext hlo hhi
  have hadd : RevokedCerts.addRange rs = .insertSerials rs h := by
    funext rc
    exact dif_pos h
  have hins : ∀ (t : RevokedSerial) (ht : 0 < t.lo ∧ t.hi < 2 ^ 64), t = rs →
      RevokedCerts.insertSerials t ht = .insertSerials rs h := by
    rintro t ht rfl
    rfl
  rw [revokeRange,sshKrlRevokeCertBySerialRange,dif_neg hok,hins _ _ hrange,changeCa,hadd]
  cases updateCa ssl ca _ _ <;> rfl

lemma revokeKeyId_eq (id : CString) :
    sshKrlRevokeCertByKeyId ssl krl ca id.1 = changeCa ssl ca krl (.insertKeyId id) := by
  have hdup : strdup id.1 = id := Subtype.ext (untilNul_of_not_mem id.2)
  rw [sshKrlRevokeCertByKeyId,hdup,changeCa]
  cases updateCa ssl ca _ _ <;> rfl

lemma foldlM_changeCa (fs : List (RevokedCerts → RevokedCerts)) :
    fs.foldlM (changeCa ssl ca) krl =
      (fs.foldlM (fun rcs f => updateCa ssl ca f rcs) krl.revokedCerts).map
        fun rcs => { krl with revokedCerts := rcs } := by
  induction fs generalizing krl with
  | nil => rfl
  | cons f fs ih =>
    rw [foldlM_cons,foldlM_cons,changeCa]
    cases updateCa ssl ca f _ with
    | error e => rfl
    | ok rcs => exact ih

def RevokedCerts.changes (rc : RevokedCerts) : List (RevokedCerts → RevokedCerts) :=
  (rc.revokedSerials.groups.flatMap Group.revocations).map .addRange ++
    rc.revokedKeyIds.keyIds.map .insertKeyId

lemma addRange_caKey (rs : RevokedSerial) (rc : RevokedCerts) :
    (rc.addRange rs).caKey = rc.caKey ∧ (rc.addRange rs).revokedKeyIds = rc.revokedKeyIds := by
  rw [RevokedCerts.addRange]
  split <;> exact ⟨rfl,rfl⟩

lemma changes_caKey {rc : RevokedCerts} {f : RevokedCerts → RevokedCerts}
    (hf : f ∈ rc.changes) (rc' : RevokedCerts) : (f rc').caKey = rc'.caKey := by
  rcases mem_append.mp hf with hf | hf
  · obtain ⟨rs,-,rfl⟩ := mem_map.mp hf
    exact (addRange_caKey rs rc').1
  · obtain ⟨id,-,rfl⟩ := mem_map.mp hf
    rfl

lemma foldl_addRange {rss : List RevokedSerial} (h : ∀ rs ∈ rss, 0 < rs.lo ∧ rs.hi < 2 ^ 64)
    (rc : RevokedCerts) : (rss.foldl (fun rc rs => rc.addRange rs) rc).caKey = rc.caKey ∧
      (rss.foldl (fun rc rs => rc.addRange rs) rc).revokedKeyIds = rc.revokedKeyIds ∧
      ∀ n, (rss.foldl (fun rc rs => rc.addRange rs) rc).revokedSerials.Contains n ↔
        rc.revokedSerials.Contains n ∨ Mem rss n := by
  induction rss generalizing rc with
  | nil => exact ⟨rfl,rfl,fun n => by simp⟩
  | cons rs rss ih =>
    have hrs := h rs mem_cons_self
    obtain ⟨hkey,hids,hmem⟩ := ih (fun x hx => h x (mem_cons_of_mem _ hx)) (rc.addRange rs)
    obtain ⟨hkey',hids'⟩ := addRange_caKey rs rc
    refine ⟨hkey.trans hkey',hids.trans hids',fun n => ?_⟩
    rw [foldl_cons,hmem n,mem_cons,← or_assoc]
    apply or_congr_left
    rw [RevokedCerts.addRange,dif_pos hrs]
    exact insertSerialRange_contains _ _ hrs n

lemma foldl_insertKeyId (ids : List CString) (rc : RevokedCerts) :
    (ids.foldl (fun rc id => rc.insertKeyId id) rc).caKey = rc.caKey ∧
      (ids.foldl (fun rc id => rc.insertKeyId id) rc).revokedSerials = rc.revokedSerials ∧
      (ids.foldl (fun rc id => rc.insertKeyId id) rc).revokedKeyIds.keyIds =
        ids.foldl (fun l id => SortedTree.insert keyIdCmp id l) rc.revokedKeyIds.keyIds := by
  induction ids generalizing rc with
  | nil => exact ⟨rfl,rfl,rfl⟩
  | cons id ids ih =>
    obtain ⟨hkey,hserials,hids⟩ := ih _
    exact ⟨hkey,hserials,hids⟩

lemma revocations_bound {t : SerialTree} {rs : RevokedSerial}
    (h : rs ∈ t.groups.flatMap Group.revocations) : 0 < rs.lo ∧ rs.hi < 2 ^ 64 := by
  obtain ⟨g,hg,hrs⟩ := mem_flatMap.mp h
  have hcan := mem_plan_canonical t.canonical hg
  have hin : ∀ n, Mem _ n → t.Contains n := fun n hn => mem_plan_iff.mp ⟨g,hg,hn⟩
  have hlo := hin _ ((Group.mem_revocations hcan).mp (mem_lo hrs))
  have hhi := hin _ ((Group.mem_revocations hcan).mp (mem_hi hrs))
  exact ⟨hlo.bound.1,hhi.bound.2⟩

lemma mem_groups_revocations {t : SerialTree} :
    Mem (t.groups.flatMap Group.revocations) n ↔ t.Contains n := by
  have hgroups : t.Contains n ↔ ∃ g ∈ t.groups, Mem _ n := mem_plan_iff.symm
  rw [hgroups]
  simp only [Mem,mem_flatMap]
  constructor
  · rintro ⟨rs,⟨g,hg,hrs⟩,hn⟩
    have hcan := mem_plan_canonical t.canonical hg
    exact ⟨g,hg,(Group.mem_revocations hcan).mp ⟨rs,hrs,hn⟩⟩
  · rintro ⟨g,hg,hn⟩
    have hcan := mem_plan_canonical t.canonical hg
    obtain ⟨rs,hrs,hn⟩ := (Group.mem_revocations hcan).mpr hn
    exact ⟨rs,⟨g,hg,hrs⟩,hn⟩

lemma foldl_changes (rc : RevokedCerts) :
    rc.changes.foldl (fun rc f => f rc) (.fresh rc.caKey) = rc := by
  rw [RevokedCerts.changes,foldl_append,foldl_map,foldl_map]
  obtain ⟨hkey,hids,hmem⟩ := foldl_addRange (fun rs hrs => revocations_bound hrs) _
  generalize foldl _ _
    _ = rc1 at hkey hids hmem ⊢
  obtain ⟨hkey',hserials,hids'⟩ := foldl_insertKeyId _ rc1
  generalize foldl _ rc1
    _ = rc2 at hkey' hserials hids' ⊢
  have htree : rc2.revokedSerials = rc.revokedSerials := by
    rw [hserials]
    apply SerialTree.ext_contains
    intro n
    rw [hmem n,mem_groups_revocations]
    exact or_iff_right (mem_nil n)
  have hkeyIds : rc2.revokedKeyIds.keyIds = rc.revokedKeyIds.keyIds := by
    rw [hids',hids]
    exact foldl_insert rc.revokedKeyIds.sorted
  exact RevokedCerts.ext (hkey'.trans hkey) htree (KeyIdTree.ext hkeyIds)

/-- `sshkey_from_blob` inverts `sshkey_puts` on the key. A key from a blob has no X.509
identity. -/
def Inverted (c : Codec) (k : SshKey) : Prop :=
  k.x509Data = none ∧
    ∀ b, toBlobBuf c k = .ok b → (c.sshkeyFromBlob b).map Subtype.val = .ok k

def RevokedCerts.Fits (rc : RevokedCerts) : Prop := ∀ g ∈ rc.revokedSerials.groups, g.Fits

instance (rc : RevokedCerts) : Decidable rc.Fits := inferInstanceAs (Decidable (∀ g ∈ _, _))

section

variable {env : Env} {krl : SshKrl} {blob : Bytes} {rc : RevokedCerts}

lemma parseCa_ok {ca : Option SshKey} (hinv : ∀ k ∈ ca, Inverted env.codec k)
    (h : CaBlob env.codec ca blob) :
    parseCa env blob = .ok ca ∧ matchesCa env.ssl ca ca = true := by
  cases ca with
  | none =>
    have hnil : blob = [] := h
    subst hnil
    exact ⟨rfl,rfl⟩
  | some k =>
    obtain ⟨hx,hfrom⟩ := hinv k rfl
    have hblob : toBlobBuf _ k = .ok blob := h
    have hread := hfrom blob hblob
    rw [parseCa,if_pos (by simpa using toBlobBuf_ne_nil hblob)]
    cases hk : env.codec.sshkeyFromBlob blob with
    | error e =>
      rw [hk] at hread
      cases hread
    | ok k' =>
      rw [hk] at hread
      cases hread
      exact ⟨rfl,sshkeyEqual_self _ hx k'.2.1⟩

lemma length_le_flatMap {α : Type} {f : α → Bytes} {xs : List α} {x : α} (h : x ∈ xs) :
    (f x).length ≤ (xs.flatMap f).length := by
  exact (sublist_flatten_of_mem (mem_map_of_mem h)).length_le

lemma foldlM_flatMap {σ ι κ : Type} {f : ι → List κ} {step : σ → κ → Except SshErr σ}
    {xs : List ι} {s : σ} :
    (xs.flatMap f).foldlM step s = xs.foldlM (fun s x => (f x).foldlM step s) s := by
  induction xs generalizing s with
  | nil => rfl
  | cons x xs ih =>
    rw [flatMap_cons,foldlM_append,foldlM_cons]
    cases (f x).foldlM step s with
    | error e => rfl
    | ok s' => exact ih

lemma length_le_of_mem_records {rs : List (UInt8 × Bytes)}
    (hl : (rs.flatMap recordBytes).length ≤ sshbufSizeMax) :
    ∀ r ∈ rs, r.2.length ≤ sshbufSizeMax - 4 := by
  intro r hr
  have hle := length_le_flatMap (f := recordBytes) hr
  rw [recordBytes,length_cons,length_framed] at hle
  omega

lemma length_records
    (hl : (framed blob ++ (framed [] ++ rc.records.flatMap recordBytes)).length ≤
      sshbufSizeMax) :
    ∀ r ∈ rc.records, r.2.length ≤ sshbufSizeMax - 4 := by
  apply length_le_of_mem_records
  simp only [length_append] at hl
  omega

lemma parseRevokedCerts_records (hinv : ∀ k ∈ rc.caKey, Inverted env.codec k)
    (hblob : CaBlob env.codec rc.caKey blob)
    (hl : (framed blob ++ (framed [] ++ rc.records.flatMap recordBytes)).length ≤
      sshbufSizeMax)
    : parseRevokedCerts env krl
        (framed blob ++ (framed [] ++ rc.records.flatMap recordBytes)) =
      rc.records.foldlM (certEffect env rc.caKey) krl := by
  have hrecords := length_records hl
  simp only [length_append,length_framed] at hl
  rw [parseRevokedCerts,getString_framed (by omega),ok_bind]
  dsimp only
  rw [getString_framed (by simp),ok_bind]
  rw [(parseCa_ok hinv hblob).1,ok_bind,parseCertSections_records hrecords]

lemma length_le_of_mem_strings {type : UInt8} {strings : List Bytes}
    (hl : ∀ r ∈ stringsRecord type strings, r.2.length ≤ sshbufSizeMax - 4) :
    ∀ x ∈ strings, x.length ≤ sshbufSizeMax - 4 := by
  intro x hx
  rw [stringsRecord,if_neg (ne_nil_of_mem hx)] at hl
  have hle := length_le_flatMap (f := framed) hx
  rw [length_framed] at hle
  exact le_trans (le_trans (le_add_right _ _) hle) (hl _ (mem_singleton_self _))

variable (hl : ∀ r ∈ rc.records, r.2.length ≤ sshbufSizeMax - 4)

include hl

lemma foldlM_certEffect :
    rc.records.foldlM (certEffect env rc.caKey) krl =
      (rc.revokedSerials.groups.foldlM (Group.effect env.ssl rc.caKey) krl >>= fun krl =>
        rc.revokedKeyIds.keyIds.foldlM (fun krl id =>
          sshKrlRevokeCertByKeyId env.ssl krl rc.caKey id.1) krl) := by
  have hids : ∀ id ∈ rc.revokedKeyIds.keyIds, id.1.length ≤ sshbufSizeMax - 4 := by
    intro id hid
    exact length_le_of_mem_strings (fun r hr => hl r (mem_append_right _ hr)) id.1
      (mem_map_of_mem hid)
  have hgroups : ∀ g ∈ rc.revokedSerials.groups, ∀ krl,
      certEffect env rc.caKey krl g.record = g.effect env.ssl rc.caKey krl := by
    intro g hg krl
    refine certEffect_group (mem_plan_canonical rc.revokedSerials.canonical hg)
      (fun rs hrs => rc.revokedSerials.bound rs ((mem_plan_sublist hg).mem hrs)) ?_
    exact hl _ (mem_append_left _ (mem_map_of_mem hg))
  rw [RevokedCerts.records,foldlM_append,foldlM_map,foldlM_congr hgroups]
  congr 1
  funext krl
  exact certEffect_keyIds hids

lemma foldlM_certEffect_of_fits (hf : rc.Fits) : rc.records.foldlM (certEffect env rc.caKey) krl =
      rc.changes.foldlM (changeCa env.ssl rc.caKey) krl := by
  have heffect : ∀ g ∈ rc.revokedSerials.groups, ∀ krl, g.effect env.ssl rc.caKey krl =
      g.revocations.foldlM (revokeRange env.ssl rc.caKey) krl := by
    intro g hg krl
    exact if_pos (hf g hg)
  have hranges : ∀ rs ∈ rc.revokedSerials.groups.flatMap _, ∀ krl,
      revokeRange env.ssl rc.caKey krl rs = changeCa _ _ krl _ :=
    fun rs hrs krl => revokeRange_eq (revocations_bound hrs)
  rw [foldlM_certEffect hl,RevokedCerts.changes,foldlM_append,foldlM_congr heffect,
    ← foldlM_flatMap,foldlM_congr hranges,foldlM_map]
  congr 1
  funext krl
  rw [foldlM_map]
  exact foldlM_congr (fun id _ krl => revokeKeyId_eq id) krl

lemma fits_of_foldlM_certEffect {krl' : SshKrl}
    (h : rc.records.foldlM (certEffect env rc.caKey) krl = .ok krl') : rc.Fits := by
  rw [foldlM_certEffect hl] at h
  obtain ⟨krl1,h,-⟩ := bind_eq_ok.mp h
  intro g hg
  obtain ⟨t,t',ht⟩ := foldlM_ok_mem h g hg
  by_contra hno
  rw [Group.effect,if_neg hno] at ht
  cases ht

omit hl

lemma changes_ne_nil (h : rc.revokedSerials.ranges ≠ [] ∨ rc.revokedKeyIds.keyIds ≠ []) :
    rc.changes ≠ [] := by
  intro hnil
  rw [RevokedCerts.changes,append_eq_nil_iff,map_eq_nil_iff,map_eq_nil_iff] at hnil
  rcases h with h | h
  · obtain ⟨rs,hrs⟩ := exists_mem_of_ne_nil _ h
    have hin : rc.revokedSerials.Contains rs.lo := mem_lo hrs
    rw [← mem_groups_revocations,hnil.1] at hin
    exact mem_nil _ hin
  · exact h hnil.2

lemma parseRevokedCerts_entry {sect : Bytes} (hinv : ∀ k ∈ rc.caKey, Inverted env.codec k)
    (hsect : revokedCertsGenerate env.codec rc [] = .ok sect) (hl : sect.length ≤ sshbufSizeMax)
    (hentries : EntriesInv env.ssl (krl.revokedCerts ++ [rc])) (hf : rc.Fits) :
    parseRevokedCerts env krl sect = .ok { krl with revokedCerts := krl.revokedCerts ++ [rc] } := by
  obtain ⟨blob,hblob,rfl⟩ := revokedCertsGenerate_ok hsect
  have hrc : rc ∈ krl.revokedCerts ++ [rc] := mem_append_right _ (mem_singleton_self _)
  have hapart : ∀ rc' ∈ krl.revokedCerts, matchesCa env.ssl rc'.caKey rc.caKey = false := by
    intro rc' hrc'
    exact (pairwise_append.mp hentries.apart).2.2 rc' hrc' rc (mem_singleton_self _)
  rw [parseRevokedCerts_records hinv hblob hl,
    foldlM_certEffect_of_fits (length_records hl) hf,foldlM_changeCa,
    foldlM_updateCa hapart (parseCa_ok hinv hblob).2 (hentries.copied rc hrc)
      (fun f hf rc' => changes_caKey hf rc'),
    if_neg (changes_ne_nil (hentries.nonempty rc hrc)),foldl_changes]
  rfl

lemma fits_of_parseRevokedCerts {sect : Bytes} {krl' : SshKrl}
    (hinv : ∀ k ∈ rc.caKey, Inverted env.codec k)
    (hsect : revokedCertsGenerate env.codec rc [] = .ok sect) (hl : sect.length ≤ sshbufSizeMax)
    (h : parseRevokedCerts env krl sect = .ok krl') : rc.Fits := by
  obtain ⟨blob,hblob,rfl⟩ := revokedCertsGenerate_ok hsect
  rw [parseRevokedCerts_records hinv hblob hl] at h
  exact fits_of_foldlM_certEffect (length_records hl) h

end

def addBlob {n : Nat} (t : BlobTree n) (b : Bytes) : Except SshErr (BlobTree n) :=
  if h : n = 0 ∨ b.length = n then .ok (revokeBlob t b h) else .error .invalidFormat

lemma foldlM_addBlob {bs : List Bytes} (h : ∀ b ∈ bs, n = 0 ∨ b.length = n) (t : BlobTree n) :
    ∃ t', bs.foldlM addBlob t = .ok t' ∧
      t'.blobs = bs.foldl (fun l b => SortedTree.insert blobCmp b l) t.blobs := by
  induction bs generalizing t with
  | nil => exact ⟨t,rfl,rfl⟩
  | cons b bs ih =>
    have hb := h b mem_cons_self
    obtain ⟨t',ht',hbs⟩ := ih (fun x hx => h x (mem_cons_of_mem _ hx)) (revokeBlob t b hb)
    refine ⟨t',?_,hbs⟩
    rw [foldlM_cons,addBlob,dif_pos hb]
    exact ht'

lemma blobSection_blobs {t : BlobTree n} (hl : ∀ b ∈ t.blobs, b.length ≤ sshbufSizeMax - 4) :
    blobSection (.empty n) (t.blobs.flatMap framed) = .ok t := by
  have hread : blobSection (.empty n) (t.blobs.flatMap framed) =
      t.blobs.foldlM addBlob (.empty n) := by
    apply untilEmpty_flatMap
    intro b hb
    have hne : framed b ≠ [] := by
      rw [← length_pos_iff,length_framed]
      omega
    refine ⟨hne,fun target rest => ?_⟩
    rw [getString_framed (hl b hb),ok_bind,addBlob]
    dsimp only
    split <;> rfl
  obtain ⟨t',ht',hbs⟩ := foldlM_addBlob t.lengths _
  rw [hread,ht']
  congr 1
  apply BlobTree.ext
  rw [hbs]
  exact foldl_insert t.sorted

/-- A list with the header of another one and nothing in it. -/
def SshKrl.headed (krl : SshKrl) : SshKrl :=
  { sshKrlInit with
    krlVersion := krl.krlVersion
    generatedDate := krl.generatedDate
    flags := krl.flags
    comment := some (krl.comment.getD (strdup [])) }

lemma getHeader_headerBytes (hl : krl.headerBytes.length ≤ sshbufSizeMax) (rest : Bytes) :
    getHeader (krl.headerBytes ++ rest) = .ok (krl.headed,rest) := by
  have hu64 : ∀ n : UInt64, n.toNat < 256 ^ 8 := fun n => n.toNat_lt
  have hcomment : 0 ∉ krl.comment.elim [] Subtype.val := by
    cases krl.comment with
    | none => exact not_mem_nil
    | some s => exact s.2
  have hdup : strdup (krl.comment.elim [] Subtype.val) = krl.comment.getD (strdup []) := by
    cases krl.comment with
    | none => rfl
    | some s => exact Subtype.ext (untilNul_of_not_mem s.2)
  have hclen : (krl.comment.elim [] Subtype.val).length ≤ sshbufSizeMax - 4 := by
    simp only [SshKrl.headerBytes,length_append,length_framed] at hl
    omega
  simp only [SshKrl.headerBytes,append_assoc]
  rw [getHeader,getU32,getUint_encode (by decide),ok_bind]
  dsimp only
  rw [getU64,getUint_encode (hu64 _),ok_bind]
  rw [getUint_encode (hu64 _),ok_bind]
  rw [getUint_encode (hu64 _),ok_bind]
  rw [getString_framed (by simp),ok_bind]
  rw [getCstring_framed hcomment hclen,ok_bind]
  rw [hdup]
  simp only [UInt64.ofNat_toNat]
  rfl

section

variable {env : Env} {krl : SshKrl} {rs : List (UInt8 × Bytes)}

def sectionEffect (env : Env) (krl : SshKrl) (r : UInt8 × Bytes) : Except SshErr SshKrl :=
  (parseSection env krl r.1 r.2 []).map Prod.fst

lemma parseSection_eq {r : UInt8 × Bytes} (ht : r.1 ≠ sectionSignature) (copy : Bytes) :
    parseSection env krl r.1 r.2 copy = (sectionEffect env krl r).map (·,copy) := by
  simp only [sectionEffect,parseSection]
  split_ifs
  · cases parseRevokedCerts env krl r.2 <;> rfl
  · cases blobSection _ r.2 <;> rfl
  · cases blobSection _ r.2 <;> rfl
  · cases blobSection _ r.2 <;> rfl
  · rfl

lemma parseSections_records (hl : ∀ r ∈ rs, r.2.length ≤ sshbufSizeMax - 4)
    (ht : ∀ r ∈ rs, r.1 ≠ sectionSignature) :
    parseSections env krl (rs.flatMap recordBytes) = rs.foldlM (sectionEffect env) krl := by
  rw [parseSections]
  apply untilEmpty_flatMap
  intro r hr
  refine ⟨cons_ne_nil _ _,fun krl rest => ?_⟩
  rw [recordBytes,cons_append,getU8,ok_bind]
  dsimp only
  rw [getString_framed (hl r hr)]
  exact parseSection_eq (ht r hr) rest

lemma verifySignatures_records (hl : ∀ r ∈ rs, r.2.length ≤ sshbufSizeMax - 4)
    (ht : ∀ r ∈ rs, r.1 ≠ sectionSignature) (buf : Bytes) :
    verifySignatures env buf (rs.flatMap recordBytes) = .ok (false,[]) := by
  have hread : verifySignatures env buf (rs.flatMap recordBytes) =
      rs.foldlM (fun s _ =>
        if s.1 then (.error .invalidFormat) else .ok s) (false,[]) := by
    apply untilEmpty_flatMap
    intro r hr
    refine ⟨cons_ne_nil _ _,?_⟩
    rintro ⟨sigSeen,caUsed⟩ rest
    rw [recordBytes,cons_append,getU8]
    dsimp only
    rw [ok_bind]
    rw [getString_framed (hl r hr),ok_bind]
    rw [if_pos (ht r hr)]
    split <;> rfl
  rw [hread]
  clear hl ht hread
  induction rs with
  | nil => rfl
  | cons r rs ih => exact ih

lemma sectionEffect_explicitKey (env : Env) (krl : SshKrl) (sect : Bytes) :
    sectionEffect env krl (sectionExplicitKey,sect) =
      (blobSection krl.revokedKeys sect).map fun t => { krl with revokedKeys := t } := by
  unfold sectionEffect parseSection
  cases blobSection _ sect <;> rfl

lemma sectionEffect_sha1 (env : Env) (krl : SshKrl) (sect : Bytes) :
    sectionEffect env krl (sectionFingerprintSha1,sect) =
      (blobSection krl.revokedSha1s sect).map fun t => { krl with revokedSha1s := t } := by
  unfold sectionEffect parseSection
  cases blobSection krl.revokedSha1s sect <;> rfl

lemma sectionEffect_sha256 (env : Env) (krl : SshKrl) (sect : Bytes) :
    sectionEffect env krl (sectionFingerprintSha256,sect) =
      (blobSection krl.revokedSha256s sect).map fun t => { krl with revokedSha256s := t } := by
  unfold sectionEffect parseSection
  cases blobSection krl.revokedSha256s sect <;> rfl

lemma foldlM_stringsRecord {n : Nat} {t : BlobTree n} {type : UInt8} (set : BlobTree n → SshKrl)
    (hl : ∀ r ∈ stringsRecord type t.blobs, r.2.length ≤ sshbufSizeMax - 4)
    (hread : ∀ sect, sectionEffect env (set (.empty n)) (type,sect) =
      (blobSection (.empty n) sect).map set) :
    (stringsRecord type t.blobs).foldlM (sectionEffect env) (set (.empty n)) = .ok (set t) := by
  have hb := length_le_of_mem_strings hl
  rw [stringsRecord]
  split
  next hnil =>
    have ht : t = .empty n := BlobTree.ext hnil
    rw [ht]
    rfl
  next =>
    rw [foldlM_cons,hread,blobSection_blobs hb]
    rfl

lemma foldlM_blobRecords {krl0 : SshKrl}
    (hl : ∀ r ∈ krl.blobRecords, r.2.length ≤ sshbufSizeMax - 4)
    (hkeys : krl0.revokedKeys = .empty 0) (hsha1s : krl0.revokedSha1s = .empty 20)
    (hsha256s : krl0.revokedSha256s = .empty 32) : krl.blobRecords.foldlM (sectionEffect env) krl0 =
      .ok { krl0 with
        revokedKeys := krl.revokedKeys
        revokedSha1s := krl.revokedSha1s
        revokedSha256s := krl.revokedSha256s } := by
  have h1 := fun r hr => hl r (mem_append_left _ hr)
  have h2 := fun r hr => hl r (mem_append_right _ (mem_append_left _ hr))
  have h3 := fun r hr => hl r (mem_append_right _ (mem_append_right _ hr))
  obtain ⟨ver,date,flags,comment,keys,sha1s,sha256s,rcs⟩ := krl0
  subst hkeys hsha1s hsha256s
  have hk := foldlM_stringsRecord (fun t => ⟨ver,date,flags,comment,t,.empty 20,.empty 32,rcs⟩) h1
    fun sect => sectionEffect_explicitKey env _ sect
  have hs := foldlM_stringsRecord
    (fun t => ⟨ver,date,flags,comment,krl.revokedKeys,t,.empty 32,rcs⟩) h2
    fun sect => sectionEffect_sha1 env _ sect
  have hs' := foldlM_stringsRecord
    (fun t => ⟨ver,date,flags,comment,krl.revokedKeys,krl.revokedSha1s,t,rcs⟩) h3
    fun sect => sectionEffect_sha256 env _ sect
  rw [SshKrl.blobRecords,foldlM_append,hk,ok_bind,foldlM_append,hs,ok_bind,hs']

lemma foldlM_certSections {rcs : List RevokedCerts} {sects : List Bytes}
    (hall : List.Forall₂ (fun rc sect => revokedCertsGenerate env.codec rc [] = .ok sect) rcs sects)
    (hinv : ∀ rc ∈ rcs, ∀ k ∈ rc.caKey, Inverted env.codec k)
    (hl : ∀ sect ∈ sects, sect.length ≤ sshbufSizeMax)
    (hentries : EntriesInv env.ssl (krl.revokedCerts ++ rcs)) (hf : ∀ rc ∈ rcs, rc.Fits) :
    (sects.map fun sect => (sectionCertificates,sect)).foldlM (sectionEffect env) krl =
      .ok { krl with revokedCerts := krl.revokedCerts ++ rcs } := by
  induction hall generalizing krl with
  | nil =>
    rw [append_nil]
    rfl
  | @cons rc sect rcs sects hsect hall ih =>
    have hassoc : krl.revokedCerts ++ rc :: rcs = (krl.revokedCerts ++ [rc]) ++ rcs := by simp
    rw [hassoc] at hentries ⊢
    have hone : EntriesInv _ _ :=
      { apart := (pairwise_append.mp hentries.apart).1
        copied := fun rc' h => hentries.copied rc' (mem_append_left _ h)
        nonempty := fun rc' h => hentries.nonempty rc' (mem_append_left _ h) }
    have hstep : sectionEffect env krl (sectionCertificates,sect) =
        .ok { krl with revokedCerts := krl.revokedCerts ++ [rc] } := by
      rw [sectionEffect,parseSection,parseRevokedCerts_entry (hinv rc mem_cons_self)
        hsect (hl sect mem_cons_self)
          hone (hf rc mem_cons_self)]
      rfl
    rw [map_cons,foldlM_cons,hstep,ok_bind,
      ih (fun rc' h => hinv rc' (mem_cons_of_mem _ h))
        (fun s h => hl s (mem_cons_of_mem _ h)) hentries
        (fun rc' h => hf rc' (mem_cons_of_mem _ h))]

end

lemma blobRecords_types {r : UInt8 × Bytes} (h : r ∈ krl.blobRecords) :
    r.1 ≠ sectionSignature := by
  have hstrings : ∀ {type : UInt8} {strings : List Bytes}, r ∈ stringsRecord type strings →
      r.1 = type := by
    intro type strings hr
    rw [stringsRecord] at hr
    split at hr
    · cases hr
    · rw [List.mem_singleton.mp hr]
  rw [SshKrl.blobRecords,List.mem_append,List.mem_append] at h
  rcases h with h | h | h
  all_goals
    rw [hstrings h]
    decide

lemma sshKrlFromBlob_records (h : sshKrlToBlob env.codec y now krl [] = .ok b) :
    ∃ sects, List.Forall₂ (fun rc sect => revokedCertsGenerate env.codec rc [] = .ok sect)
        krl.revokedCerts sects ∧
      (∀ r ∈ (sects.map fun sect => (sectionCertificates,sect)) ++ krl.blobRecords,
        r.2.length ≤ sshbufSizeMax - 4) ∧ sshKrlFromBlob env b [] =
        ((sects.map fun sect => (sectionCertificates,sect)) ++ krl.blobRecords).foldlM
          (sectionEffect env) (krl.dated now).headed := by
  obtain ⟨sects,hall,rfl,hl⟩ := sshKrlToBlob_ok h
  refine ⟨sects,hall,?_⟩
  have htypes : ∀ r ∈ (sects.map fun sect => (sectionCertificates,sect)) ++ krl.blobRecords,
      r.1 ≠ sectionSignature := by
    intro r hr
    rcases mem_append.mp hr with hr | hr
    · obtain ⟨sect,-,rfl⟩ := mem_map.mp hr
      change sectionCertificates ≠ sectionSignature
      decide
    · exact blobRecords_types hr
  generalize (sects.map _) ++ krl.blobRecords = rs at hl htypes ⊢
  rw [append_assoc] at hl ⊢
  have hlen := hl
  rw [length_append,length_append] at hlen
  have hrs : ∀ r ∈ rs, r.2.length ≤ sshbufSizeMax - 4 := length_le_of_mem_records (by omega)
  refine ⟨hrs,?_⟩
  rw [sshKrlFromBlob,drop_left,getHeader_headerBytes (by omega),ok_bind]
  dsimp only
  rw [verifySignatures_records hrs htypes,parseSections_records hrs htypes]
  cases rs.foldlM (sectionEffect env) _ <;> rfl

def SshKrl.BitmapsFit (krl : SshKrl) : Prop := ∀ rc ∈ krl.revokedCerts, rc.Fits

instance (krl : SshKrl) : Decidable krl.BitmapsFit :=
  inferInstanceAs (Decidable (∀ rc ∈ krl.revokedCerts, rc.Fits))

def SshKrl.serialRevoked (ssl : Openssl) (krl : SshKrl) (ca : Option SshKey) (serial : Nat) :
    Bool :=
  (revokedCertsForCaKey ssl krl ca).any fun rc => rc.revokedSerials.find serial

def SshKrl.keyIdRevoked (ssl : Openssl) (krl : SshKrl) (ca : Option SshKey) (keyId : CString) :
    Bool :=
  (revokedCertsForCaKey ssl krl ca).any fun rc => rc.revokedKeyIds.find keyId

/-- Two lists with the same revocations, per authority and by key and fingerprint. -/
structure SameRevocations (ssl : Openssl) (a b : SshKrl) : Prop where
  serials : ∀ ca serial, a.serialRevoked ssl ca serial = b.serialRevoked ssl ca serial
  keyIds : ∀ ca keyId, a.keyIdRevoked ssl ca keyId = b.keyIdRevoked ssl ca keyId
  keys : ∀ blob, a.revokedKeys.find blob = b.revokedKeys.find blob
  sha1s : ∀ hash, a.revokedSha1s.find hash = b.revokedSha1s.find hash
  sha256s : ∀ hash, a.revokedSha256s.find hash = b.revokedSha256s.find hash

lemma sshKrlFromBlob_of_fits (hentries : EntriesInv env.ssl krl.revokedCerts)
    (hinv : ∀ rc ∈ krl.revokedCerts, ∀ k ∈ rc.caKey, Inverted env.codec k)
    (h : sshKrlToBlob env.codec y now krl [] = .ok b) (hf : krl.BitmapsFit) :
    sshKrlFromBlob env b [] = .ok { (krl.dated now).headed with
      revokedKeys := krl.revokedKeys
      revokedSha1s := krl.revokedSha1s
      revokedSha256s := krl.revokedSha256s
      revokedCerts := krl.revokedCerts } := by
  obtain ⟨sects,hall,hl,hread⟩ := sshKrlFromBlob_records h
  have hsects : ∀ sect ∈ sects, sect.length ≤ sshbufSizeMax := by
    intro sect hsect
    have hmem : (sectionCertificates,sect) ∈ sects.map _ := mem_map_of_mem hsect
    exact le_trans (hl _ (mem_append_left _ hmem)) (sub_le _ _)
  rw [hread,foldlM_append,
    foldlM_certSections hall hinv hsects (show EntriesInv _ ([] ++ _) from hentries) hf,ok_bind,
    foldlM_blobRecords (fun r hr => hl r (mem_append_right _ hr)) rfl rfl rfl]
  rfl

lemma fits_of_sshKrlFromBlob {krl' : SshKrl}
    (hinv : ∀ rc ∈ krl.revokedCerts, ∀ k ∈ rc.caKey, Inverted env.codec k)
    (h : sshKrlToBlob env.codec y now krl [] = .ok b) (hfrom : sshKrlFromBlob env b [] = .ok krl') :
    krl.BitmapsFit := by
  obtain ⟨sects,hall,hl,hread⟩ := sshKrlFromBlob_records h
  rw [hread] at hfrom
  intro rc hrc
  obtain ⟨sect,hsect,hgen⟩ := GreedyMatching.exists_of_forall₂ hall hrc
  have hmem : (sectionCertificates,sect) ∈
      (sects.map _) ++ krl.blobRecords :=
    mem_append_left _ (mem_map_of_mem hsect)
  obtain ⟨t,t',ht⟩ := foldlM_ok_mem hfrom _ hmem
  rw [sectionEffect,parseSection] at ht
  cases hparse : parseRevokedCerts env t sect with
  | error e =>
    rw [hparse] at ht
    cases ht
  | ok krl1 =>
    exact fits_of_parseRevokedCerts (hinv rc hrc) hgen (le_trans (hl _ hmem) (sub_le _ _)) hparse

/-- A list that was read back judges every key as the list that was written, and is written as
the same bytes. -/
theorem sshKrlToBlob_distributes {rs : List Revocation}
    (hrev : revokeAll env.ssl env.codec rs = .ok krl)
    (hinv : ∀ rc ∈ krl.revokedCerts, ∀ k ∈ rc.caKey, Inverted env.codec k)
    (h : sshKrlToBlob env.codec y now krl [] = .ok b) (hf : krl.BitmapsFit) :
    ∃ krl', sshKrlFromBlob env b [] = .ok krl' ∧
      (∀ k, sshKrlCheckKey env krl' k = sshKrlCheckKey env krl k) ∧
      sshKrlToBlob env.codec y now krl' [] = .ok b := by
  refine ⟨_,sshKrlFromBlob_of_fits (revokeAll_inv hrev) hinv h hf,fun _ => rfl,?_⟩
  rw [← h]
  unfold sshKrlToBlob
  -- the date is set once, and no comment is written as an empty one
  refine congrArg₂ bind ?_ rfl
  cases hc : krl.comment <;> by_cases hd : krl.generatedDate = 0 <;>
    simp [putHeader,SshKrl.dated,SshKrl.headed,hc,hd,strdup,untilNul]

/-- A list that was made by revocations and written is read back, with the same revocations,
exactly when its bitmaps fit. -/
theorem sshKrlFromBlob_iff_bitmapsFit {env : Env} {y : Crypto} {now : UInt64}
    {revocations : List Revocation} {krl : SshKrl} {b : Bytes}
    (hrev : revokeAll env.ssl env.codec revocations = .ok krl)
    (hinv : ∀ rc ∈ krl.revokedCerts, ∀ k ∈ rc.caKey, Inverted env.codec k)
    (h : sshKrlToBlob env.codec y now krl [] = .ok b) :
    (∃ krl', sshKrlFromBlob env b [] = .ok krl' ∧ SameRevocations env.ssl krl krl') ↔
      krl.BitmapsFit := by
  constructor
  · rintro ⟨krl',hfrom,-⟩
    exact fits_of_sshKrlFromBlob hinv h hfrom
  · intro hf
    refine ⟨_,sshKrlFromBlob_of_fits (revokeAll_inv hrev) hinv h hf,?_⟩
    exact ⟨fun _ _ => rfl,fun _ _ => rfl,fun _ => rfl,fun _ => rfl,fun _ => rfl⟩

def exampleCa : LoadedKey :=
  ⟨{ sshkeyNew .ed25519 with ed25519Pk := some ⟨replicate 32 7,rfl⟩ },by decide⟩

def exampleCaBlob : Bytes := framed (cstr "ssh-ed25519") ++ framed (replicate 32 7)

def exampleEnv : Env where
  ssl := asciiOpenssl
  codec :=
    { exampleEcCodec with
      sshkeyFromBlob := fun b =>
        if b = exampleCaBlob then .ok exampleCa else .error .keyTypeUnknown }
  sshkeyFingerprintRaw _ _ := .error .invalidFormat
  certFields _ := ⟨⟨[],by decide⟩,0,exampleCa.1⟩
  sshkeyVerify _ _ _ := .error .signatureInvalid

lemma exampleCa_inverted : Inverted exampleEnv.codec exampleCa.1 := by
  refine ⟨rfl,fun b hb => ?_⟩
  cases hb
  rfl

def written (revocations : List Revocation) : Option (SshKrl × Bytes) :=
  match revokeAll exampleEnv.ssl exampleEnv.codec revocations with
  | .error _ => none
  | .ok krl =>
    match sshKrlToBlob exampleEnv.codec exampleCrypto 5 krl [] with
    | .error _ => none
    | .ok b => some (krl,b)

lemma exists_written {revocations : List Revocation} {P : SshKrl × Bytes → Bool}
    (h : (written revocations).any P = true) :
    ∃ krl b, revokeAll exampleEnv.ssl exampleEnv.codec revocations = .ok krl ∧
      sshKrlToBlob exampleEnv.codec exampleCrypto 5 krl [] = .ok b ∧ P (krl,b) = true := by
  rw [written] at h
  split at h
  next => cases h
  next krl hrev =>
    split at h
    next => cases h
    next b hb => exact ⟨krl,b,hrev,hb,h⟩

def exampleSerials : List Revocation :=
  [.certBySerial (some exampleCa.1) 7,.certBySerialRange (some exampleCa.1) 20 90,
    .certByKeyId (some exampleCa.1) (cstr "host")]

lemma exampleSerials_written :
    ∃ krl b, revokeAll exampleEnv.ssl exampleEnv.codec exampleSerials = .ok krl ∧
      (∀ rc ∈ krl.revokedCerts, ∀ k ∈ rc.caKey, Inverted exampleEnv.codec k) ∧
      sshKrlToBlob exampleEnv.codec exampleCrypto 5 krl [] = .ok b ∧ krl.BitmapsFit := by
  obtain ⟨krl,b,hrev,hb,h⟩ := exists_written
    (P := fun p => p.1.revokedCerts.all (fun rc => rc.caKey = some exampleCa.1) &&
      decide p.1.BitmapsFit)
    (by decide +kernel : (written exampleSerials).any _ = true)
  rw [Bool.and_eq_true,all_eq_true,decide_eq_true_eq] at h
  refine ⟨krl,b,hrev,fun rc hrc k hk => ?_,hb,h.2⟩
  rw [of_decide_eq_true (h.1 rc hrc)] at hk
  cases hk
  exact exampleCa_inverted

/-- Serials and a key ID of one authority come back. -/
theorem sshKrlFromBlob_few_serials :
    ∃ krl b krl', revokeAll exampleEnv.ssl exampleEnv.codec exampleSerials = .ok krl ∧
      sshKrlToBlob exampleEnv.codec exampleCrypto 5 krl [] = .ok b ∧
      sshKrlFromBlob exampleEnv b [] = .ok krl' ∧ SameRevocations exampleEnv.ssl krl krl' := by
  obtain ⟨krl,b,hrev,hinv,hb,hf⟩ := exampleSerials_written
  obtain ⟨krl',hfrom,hsame⟩ := (sshKrlFromBlob_iff_bitmapsFit hrev hinv hb).mpr hf
  exact ⟨krl,b,krl',hrev,hb,hfrom,hsame⟩

/-- Their verdicts come back too. -/
theorem sshKrlToBlob_distributes_range :
    ∃ krl b krl', revokeAll exampleEnv.ssl exampleEnv.codec exampleSerials = .ok krl ∧
      sshKrlToBlob exampleEnv.codec exampleCrypto 5 krl [] = .ok b ∧
      sshKrlFromBlob exampleEnv b [] = .ok krl' ∧
      (∀ k, sshKrlCheckKey exampleEnv krl' k = sshKrlCheckKey exampleEnv krl k) ∧
      sshKrlToBlob exampleEnv.codec exampleCrypto 5 krl' [] = .ok b := by
  obtain ⟨krl,b,hrev,hinv,hb,hf⟩ := exampleSerials_written
  obtain ⟨krl',hfrom,hverdict,hto⟩ := sshKrlToBlob_distributes hrev hinv hb hf
  exact ⟨krl,b,krl',hrev,hb,hfrom,hverdict,hto⟩

/-- Serials 71 apart are written in one bitmap, and 232 of them need more than 16384 bits. -/
def spacedSerials : List Revocation :=
  (range 232).map fun i => .certBySerial none (1 + 71 * (231 - i)).toUInt64

/-- They are written, but what was written is not read. -/
theorem sshKrlFromBlob_long_bitmap :
    ∃ krl b, revokeAll exampleEnv.ssl exampleEnv.codec spacedSerials = .ok krl ∧
      (∀ rc ∈ krl.revokedCerts, ∀ k ∈ rc.caKey, Inverted exampleEnv.codec k) ∧
      sshKrlToBlob exampleEnv.codec exampleCrypto 5 krl [] = .ok b ∧
      sshKrlFromBlob exampleEnv b [] = .error .bignumTooLarge := by
  obtain ⟨krl,b,hrev,hb,h⟩ := exists_written
    (P := fun p => p.1.revokedCerts.all (fun rc => rc.caKey.isNone) &&
      (match sshKrlFromBlob exampleEnv p.2 [] with
        | .error e => decide (e = .bignumTooLarge)
        | .ok _ => false))
    (by decide +kernel : (written spacedSerials).any _ = true)
  rw [Bool.and_eq_true,all_eq_true] at h
  refine ⟨krl,b,hrev,?_,hb,?_⟩
  · intro rc hrc k hk
    rw [Option.isNone_iff_eq_none.mp (h.1 rc hrc)] at hk
    cases hk
  · have hread := h.2
    split at hread
    next e he => rw [he,of_decide_eq_true hread]
    next => cases hread

end PkixSsh.Krl
