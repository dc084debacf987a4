import PkixSsh.Krl.FlatList

/-!
# Verdicts of revocation lists

A call for an authority is recorded, and looked up, in the first entry whose key is equal. Two
X.509 keys are compared by their subjects, so two authorities may share an entry.
-/

namespace PkixSsh.Krl

open Key X509 Sshbuf IntervalList SortedTree List

def Revocation.authority : Revocation → Option (Option SshKey)
  | .certBySerialRange ca _ _ => some ca
  | .certBySerial ca _ => some ca
  | .certByKeyId ca _ => some ca
  | .keyExplicit _ | .keySha1 _ | .keySha256 _ => none

def authorities (rs : List Revocation) : List SshKey := rs.filterMap fun r => r.authority.join

/-- The certificate is one of those the call is about. -/
def Revocation.Names (fields : CertFields) : Revocation → Prop
  | .certBySerialRange _ lo hi =>
    fields.serial ≠ 0 ∧ lo ≤ fields.serial ∧ fields.serial ≤ hi
  | .certBySerial _ serial => fields.serial ≠ 0 ∧ fields.serial = serial
  | .certByKeyId _ keyId => fields.keyId = strdup keyId
  | .keyExplicit _ | .keySha1 _ | .keySha256 _ => False

def authorityKey (k : SshKey) : KeyType × Option PublicKey := (k.type,publicKey k)

/-- A certificate revoked for its authority, or for every authority. -/
def CertRevoked (rs : List Revocation) (fields : CertFields) : Prop :=
  ∃ r ∈ rs, r.Names fields ∧ (r.authority = some none ∨
    ∃ ca, r.authority = some (some ca) ∧ authorityKey ca = authorityKey fields.signatureKey)

/-- The plain key is among the explicit keys, or its hash among the hashes. -/
def KeyListed (c : Codec) (digest : DigestAlg → Bytes → Bytes) (rs : List Revocation)
    (q : SshKey) : Prop :=
  (∃ l, .keyExplicit l ∈ rs ∧ publicKey l = publicKey q) ∨
    ∃ blob, plainKeyBlob c q = .ok blob ∧
      (.keySha1 (digest .sha1 blob) ∈ rs ∨ .keySha256 (digest .sha256 blob) ∈ rs)

/-- What the calls revoked: the plain key, the authority's key, or the certificate. -/
def RevokedBy (env : Env) (digest : DigestAlg → Bytes → Bytes) (rs : List Revocation)
    (k : SshKey) : Prop :=
  (∃ q ∈ checkedKeys env k, KeyListed env.codec digest rs q) ∨
    (sshkeyIsCert k ∧ CertRevoked rs (env.certFields k))

/-- The keys of two authorities are taken for equal exactly when they are the same. -/
def AuthoritiesAgree (ssl : Openssl) (rs : List Revocation) : Prop :=
  (authorities rs).Pairwise fun a b => sshkeyEqual ssl a b = true ↔ authorityKey a = authorityKey b

lemma sshkeyFromPrivate_authorityKey {k n : SshKey} (h : sshkeyFromPrivate k = .ok n) :
    authorityKey n = authorityKey k :=
  Prod.ext (sshkeyFromPrivate_copies h).type (sshkeyFromPrivate_copies h).pub

lemma sshkeyEqual_plain_iff {ssl : Openssl} {a b : SshKey} (ha : (publicKey a).isSome)
    (hx : sshkeyIsX509 b = false) (hc : sshkeyIsCert b = false) :
    sshkeyEqual ssl a b = true ↔ authorityKey a = authorityKey b := by
  rw [sshkeyEqual,authorityKey,authorityKey]
  by_cases ht : a.type = b.type
  · have hca : sshkeyIsCert a = false := by rw [sshkeyIsCert,ht]; exact hc
    have hplain : sshkeyTypePlain a.type = sshkeyTypePlain b.type := by rw [ht]
    rw [hca,sshkeyEqualPublic,hx]
    simp [equalMaterial_iff _ ha,ht]
  · simp [ht]

lemma KeyIdTree.find_iff (t : KeyIdTree) (keyId : CString) :
    t.find keyId = true ↔ keyId ∈ t.keyIds := t.sorted.find_iff keyId

lemma SerialTree.find_iff (t : SerialTree) (serial : Nat) :
    t.find serial = true ↔ t.Contains serial := by
  -- the ranges behind one that lies above the serial lie above it too
  have hlt : t.ranges.Pairwise fun a b => serialCmp ⟨serial,serial,Nat.le_refl _⟩ a = .lt →
      serialCmp ⟨serial,serial,Nat.le_refl _⟩ b = .lt := by
    refine t.canonical.imp fun {a b} hab => ?_
    have hapart : a.hi + 1 < b.lo := hab
    have ha := a.le
    rw [serialCmp_eq_lt,serialCmp_eq_lt]
    dsimp only
    omega
  rw [SerialTree.find,SortedTree.find_eq_true hlt]
  apply exists_congr
  intro rs
  rw [serialCmp_eq_eq]
  exact Iff.rfl

def RevokedCerts.Names (rc : RevokedCerts) (fields : CertFields) : Prop :=
  rc.revokedKeyIds.find fields.keyId = true ∨
    fields.serial ≠ 0 ∧ rc.revokedSerials.find fields.serial.toNat = true

instance (rc : RevokedCerts) (fields : CertFields) : Decidable (rc.Names fields) :=
  inferInstanceAs (Decidable (_ ∨ _))

lemma isCertRevoked_eq (env : Env) (key : SshKey) (rc : RevokedCerts) : isCertRevoked env key rc =
      if rc.Names (env.certFields key) then .error .keyRevoked else .ok () := by
  rw [isCertRevoked]
  by_cases hid : rc.revokedKeyIds.find (env.certFields key).keyId = true
  · rw [if_pos hid,if_pos (.inl hid)]
  · rw [if_neg hid]
    by_cases h0 : (env.certFields key).serial = 0
    · simp [RevokedCerts.Names,hid,h0]
    · rw [if_neg h0]
      simp only [RevokedCerts.Names,hid,h0,false_or,not_false_eq_true,true_and,ne_eq,
        Bool.false_eq_true]

lemma not_names_fresh (ca : Option SshKey) (fields : CertFields) :
    ¬ (RevokedCerts.fresh ca).Names fields := by
  rintro (h | ⟨-,h⟩)
  · cases h
  · cases h

/-- A change of an entry that adds what a call is about. -/
structure Adds (r : Revocation) (f : RevokedCerts → RevokedCerts) : Prop where
  caKey : ∀ rc, (f rc).caKey = rc.caKey
  names : ∀ rc fields, (f rc).Names fields ↔ rc.Names fields ∨ r.Names fields

lemma insertSerials_adds (ca : Option SshKey) {lo hi : UInt64} (h : ¬ (lo > hi ∨ lo = 0)) :
    Adds (.certBySerialRange ca lo hi)
      (.insertSerials (serialRange lo hi h) (serialRange_bound h)) := by
  refine ⟨fun rc => rfl,fun rc fields => ?_⟩
  rw [RevokedCerts.Names,RevokedCerts.Names,SerialTree.find_iff,SerialTree.find_iff,
    RevokedCerts.insertSerials,insertSerialRange_contains,Revocation.Names,
    UInt64.le_iff_toNat_le,UInt64.le_iff_toNat_le]
  have hrange : NatInterval.Contains (serialRange lo hi h) _ ↔
      lo.toNat ≤ fields.serial.toNat ∧ fields.serial.toNat ≤ hi.toNat := Iff.rfl
  rw [hrange,and_or_left,or_assoc]

variable {ca : Option SshKey}

lemma insertKeyId_adds {keyId : Bytes} :
    Adds (.certByKeyId ca keyId) (.insertKeyId (strdup keyId)) := by
  refine ⟨fun rc => rfl,fun rc fields => ?_⟩
  rw [RevokedCerts.Names,RevokedCerts.Names,KeyIdTree.find_iff,KeyIdTree.find_iff,
    RevokedCerts.insertKeyId,KeyIdTree.insert,mem_insert]
  tauto

structure Recorded (c : Codec) (rs : List Revocation) (krl : SshKrl) : Prop where
  keys : ∀ b, b ∈ krl.revokedKeys.blobs ↔ ∃ l, .keyExplicit l ∈ rs ∧ plainKeyBlob c l = .ok b
  sha1s : ∀ p, p ∈ krl.revokedSha1s.blobs ↔ .keySha1 p ∈ rs
  sha256s : ∀ p, p ∈ krl.revokedSha256s.blobs ↔ .keySha256 p ∈ rs
  copied : ∀ rc ∈ krl.revokedCerts, ∀ k, rc.caKey = some k →
    ∃ ca ∈ authorities rs, sshkeyFromPrivate ca = .ok k
  apart : (krl.revokedCerts.map fun rc => rc.caKey.map authorityKey).Nodup
  certs : ∀ ca fields,
    (∃ rc ∈ krl.revokedCerts, rc.caKey.map authorityKey = ca ∧ rc.Names fields) ↔
      ∃ r ∈ rs, r.authority.map (Option.map authorityKey) = some ca ∧ r.Names fields

lemma recorded_nil (c : Codec) : Recorded c [] sshKrlInit where
  keys b := ⟨nofun,fun ⟨l,hl,_⟩ => (by cases hl)⟩
  sha1s p := ⟨nofun,nofun⟩
  sha256s p := ⟨nofun,nofun⟩
  copied rc hrc := by cases hrc
  apart := nodup_nil
  certs ca fields := ⟨fun ⟨rc,hrc,_⟩ => (by cases hrc),fun ⟨r,hr,_⟩ => (by cases hr)⟩

lemma copyCa_authorityKey {k : Option SshKey} (h : copyCa ca = .ok k) :
    k.map authorityKey = ca.map authorityKey := by
  rcases copyCa_ok h with ⟨rfl,rfl⟩ | ⟨a,n,rfl,rfl,hcopy⟩
  · rfl
  · exact congrArg some (sshkeyFromPrivate_authorityKey hcopy)

lemma authorities_append (rs : List Revocation) (r : Revocation) :
    authorities (rs ++ [r]) = authorities rs ++ r.authority.join.toList := by
  rw [authorities,authorities]
  cases h : r.authority.join <;> simp [h]

section

variable {ssl : Openssl} {c : Codec} {rs : List Revocation} {krl : SshKrl}
  {ca : Option SshKey} {r : Revocation}

/-- The authority of a call, against those of the calls before it. -/
def AgreesWith (ssl : Openssl) (rs : List Revocation) (ca : Option SshKey) : Prop :=
  ∀ k, ca = some k → ∀ a ∈ authorities rs,
    (sshkeyEqual ssl a k = true ↔ authorityKey a = authorityKey k)

lemma agreesWith_none (ssl : Openssl) (rs : List Revocation) : AgreesWith ssl rs none := by
  intro k hk
  cases hk

lemma Recorded.matchesCa_iff (h : Recorded c rs krl) (hca : AgreesWith ssl rs ca)
    {rc : RevokedCerts} (hrc : rc ∈ krl.revokedCerts) :
    matchesCa ssl rc.caKey ca = true ↔ rc.caKey.map authorityKey = ca.map authorityKey := by
  cases hk : rc.caKey with
  | none => cases ca <;> simp [matchesCa]
  | some k =>
    cases ca with
    | none => simp [matchesCa]
    | some k' =>
      obtain ⟨a,ha,hcopy⟩ := h.copied rc hrc k hk
      rw [matchesCa,(sshkeyFromPrivate_copies hcopy).equal_left,hca k' rfl a ha,Option.map_some,
        Option.map_some,
        Option.some.injEq,sshkeyFromPrivate_authorityKey hcopy]

lemma mem_append_of_key {r' : Revocation} (hr : r.authority = some ca)
    (hr' : r'.authority = none) : r' ∈ rs ++ [r] ↔ r' ∈ rs := by
  rw [List.mem_append,List.mem_singleton,or_iff_left]
  rintro rfl
  rw [hr] at hr'
  cases hr'

lemma mem_authorities_append {a : SshKey} (h : a ∈ authorities rs) :
    a ∈ authorities (rs ++ [r]) := by
  rw [authorities_append]
  exact mem_append_left _ h

lemma named_append (hr : r.authority = some ca) (cls : Option (KeyType × Option PublicKey))
    (fields : CertFields) : (∃ r' ∈ rs ++ [r],
      r'.authority.map (Option.map authorityKey) = some cls ∧ r'.Names fields) ↔
      (∃ r' ∈ rs, r'.authority.map (Option.map authorityKey) = some cls ∧ r'.Names fields) ∨
        (ca.map authorityKey = cls ∧ r.Names fields) := by
  simp only [List.mem_append,List.mem_singleton,or_and_right,exists_or,exists_eq_left,hr,
    Option.map_some,Option.some.injEq]

section

variable {f : RevokedCerts → RevokedCerts} {l l' : List RevokedCerts} {rc : RevokedCerts}

lemma Recorded.copied_changed (h : Recorded c rs krl) (hf : Adds r f)
    (hl : krl.revokedCerts = l ++ rc :: l') : ∀ x ∈ l ++ f rc :: l', ∀ k, x.caKey = some k →
      ∃ a ∈ authorities (rs ++ [r]), sshkeyFromPrivate a = .ok k := by
  intro x hx k hxk
  have hold : ∃ y ∈ krl.revokedCerts, y.caKey = some k := by
    rw [hl]
    rcases mem_append.mp hx with hx | hx
    · exact ⟨x,by simp [hx],hxk⟩
    · rcases mem_cons.mp hx with rfl | hx
      · exact ⟨rc,by simp,(hf.caKey rc).symm.trans hxk⟩
      · exact ⟨x,by simp [hx],hxk⟩
  obtain ⟨y,hy,hyk⟩ := hold
  obtain ⟨a,ha,hcopy⟩ := h.copied y hy k hyk
  exact ⟨a,mem_authorities_append ha,hcopy⟩

lemma Recorded.copied_pushed {k : Option SshKey} (h : Recorded c rs krl) (hf : Adds r f)
    (hr : r.authority = some ca) (hk : copyCa ca = .ok k) :
    ∀ x ∈ krl.revokedCerts ++ [f (.fresh k)], ∀ k', x.caKey = some k' →
      ∃ a ∈ authorities (rs ++ [r]), sshkeyFromPrivate a = .ok k' := by
  intro x hx k' hxk
  rcases mem_append.mp hx with hx | hx
  · obtain ⟨a,ha,hcopy⟩ := h.copied x hx k' hxk
    exact ⟨a,mem_authorities_append ha,hcopy⟩
  · obtain rfl := mem_singleton.mp hx
    rw [hf.caKey] at hxk
    rcases copyCa_ok hk with ⟨_,rfl⟩ | ⟨a,n,rfl,rfl,hcopy⟩
    · cases hxk
    · cases hxk
      refine ⟨a,?_,hcopy⟩
      rw [authorities_append,hr]
      simp

lemma Recorded.apart_pushed {k : Option SshKey} (h : Recorded c rs krl)
    (hca : AgreesWith ssl rs ca) (hf : Adds r f) (hk : copyCa ca = .ok k)
    (hno : ∀ rc ∈ krl.revokedCerts, matchesCa ssl rc.caKey ca = false) :
    ((krl.revokedCerts ++ [f (.fresh k)]).map fun rc => rc.caKey.map authorityKey).Nodup := by
  rw [map_append,nodup_append]
  refine ⟨h.apart,by simp,?_⟩
  intro x hx y hy
  obtain ⟨rc,hrc,rfl⟩ := mem_map.mp hx
  rw [map_cons,map_nil,mem_singleton,hf.caKey] at hy
  rw [hy]
  intro heq
  have hmatch := (h.matchesCa_iff hca hrc).mpr (heq.trans (copyCa_authorityKey hk))
  rw [hno rc hrc] at hmatch
  cases hmatch

lemma names_changed (hf : Adds r f) (cls : Option (KeyType × Option PublicKey))
    (fields : CertFields) :
    (∃ x ∈ l ++ f rc :: l', x.caKey.map authorityKey = cls ∧ x.Names fields) ↔
      (∃ x ∈ l ++ rc :: l', x.caKey.map authorityKey = cls ∧ x.Names fields) ∨
        (rc.caKey.map authorityKey = cls ∧ r.Names fields) := by
  simp only [List.mem_append,List.mem_cons,or_and_right,exists_or,exists_eq_left,hf.caKey,hf.names]
  constructor
  · rintro (hin | ⟨hcls,hin | hin⟩ | hin)
    · exact .inl (.inl hin)
    · exact .inl (.inr (.inl ⟨hcls,hin⟩))
    · exact .inr ⟨hcls,hin⟩
    · exact .inl (.inr (.inr hin))
  · rintro ((hin | ⟨hcls,hin⟩ | hin) | ⟨hcls,hin⟩)
    · exact .inl hin
    · exact .inr (.inl ⟨hcls,.inl hin⟩)
    · exact .inr (.inr hin)
    · exact .inr (.inl ⟨hcls,.inr hin⟩)

end

variable (h : Recorded c rs krl)

include h

lemma Recorded.updateCa {f : RevokedCerts → RevokedCerts} {rcs : List RevokedCerts}
    (hca : AgreesWith ssl rs ca) (hr : r.authority = some ca)
    (hf : Adds r f) (hu : updateCa ssl ca f krl.revokedCerts = .ok rcs) :
    Recorded c (rs ++ [r]) { krl with revokedCerts := rcs } := by
  refine ⟨fun b => ?_,fun p => ?_,fun p => ?_,?_,?_,fun cls fields => ?_⟩
  · rw [h.keys b]
    exact exists_congr fun l => and_congr_left fun _ => (mem_append_of_key hr rfl).symm
  · rw [h.sha1s p,mem_append_of_key hr rfl]
  · rw [h.sha256s p,mem_append_of_key hr rfl]
  -- the entry of the authority is changed, or a new one is appended
  all_goals rcases updateCa_ok hu with ⟨l,rc,l',hl,rfl,hm⟩ | ⟨k,hk,hno,rfl⟩
  · exact h.copied_changed hf hl
  · exact h.copied_pushed hf hr hk
  · have hap := h.apart
    rw [hl] at hap
    simpa [hf.caKey] using hap
  · exact h.apart_pushed hca hf hk hno
  · have hrc := (h.matchesCa_iff hca (by rw [hl]; simp)).mp hm
    rw [named_append hr,← h.certs,hl,← hrc]
    exact names_changed hf cls _
  · rw [named_append hr,← h.certs,← copyCa_authorityKey hk]
    simp only [List.mem_append,List.mem_singleton,or_and_right,exists_or,exists_eq_left,
      hf.caKey,hf.names,not_names_fresh,false_or]
    exact Iff.rfl

lemma Recorded.certs_append (hr : r.authority = none)
    (ca : Option (KeyType × Option PublicKey)) (fields : CertFields) :
    (∃ rc ∈ krl.revokedCerts, rc.caKey.map authorityKey = ca ∧ rc.Names fields) ↔ ∃ r' ∈ rs ++ [r],
        r'.authority.map (Option.map authorityKey) = some ca ∧ r'.Names fields := by
  rw [h.certs]
  simp [hr]

lemma Recorded.copied_append (hr : r.authority = none) :
    ∀ rc ∈ krl.revokedCerts, ∀ k, rc.caKey = some k →
      ∃ ca ∈ authorities (rs ++ [r]), sshkeyFromPrivate ca = .ok k := by
  rw [authorities_append,hr]
  simpa using h.copied

lemma Recorded.revokeSerialRange {krl' : SshKrl} {lo hi : UInt64}
    (hca : AgreesWith ssl rs ca) (hauth : r.authority = some ca)
    (hnames : ∀ fields, r.Names fields ↔ (Revocation.certBySerialRange ca lo hi).Names fields)
    (hr : sshKrlRevokeCertBySerialRange ssl krl ca lo hi = .ok krl') :
    Recorded c (rs ++ [r]) krl' := by
  rw [sshKrlRevokeCertBySerialRange] at hr
  split at hr
  · cases hr
  · rename_i hbound
    obtain ⟨rcs,hu,hr⟩ := bind_eq_ok.mp hr
    cases hr
    have hadds := insertSerials_adds ca hbound
    refine h.updateCa hca hauth ⟨hadds.caKey,fun rc fields => ?_⟩ hu
    rw [hnames _]
    exact hadds.names rc _

lemma Recorded.step {krl' : SshKrl} (hca : ∀ ca, r.authority = some ca → AgreesWith ssl rs ca)
    (hr : revoke ssl c krl r = .ok krl') : Recorded c (rs ++ [r]) krl' := by
  cases r with
  | certBySerialRange ca lo hi =>
    exact h.revokeSerialRange (hca ca rfl) rfl (fun _ => Iff.rfl) hr
  | certBySerial ca serial =>
    refine h.revokeSerialRange (hca ca rfl) rfl (fun fields => ?_) hr
    have hone : fields.serial = serial ↔ serial ≤ fields.serial ∧ fields.serial ≤ serial :=
      ⟨fun he => ⟨he ▸ UInt64.le_refl _,he ▸ UInt64.le_refl _⟩,
        fun he => UInt64.le_antisymm he.2 he.1⟩
    rw [Revocation.Names,Revocation.Names,hone]
  | certByKeyId ca keyId =>
    obtain ⟨rcs,hu,hr⟩ := bind_eq_ok.mp hr
    cases hr
    exact h.updateCa (hca ca rfl) rfl insertKeyId_adds hu
  | keyExplicit key =>
    obtain ⟨blob,hblob,hr⟩ := bind_eq_ok.mp hr
    cases hr
    refine ⟨fun b => ?_,fun p => ?_,fun p => ?_,h.copied_append rfl,h.apart,h.certs_append rfl⟩
    · change b ∈ SortedTree.insert _ blob _ ↔ _
      rw [mem_insert,h.keys b]
      constructor
      · rintro (rfl | ⟨l,hl,hb⟩)
        · exact ⟨key,by simp,hblob⟩
        · exact ⟨l,mem_append_left _ hl,hb⟩
      · rintro ⟨l,hl,hb⟩
        rcases mem_append.mp hl with hl | hl
        · exact .inr ⟨l,hl,hb⟩
        · cases mem_singleton.mp hl
          rw [hblob] at hb
          cases hb
          exact .inl rfl
    · rw [h.sha1s p]
      simp
    · rw [h.sha256s p]
      simp
  | keySha1 p =>
    rw [revoke,sshKrlRevokeKeySha1] at hr
    split at hr
    · cases hr
      refine ⟨fun b => ?_,fun p' => ?_,fun p' => ?_,h.copied_append rfl,h.apart,h.certs_append rfl⟩
      · rw [h.keys b]
        simp
      · change p' ∈ SortedTree.insert _ p _ ↔ _
        rw [mem_insert,h.sha1s p']
        simp [or_comm]
      · rw [h.sha256s p']
        simp
    · cases hr
  | keySha256 p =>
    rw [revoke,sshKrlRevokeKeySha256] at hr
    split at hr
    · cases hr
      refine ⟨fun b => ?_,fun p' => ?_,fun p' => ?_,h.copied_append rfl,h.apart,h.certs_append rfl⟩
      · rw [h.keys b]
        simp
      · rw [h.sha1s p']
        simp
      · change p' ∈ SortedTree.insert _ p _ ↔ _
        rw [mem_insert,h.sha256s p']
        simp [or_comm]
    · cases hr

omit h

lemma AuthoritiesAgree.agreesWith {rs' : List Revocation}
    (h : AuthoritiesAgree ssl (rs ++ r :: rs')) (hr : r.authority = some ca) :
    AgreesWith ssl rs ca := by
  rintro k rfl a ha
  have hall : authorities (rs ++ r :: rs') = authorities rs ++ k :: authorities rs' := by
    simp [authorities,hr]
  rw [AuthoritiesAgree,hall,pairwise_append] at h
  exact h.2.2 a ha k mem_cons_self

lemma Recorded.run {rs' : List Revocation} {krl' : SshKrl} (h : Recorded c rs krl)
    (hagree : AuthoritiesAgree ssl (rs ++ rs'))
    (hrun : rs'.foldlM (revoke ssl c) krl = .ok krl') : Recorded c (rs ++ rs') krl' := by
  induction rs' generalizing rs krl with
  | nil =>
    cases hrun
    rwa [append_nil]
  | cons r rs' ih =>
    obtain ⟨krl1,hr,hrun⟩ := bind_eq_ok.mp hrun
    have hstep := h.step (fun ca hca => hagree.agreesWith hca) hr
    rw [← singleton_append,← append_assoc] at hagree ⊢
    exact ih hstep hagree hrun

lemma recorded_revokeAll (hagree : AuthoritiesAgree ssl rs)
    (h : revokeAll ssl c rs = .ok krl) : Recorded c rs krl :=
  (recorded_nil c).run hagree h

lemma revokedCertsForCaKey_matches {rc : RevokedCerts}
    (h : revokedCertsForCaKey ssl krl ca = some rc) : matchesCa ssl rc.caKey ca = true :=
  find?_some (p := fun rc : RevokedCerts => matchesCa ssl rc.caKey ca) h

lemma Recorded.lookup (h : Recorded c rs krl) (hca : AgreesWith ssl rs ca) (fields : CertFields) :
    (∃ rc, revokedCertsForCaKey ssl krl ca = some rc ∧ rc.Names fields) ↔
      ∃ r ∈ rs, r.authority.map (Option.map authorityKey) = some (ca.map authorityKey) ∧
        r.Names fields := by
  rw [← h.certs]
  constructor
  · rintro ⟨rc,hfind,hnames⟩
    have hin := mem_of_find?_eq_some hfind
    exact ⟨rc,hin,(h.matchesCa_iff hca hin).mp (revokedCertsForCaKey_matches hfind),hnames⟩
  · rintro ⟨rc,hin,hcls,hnames⟩
    have hm := (h.matchesCa_iff hca hin).mpr hcls
    have hsome : (revokedCertsForCaKey ssl krl ca).isSome := by
      rw [revokedCertsForCaKey,find?_isSome]
      exact ⟨rc,hin,hm⟩
    obtain ⟨rc',hfind⟩ := Option.isSome_iff_exists.mp hsome
    have hin' := mem_of_find?_eq_some hfind
    have hcls' := (h.matchesCa_iff hca hin').mp (revokedCertsForCaKey_matches hfind)
    -- no other entry is of the same authority
    obtain rfl : rc' = rc := inj_on_of_nodup_map h.apart hin' hin (hcls'.trans hcls.symm)
    exact ⟨rc',hfind,hnames⟩

end

/-- A check says that a key is revoked exactly if `P`, and fails in no other way. -/
def Reports (x : Except SshErr Unit) (P : Prop) : Prop :=
  (P → x = .error .keyRevoked) ∧ (¬ P → x = .ok ())

namespace Reports

variable {x y : Except SshErr Unit} {P Q : Prop}

lemma congr (h : Reports x P) (hPQ : P ↔ Q) : Reports x Q :=
  ⟨fun hQ => h.1 (hPQ.mpr hQ),fun hQ => h.2 fun hP => hQ (hPQ.mp hP)⟩

lemma ok : Reports (.ok ()) False := ⟨False.elim,fun _ => rfl⟩

lemma ite (P : Prop) [Decidable P] : Reports (if P then .error .keyRevoked else .ok ()) P :=
  ⟨fun h => if_pos h,fun h => if_neg h⟩

lemma guard [Decidable P] (hy : Reports y Q) :
    Reports (if P then .error .keyRevoked else y) (P ∨ Q) := by
  by_cases hP : P
  · rw [if_pos hP]
    exact ⟨fun _ => rfl,fun h => absurd (.inl hP) h⟩
  · rw [if_neg hP]
    exact hy.congr (by simp [hP])

lemma bind (hx : Reports x P) (hy : Reports y Q) : Reports (x >>= fun _ => y) (P ∨ Q) := by
  by_cases hP : P
  · rw [hx.1 hP]
    exact ⟨fun _ => rfl,fun h => absurd (.inl hP) h⟩
  · rw [hx.2 hP]
    exact hy.congr (by simp [hP])

lemma error_iff (h : Reports x P) : x = .error .keyRevoked ↔ P := by
  refine ⟨fun hx => ?_,h.1⟩
  by_contra hP
  rw [h.2 hP] at hx
  cases hx

lemma ok_iff (h : Reports x P) : x = .ok () ↔ ¬ P := by
  refine ⟨fun hx hP => ?_,h.2⟩
  rw [h.1 hP] at hx
  cases hx

end Reports

section

variable {env : Env} {digest : DigestAlg → Bytes → Bytes} {rs : List Revocation} {krl : SshKrl}
  {k : SshKey}

/-- The fingerprint of a key is the digest of its plain blob. -/
def FingerprintOf (env : Env) (digest : DigestAlg → Bytes → Bytes) (q : SshKey) : Prop :=
  ∀ alg blob, plainKeyBlob env.codec q = .ok blob →
    env.sshkeyFingerprintRaw q alg = .ok (digest alg blob)

/-- A key of an authority as it stands in a certificate. -/
structure PlainAuthority (k : SshKey) : Prop where
  notX509 : sshkeyIsX509 k = false
  notCert : sshkeyIsCert k = false

lemma PlainAuthority.agreesWith (h : PlainAuthority k)
    (hrs : ∀ a ∈ authorities rs, (publicKey a).isSome) (ssl : Openssl) :
    AgreesWith ssl rs (some k) := by
  rintro k' ⟨rfl⟩ a ha
  exact sshkeyEqual_plain_iff (hrs a ha) h.notX509 h.notCert

lemma certRevoked_iff (fields : CertFields) : CertRevoked rs fields ↔
      (∃ r ∈ rs, r.authority.map (Option.map authorityKey) =
        some (some (authorityKey fields.signatureKey)) ∧ r.Names fields) ∨
      ∃ r ∈ rs, r.authority.map (Option.map authorityKey) = some none ∧ r.Names fields := by
  rw [CertRevoked,← exists_or]
  apply exists_congr
  intro r
  rcases r.authority with _ | _ | ca
  · simp
  · simp
  · simp [and_comm]

lemma Recorded.entry_reports (h : Recorded env.codec rs krl) (hca : AgreesWith env.ssl rs ca) :
    Reports ((revokedCertsForCaKey env.ssl krl ca).elim (.ok ()) (isCertRevoked env k))
      (∃ r ∈ rs, r.authority.map (Option.map authorityKey) = some (ca.map authorityKey) ∧
        r.Names (env.certFields k)) := by
  have hlookup := h.lookup hca (env.certFields k)
  cases hfind : revokedCertsForCaKey _ krl ca with
  | none =>
    refine Reports.ok.congr ?_
    rw [← hlookup,hfind]
    simp
  | some rc =>
    rw [Option.elim_some,isCertRevoked_eq]
    refine (Reports.ite _).congr ?_
    rw [← hlookup,hfind]
    simp

lemma Recorded.keyListed_iff {q : SshKey} {blob : Bytes} (h : Recorded env.codec rs krl)
    (hkeys : ∀ l, .keyExplicit l ∈ rs → Supported env.codec l) (hq : Supported env.codec q)
    (hblob : plainKeyBlob env.codec q = .ok blob) : KeyListed env.codec digest rs q ↔
      krl.revokedSha1s.find (digest .sha1 blob) = true ∨
        krl.revokedSha256s.find (digest .sha256 blob) = true ∨
          krl.revokedKeys.find blob = true := by
  have hexplicit : (∃ l, .keyExplicit l ∈ rs ∧ plainKeyBlob env.codec l = .ok blob) ↔
      ∃ l, .keyExplicit l ∈ rs ∧ publicKey l = publicKey q := by
    apply exists_congr
    intro l
    apply and_congr_right
    intro hl
    rw [hq.blob_eq_iff (hkeys l hl) hblob,eq_comm]
  rw [KeyListed,BlobTree.find_iff,BlobTree.find_iff,BlobTree.find_iff,h.sha1s,h.sha256s,h.keys,
    hexplicit,hblob]
  simp only [Except.ok.injEq,exists_eq_left']
  rw [or_comm,or_assoc]

lemma Recorded.isKeyRevoked_reports {q : SshKey} (h : Recorded env.codec rs krl)
    (hkeys : ∀ l, .keyExplicit l ∈ rs → Supported env.codec l)
    (hrs : ∀ a ∈ authorities rs, (publicKey a).isSome) (hq : Supported env.codec q)
    (hf : FingerprintOf env digest q)
    (hsig : sshkeyIsCert q = true → PlainAuthority (env.certFields q).signatureKey) :
    Reports (isKeyRevoked env krl q) (KeyListed env.codec digest rs q ∨
        (sshkeyIsCert q = true ∧ CertRevoked rs (env.certFields q))) := by
  obtain ⟨blob,-,hblob,-,-⟩ := hq.blob
  have hcerts : Reports
      (if !sshkeyIsCert q then .ok ()
      else
        (revokedCertsForCaKey env.ssl krl (some (env.certFields q).signatureKey)).elim (.ok ())
            (isCertRevoked env q) >>= fun _ =>
          (revokedCertsForCaKey env.ssl krl none).elim (.ok ()) (isCertRevoked env q))
      (sshkeyIsCert q = true ∧ CertRevoked rs (env.certFields q)) := by
    cases hc : sshkeyIsCert q with
    | false =>
      refine Reports.ok.congr ?_
      simp
    | true =>
      have hown := h.entry_reports (k := q) ((hsig hc).agreesWith hrs _)
      have hwild := h.entry_reports (k := q) (agreesWith_none _ rs)
      refine (hown.bind hwild).congr ?_
      rw [certRevoked_iff]
      simp
  rw [isKeyRevoked,hf .sha1 blob hblob,hf _ blob hblob,hblob]
  have hkey := hcerts.guard (P := krl.revokedKeys.find blob = true)
  have hsha256 := hkey.guard (P := krl.revokedSha256s.find (digest .sha256 blob) = true)
  have hsha1 := hsha256.guard (P := krl.revokedSha1s.find (digest .sha1 blob) = true)
  refine hsha1.congr ?_
  rw [h.keyListed_iff hkeys hq hblob,or_assoc,or_assoc]

/-- In every run whose authorities agree, the list says that a key is revoked exactly if the
calls of the run revoked it. -/
theorem sshKrlCheckKey_exact (hrev : revokeAll env.ssl env.codec rs = .ok krl)
    (hagree : AuthoritiesAgree env.ssl rs)
    (hkeys : ∀ l, .keyExplicit l ∈ rs → Supported env.codec l)
    (hrs : ∀ a ∈ authorities rs, (publicKey a).isSome)
    (hk : ∀ q ∈ checkedKeys env k, Supported env.codec q ∧ FingerprintOf env digest q)
    (hsig : sshkeyIsCert k = true → PlainAuthority (env.certFields k).signatureKey) :
    (sshKrlCheckKey env krl k = .error .keyRevoked ↔ RevokedBy env digest rs k) ∧
      (sshKrlCheckKey env krl k = .ok () ↔ ¬ RevokedBy env digest rs k) := by
  have h := recorded_revokeAll hagree hrev
  have hown := hk k List.mem_cons_self
  have hself := h.isKeyRevoked_reports hkeys hrs hown.1 hown.2 hsig
  have hall : Reports (sshKrlCheckKey env krl k) (RevokedBy env digest rs k) := by
    rw [sshKrlCheckKey,RevokedBy,checkedKeys]
    cases hc : sshkeyIsCert k with
    | false =>
      rw [hc] at hself
      refine (hself.bind Reports.ok).congr ?_
      simp
    | true =>
      rw [hc] at hself
      have hca := hk (env.certFields k).signatureKey (by simp [checkedKeys,hc])
      have hnot := (hsig hc).notCert
      have hsigner := h.isKeyRevoked_reports hkeys hrs hca.1 hca.2 (by simp [hnot])
      rw [hnot] at hsigner
      refine (hself.bind hsigner).congr ?_
      simp only [if_true,List.mem_cons,List.not_mem_nil,or_false,exists_eq_or_imp,
        exists_eq_left,Bool.false_eq_true,false_and]
      rw [or_right_comm]
  exact ⟨hall.error_iff,hall.ok_iff⟩

end

lemma authoritiesAgree_of_plain {ssl : Openssl} {rs : List Revocation}
    (h : ∀ a ∈ authorities rs, PlainAuthority a ∧ (publicKey a).isSome) :
    AuthoritiesAgree ssl rs := by
  apply pairwise_of_forall_mem_list
  intro a ha b hb
  exact sshkeyEqual_plain_iff (h a ha).2 (h b hb).1.notX509 (h b hb).1.notCert

def exampleDigest (alg : DigestAlg) (blob : Bytes) : Bytes :=
  match alg with
  | .sha1 =>
    if blob = exampleRsaBlob [0x0c,0xa1] then
      BigEndian.encode 20 0xa2859e982e7bd1e836fd6b08ba2420b50f07bb91
    else if blob = exampleRsaBlob [0x0c,0x37] then
      BigEndian.encode 20 0x5a9270257aa31e65b5ae50ae519d368e0fc0848e
    else []
  | .sha256 =>
    if blob = exampleRsaBlob [0x0c,0xa1] then
      BigEndian.encode 32 0x1344c37e15d73df7329adace89278b00c7e89394b45d96e1e4127c0358bf9be4
    else if blob = exampleRsaBlob [0x0c,0x37] then
      BigEndian.encode 32 0xb374115db5c54ad2491267b3014b0b30e96afac5a3abed1316a6f693c808a98c
    else []

def exampleVerdictEnv : Env :=
  { exampleListEnv with
    sshkeyFingerprintRaw := fun q alg =>
      (plainKeyBlob exampleListEnv.codec q).map (exampleDigest alg)
    certFields := fun _ => ⟨strdup (cstr "host"),15,rsaKey 3127 17⟩ }

def exampleCert : SshKey :=
  { rsaKey 3233 17 with type := .rsaCert, cert := some ⟨[1]⟩ }

lemma exampleVerdictEnv_supported {q : SshKey}
    (h : q ∈ checkedKeys exampleVerdictEnv exampleCert) :
    Supported exampleVerdictEnv.codec q ∧ FingerprintOf exampleVerdictEnv exampleDigest q := by
  refine ⟨?_,fun alg blob hblob => ?_⟩
  · rcases mem_cons.mp h with rfl | h
    · exact ⟨by decide,nofun,exampleRsaBlob [0x0c,0xa1],
        ⟨rsaKey 3233 17,rsaKey_loaded⟩,by decide +kernel,by decide +kernel,rfl⟩
    · cases mem_singleton.mp h
      exact ⟨by decide,nofun,exampleRsaBlob [0x0c,0x37],
        ⟨rsaKey 3127 17,by decide⟩,by decide +kernel,by decide +kernel,rfl⟩
  · change (plainKeyBlob exampleVerdictEnv.codec q).map _ = _
    rw [hblob]
    rfl

def exampleCalls : List Revocation :=
  [.certBySerial (some (rsaKey 3233 17)) 1,
    .certBySerialRange (some (rsaX509Key 3127 17 "alice")) 10 20]

/-- The certificate is revoked by the second call, and the list says so. -/
theorem sshKrlCheckKey_exact_range :
    RevokedBy exampleVerdictEnv exampleDigest exampleCalls exampleCert ∧
      ∃ krl, revokeAll exampleVerdictEnv.ssl exampleVerdictEnv.codec exampleCalls = .ok krl ∧
        sshKrlCheckKey exampleVerdictEnv krl exampleCert = .error .keyRevoked := by
  have hrevoked : RevokedBy exampleVerdictEnv exampleDigest exampleCalls exampleCert :=
    .inr ⟨rfl,_,mem_cons_of_mem _ mem_cons_self,⟨by decide,by decide,by decide⟩,
      .inr ⟨_,rfl,rfl⟩⟩
  have hok : (revokeAll exampleVerdictEnv.ssl exampleVerdictEnv.codec exampleCalls).isOk =
      true := by
    decide +kernel
  obtain ⟨krl,hrev⟩ := exists_ok hok
  refine ⟨hrevoked,krl,hrev,(sshKrlCheckKey_exact hrev ?_ ?_ ?_ ?_ ?_).1.mpr hrevoked⟩
  · change [rsaKey 3233 17,rsaX509Key 3127 17 _].Pairwise _
    simp only [pairwise_cons]
    decide
  · intro l hl
    simp [exampleCalls] at hl
  · intro a ha
    change a ∈ [rsaKey 3233 17,rsaX509Key 3127 17 _] at ha
    simp only [List.mem_cons,List.not_mem_nil,or_false] at ha
    rcases ha with rfl | rfl
    · rfl
    · rfl
  · intro q hq
    exact exampleVerdictEnv_supported hq
  · exact fun _ => ⟨rfl,rfl⟩

/-- Serial 15 is revoked for a key with the subject of another authority, and recorded for
that one. A certificate of the key with this serial passes. -/
theorem sshKrlCheckKey_same_subject : RevokedBy exampleVerdictEnv exampleDigest
        [.certBySerial (some (rsaX509Key 3233 17 "alice")) 1,
          .certBySerial (some (rsaX509Key 3127 17 "alice")) 15] exampleCert ∧
      ∃ krl, revokeAll exampleVerdictEnv.ssl exampleVerdictEnv.codec
          [.certBySerial (some (rsaX509Key 3233 17 "alice")) 1,
            .certBySerial (some (rsaX509Key 3127 17 "alice")) 15] = .ok krl ∧
        sshKrlCheckKey exampleVerdictEnv krl exampleCert = .ok () := by
  constructor
  · exact .inr ⟨rfl,_,mem_cons_of_mem _ mem_cons_self,⟨by decide,rfl⟩,.inr ⟨_,rfl,rfl⟩⟩
  · have hpass : (match revokeAll exampleVerdictEnv.ssl exampleVerdictEnv.codec
        [.certBySerial (some (rsaX509Key 3233 17 "alice")) 1,
          .certBySerial (some (rsaX509Key 3127 17 "alice")) 15] with
        | .ok krl => decide (sshKrlCheckKey exampleVerdictEnv krl exampleCert = .ok ())
        | .error _ => false) = true := by decide +kernel
    split at hpass
    next krl hrev => exact ⟨krl,hrev,of_decide_eq_true hpass⟩
    next => cases hpass

end PkixSsh.Krl
