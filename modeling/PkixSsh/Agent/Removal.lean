import PkixSsh.Agent.Basic
import PkixSsh.Key.Equivalence

/-!
# Removing an identity through the agent protocol

For a key without X.509 certificate the agent has read the blob away when it parses it. An X.509
identity is removed when it is the first one to match its own key.
-/

namespace PkixSsh.Agent

open Key X509 Sshbuf List

/-- The codecs are inverse on a key, and its SSH blob is not a certificate: it is read as the public
copy without X.509 part. -/
structure Decodes (c : Codec) (k : LoadedKey) : Prop where
  cert : ∀ x, certOf k.1 = some x → x.der.head? = some 0x30 ∧ 1 < x.der.length ∧
    c.d2iX509 x.der = some (x,[]) ∧
    ∃ k', x509ToKey c x = some k' ∧ k'.type = k.1.type ∧ k'.ecdsaNid = k.1.ecdsaNid ∧
      publicKey k' = publicKey k.1
  blob : ∀ b, toBlobBuf c k.1 = .ok b → c.d2iX509 b = none ∧
    (c.sshkeyFromBlob b).map Subtype.val = sshkeyFromPrivate { k.1 with x509Data := none }

/-- An identity that a request for the key of another one finds. -/
def Shadows (ssl : Openssl) (key earlier : LoadedKey) : Prop :=
  (sshkeyIsX509 earlier.1 ∧ key.pub.type = earlier.pub.type ∧ SubjectEq ssl key earlier) ∨
  (¬ sshkeyIsX509 earlier.1 ∧ key.1.type = earlier.1.type ∧ key.pub = earlier.pub)

/-- The identity is removed, with an answer that says so, and nothing else changes. -/
def Removes (ssl : Openssl) (c : Codec) (tab : Idtable) (request : Bytes) (i : Nat) : Prop :=
  ∃ r, processRemoveIdentity ssl c tab request = .ok r ∧ r.output = sendStatus true ∧
    r.removed = some i ∧ r.tab.idlist = tab.idlist.eraseIdx i

variable {c : Codec} {k : SshKey} {request : Bytes} {ssl : Openssl} {tab : Idtable} {i : Nat}

lemma sshRemoveIdentityRequest_ok
    (h : sshRemoveIdentityRequest c k = .ok (ssh2AgentcRemoveIdentity :: request)) :
    ∃ blob, akeyToBlob c k = .ok blob ∧ blob.length ≤ sshbufSizeMax - 4 ∧
      request = framed blob := by
  rw [sshRemoveIdentityRequest] at h
  split at h
  · cases h
  obtain ⟨blob,hblob,h⟩ := bind_eq_ok.mp h
  obtain ⟨b,hb,h⟩ := bind_eq_ok.mp h
  obtain ⟨-,rfl⟩ := put_iff.mp hb
  obtain ⟨hl,h⟩ := putString_iff.mp h
  simp only [nil_append,singleton_append,List.cons.injEq,true_and] at h
  refine ⟨blob,hblob,?_,h⟩
  omega

lemma akeyGets_of_not_cert {blob : Bytes} (hl : blob.length ≤ sshbufSizeMax - 4)
    (hd : c.d2iX509 blob = none) : ∃ r, akeyGets c (framed blob) = .error r := by
  have hg := getString_framed hl []
  rw [append_nil] at hg
  have hx : x509keyFromBlob c blob = .error .invalidArgument ∨
      x509keyFromBlob c blob = .error .invalidFormat := by
    rw [x509keyFromBlob,x509FromBlob]
    split
    · exact .inl rfl
    split
    · exact .inl rfl
    · exact .inr (by simp [hd])
  rcases hx with hx | hx
  · exact ⟨.invalidArgument,by simp [akeyGets,hg,hx]⟩
  · refine ⟨.messageIncomplete,?_⟩
    simp only [akeyGets,hg,hx,ok_bind]
    rfl

lemma akeyGets_of_cert {x : X509Cert} (hl : x.der.length ≤ sshbufSizeMax - 4)
    (hne : 1 < x.der.length) (hd : c.d2iX509 x.der = some (x,[])) (hk : x509ToKey c x = some k) :
    akeyGets c (framed x.der) = .ok (k,[]) := by
  have hg := getString_framed hl []
  rw [append_nil] at hg
  have hx : x509FromBlob c x.der = .ok x :=
    x509FromBlob_der (ne_nil_of_length_pos (by omega)) (by omega) hd
  simp [akeyGets,hg,x509keyFromBlob,hx,hk]

lemma not_removes_of_error {r : SshErr} (h : akeyGets c request = .error r) :
    ¬ Removes ssl c tab request i := by
  rintro ⟨q,hq,-,hr,-⟩
  simp only [processRemoveIdentity,h,Except.ok.injEq] at hq
  subst hq
  cases hr

lemma removes_iff_lookup {rest : Bytes} {key : SshKey} (h : akeyGets c request = .ok (key,rest)) :
    Removes ssl c tab request i ↔ ∃ id, lookupIdentity ssl tab key = some (i,id) := by
  constructor
  · rintro ⟨q,hq,-,hr,-⟩
    simp only [processRemoveIdentity,h] at hq
    split at hq
    · cases hq
      cases hr
    · rename_i j id hl
      split at hq
      · cases hq
      · cases hq
        cases hr
        exact ⟨id,hl⟩
  · rintro ⟨id,hl⟩
    have hlt := lookupIdentity_lt hl
    have hn : ¬ tab.nentries < 1 := by
      rw [tab.counted]
      omega
    refine ⟨⟨removeAt tab i hlt,some i,sendStatus true⟩,?_,rfl,rfl,rfl⟩
    simp only [processRemoveIdentity,h]
    split
    · rename_i hnone
      rw [hl] at hnone
      cases hnone
    · rename_i hj
      rw [hl] at hj
      cases hj
      rw [if_neg hn]

lemma lookupIdentity_iff {key : SshKey} {id : Identity} (hid : tab.idlist[i]? = some id) :
    (∃ e, lookupIdentity ssl tab key = some (i,e)) ↔ keyMatch ssl key id.key.1 = true ∧
        ∀ e ∈ tab.idlist.take i, ¬ keyMatch ssl key e.key.1 = true := by
  obtain ⟨hi,hget⟩ := List.getElem?_eq_some_iff.mp hid
  constructor
  · rintro ⟨e,he⟩
    obtain ⟨pre,post,hl,rfl,hm,hpre⟩ := lookupIdentity_some he
    have hee : e = id := by
      simpa [hl] using hget
    subst hee
    refine ⟨hm,fun e he => ?_⟩
    rw [hl,take_left] at he
    simp [hpre e he]
  · rintro ⟨hm,hpre⟩
    have hl : tab.idlist = tab.idlist.take i ++ id :: tab.idlist.drop (i + 1) := by
      rw [← hget,← drop_eq_getElem_cons hi,take_append_drop]
    have hf := lookupIdentity_of_first hl hm fun e he => by simpa using hpre e he
    rw [length_take,Nat.min_eq_left (Nat.le_of_lt hi)] at hf
    exact ⟨id,hf⟩

lemma keyMatch_decoded {key : LoadedKey} {x : X509Cert} (hcert : certOf key.1 = some x)
    (hk : x509ToKey c x = some k) (htype : k.type = key.1.type)
    (hpub : publicKey k = publicKey key.1) (found : LoadedKey) :
    keyMatch ssl k found.1 = true ↔ Shadows ssl key found := by
  obtain ⟨hxd,hloaded,hplain,-⟩ := x509ToKey_some hk
  have hpub' : LoadedKey.pub ⟨k,hloaded⟩ = key.pub := by
    apply Option.some.inj
    rw [← LoadedKey.publicKey_eq,← LoadedKey.publicKey_eq]
    exact hpub
  have hsub : subjectName k = subjectName key.1 := by
    have hs : ∀ k, subjectName k = (certOf k).map fun x => x.subject := by
      intro k
      rw [subjectName,certOf,Option.map_bind]
      rfl
    rw [hs,hs,hcert,certOf,hxd]
    rfl
  have hx : sshkeyIsX509 (⟨k,hloaded⟩ : LoadedKey).1 := by
    simp [sshkeyIsX509,hxd]
  rw [keyMatch_x509 hx hplain,hpub',Shadows,SubjectEq,SubjectEq,hsub,htype]

/-- A request removes its identity exactly when it is an X.509 one, its subject is equal to itself
for the code, and no identity before it is found instead. -/
theorem sshRemoveIdentity_removes_iff (ssl : Openssl) (c : Codec) (tab : Idtable) (i : Nat)
    (id : Identity) (request : Bytes) (hid : tab.idlist[i]? = some id) (hc : Decodes c id.key)
    (hreq : sshRemoveIdentityRequest c id.key.1 = .ok (ssh2AgentcRemoveIdentity :: request)) :
    Removes ssl c tab request i ↔ sshkeyIsX509 id.key.1 ∧ SubjectEq ssl id.key id.key ∧
        ∀ e ∈ tab.idlist.take i, ¬ Shadows ssl id.key e.key := by
  obtain ⟨blob,hblob,hl,rfl⟩ := sshRemoveIdentityRequest_ok hreq
  by_cases hx : sshkeyIsX509 id.key.1
  · rw [akeyToBlob,if_neg (by simp [hx]),x509keyToBuf] at hblob
    cases hcert : certOf id.key.1 with
    | none => simp [hcert] at hblob
    | some x =>
      simp only [hcert] at hblob
      obtain ⟨-,rfl⟩ := put_iff.mp hblob
      rw [nil_append] at hl ⊢
      obtain ⟨-,hne,hd,k,hk,htype,-,hpub⟩ := hc.cert x hcert
      rw [removes_iff_lookup (akeyGets_of_cert hl hne hd hk),lookupIdentity_iff hid]
      have hmatch : ∀ e : Identity,
          keyMatch ssl k _ = true ↔ Shadows ssl _ e.key :=
        fun e => keyMatch_decoded hcert hk htype hpub e.key
      simp only [hmatch]
      simp [Shadows,hx]
  · have hplain : toBlobBuf c id.key.1 = .ok blob := by
      rwa [akeyToBlob,if_pos (by simp [hx])] at hblob
    obtain ⟨r,hr⟩ := akeyGets_of_not_cert hl (hc.blob blob hplain).1
    simp [not_removes_of_error hr,hx]

def examplePlainBlob : Bytes :=
  framed (cstr "ssh-rsa") ++ framed [17] ++ framed [0x0c,0xa1]

def exampleRsaCodec : Codec where
  d2iX509 blob := if blob = exampleDer "alice"
    then some (⟨[commonNameEntry .utf8String "alice"],exampleDer "alice"⟩,[]) else none
  x509GetPubkey _ := some (.rsa ⟨3233,17⟩)
  ecdsaKeyToNid _ := nidNone
  ecValidatePublic _ := false
  ecPoint _ := .error .invalidArgument
  sshkeyFromBlob blob := if blob = examplePlainBlob then .ok ⟨rsaKey 3233 17,rsaKey_loaded⟩
    else .error .invalidFormat

lemma exampleRsaCodec_blob {b : Bytes} (xd : Option SshX509)
    (h : toBlobBuf exampleRsaCodec { rsaKey 3233 17 with x509Data := xd } = .ok b) :
    exampleRsaCodec.d2iX509 b = none ∧
      (exampleRsaCodec.sshkeyFromBlob b).map Subtype.val = sshkeyFromPrivate (rsaKey 3233 17) := by
  have hb : toBlobBuf exampleRsaCodec { rsaKey 3233 17 with x509Data := xd } =
      toBlobBuf exampleRsaCodec (rsaKey 3233 17) := rfl
  rw [hb] at h
  cases h
  exact ⟨by decide +kernel,by decide +kernel⟩

def exampleIdentity (k : LoadedKey) : Identity := ⟨k,[],none,0,false⟩

def exampleTable (k : LoadedKey) : Idtable := ⟨1,[exampleIdentity k],rfl⟩

/-- The request for the only identity, a plain key, is refused. -/
theorem sshRemoveIdentity_plain_refused : Decodes exampleRsaCodec ⟨rsaKey 3233 17,by decide⟩ ∧
    sshRemoveIdentityRequest exampleRsaCodec (rsaKey 3233 17) =
      .ok (ssh2AgentcRemoveIdentity :: framed examplePlainBlob) ∧
    ¬ Removes asciiOpenssl exampleRsaCodec (exampleTable ⟨rsaKey 3233 17,by decide⟩)
      (framed examplePlainBlob) 0 := by
  refine ⟨⟨fun x hx => ?_,fun b hb => exampleRsaCodec_blob none hb⟩,by decide +kernel,?_⟩
  · cases hx
  · have hr : akeyGets exampleRsaCodec (framed examplePlainBlob) =
        .error .messageIncomplete := by decide +kernel
    exact not_removes_of_error hr

/-- The same key with its certificate is removed. -/
theorem sshRemoveIdentity_x509_removed :
    Removes asciiOpenssl exampleRsaCodec (exampleTable ⟨rsaX509Key 3233 17 "alice",by decide⟩)
      (framed (exampleDer "alice")) 0 := by
  refine (sshRemoveIdentity_removes_iff _ _ _ 0
    (exampleIdentity ⟨rsaX509Key 3233 17 _,by decide⟩) _ rfl
    ⟨fun x hx => ?_,fun b hb => exampleRsaCodec_blob _ hb⟩ (by decide +kernel)).mpr
    ⟨by decide,?_,by simp⟩
  · cases hx
    exact ⟨by decide,by decide,by decide +kernel,_,rfl,rfl,rfl,rfl⟩
  · change sshX509NameCmp _ _ _ = 0
    decide

end PkixSsh.Agent
