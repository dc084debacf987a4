import PkixSsh.Agent.Exchange

/-!
# Host keys on both sides

A host key is written for the algorithm it was read with and read again by the other side, which
has a table of its own.
-/

namespace PkixSsh.Hostfile

open Key X509 Sshbuf Agent FirstMatch

variable {t : XkalgTable} {p : SshX509KeyAlg} {k : SshKey}

lemma chain_eq {t' : XkalgTable} {q : SshX509KeyAlg} (hp : p ∈ t.algs) (hq : q ∈ t'.algs)
    (hn : q.name = p.name) : q.chain = p.chain := by
  have hb := t'.based q hq
  rw [hn,t.based p hp,Except.ok.injEq,Prod.mk.injEq,Prod.mk.injEq] at hb
  exact hb.2.2.symm

lemma xkalgByName_of_mem (hp : p ∈ t.algs) :
    ∃ q, xkalgByName t p.name = some q ∧ q.chain = p.chain := by
  have hsome : (xkalgByName t p.name).isSome := by
    rw [xkalgByName_eq,List.find?_isSome]
    exact ⟨p,hp,by simp⟩
  obtain ⟨q,hq⟩ := Option.isSome_iff_exists.mp hsome
  obtain ⟨hqm,hqn⟩ := xkalgByName_some hq
  exact ⟨q,hq,chain_eq hp hqm hqn⟩

lemma sshXkalgTypeformind_legacy {type : KeyType} {sub : Int} {j : Nat} {q : SshX509KeyAlg}
    (h : sshXkalgTypeformind t type sub .legacy = some (j,q)) : q ∈ t.algs ∧ q.chain = false := by
  have hf := (searchUntil_table t _ _).symm.trans (congrArg _ h)
  refine ⟨List.mem_of_find?_eq_some hf,?_⟩
  have hq := List.find?_some hf
  simp only [Bool.and_eq_true] at hq
  simpa using hq.2

lemma xkalgByName_sshkeySshName (h : cstr "x509v3-" <+: sshkeySshName t k) :
    ∃ p, xkalgByName t (sshkeySshName t k) = some p := by
  rw [sshkeySshName] at h ⊢
  cases hn : sshX509keyName t k with
  | none =>
    rw [hn] at h
    exact absurd h (sshkeySshNameFromTypeNid_ok _ _).2.1
  | some name =>
    rw [sshX509keyName] at hn
    split at hn
    · obtain ⟨⟨j,p⟩,hp,rfl⟩ := Option.map_eq_some_iff.mp hn
      have hmem : p ∈ t.algs := by
        obtain ⟨pre,post,hl,-⟩ := scan_some hp
        rw [show t.algs = pre ++ p :: post from hl]
        simp
      obtain ⟨q,hq,-⟩ := xkalgByName_of_mem hmem
      exact ⟨q,hq⟩
    · cases hn

lemma sshkeySshName_of_entry (hx : sshkeyIsX509 k = true) (hp : p ∈ t.algs)
    (htype : sshkeyTypePlain k.type = p.basetype) (hsub : k.ecdsaNid = p.subtype) :
    cstr "x509v3-" <+: sshkeySshName t k := by
  rw [sshkeySshName,sshX509keyName,if_pos hx]
  cases hn : sshXkalgTypeind t _ _ none with
  | none =>
    have := scan_none hn p hp
    simp [htype,hsub] at this
  | some jq =>
    obtain ⟨j,q⟩ := jq
    obtain ⟨pre,post,hl,-⟩ := scan_some hn
    apply t.named
    rw [show t.algs = pre ++ q :: post from hl]
    simp

lemma sshkeySshName_plain (hx : sshkeyIsX509 k = false) :
    sshkeySshName t k = sshkeySshNameFromTypeNid k.type k.ecdsaNid := by
  rw [sshkeySshName,sshX509keyName,if_neg (by simp [hx])]
  rfl

def Certified (c : Codec) (x : X509Cert) : Prop :=
  x.der.head? = some 0x30 ∧ 1 < x.der.length ∧ c.d2iX509 x.der = some (x,[])

/-- A certificate is encoded as a DER sequence that is decoded to it again, and the parser of SSH
key blobs returns keys without certificate, whose blob is the one it was given if that is the blob
of a key. -/
structure Decoders (c : Codec) : Prop where
  cert : ∀ b x rest, c.d2iX509 b = some (x,rest) → Certified c x
  plain : ∀ b k, c.sshkeyFromBlob b = .ok k → sshkeyIsX509 k.1 = false
  blob : ∀ k b k', toBlobBuf c k = .ok b → c.sshkeyFromBlob b = .ok k' → toBlobBuf c k'.1 = .ok b

/-- The three ways in which `parse_key_from_blob` reads a key. -/
inductive ReadAs (c : Codec) (pr : Process) (k : SshKey) (alg : Bytes) : Prop where
  | certificate (x : X509Cert) (p : SshX509KeyAlg) (hx : Certified c x)
      (hkey : x509ToKey c x = some k) (hp : p ∈ pr.xkalgs.algs) (hchain : p.chain = false)
      (halg : p.name = alg)
  | list (x : X509Cert) (key : SshKey) (chain : List X509Cert) (p : SshX509KeyAlg)
      (hcerts : ∀ z ∈ x :: chain, Certified c z) (hkey : x509ToKey c x = some key)
      (hk : k = { key with x509Data := some ⟨some x,some chain⟩ })
      (hp : xkalgByName pr.xkalgs alg = some p) (hchain : p.chain = true)
      (htype : key.type = p.basetype) (hsub : key.ecdsaNid = p.subtype)
  | plain (hx : sshkeyIsX509 k = false)
      (halg : alg = sshkeySshNameFromTypeNid k.type k.ecdsaNid)

section

variable {c : Codec} {pr : Process} {alg b : Bytes} {k : SshKey}

lemma x509FromBlob_certified (hc : Decoders c) {x : X509Cert} (h : x509FromBlob c b = .ok x) :
    Certified c x := by
  rw [x509FromBlob] at h
  split_ifs at h
  split at h
  · cases h
  · rename_i rest hd
    split_ifs at h
    cases h
    exact hc.cert b _ rest hd

lemma getCerts_certified (hc : Decoders c) {n : Nat} {rest : Bytes} {xs : List X509Cert}
    (h : getCerts c n b = .ok (xs,rest)) : ∀ x ∈ xs, Certified c x := by
  induction n generalizing b xs with
  | zero =>
    cases h
    simp
  | succ n ih =>
    obtain ⟨⟨s,b1⟩,-,h⟩ := bind_eq_ok.mp h
    obtain ⟨x,hx,h⟩ := bind_eq_ok.mp h
    obtain ⟨⟨chain,b2⟩,hchain,h⟩ := bind_eq_ok.mp h
    cases h
    rintro y (_ | ⟨_,hy⟩)
    · exact x509FromBlob_certified hc hx
    · exact ih hchain y hy

lemma getChain_certified (hc : Decoders c) {n : Nat} {xs : List X509Cert}
    (h : getChain c n b = .ok xs) : ∀ x ∈ xs, Certified c x := by
  obtain ⟨⟨chain,b1⟩,hchain,h⟩ := bind_eq_ok.mp h
  obtain ⟨⟨no,b2⟩,-,h⟩ := bind_eq_ok.mp h
  dsimp only at h
  split_ifs at h
  obtain ⟨b3,-,h⟩ := bind_eq_ok.mp h
  split_ifs at h
  cases h
  exact getCerts_certified hc hchain

lemma getKeyIdentifier_ok (hm : pr.missingKeyIdentifier = false) {rest : Bytes}
    {named : Option (Bytes × SshX509KeyAlg)} (h : getKeyIdentifier pr b = .ok (named,rest)) :
    ∃ name p, named = some (name,p) ∧ xkalgByName pr.xkalgs name = some p ∧ p.chain = true := by
  rw [getKeyIdentifier,if_neg (by simp [hm])] at h
  split at h
  · cases h
  · rename_i name b' _
    split at h
    · cases h
    · rename_i j p hs
      cases h
      refine ⟨name,p,rfl,?_⟩
      have hf := (searchUntil_table _ _ _).symm.trans (congrArg _ hs)
      have hp := List.find?_some hf
      have hmem := List.mem_of_find?_eq_some hf
      simp only [Bool.and_eq_true,decide_eq_true_eq] at hp
      have hbase := pr.xkalgs.based p hmem
      rw [hp.1,hp.2] at hbase
      exact ⟨(searchChain_eq hbase).symm.trans (congrArg _ hs),hp.2⟩

lemma parseKeyFromBlob_readAs (hc : Decoders c) (hm : pr.missingKeyIdentifier = false)
    (h : parseKeyFromBlob c pr b = .ok (k,alg)) : ReadAs c pr k alg := by
  rcases parseKeyFromBlob_ok h with ⟨x,j,p,hx,hk,hp,rfl⟩ | hr | ⟨key,hkey,rfl,rfl⟩
  · obtain ⟨hmem,hchain⟩ := sshXkalgTypeformind_legacy hp
    exact .certificate x p (x509FromBlob_certified hc hx) hk hmem hchain rfl
  · obtain ⟨named,_,_,x,key,xkalg,_,_,chain,hid,hx,hk,halg,hchain',rfl⟩ :=
      x509keyFromBuf2Common_ok hr
    obtain ⟨name,p,rfl,hp,hchain⟩ := getKeyIdentifier_ok hm hid
    obtain ⟨⟨htype,hsub⟩,halg⟩ := keyAlgorithm_named.mp halg
    cases halg
    refine .list x key chain xkalg ?_ hk rfl hp hchain htype hsub
    rintro z (_ | ⟨_,hz⟩)
    · exact x509FromBlob_certified hc hx
    · exact getChain_certified hc hchain' z hz
  · have hx := hc.plain b key hkey
    exact .plain hx (sshkeySshName_plain hx)

end

lemma xkalgByName_plain (t : XkalgTable) (type : KeyType) (nid : Int) :
    xkalgByName t (sshkeySshNameFromTypeNid type nid) = none :=
  xkalgByName_of_not_x509v3 t (sshkeySshNameFromTypeNid_ok type nid).2.1

section

variable {c : Codec} {client server : Process} {k key : SshKey} {alg pkalg blob d : Bytes}

lemma parseKeyFromBlob_of_plain (hc : Decoders c) (hm : server.missingKeyIdentifier = false)
    (hcert : sshkeyIsCert k = false) (hb : toBlobBuf c k = .ok blob)
    (h : parseKeyFromBlob c server blob = .ok (key,pkalg)) :
    toBlobBuf c key = .ok blob ∧ sshkeyIsX509 key = false ∧
      pkalg = sshkeySshNameFromTypeNid key.type key.ecdsaNid := by
  obtain ⟨htrue,-⟩ | ⟨-,rest,rfl⟩ := toBlobBuf_ok hb
  · rw [hcert] at htrue
    cases htrue
  obtain ⟨hnul,hx,hnl⟩ := sshkeySshNameFromTypeNid_ok _ _
  have hmax : 45 ≤ sshbufSizeMax := by decide
  rw [parseKeyFromBlob_named hm hnul hx (by omega)] at h
  split at h
  · rename_i key' hkey'
    cases h
    have hx := hc.plain _ key' hkey'
    exact ⟨hc.blob k _ key' hb hkey',hx,sshkeySshName_plain hx⟩
  · cases h

variable (hblob : keyBlob c client alg k = .ok blob) (hlen : blob.length ≤ sshbufSizeMax)
  (hparse : parseKeyFromBlob c server blob = .ok (key,sshkeySshName client.xkalgs k))
  (hd : keyBlob c server (sshkeySshName client.xkalgs k) key = .ok d)

include hblob hlen hparse hd

lemma keyBlob_readBack_certificate {x : X509Cert} {p : SshX509KeyAlg} (hx : Certified c x)
    (hkey : x509ToKey c x = some k) (hp : p ∈ client.xkalgs.algs) (hchain : p.chain = false)
    (halg : p.name = alg) : keyBlob c client (sshkeySshName client.xkalgs k) k = .ok d := by
  have hcertOf : certOf k = some x := by
    rw [certOf,(x509ToKey_some hkey).1]
    rfl
  obtain ⟨p',hp',hchain'⟩ := xkalgByName_of_mem hp
  rw [halg] at hp'
  simp only [keyBlob,hp',hchain'.trans hchain,hcertOf,Bool.false_eq_true,if_false,
    Except.ok.injEq] at hblob
  subst hblob
  rw [parseKeyFromBlob_der hx.1 hx.2.1 hlen hx.2.2 hkey] at hparse
  cases hq : sshXkalgTypeformind _ _ _ _ with
  | none =>
    rw [hq] at hparse
    cases hparse
  | some jq =>
    simp only [hq,Except.ok.injEq,Prod.mk.injEq] at hparse
    obtain ⟨rfl,hname⟩ := hparse
    obtain ⟨hqm,hqc⟩ := sshXkalgTypeformind_legacy hq
    obtain ⟨q',hq',hqc'⟩ := xkalgByName_of_mem hqm
    obtain ⟨p0,hp0⟩ := xkalgByName_sshkeySshName (hname ▸ server.xkalgs.named hqm)
    have hp₀c : p0.chain = false := by
      obtain ⟨hm0,hn0⟩ := xkalgByName_some hp0
      rw [chain_eq hqm hm0 (hn0.trans hname.symm),hqc]
    rw [← hname] at hd hp0 ⊢
    simp only [keyBlob,hq',hqc'.trans hqc,hcertOf] at hd
    simp only [keyBlob,hp0,hp₀c,hcertOf]
    exact hd

variable (hc : Decoders c) (hclient : client.missingKeyIdentifier = false)
  (hserver : server.missingKeyIdentifier = false)

include hc hclient hserver

/-- A key read from a list of certificates: the server reads the key that the client wrote, under
the name that the client wrote. -/
lemma keyBlob_readBack_list {x : X509Cert} {key' : SshKey}
    {chain : List X509Cert} {p : SshX509KeyAlg} (hcerts : ∀ z ∈ x :: chain, Certified c z)
    (hkey : x509ToKey c x = some key') (hk : k = { key' with x509Data := some ⟨some x,some chain⟩ })
    (hp : xkalgByName client.xkalgs alg = some p) (hchain : p.chain = true)
    (htype : key'.type = p.basetype) (hsub : key'.ecdsaNid = p.subtype) :
    keyBlob c client (sshkeySshName client.xkalgs k) k = .ok d := by
  obtain ⟨hpm,hpn⟩ := xkalgByName_some hp
  have hcerts' : certificates k = x :: chain := by
    rw [hk]
    rfl
  have hcheck : x509keyCheck k = true := by
    rw [hk]
    rfl
  have hblob' := hblob
  simp only [keyBlob,hp,hchain] at hblob
  obtain ⟨-,-,hbytes⟩ := (xkeyToBuf2_iff hcheck).mp hblob
  rw [hclient,hpn,hcerts'] at hbytes
  subst hbytes
  have hbase := client.xkalgs.based p hpm
  rw [hpn,hchain] at hbase
  have hnul : 0 ∉ alg := hpn ▸ (client.xkalgs.cstrings p hpm).1
  rw [parseKeyFromBlob,if_neg fun h => buf2Bytes_head hlen h.2,parseNonLegacy] at hparse
  split at hparse
  · rename_i r hr
    cases hparse
    obtain ⟨q,hq,-,-,-,-,hr⟩ := (x509keyFromBuf2Common_named hserver hbase hnul hlen
      (fun z hz => ⟨List.ne_nil_of_length_pos (by have := (hcerts z hz).2.1; omega),
        (hcerts z hz).2.2⟩) hkey).mp hr
    obtain ⟨rfl,hname⟩ := Prod.mk.inj hr
    obtain ⟨hqm,hqn⟩ := xkalgByName_some hq
    rw [hname] at hd ⊢
    simp only [keyBlob,hq,chain_eq hpm hqm (hqn.trans hpn.symm),hchain,← hk] at hd
    obtain ⟨-,-,hd⟩ := (xkeyToBuf2_iff hcheck).mp hd
    rw [hserver,hqn,hcerts'] at hd
    rw [hblob',hd]
  · split at hparse
    · rename_i key'' hkey''
      have hplain := hc.plain _ key'' hkey''
      have hentry : cstr "x509v3-" <+: sshkeySshName client.xkalgs k := by
        subst hk
        refine sshkeySshName_of_entry rfl hpm ?_ hsub
        exact (x509ToKey_some hkey).2.2.2.trans htype
      obtain ⟨-,hname⟩ := Prod.mk.inj (Except.ok.inj hparse)
      rw [sshkeySshName_plain hplain] at hname
      rw [← hname] at hentry
      exact absurd hentry (sshkeySshNameFromTypeNid_ok _ _).2.1
    · cases hparse
  · cases hparse

/-- Both sides write the same bytes for a key that was read, written for its algorithm and read
again, if they name it by the same algorithm. -/
lemma keyBlob_readBack (hread : ReadAs c client k alg) (hcert : sshkeyIsCert k = false) :
    keyBlob c client (sshkeySshName client.xkalgs k) k = .ok d := by
  cases hread with
  | certificate x p hx hkey hp hchain halg =>
    exact keyBlob_readBack_certificate hblob hlen hparse hd hx hkey hp hchain halg
  | list x key' chain p hcerts hkey hk hp hchain htype hsub =>
    exact keyBlob_readBack_list hblob hlen hparse hd hc hclient hserver hcerts hkey hk hp hchain
      htype hsub
  | plain hx halg =>
    have hnone := xkalgByName_plain client.xkalgs k.type k.ecdsaNid
    rw [sshkeySshName_plain hx] at hparse hd ⊢
    rw [halg] at hblob
    simp only [keyBlob,hnone,check_eq_ok] at hblob ⊢
    obtain ⟨hkey,-,-⟩ := parseKeyFromBlob_of_plain hc hserver hcert hblob hparse
    simp only [keyBlob,xkalgByName_plain,check_eq_ok,hkey] at hd
    rw [hblob,hd]

end

end PkixSsh.Hostfile
