import PkixSsh.Key.Certificate
import PkixSsh.Key.SignatureName

/-!
# Issued certificates are read back

The key of a certificate is read back wherever the plain key is, unless it has an X.509 certificate
and so is named by its X.509 algorithm.
-/

namespace PkixSsh.Key

open X509 Sshbuf List Option

variable {α : Type} {env : CertEnv} {b nonce : Bytes} {type : KeyType} {k : SshKey}
  {signer : Bytes → Option Bytes → Except SshErr Bytes} {alg : Option Bytes}

@[simp] lemma orInvalid_ok (a : α) : orInvalid (.ok a) = .ok a := rfl

@[simp] lemma orInvalid_eq_ok {x : Except SshErr α} {a : α} :
    orInvalid x = .ok a ↔ x = .ok a := by
  cases x <;> simp [orInvalid,Except.mapError]

/-- The key in its plain form, as an SSH key blob has it. -/
def plainOf (k : SshKey) : SshKey :=
  { k with type := sshkeyTypePlain k.type, x509Data := none, cert := none }

def PlainReadsBack (env : CertEnv) (k : SshKey) : Prop :=
  ∃ blob, toBlobBuf env.codec (plainOf k) = .ok blob ∧ plainFromBlob env blob = .ok (plainOf k)

lemma stable_getBignum2 : Stable getBignum2 :=
  stable_getBignum2BytesDirect.bind fun _ => Stable.pure _

lemma stable_orInvalid {read : Get α} (h : Stable read) :
    Stable fun b => orInvalid (read b) := h.mapError _

lemma stable_getRsa : Stable getRsa := by
  refine (stable_orInvalid stable_getBignum2).bind fun e => ?_
  refine (stable_orInvalid stable_getBignum2).bind fun n => ?_
  exact (Stable.error _).ite (Stable.pure _) _

lemma stable_getDsa : Stable getDsa := by
  refine (stable_orInvalid stable_getBignum2).bind fun p => ?_
  refine (stable_orInvalid stable_getBignum2).bind fun q => ?_
  refine (stable_orInvalid stable_getBignum2).bind fun g => ?_
  exact (stable_orInvalid stable_getBignum2).bind fun pubKey => Stable.pure _

lemma stable_getEc (env : CertEnv) (group : Nat) : Stable (getEc env group) := by
  refine stable_getString.bind fun d => ?_
  dsimp only
  cases pointOfOctets env group d with
  | error e => exact Stable.error e
  | ok q => exact Stable.pure q

lemma stable_getEcdsa (env : CertEnv) (nid : Int) : Stable (getEcdsa env nid) := by
  refine (stable_orInvalid stable_getCstring).bind fun curve => ?_
  refine (Stable.error _).ite ?_ _
  cases env.ecKeyNewByCurveName nid with
  | none => exact Stable.error _
  | some group =>
    refine (stable_orInvalid (stable_getEc env group)).bind fun q => ?_
    exact (Stable.error _).ite (Stable.pure _) _

lemma stable_getEd25519 : Stable getEd25519 := by
  refine stable_getString.bind fun pk => ?_
  dsimp only
  split
  · exact Stable.pure _
  · exact Stable.error _

lemma stable_getMaterial (env : CertEnv) (plain : KeyType) (ktype : Bytes) :
    Stable (getMaterial env plain ktype) := by
  cases plain with
  | rsa => exact stable_getRsa
  | dsa => exact stable_getDsa
  | ecdsa => exact stable_getEcdsa env _
  | ed25519 => exact stable_getEd25519
  | rsaCert | dsaCert | ecdsaCert | ed25519Cert | xmss | xmssCert | unspec => exact Stable.error _

lemma plainFromBlob_ok {key : SshKey} (h : plainFromBlob env b = .ok key) :
    ∃ ktype rest k, getCstring b = .ok (ktype,rest) ∧
      getMaterial env (Kex.sshkeyTypeFromName env.xkalgs ktype) ktype rest = .ok (k,[]) ∧
      key = { k with type := Kex.sshkeyTypeFromName env.xkalgs ktype, cert := none } := by
  rw [plainFromBlob] at h
  cases hread : fromBlobWith env _ false b with
  | error r =>
    rw [hread] at h
    cases h
  | ok ck =>
    rw [hread] at h
    cases h
    obtain ⟨⟨ktype,rest⟩,hname,hread⟩ := bind_eq_ok.mp hread
    obtain ⟨hplain,hread⟩ := ite_error_eq_ok.mp hread
    rw [if_neg (fun hc => hplain ⟨rfl,hc⟩)] at hread
    obtain ⟨⟨k,rest'⟩,hk,hread⟩ := bind_eq_ok.mp hread
    obtain ⟨hend,hread⟩ := ite_error_eq_ok.mp hread
    cases hread
    rw [not_ne_iff] at hend
    exact ⟨ktype,rest,k,orInvalid_eq_ok.mp hname,by rw [hk,hend],rfl⟩

lemma certType_cases (h : sshkeyTypeIsCert type = true) :
    type = .rsaCert ∨ type = .dsaCert ∨ type = .ecdsaCert ∨ type = .ed25519Cert := by
  revert h
  cases type <;> decide

lemma putKeyFields_writes {c : Codec} {blob : Bytes} (hcert : sshkeyTypeIsCert k.type = true)
    (h : toBlobBuf c (plainOf k) = .ok blob) :
    ∃ fields, blob = framed (sshkeySshNameFromTypeNid (sshkeyTypePlain k.type) k.ecdsaNid) ++
        fields ∧ ∀ m r, putKeyFields c k m = .ok r → r = m ++ fields := by
  have hwrite : ∃ write fields, Writes write fields ∧
      (∀ m, putKeyFields c k m = check (write m)) ∧ toBlobBuf c (plainOf k) =
        putString (sshkeySshNameFromTypeNid (sshkeyTypePlain k.type) k.ecdsaNid) [] >>= write := by
    obtain ⟨type,rsa,dsa,nid,ec,pk,x,cert⟩ := k
    rcases certType_cases hcert with rfl | rfl | rfl | rfl
    · cases rsa with
      | none => cases h
      | some rsa =>
        exact ⟨_,_,(writes_putBignum2 rsa.e).bind (writes_putBignum2 rsa.n),fun _ => rfl,rfl⟩
    · cases dsa with
      | none => cases h
      | some dsa =>
        exact ⟨_,_,(((writes_putBignum2 dsa.p).bind (writes_putBignum2 dsa.q)).bind
          (writes_putBignum2 dsa.g)).bind (writes_putBignum2 _),fun _ => rfl,rfl⟩
    · cases ec with
      | none => cases h
      | some ec =>
        cases hd : c.ecPoint ec with
        | error e =>
          obtain ⟨b,_,h⟩ := bind_eq_ok.mp h
          rw [hd] at h
          cases h
        | ok d =>
          refine ⟨_,_,(writes_putString (sshkeyCurveNidToName nid)).bind (writes_putString d),?_,?_⟩
          · simp [putKeyFields,hd]
          · show (putString _ [] >>= putString _ >>= fun b => c.ecPoint ec >>= (putString · b)) = _
            simp [hd,plainOf]
    · cases pk with
      | none => cases h
      | some pk => exact ⟨_,_,writes_putString pk.1,fun _ => rfl,rfl⟩
  obtain ⟨write,fields,hw,hput,hblob⟩ := hwrite
  refine ⟨fields,?_,fun m r hr => hw m r (check_eq_ok.mp ((hput m).symm.trans hr))⟩
  exact (writes_putString _).bind hw [] blob (hblob.symm.trans h)

lemma sshkeyTypeFromName_of_keytypes (t : XkalgTable) {name : Bytes}
    (h : ¬ cstr "x509v3-" <+: name) :
    Kex.sshkeyTypeFromName t name = Kex.sshkeyTypeFromName emptyXkalg name := by
  rw [Kex.sshkeyTypeFromName,Kex.sshkeyTypeFromName,xkalgByName_of_not_x509v3 t h,
    xkalgByName_of_not_x509v3 _ h]

lemma ecdsaName_unknown {nid : Int} (h1 : nid ≠ nidPrime256v1) (h2 : nid ≠ nidSecp384r1)
    (h3 : nid ≠ nidSecp521r1) : sshkeySshNameFromTypeNid .ecdsa nid = cstr "ssh-unknown" := by
  have hnone : (keytypes.find? fun kt => kt.type = .ecdsa && (kt.nid = 0 || kt.nid = nid)) =
      none := by
    rw [List.find?_eq_none]
    have hall : ∀ kt ∈ keytypes, kt.type = .ecdsa →
        kt.nid = nidPrime256v1 ∨ kt.nid = nidSecp384r1 ∨ kt.nid = nidSecp521r1 := by
      decide +kernel
    intro kt hkt hfound
    simp only [Bool.and_eq_true,Bool.or_eq_true,decide_eq_true_eq] at hfound
    rcases hall kt hkt hfound.1 with hn | hn | hn <;> rw [hn] at hfound <;> tauto
  rw [sshkeySshNameFromTypeNid,hnone]

lemma certName {t : XkalgTable} {nid : Int} (hcert : sshkeyTypeIsCert type = true)
    (hplain : Kex.sshkeyTypeFromName t (sshkeySshNameFromTypeNid (sshkeyTypePlain type) nid) =
      sshkeyTypePlain type)
    : Kex.sshkeyTypeFromName t (sshkeySshNameFromTypeNid type nid) = type ∧
      sshkeyEcdsaNidFromName (sshkeySshNameFromTypeNid type nid) =
        sshkeyEcdsaNidFromName (sshkeySshNameFromTypeNid (sshkeyTypePlain type) nid) := by
  rw [sshkeyTypeFromName_of_keytypes t (sshkeySshNameFromTypeNid_ok _ _).2.1] at hplain ⊢
  rcases certType_cases hcert with rfl | rfl | rfl | rfl
  · have hc : sshkeySshNameFromTypeNid .rsaCert nid = sshkeySshNameFromTypeNid .rsaCert 0 := rfl
    have hp : sshkeySshNameFromTypeNid .rsa nid = sshkeySshNameFromTypeNid .rsa 0 := rfl
    simp only [sshkeyTypePlain,hc,hp]
    decide +kernel
  · have hc : sshkeySshNameFromTypeNid .dsaCert nid = sshkeySshNameFromTypeNid .dsaCert 0 := rfl
    have hp : sshkeySshNameFromTypeNid .dsa nid = sshkeySshNameFromTypeNid .dsa 0 := rfl
    simp only [sshkeyTypePlain,hc,hp]
    decide +kernel
  · -- a curve that has no name is not read
    by_cases h1 : nid = nidPrime256v1
    · subst h1
      decide +kernel
    by_cases h2 : nid = nidSecp384r1
    · subst h2
      decide +kernel
    by_cases h3 : nid = nidSecp521r1
    · subst h3
      decide +kernel
    · simp only [sshkeyTypePlain,ecdsaName_unknown h1 h2 h3] at hplain
      exact absurd hplain (by decide +kernel)
  · have hc : sshkeySshNameFromTypeNid .ed25519Cert nid =
        sshkeySshNameFromTypeNid .ed25519Cert 0 := rfl
    have hp : sshkeySshNameFromTypeNid .ed25519 nid = sshkeySshNameFromTypeNid .ed25519 0 := rfl
    simp only [sshkeyTypePlain,hc,hp]
    decide +kernel

lemma x509Name_not_cert {t : XkalgTable} {name : Bytes} (h : sshX509keyName t k = some name) :
    0 ∉ name ∧ sshkeyTypeIsCert (Kex.sshkeyTypeFromName t name) = false := by
  rw [sshX509keyName] at h
  split at h
  · obtain ⟨⟨i,p⟩,hp,rfl⟩ := map_eq_some_iff.mp h
    obtain ⟨pre,post,halgs,_⟩ := FirstMatch.scan_some hp
    have halgs : t.algs = pre ++ p :: post := halgs
    have hmem : p ∈ t.algs := by simp [halgs]
    have hfound : (xkalgByName t p.name).isSome := by
      rw [xkalgByName_eq,List.find?_isSome]
      exact ⟨p,hmem,by simp⟩
    obtain ⟨q,hq⟩ := isSome_iff_exists.mp hfound
    refine ⟨(t.cstrings p hmem).1,?_⟩
    rw [Kex.sshkeyTypeFromName,hq]
    show sshkeyTypeIsCert q.basetype = false
    rcases basetype_cases (xkalgByName_some hq).1 with hb | hb | hb <;> rw [hb] <;> decide
  · cases h

lemma keyFields_readBack (hcert : sshkeyTypeIsCert k.type = true) (h : PlainReadsBack env k) :
    ∃ fields, (∀ m r, putKeyFields env.codec k m = .ok r → r = m ++ fields) ∧
      Kex.sshkeyTypeFromName env.xkalgs (sshkeySshNameFromTypeNid k.type k.ecdsaNid) = k.type ∧
      ∃ k', (∀ rest, getMaterial env (sshkeyTypePlain k.type)
          (sshkeySshNameFromTypeNid k.type k.ecdsaNid) (fields ++ rest) = .ok (k',rest)) ∧
        { k' with type := k.type, cert := none } = { k with x509Data := none, cert := none } := by
  obtain ⟨blob,hblob,hread⟩ := h
  obtain ⟨fields,rfl,hwrites⟩ := putKeyFields_writes hcert hblob
  obtain ⟨ktype,rest,k',hname,hk',hkey⟩ := plainFromBlob_ok hread
  obtain ⟨hnul,_,hlen⟩ := sshkeySshNameFromTypeNid_ok (sshkeyTypePlain k.type) k.ecdsaNid
  rw [getCstring_framed hnul (by rw [sshbufSizeMax]; omega)] at hname
  cases hname
  have htype : Kex.sshkeyTypeFromName env.xkalgs
      (sshkeySshNameFromTypeNid (sshkeyTypePlain k.type) k.ecdsaNid) = sshkeyTypePlain k.type :=
    (congrArg SshKey.type hkey).symm
  obtain ⟨hctype,hnid⟩ := certName hcert htype
  rw [htype] at hk' hkey
  refine ⟨fields,hwrites,hctype,k',?_,?_⟩
  · intro rest
    have hstable := stable_getMaterial env (sshkeyTypePlain k.type) _ fields k' [] rest hk'
    have hsame : ∀ b, getMaterial env (sshkeyTypePlain k.type)
        (sshkeySshNameFromTypeNid k.type k.ecdsaNid) b =
        getMaterial env (sshkeyTypePlain k.type)
          (sshkeySshNameFromTypeNid (sshkeyTypePlain k.type) k.ecdsaNid) b := by
      intro b
      simp only [getMaterial,hnid]
    rw [hsame]
    exact hstable
  · simp only [plainOf,SshKey.mk.injEq] at hkey ⊢
    tauto

lemma strdup_cstring (s : CString) : Krl.strdup s.1 = s :=
  Subtype.ext (untilNul_of_not_mem s.2)

def bodyOf (cert : Certificate) (principals ca : Bytes) : CertBody where
  serial := cert.serial
  type := cert.type
  keyId := cert.keyId
  principals := principals
  validAfter := cert.validAfter
  validBefore := cert.validBefore
  critical := cert.critical
  extensions := cert.extensions
  ca := ca

lemma putCertBody_readsBack (cert : Certificate) (principals ca : Bytes) :
    Sshbuf.ReadsBack (putCertBody cert principals ca) getCertBody (bodyOf cert principals ca) := by
  refine (readsBack_putU64 cert.serial.toNat_lt).bind ?_
  refine (readsBack_putU32 cert.type.toNat_lt).bind ?_
  refine (readsBack_putCstring cert.keyId.2).bind ?_
  refine (readsBack_putString _).bind ?_
  refine (readsBack_putU64 cert.validAfter.toNat_lt).bind ?_
  refine (readsBack_putU64 cert.validBefore.toNat_lt).bind ?_
  refine (readsBack_putString _).bind ?_
  refine (readsBack_putString _).bind ?_
  refine (readsBack_putString []).bind ?_
  refine (readsBack_putString ca).map ?_
  simp [bodyOf,strdup_cstring]

def putOption (b : Bytes) (option : Bytes × Bytes) : Except SshErr Bytes :=
  putString option.1 b >>= putString option.2

def OptionsBuilt (b : Bytes) : Prop :=
  ∃ options : List (Bytes × Bytes), options.foldlM putOption [] = .ok b

lemma foldlM_putOption {options : List (Bytes × Bytes)} {r : Bytes}
    (hb : b.length ≤ sshbufSizeMax) (h : options.foldlM putOption b = .ok r) :
    r.length ≤ sshbufSizeMax ∧
      r = b ++ options.flatMap (fun o => framed o.1 ++ framed o.2) ∧
      ∀ o ∈ options, o.1.length ≤ sshbufSizeMax - 4 ∧ o.2.length ≤ sshbufSizeMax - 4 := by
  induction options generalizing b with
  | nil =>
    cases h
    exact ⟨hb,(append_nil _).symm,by simp⟩
  | cons o options ih =>
    obtain ⟨b',hb',h⟩ := bind_eq_ok.mp h
    obtain ⟨b1,hb1,hb'⟩ := bind_eq_ok.mp hb'
    obtain ⟨hl1,rfl⟩ := putString_iff.mp hb1
    obtain ⟨hl2,rfl⟩ := putString_iff.mp hb'
    obtain ⟨hlen,hr,hall⟩ := ih (by rw [length_append]; exact hl2) h
    refine ⟨hlen,by rw [hr]; simp,?_⟩
    intro o' ho'
    rcases mem_cons.mp ho' with rfl | ho'
    · exact ⟨by omega,by omega⟩
    · exact hall o' ho'

lemma OptionsBuilt.length_le (h : OptionsBuilt b) : b.length ≤ sshbufSizeMax := by
  obtain ⟨options,hb⟩ := h
  exact (foldlM_putOption (Nat.zero_le _) hb).1

lemma untilEmpty_skipOption (h : OptionsBuilt b) : untilEmpty skipOption () b = .ok () := by
  obtain ⟨options,hb⟩ := h
  obtain ⟨hlen,rfl,hall⟩ := foldlM_putOption (Nat.zero_le _) hb
  rw [nil_append]
  have hstep : ∀ o ∈ options, framed o.1 ++ framed o.2 ≠ [] ∧
      ∀ s rest, skipOption s (framed o.1 ++ framed o.2 ++ rest) =
        (Except.ok ()).map fun s => (s,rest) := by
    intro o ho
    obtain ⟨h1,h2⟩ := hall o ho
    refine ⟨?_,?_⟩
    · intro hnil
      have := congrArg List.length hnil
      simp at this
    · simp [skipOption,getString_framed h1,getString_framed h2,Except.map]
  rw [untilEmpty_flatMap hstep]
  clear hlen hall hb hstep
  induction options with
  | nil => rfl
  | cons o options ih =>
    exact ih

def principalBytes (principals : List CString) : Bytes :=
  principals.flatMap fun p => framed p.1

def addPrincipal (principals : List CString) (p : CString) : Except SshErr (List CString) :=
  if principals.length ≥ sshkeyCertMaxPrincipals then .error .invalidFormat
  else .ok (principals ++ [p])

lemma foldlM_addPrincipal {before : List CString}
    (hb : before.length ≤ sshkeyCertMaxPrincipals) (principals : List CString) :
    principals.foldlM addPrincipal before =
      if before.length + principals.length > sshkeyCertMaxPrincipals then .error .invalidFormat
      else .ok (before ++ principals) := by
  induction principals generalizing before with
  | nil =>
    rw [length_nil,if_neg (by omega),append_nil]
    rfl
  | cons p principals ih =>
    rw [foldlM_cons,addPrincipal]
    by_cases hfull : before.length ≥ sshkeyCertMaxPrincipals
    · rw [if_pos hfull,error_bind,if_pos (by rw [length_cons]; omega)]
    · have hlen : (before ++ [p]).length = before.length + 1 := by simp
      rw [if_neg hfull,ok_bind,ih (by omega),hlen,append_assoc,Nat.add_right_comm _ 1]
      rfl

lemma untilEmpty_getPrincipal {principals : List CString}
    (hall : ∀ p ∈ principals, p.1.length ≤ sshbufSizeMax - 4) :
    untilEmpty getPrincipal [] (principalBytes principals) =
      if principals.length > sshkeyCertMaxPrincipals then .error .invalidFormat
      else .ok principals := by
  have hstep : ∀ p ∈ principals, framed p.1 ≠ [] ∧
      ∀ s rest, getPrincipal s (framed p.1 ++ rest) =
        (addPrincipal s p).map fun s => (s,rest) := by
    intro p hp
    refine ⟨?_,?_⟩
    · intro hnil
      have := congrArg List.length hnil
      simp at this
    · intro s rest
      rw [getPrincipal,addPrincipal]
      split
      · rfl
      · simp [getCstring_framed p.2 (hall p hp),strdup_cstring,Except.map]
  rw [principalBytes,untilEmpty_flatMap hstep,foldlM_addPrincipal (Nat.zero_le _),
    length_nil,Nat.zero_add,nil_append]

structure CertParts where
  name : Bytes
  nonce : Bytes
  fields : Bytes
  body : Bytes
  sig : Bytes

def CertParts.signed (p : CertParts) : Bytes :=
  framed p.name ++ (framed p.nonce ++ (p.fields ++ p.body))

def CertParts.blob (p : CertParts) : Bytes := p.signed ++ framed p.sig

lemma CertParts.blob_eq (p : CertParts) : p.blob = framed p.name ++ (framed p.nonce ++
    (p.fields ++ (p.body ++ framed p.sig))) := by
  simp [CertParts.blob,CertParts.signed]

structure Issued (env : CertEnv) (signer : Bytes → Option Bytes → Except SshErr Bytes)
    (k : SshKey) (cert : Certificate) (ca : SshKey) (p : CertParts) (caBlob sigtype : Bytes) :
    Prop where
  name : p.name = sshkeySshName env.xkalgs k
  fits : p.blob.length ≤ sshbufSizeMax
  reads : ∀ rest, getCertBody (p.body ++ rest) =
    .ok (bodyOf cert (principalBytes cert.principals) caBlob,rest)
  authority : toBlobBuf env.codec ca = .ok caBlob
  validCa : sshkeyTypeIsValidCa ca.type = true
  signed : ∃ alg, signer p.signed alg = .ok p.sig
  sigtype : sshkeySigtype p.sig = .ok sigtype
  principals : ∀ q ∈ cert.principals, q.1.length ≤ sshbufSizeMax - 4

lemma certifySign_ok {sig sigtype : Bytes} (h : certifySign signer alg b = .ok (sig,sigtype)) :
    signer b alg = .ok sig ∧ sshkeySigtype sig = .ok sigtype ∧
      (alg = none ∨ alg = some sigtype) := by
  obtain ⟨sig',hsig,h⟩ := bind_eq_ok.mp h
  obtain ⟨sigtype',htype,h⟩ := bind_eq_ok.mp h
  obtain ⟨halg,h⟩ := ite_error_eq_ok.mp h
  cases h
  exact ⟨hsig,htype,by tauto⟩

lemma certifyAlg_ok {signatureType alg' : Option Bytes}
    (h : certifyAlg alg signatureType type = .ok alg') {st : Bytes}
    (hst : signatureType = some st) :
    alg' = some st := by
  subst hst
  cases alg with
  | none =>
    cases h
    simp
  | some a =>
    by_cases ha : a = st
    · subst ha
      simp only [certifyAlg,ne_eq] at h
      cases h
      simp
    · simp [certifyAlg,ha,Except.map] at h

lemma certifiedBytes_ok {fields : Bytes} {cert : Certificate} {ca : Bytes}
    (hfields : ∀ m r, putKeyFields env.codec k m = .ok r → r = m ++ fields)
    (h : certifiedBytes env nonce k cert ca = .ok b) : ∃ body, (∀ rest, getCertBody (body ++ rest) =
        .ok (bodyOf cert (principalBytes cert.principals) ca,rest)) ∧
      (∀ q ∈ cert.principals, q.1.length ≤ sshbufSizeMax - 4) ∧
      b = CertParts.signed ⟨sshkeySshName env.xkalgs k,nonce,fields,body,[]⟩ := by
  obtain ⟨b1,h1,h⟩ := bind_eq_ok.mp h
  obtain ⟨b2,h2,h⟩ := bind_eq_ok.mp h
  obtain ⟨b3,h3,h⟩ := bind_eq_ok.mp h
  obtain ⟨principals,hp,h⟩ := bind_eq_ok.mp h
  have hp := check_eq_ok.mp hp
  have hall := foldlM_ok_mem hp
  obtain ⟨_,rfl⟩ := (foldlM_putString_iff (Nat.zero_le _)).mp hp
  obtain ⟨body,rfl,hbody⟩ := putCertBody_readsBack _ _ _ _ _ (check_eq_ok.mp h)
  refine ⟨body,hbody,?_,?_⟩
  · intro q hq
    obtain ⟨m,r,hr⟩ := hall q hq
    have := (putString_iff.mp hr).1
    omega
  · rw [hfields _ _ h3,writes_putString _ _ _ (check_eq_ok.mp h2),
      writes_putString _ _ _ (check_eq_ok.mp h1)]
    simp [CertParts.signed]

lemma sshkeyCertifyCustom_ok {fields : Bytes} {k k' : CertKey} {cert : Certificate} {ca : SshKey}
    (hcert : k.cert = some cert)
    (hfields : ∀ m r, putKeyFields env.codec k.key m = .ok r → r = m ++ fields)
    (h : sshkeyCertifyCustom env signer nonce k ca alg = (k',.ok ())) :
    ∃ p caBlob sigtype, Issued env signer k.key cert ca p caBlob sigtype ∧ p.fields = fields ∧
      k'.cert = some { cert with certblob := p.blob, signatureType := some sigtype } := by
  rw [sshkeyCertifyCustom,hcert] at h
  dsimp only at h
  split at h
  · cases h
  split at h
  · cases h
  rename_i hca
  split at h
  · cases h
  · cases h
  rename_i alg' caBlob halg hblob
  split at h
  · cases h
  rename_i hsigned
  split at h
  · cases h
  rename_i certblob hput
  obtain ⟨b,hb,hsigned⟩ := bind_eq_ok.mp hsigned
  obtain ⟨⟨sig,sigtype⟩,hsign,hsigned⟩ := bind_eq_ok.mp hsigned
  cases hsigned
  obtain ⟨hsig,htype,hsame⟩ := certifySign_ok (check_eq_ok.mp hsign)
  obtain ⟨body,hbody,hprincipals,rfl⟩ := certifiedBytes_ok hfields hb
  obtain ⟨hfits,rfl⟩ := putString_iff.mp hput
  have hst : cert.signatureType.getD sigtype = sigtype := by
    cases hst : cert.signatureType with
    | none => rfl
    | some st =>
      rw [certifyAlg_ok halg hst] at hsame
      simpa using hsame
  refine ⟨⟨sshkeySshName env.xkalgs k.key,nonce,fields,body,sig⟩,caBlob,sigtype,?_,rfl,?_⟩
  · exact {
      name := rfl
      fits := by
        rw [CertParts.blob,length_append]
        exact hfits
      reads := hbody
      authority := hblob
      validCa := by simpa using hca
      signed := ⟨alg',hsig⟩
      sigtype := htype
      principals := hprincipals }
  · cases h
    rw [hst]
    rfl

/-- The certificate with what issuing and reading it fill in. -/
def issuedCert (cert : Certificate) (certblob sigtype : Bytes) (ca : SshKey) : Certificate :=
  { cert with
    certblob := certblob
    signatureType := some sigtype
    signatureKey := some (plainOf ca) }

lemma sshkeyTypeIsValidCa_plain (h : sshkeyTypeIsValidCa type = true) :
    sshkeyTypeIsValidCa (sshkeyTypePlain type) = true := by
  revert h
  cases type <;> decide

section

variable {env : CertEnv} {signer : Bytes → Option Bytes → Except SshErr Bytes} {k : CertKey}
  {cert : Certificate} {ca : SshKey} {p : CertParts} {caBlob sigtype : Bytes}
  (h : Issued env signer k.key cert ca p caBlob sigtype)

include h

lemma certParse_issued (hca : plainFromBlob env caBlob = .ok (plainOf ca))
    (hverify : ∀ data alg sig, signer data alg = .ok sig →
      env.sshkeyVerify (plainOf ca) sig data = .ok ())
    (hcrit : OptionsBuilt cert.critical) (hext : OptionsBuilt cert.extensions) :
    certParse env p.blob (p.body ++ framed p.sig) =
      if cert.type ≠ ssh2CertTypeUser ∧ cert.type ≠ ssh2CertTypeHost then
        .error .keyCertUnknownType
      else if cert.principals.length > sshkeyCertMaxPrincipals then .error .invalidFormat
      else .ok (issuedCert cert p.blob sigtype ca,[]) := by
  have hlen : p.signed.length + (p.sig.length + 4) ≤ sshbufSizeMax := by
    have := h.fits
    rwa [CertParts.blob,length_append,length_framed] at this
  have hblob : put _ [] = .ok _ := put_iff.mpr ⟨by simpa using h.fits,rfl⟩
  have hsig : getString (framed p.sig) = .ok (p.sig,[]) := by
    have := getString_framed (v := p.sig) (by omega) []
    rwa [append_nil] at this
  have htake : p.blob.take (p.blob.length - (p.sig.length + 4)) = p.signed := by
    rw [CertParts.blob,length_append,length_framed,Nat.add_sub_cancel,take_left]
  have hc : put _ [] = .ok _ := put_iff.mpr ⟨by simpa using hcrit.length_le,rfl⟩
  have he : put _ [] = .ok _ := put_iff.mpr ⟨by simpa using hext.length_le,rfl⟩
  obtain ⟨alg,hsigned⟩ := h.signed
  simp only [certParse,hblob,ok_bind,h.reads,orInvalid_ok,hsig,bodyOf]
  split
  · rfl
  rw [untilEmpty_getPrincipal h.principals]
  split
  · rfl
  have hvalid : sshkeyTypeIsValidCa (plainOf ca).type = true := sshkeyTypeIsValidCa_plain h.validCa
  simp [hc,he,untilEmpty_skipOption hcrit,untilEmpty_skipOption hext,hca,Except.mapError,hvalid,
    htake,hverify _ _ _ hsigned,h.sigtype,issuedCert]

lemma sshkeyFromBlob_issued {k' : SshKey} (hname : sshX509keyName env.xkalgs k.key = none)
    (hcert : sshkeyTypeIsCert k.key.type = true) (htype : Kex.sshkeyTypeFromName env.xkalgs
      (sshkeySshNameFromTypeNid k.key.type k.key.ecdsaNid) = k.key.type)
    (hk : ∀ rest, getMaterial env (sshkeyTypePlain k.key.type)
      (sshkeySshNameFromTypeNid k.key.type k.key.ecdsaNid) (p.fields ++ rest) = .ok (k',rest)) :
    sshkeyFromBlob env p.blob = (certParse env p.blob (p.body ++ framed p.sig)) >>= fun r =>
        if r.2 ≠ [] then .error .invalidFormat
        else .ok ⟨{ k' with type := k.key.type, cert := none },some r.1,rfl⟩ := by
  obtain ⟨hnul,_,hlen⟩ := sshkeySshNameFromTypeNid_ok _ _
  have hpname : p.name = sshkeySshNameFromTypeNid k.key.type k.key.ecdsaNid := by
    rw [h.name,sshkeySshName,hname,getD_none]
  have hfits := h.fits
  have hget : getCstring p.blob = .ok (p.name,framed p.nonce ++
      (p.fields ++ (p.body ++ framed p.sig))) := by
    rw [p.blob_eq,hpname]
    exact getCstring_framed hnul (by rw [sshbufSizeMax]; omega) _
  have hnonce : p.nonce.length ≤ sshbufSizeMax - 4 := by
    rw [p.blob_eq] at hfits
    simp only [length_append,length_framed] at hfits
    omega
  rw [sshkeyFromBlob,if_neg (by omega),fromBlobWith,hget,hpname]
  simp only [orInvalid_ok,ok_bind,htype,hcert,getString_framed hnonce,hk]
  simp

lemma sshkeyFromBlob_x509Name
    {name : Bytes} (hname : sshX509keyName env.xkalgs k.key = some name) {r : CertKey}
    (hr : sshkeyFromBlob env p.blob = .ok r) : r.cert = none := by
  obtain ⟨hnul,hplain⟩ := x509Name_not_cert hname
  have hpname : p.name = name := by
    rw [h.name,sshkeySshName,hname,getD_some]
  have hfits := h.fits
  rw [p.blob_eq,hpname] at hfits hr
  simp only [length_append,length_framed] at hfits
  rw [sshkeyFromBlob,if_neg (by simp only [length_append,length_framed]; omega),
    fromBlobWith,getCstring_framed hnul (by omega)] at hr
  simp only [orInvalid_ok,ok_bind,hplain] at hr
  obtain ⟨⟨key,rest⟩,_,hr⟩ := bind_eq_ok.mp hr
  obtain ⟨-,hr⟩ := ite_error_eq_ok.mp hr
  cases hr
  rfl

end

lemma toBlobBuf_plainOf {c : Codec} (h : sshkeyTypeIsValidCa k.type = true) :
    toBlobBuf c (plainOf k) = toBlobBuf c k := by
  obtain ⟨type,rsa,dsa,nid,ec,pk,x,cert⟩ := k
  cases type with
  | rsa | dsa | ecdsa | ed25519 | xmss => rfl
  | rsaCert | dsaCert | ecdsaCert | ed25519Cert | xmssCert | unspec => cases h

lemma certify_isCert {k k' : CertKey} {ca : SshKey}
    (h : sshkeyCertifyCustom env signer nonce k ca alg = (k',.ok ())) :
    sshkeyTypeIsCert k.key.type = true := by
  rw [sshkeyCertifyCustom] at h
  split at h
  · cases h
  split at h
  · cases h
  · rename_i hcert
    simpa [sshkeyIsCert] using hcert

/-- The blob of the certificate is read as the certificate, with the fields it was issued for. -/
def IssuedReadsBack (env : CertEnv) (k k' : CertKey) (cert : Certificate) (ca : SshKey) : Prop :=
  ∃ certblob sigtype, k'.cert =
      some { cert with certblob := certblob, signatureType := some sigtype } ∧
    sshkeyFromBlob env certblob =
      .ok ⟨{ k.key with x509Data := none },some (issuedCert cert certblob sigtype ca),k.bare⟩

/-- Where plain keys and signatures are accepted again, the certificates read back are those for
keys without X.509 name, of at most 256 principals and a known type. -/
theorem sshkeyCertifyCustom_readsBack_iff {env : CertEnv}
    {signer : Bytes → Option Bytes → Except SshErr Bytes} {nonce : Bytes} {k k' : CertKey}
    {cert : Certificate} {ca : SshKey} {alg : Option Bytes} (hcert : k.cert = some cert)
    (hkey : PlainReadsBack env k.key) (hca : PlainReadsBack env ca)
    (hverify : ∀ data alg sig, signer data alg = .ok sig →
      env.sshkeyVerify (plainOf ca) sig data = .ok ())
    (hcrit : OptionsBuilt cert.critical) (hext : OptionsBuilt cert.extensions)
    (h : sshkeyCertifyCustom env signer nonce k ca alg = (k',.ok ())) :
    IssuedReadsBack env k k' cert ca ↔ sshX509keyName env.xkalgs k.key = none ∧
        cert.principals.length ≤ sshkeyCertMaxPrincipals ∧
        (cert.type = ssh2CertTypeUser ∨ cert.type = ssh2CertTypeHost) := by
  have htype := certify_isCert h
  obtain ⟨fields,hwrites,hname,key,hread,hkey'⟩ := keyFields_readBack htype hkey
  obtain ⟨p,caBlob,sigtype,hissued,rfl,hk'⟩ := sshkeyCertifyCustom_ok hcert hwrites h
  obtain ⟨blob,hblob,hcaRead⟩ := hca
  rw [toBlobBuf_plainOf hissued.validCa,hissued.authority] at hblob
  cases hblob
  have hparse := certParse_issued hissued hcaRead hverify hcrit hext
  constructor
  · rintro ⟨certblob,st,hcert',hback⟩
    rw [hk'] at hcert'
    obtain ⟨rfl,rfl⟩ : p.blob = certblob ∧ sigtype = st := by
      simpa [Certificate.mk.injEq] using hcert'
    cases hx : sshX509keyName _ k.key with
    | some name => exact absurd (sshkeyFromBlob_x509Name hissued hx hback) (by simp)
    | none =>
      rw [sshkeyFromBlob_issued hissued hx htype hname hread,hparse] at hback
      split at hback
      · cases hback
      split at hback
      · cases hback
      exact ⟨rfl,by omega,by tauto⟩
  · rintro ⟨hx,hprincipals,hcertType⟩
    refine ⟨p.blob,sigtype,hk',?_⟩
    rw [sshkeyFromBlob_issued hissued hx htype hname hread,hparse,if_neg (by tauto),
      if_neg (by omega)]
    have hbare : { k.key with x509Data := none, cert := none } =
        { k.key with x509Data := none } := by
      rw [← k.bare]
    simp only [ok_bind,ne_eq,not_true_eq_false,if_false,Except.ok.injEq,CertKey.mk.injEq,and_true]
    exact hkey'.trans hbare

def exampleSignature (data : Bytes) : Bytes :=
  framed (cstr "ssh-ed25519") ++ framed (data.take 64)

def exampleSigner (data : Bytes) (_ : Option Bytes) : Except SshErr Bytes :=
  .ok (exampleSignature data)

def exampleCertEnv : CertEnv where
  codec := exampleReadEnv.codec
  xkalgs := defaultXkalg
  ecKeyNewByCurveName _ := none
  ecPointOct2point _ _ := none
  sshkeyVerify _ sig data :=
    if sig = exampleSignature data then .ok () else .error .signatureInvalid

def exampleCa : SshKey :=
  { sshkeyNew .ed25519 with
    ed25519Pk := some ⟨(List.range 32).map fun i => (i + 33).toUInt8,by decide⟩ }

def exampleCertificate : Certificate where
  certblob := []
  type := ssh2CertTypeUser
  serial := 7
  keyId := ⟨cstr "alice@host",by decide +kernel⟩
  principals := [⟨cstr "alice",by decide +kernel⟩,⟨cstr "deploy",by decide +kernel⟩]
  validAfter := 0
  validBefore := 0xffffffffffffffff
  critical := framed (cstr "force-command") ++ framed (framed (cstr "uptime"))
  extensions := framed (cstr "permit-pty") ++ framed []
  signatureKey := none
  signatureType := none

def exampleNonce : Bytes := List.replicate 32 7

lemma exampleSigner_verified (data : Bytes) (alg : Option Bytes) (sig : Bytes)
    (h : exampleSigner data alg = .ok sig) :
    exampleCertEnv.sshkeyVerify (plainOf exampleCa) sig data = .ok () := by
  cases h
  exact if_pos rfl

lemma exampleCertificate_options :
    OptionsBuilt exampleCertificate.critical ∧ OptionsBuilt exampleCertificate.extensions :=
  ⟨⟨[(cstr "force-command",framed (cstr "uptime"))],by decide +kernel⟩,
    ⟨[(cstr "permit-pty",[])],by decide +kernel⟩⟩

lemma exampleCa_readsBack : PlainReadsBack exampleCertEnv exampleCa :=
  bind_eq_ok.mp (by decide +kernel)

def exampleCertKey : CertKey :=
  ⟨{ exampleEd25519 with type := .ed25519Cert },some exampleCertificate,rfl⟩

/-- An Ed25519 key with two principals. -/
theorem sshkeyCertifyCustom_readsBack_ed25519 : IssuedReadsBack exampleCertEnv exampleCertKey
      (sshkeyCertifyCustom exampleCertEnv exampleSigner exampleNonce exampleCertKey exampleCa
        none).1 exampleCertificate exampleCa := by
  have hissued : (sshkeyCertifyCustom exampleCertEnv exampleSigner exampleNonce exampleCertKey
      exampleCa none).2 = .ok () := by decide +kernel
  have hkey : PlainReadsBack exampleCertEnv exampleCertKey.key := bind_eq_ok.mp (by decide +kernel)
  have hplain : sshX509keyName exampleCertEnv.xkalgs exampleCertKey.key = none := by
    decide +kernel
  have hfew : exampleCertificate.principals.length ≤ sshkeyCertMaxPrincipals := by
    decide +kernel
  generalize hk' : sshkeyCertifyCustom _ _ _ _ _ none = result at hissued ⊢
  obtain ⟨k',verdict⟩ := result
  cases hissued
  have hcert : exampleCertKey.cert = some _ := rfl
  have hiff := sshkeyCertifyCustom_readsBack_iff hcert hkey exampleCa_readsBack
    exampleSigner_verified exampleCertificate_options.1 exampleCertificate_options.2 hk'
  exact hiff.mpr ⟨hplain,hfew,.inl rfl⟩

def exampleX509CertKey : CertKey :=
  ⟨{ rsaX509Key (2 ^ 1023 + 1) 65537 "alice" with type := .rsaCert },some exampleCertificate,rfl⟩

/-- The certificate that is issued for an X.509 key is refused. -/
theorem sshkeyCertifyCustom_x509_key : PlainReadsBack exampleCertEnv exampleX509CertKey.key ∧
    PlainReadsBack exampleCertEnv exampleCa ∧
    (sshkeyCertifyCustom exampleCertEnv exampleSigner exampleNonce exampleX509CertKey exampleCa
      none).2 = .ok () ∧
    (sshkeyCertifyCustom exampleCertEnv exampleSigner exampleNonce exampleX509CertKey exampleCa
      none).1.cert.map (fun cert => sshkeyFromBlob exampleCertEnv cert.certblob) =
        some (.error .keyLength) := by
  refine ⟨bind_eq_ok.mp ?_,exampleCa_readsBack,?_,?_⟩
  · decide +kernel
  · decide +kernel
  · decide +kernel

end PkixSsh.Key
