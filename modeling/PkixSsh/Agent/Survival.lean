import PkixSsh.Agent.Algorithm

/-!
# The signature algorithm across the agent protocol

The protocol has no field for the algorithm: it goes as flag bits or through the format of the key
blob. For which keys and algorithms does the signature asked for come back?
-/

namespace PkixSsh.Agent

open Key X509 Sshbuf

/-- The algorithm the agent takes for a certificate that comes without a name. -/
def legacyAlg (t : XkalgTable) (k : SshKey) : Option SshX509KeyAlg :=
  (sshXkalgTypeformind t k.type k.ecdsaNid .legacy).bind fun q => xkalgByName t q.2.name

/-- A certificate list: its key is of the algorithm and long enough for both processes, which call
the signature the same. -/
structure ListSurvives (c : Codec) (client agent : Process) (p : SshX509KeyAlg) (k : SshKey)
    (data : Bytes) : Prop where
  identifier : client.missingKeyIdentifier = false
  fits : k.type = p.basetype ∧ k.ecdsaNid = p.subtype
  count : (certificates k).length ≤ 100
  size : (buf2Bytes false p.name (certificates k)).length + data.length + 13 ≤ sshbufSizeMax
  modulus : checkRsa2048Sha256 c p k = .ok true
  known : ∃ q, xkalgByName agent.xkalgs p.name = some q ∧
    checkRsa2048Sha256 c q k = .ok true ∧ x509pubalgSigname q = x509pubalgSigname p

/-- A certificate alone: the agent chooses an algorithm of the older format, and the signature has
to be called the same. -/
structure CertSurvives (agent : Process) (p : SshX509KeyAlg) (k : SshKey) (x : X509Cert)
    (data : Bytes) : Prop where
  size : x.der.length + data.length + 13 ≤ sshbufSizeMax
  chosen : ∃ q, legacyAlg agent.xkalgs k = some q ∧ x509pubalgSigname q = x509pubalgSigname p

/-- The requests whose algorithm the agent comes to know. -/
def AlgorithmSurvives (c : Codec) (client agent : Process) (k : SshKey) (alg data : Bytes) :
    Prop :=
  match xkalgByName client.xkalgs alg with
  | none => PlainAlgorithm k alg ∧
      ∃ blob, toBlobBuf c k = .ok blob ∧ blob.length + data.length + 13 ≤ sshbufSizeMax
  | some p => data.length ≤ sshKeyMaxSignDataSize ∧ ∃ x, certOf k = some x ∧
      if p.chain then ListSurvives c client agent p k data else CertSurvives agent p k x data

variable {alg data name : Bytes} {p : SshX509KeyAlg} {ssl : Openssl} {c : Codec} {y : Crypto}
  {agent client : Process} {tab : Idtable} {i : Nat} {id : Identity} {opaqueEcdsa : Bool}

lemma agentRecodeAlg_x509v3 (h : cstr "x509v3-" <+: name) (flags : Nat) :
    agentRecodeAlg name flags = name := by
  rw [agentRecodeAlg,if_neg]
  rintro rfl
  exact absurd h (by decide)

lemma agentRecodeAlg_of_not_x509v3 (h : ¬ cstr "x509v3-" <+: name) (flags : Nat) :
    ¬ cstr "x509v3-" <+: agentRecodeAlg name flags := by
  rw [agentRecodeAlg]
  split
  · split
    · decide
    split
    · decide
    · exact h
  · exact h

lemma xkalgByName_mem {t : XkalgTable} (hp : p ∈ t.algs) :
    ∃ q, xkalgByName t p.name = some q := by
  cases hq : xkalgByName t _ with
  | none =>
    rw [xkalgByName_eq,List.find?_eq_none] at hq
    exact absurd (by simp) (hq p hp)
  | some q => exact ⟨q,rfl⟩

lemma sshXkalgTypeformind_some {t : XkalgTable} {type : KeyType} {sub : Int} {frm : X509Format}
    {j : Nat} (h : sshXkalgTypeformind t type sub frm = some (j,p)) :
    p ∈ t.algs ∧ p.basetype = sshkeyTypePlain type := by
  have hs := congrArg (Option.map Prod.snd) h
  have hf := (searchUntil_table t _ _).symm.trans hs
  have hp := List.find?_some hf
  simp only [Bool.and_eq_true,decide_eq_true_eq] at hp
  exact ⟨List.mem_of_find?_eq_some hf,hp.1.1.symm⟩

section

variable (h : Served ssl c y client agent tab i id alg opaqueEcdsa data)

include h

lemma answered_plain {own : Bytes} (hp : xkalgByName client.xkalgs alg = none)
    (hown : xkeySign y client.xkalgs alg opaqueEcdsa id.key.1 data = .ok own) :
    Answered c y client agent alg opaqueEcdsa id.key.1 data ↔
      PlainAlgorithm id.key.1 alg ∧ ∃ blob, toBlobBuf c id.key.1 = .ok blob ∧
        blob.length + data.length + 13 ≤ sshbufSizeMax := by
  rw [xkeySign,hp] at hown
  have hiff := plainAlgorithm_iff hp hown opaqueEcdsa
  obtain ⟨-,hx,-⟩ := sshkeySshNameFromTypeNid_ok _ _
  have hnone := xkalgByName_of_not_x509v3 agent.xkalgs
    (agentRecodeAlg_of_not_x509v3 hx (signFlags opaqueEcdsa id.key.1 alg))
  have hkey : ∀ blob, toBlobBuf c _ = .ok blob →
      ∃ key, parseKeyFromBlob c agent blob =
        .ok _ :=
    fun blob hblob => parseKeyFromBlob_plain h.noCompat h.decodes h.certNamed hblob
  simp only [Answered,keyBlob,hp,check_eq_ok]
  constructor
  · rintro ⟨blob,hblob,hl,key,pkalg,s,hparse,hsign,hcheck⟩
    obtain ⟨key',hkey⟩ := hkey blob hblob
    rw [hkey] at hparse
    cases hparse
    rw [xkeySign,hnone] at hsign
    exact ⟨hiff.mp ⟨s,hsign,hcheck⟩,blob,hblob,hl⟩
  · rintro ⟨halg,blob,hblob,hl⟩
    obtain ⟨key,hkey⟩ := hkey blob hblob
    obtain ⟨s,hsign,hcheck⟩ := hiff.mpr halg
    refine ⟨blob,hblob,hl,key,_,s,hkey,?_,hcheck⟩
    rw [xkeySign,hnone]
    exact hsign

variable (hp : xkalgByName client.xkalgs alg = some p)

include hp

/-- The agent signs with an algorithm of its own, and the names of the signatures are
compared. -/
lemma signed_x509_iff {q : SshX509KeyAlg} (hq : xkalgByName agent.xkalgs name = some q)
    (hbase : q.basetype = id.key.1.type) :
    (∃ s, xkeySign y agent.xkalgs (agentRecodeAlg name (signFlags opaqueEcdsa id.key.1 alg))
        opaqueEcdsa id.key.1 data = .ok s ∧ xkeyCheckSigalg client.xkalgs alg s = .ok ()) ↔
      x509pubalgSigname q = x509pubalgSigname p := by
  obtain ⟨hmem,hname⟩ := xkalgByName_some hq
  have hx : cstr _ <+: name := hname ▸ agent.xkalgs.named hmem
  have hexp : expectedSigalg client.xkalgs alg = some (x509pubalgSigname p) := by
    rw [expectedSigalg,hp]
  obtain ⟨s,hs⟩ := h.signs q hmem hbase
  rw [agentRecodeAlg_x509v3 hx,xkeySign,hq]
  simp only [hs,Except.ok.injEq,exists_eq_left']
  rw [xkeyCheckSigalg_iff (sshX509Sign_named hmem hs),hexp,Option.some.injEq]
  exact eq_comm

lemma not_answered_of_no_cert (hc : certOf id.key.1 = none) :
    ¬ Answered c y client agent alg opaqueEcdsa id.key.1 data := by
  rintro ⟨blob,hblob,-,key,pkalg,s,hparse,-⟩
  simp only [keyBlob,hp,hc] at hblob
  split at hblob
  · have hx : x509keyCheck id.key.1 = false := by
      rw [x509keyCheck]
      cases hd : id.key.1.x509Data with
      | none => rfl
      | some xd =>
        rw [certOf,hd,Option.bind_some] at hc
        simp [hc]
    have hno := h.disjoint _ p blob hblob
    rw [xkeyToBuf2,if_pos (by simp [hx])] at hblob
    cases hblob
    rw [parseKeyFromBlob_list (by simp) hno,x509keyFromBuf2Common] at hparse
    have hid : getKeyIdentifier agent [] = .error .invalidFormat := by
      rw [getKeyIdentifier,if_neg (by simp [h.noCompat])]
      rfl
    rw [hid] at hparse
    cases hparse
  · cases hblob

lemma answered_list {x : X509Cert} (hchain : p.chain = true)
    (hc : certOf id.key.1 = some x) : Answered c y client agent alg opaqueEcdsa id.key.1 data ↔
      ListSurvives c client agent p id.key.1 data := by
  obtain ⟨hmem,-⟩ := xkalgByName_some hp
  obtain ⟨hx,chain,hcerts⟩ := certificates_of_cert hc
  obtain ⟨-,-,-,k,hk,htype,hnid,-⟩ := h.decodes.cert x hc
  have hcert : certOf k = certOf id.key.1 := by
    rw [hc,certOf,(x509ToKey_some hk).1]
    rfl
  have hchains := h.chain
  rw [hcerts] at hchains
  have hbase := client.xkalgs.based p hmem
  rw [hchain] at hbase
  simp only [Answered,keyBlob,hp,hchain]
  constructor
  · rintro ⟨blob,hblob,hl,key,pkalg,s,hparse,hsign,hcheck⟩
    have hno := h.disjoint _ p blob hblob
    obtain ⟨hrsa,-,rfl⟩ := (xkeyToBuf2_iff hx).mp hblob
    rw [parseKeyFromBlob_list (buf2Bytes_head (by omega)) hno] at hparse
    cases hm : client.missingKeyIdentifier with
    | true =>
      rw [hm,hcerts] at hparse hl
      obtain ⟨e,he⟩ := getKeyIdentifier_missing h.noCompat
        (show (buf2Bytes true p.name (x :: chain)).length ≤ sshbufSizeMax by omega)
      rw [x509keyFromBuf2Common,he] at hparse
      cases hparse
    | false =>
      rw [hm] at hparse hl
      have hsize := hl
      rw [hcerts] at hparse hl
      obtain ⟨q,hq,hcount,hqt,hqn,hqr,hr⟩ := (x509keyFromBuf2Common_named h.noCompat hbase
        (client.xkalgs.cstrings p hmem).1 (by omega) hchains hk).mp hparse
      cases hr
      obtain ⟨hqm,hqname⟩ := xkalgByName_some hq
      obtain ⟨hbt,hst⟩ := basetype_eq hmem hqm hqname
      have hnames := (signed_x509_iff h hp hq (hqt.symm.trans htype)).mp ⟨s,hsign,hcheck⟩
      refine ⟨hm,⟨?_,?_⟩,?_,hsize,hrsa,q,hq,?_,hnames⟩
      · rw [← htype,hqt,hbt]
      · rw [← hnid,hqn,hst]
      · rw [hcerts]
        exact hcount
      · rw [← checkRsa2048Sha256_congr htype hcert]
        exact hqr
  · intro hs
    obtain ⟨q,hq,hqr,hnames⟩ := hs.known
    obtain ⟨hqm,hqname⟩ := xkalgByName_some hq
    obtain ⟨hbt,hst⟩ := basetype_eq hmem hqm hqname
    obtain ⟨s,hsign,hcheck⟩ := (signed_x509_iff h hp hq (hbt.trans hs.fits.1.symm)).mpr hnames
    have hl := hs.size
    have hcount := hs.count
    have hblob : xkeyToBuf2 c client p id.key.1 =
        .ok (buf2Bytes false p.name (certificates id.key.1)) := by
      rw [xkeyToBuf2_iff hx,hs.identifier]
      exact ⟨hs.modulus,by omega,rfl⟩
    refine ⟨_,hblob,hl,{ k with x509Data := some ⟨some x,some chain⟩ },p.name,s,?_,hsign,hcheck⟩
    rw [parseKeyFromBlob_list (buf2Bytes_head (by omega)) (h.disjoint _ p _ hblob)]
    rw [hcerts] at hl hcount ⊢
    refine (x509keyFromBuf2Common_named h.noCompat hbase (client.xkalgs.cstrings p hmem).1
      (by omega) hchains hk).mpr ⟨q,hq,hcount,?_,?_,?_,rfl⟩
    · rw [htype,hs.fits.1,hbt]
    · rw [hnid,hs.fits.2,hst]
    · rw [checkRsa2048Sha256_congr htype hcert]
      exact hqr

lemma answered_cert {x : X509Cert} (hchain : p.chain = false)
    (hc : certOf id.key.1 = some x) : Answered c y client agent alg opaqueEcdsa id.key.1 data ↔
      CertSurvives agent p id.key.1 x data := by
  obtain ⟨hhead,hlong,hd,k,hk,htype,hnid,-⟩ := h.decodes.cert x hc
  have hplain := (x509ToKey_some hk).2.2.2
  simp only [Answered,keyBlob,hp,hchain,hc,Bool.false_eq_true,if_false,Except.ok.injEq,
    exists_eq_left']
  by_cases hl : x.der.length + data.length + 13 ≤ sshbufSizeMax
  · have hparse : parseKeyFromBlob c agent x.der = _ :=
      parseKeyFromBlob_der hhead hlong (by omega) hd hk
    rw [hparse,htype,hnid]
    cases ht : sshXkalgTypeformind _ _ _ _ with
    | none =>
      simp only [reduceCtorEq,false_and,exists_false,and_false,false_iff]
      rintro ⟨-,q,hq,-⟩
      rw [legacyAlg,ht] at hq
      cases hq
    | some jp =>
      obtain ⟨j,p'⟩ := jp
      obtain ⟨hmem,hbase⟩ := sshXkalgTypeformind_some ht
      obtain ⟨q,hq⟩ := xkalgByName_mem hmem
      obtain ⟨hqm,hqname⟩ := xkalgByName_some hq
      have hqt : q.basetype = id.key.1.type := by
        rw [(basetype_eq hmem hqm hqname).1,hbase,← htype,hplain]
      have hleg : legacyAlg agent.xkalgs id.key.1 = some q := by
        rw [legacyAlg,ht]
        exact hq
      have hiff := signed_x509_iff h hp hq hqt
      constructor
      · rintro ⟨-,key,pkalg,s,hr,hsign,hcheck⟩
        cases hr
        exact ⟨hl,q,hleg,hiff.mp ⟨s,hsign,hcheck⟩⟩
      · rintro ⟨-,q',hq',hnames⟩
        rw [hleg] at hq'
        cases hq'
        obtain ⟨s,hsign,hcheck⟩ := hiff.mpr hnames
        exact ⟨hl,k,p'.name,s,rfl,hsign,hcheck⟩
  · exact ⟨fun ha => absurd ha.1 hl,fun ha => absurd ha.size hl⟩

end

lemma sshkeySign_size {k : SshKey} {s : Bytes} (h : sshkeySign y k data alg = .ok s) :
    data.length ≤ sshKeyMaxSignDataSize := by
  rw [sshkeySign] at h
  split at h
  · cases h
  · omega

/-- The algorithm survives the protocol exactly for these requests, if the agent gets the
confirmation the identity wants. -/
theorem xsshAgentSign_algorithm_iff (ssl : Openssl) (c : Codec) (y : Crypto)
    (client agent : Process) (confirmKey : Identity → Bool) (tab : Idtable) (i : Nat)
    (id : Identity) (alg data own : Bytes) (opaqueEcdsa : Bool)
    (h : Served ssl c y client agent tab i id alg opaqueEcdsa data)
    (hown : xkeySign y client.xkalgs alg opaqueEcdsa id.key.1 data = .ok own) :
    (∃ sig, xsshAgentSign c client (processSignRequest2 ssl c y agent confirmKey tab) alg
        opaqueEcdsa id.key.1 data = .ok sig ∧ xkeyCheckSigalg client.xkalgs alg sig = .ok ()) ↔
      (id.confirm = true → confirmKey id = true) ∧
        AlgorithmSurvives c client agent id.key.1 alg data := by
  have hsigned : (∃ sig, xsshAgentSign c _ (processSignRequest2 ssl c y agent confirmKey
      tab) alg _ _ data = .ok sig ∧
      xkeyCheckSigalg _ alg sig = .ok ()) ↔ _ :=
    (exists_congr fun sig => and_iff_left_of_imp xsshAgentSign_checked).trans
      (xsshAgentSign_iff h)
  rw [hsigned,and_left_comm]
  refine and_congr_right fun _ => ?_
  rw [AlgorithmSurvives]
  cases hp : xkalgByName _ alg with
  | none =>
    rw [answered_plain h hp hown]
    refine and_iff_right ?_
    rw [xkeySign,hp] at hown
    exact sshkeySign_size hown
  | some p =>
    refine and_congr_right fun _ => ?_
    cases hc : certOf _ with
    | none => simpa using not_answered_of_no_cert h hp hc
    | some x =>
      simp only [Option.some.injEq,exists_eq_left']
      cases hchain : p.chain with
      | true =>
        exact answered_list h hp hchain hc
      | false =>
        exact answered_cert h hp hchain hc

def exampleKeyCodec (k : LoadedKey) (b : Bytes) : Codec where
  d2iX509 _ := none
  x509GetPubkey _ := none
  ecdsaKeyToNid _ := nidNone
  ecValidatePublic _ := false
  ecPoint _ := .error .invalidArgument
  sshkeyFromBlob blob := if blob = b then .ok k else .error .invalidFormat

def exampleRsaKey : LoadedKey := ⟨rsaKey (2 ^ 1023) 17,by decide⟩

def exampleRsaBlob : Bytes :=
  framed (cstr "ssh-rsa") ++ framed [17] ++
    framed (0 :: 0x80 :: List.replicate 127 0)

def exampleRsaCertKey : LoadedKey :=
  ⟨{ rsaKey (2 ^ 1023) 17 with
      type := .rsaCert
      cert := some ⟨framed (cstr "ssh-rsa-cert-v01@openssh.com")⟩ },by decide⟩

/-- With the certificate the agent signs with SHA-1 when SHA-256 is asked for, and the
client refuses the signature. -/
theorem xsshAgentSign_rsaCert_refused :
    (xkeySign exampleCrypto defaultXkalg (cstr "rsa-sha2-256-cert-v01@openssh.com") false
      exampleRsaCertKey.1 []).toOption.isSome = true ∧
    xsshAgentSign (exampleKeyCodec exampleRsaCertKey
        (framed (cstr "ssh-rsa-cert-v01@openssh.com"))) defaultProcess
      (processSignRequest2 asciiOpenssl (exampleKeyCodec exampleRsaCertKey
        (framed (cstr "ssh-rsa-cert-v01@openssh.com"))) exampleCrypto defaultProcess
        (fun _ => true) (exampleTable exampleRsaCertKey))
      (cstr "rsa-sha2-256-cert-v01@openssh.com") false exampleRsaCertKey.1 [] =
        .error (.err .signAlgUnsupported) := by
  decide +kernel

lemma exampleKeyCodec_parse {k : LoadedKey} {b blob pkalg : Bytes} {pr : Process}
    {key : SshKey} (h : parseKeyFromBlob (exampleKeyCodec k b) pr blob = .ok (key,pkalg)) :
    key = k.1 := by
  rcases parseKeyFromBlob_ok h with ⟨x,_,_,-,hx,-⟩ | hr | ⟨key',hkey,rfl,-⟩
  · cases hx
  · obtain ⟨_,_,_,x,_,_,_,_,_,-,-,hx,-⟩ := x509keyFromBuf2Common_ok hr
    cases hx
  · simp only [exampleKeyCodec] at hkey
    split at hkey
    · cases hkey
      rfl
    · cases hkey

lemma exampleRsaKey_short {a s : Bytes}
    (h : xkeySign exampleCrypto defaultXkalg a false exampleRsaKey.1 [] = .ok s) :
    s.length + 5 ≤ sshbufSizeMax := by
  have hrsa : ∀ md, (sshRsaSignHash exampleCrypto ⟨2 ^ 1023,17⟩ md []).toOption.all
      (fun s => decide (s.length + 5 ≤ sshbufSizeMax)) = true := by
    intro md
    cases md <;> decide +kernel
  have hx509 : ∀ q ∈ defaultXkalg.algs,
      (sshX509Sign exampleCrypto q false exampleRsaKey.1 []).toOption.all
        (fun s => decide (s.length + 5 ≤ sshbufSizeMax)) = true := by
    decide +kernel
  rw [xkeySign] at h
  split at h
  · change sshRsaSign _ exampleRsaKey.1 [] a = .ok s at h
    obtain ⟨md,hmd,-⟩ := sshRsaSign_named h
    have hs : sshRsaSignHash exampleCrypto ⟨2 ^ 1023,17⟩ md [] = .ok s := by
      rw [← h,sshRsaSign,hmd]
      rfl
    have hshort := hrsa md
    rw [hs] at hshort
    exact of_decide_eq_true hshort
  · rename_i q hq
    have hshort := hx509 q (xkalgByName_some hq).1
    rw [h] at hshort
    exact of_decide_eq_true hshort

lemma exampleRsaKey_served (alg : Bytes) :
    Served asciiOpenssl (exampleKeyCodec exampleRsaKey exampleRsaBlob) exampleCrypto
      defaultProcess defaultProcess (exampleTable exampleRsaKey) 0
      (exampleIdentity exampleRsaKey) alg false [] where
  decodes := by
    refine ⟨nofun,fun b hb => ⟨rfl,?_⟩⟩
    have he : toBlobBuf (exampleKeyCodec exampleRsaKey exampleRsaBlob) exampleRsaKey.1 =
        .ok exampleRsaBlob := by
      decide +kernel
    have hb' := he.symm.trans hb
    cases hb'
    decide +kernel
  certNamed := by
    intro cert hcert
    cases hcert
  chain := by
    intro x hx
    cases hx
  disjoint := by
    intro pr p b hb
    cases hb
    exact ⟨.invalidFormat,by decide +kernel⟩
  noCompat := rfl
  found := by
    intro blob key pkalg _ hparse
    rw [exampleKeyCodec_parse hparse]
    have hmatch : keyMatch asciiOpenssl exampleRsaKey.1
        (exampleIdentity exampleRsaKey).key.1 = true := by
      decide +kernel
    rw [lookupIdentity,exampleTable,FirstMatch.scan,if_pos hmatch]
  signs := by
    have hall : ∀ q ∈ defaultXkalg.algs, q.basetype = .rsa →
        (sshX509Sign exampleCrypto q false exampleRsaKey.1 []).isOk = true := by
      decide +kernel
    exact fun q hq hbase => exists_ok (hall q hq hbase)
  short := fun _ _ hs => exampleRsaKey_short hs

/-- The plain key gets the signature with SHA-256 that is asked for. -/
theorem xsshAgentSign_rsa_signed :
    ∃ sig, xsshAgentSign (exampleKeyCodec exampleRsaKey exampleRsaBlob) defaultProcess
        (processSignRequest2 asciiOpenssl (exampleKeyCodec exampleRsaKey exampleRsaBlob)
          exampleCrypto defaultProcess (fun _ => true) (exampleTable exampleRsaKey))
        (cstr "rsa-sha2-256") false exampleRsaKey.1 [] = .ok sig ∧
      xkeyCheckSigalg defaultXkalg (cstr "rsa-sha2-256") sig = .ok () := by
  have hown : xkeySign exampleCrypto defaultXkalg (cstr "rsa-sha2-256") false
      exampleRsaKey.1 [] = .ok (framed (cstr "rsa-sha2-256") ++
        framed (List.replicate 125 0 ++ [0x30,1,2])) := by
    decide +kernel
  have hplain : xkalgByName defaultXkalg (cstr "rsa-sha2-256") = none := by decide +kernel
  refine (xsshAgentSign_algorithm_iff _ _ _ _ _ _ _ _ _ _ _ _ _
    (exampleRsaKey_served (cstr "rsa-sha2-256")) hown).mpr ⟨fun _ => rfl,?_⟩
  rw [AlgorithmSurvives,show xkalgByName defaultProcess.xkalgs _ = none from hplain]
  exact ⟨show cstr "rsa-sha2-256" ≠ [] by decide,exampleRsaBlob,by decide +kernel,by decide +kernel⟩

end PkixSsh.Agent
