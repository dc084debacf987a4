import PkixSsh.Agent.Removal
import PkixSsh.Key.SignatureShape

/-!
# Which identity signs

The first identity that matches the key of a request signs; two X.509 keys match by their subjects.
-/

namespace PkixSsh.Agent

open Key X509 Sshbuf

def requestKey (c : Codec) (pr : Process) (request : Bytes) : Option SshKey :=
  match getString request with
  | .error _ => none
  | .ok (blob,_) => (parseKeyFromBlob c pr blob).toOption.map Prod.fst

/-- The first match shares only its subject with the key: both are X.509 keys of one type with
different public keys. -/
def SubjectOnly (ssl : Openssl) (tab : Idtable) (key : LoadedKey) : Prop :=
  ∃ pre id post, tab.idlist = pre ++ id :: post ∧
    (∀ e ∈ pre, keyMatch ssl key.1 e.key.1 = false) ∧
    sshkeyIsX509 key.1 ∧ sshkeyIsX509 id.key.1 ∧ key.pub.type = id.key.pub.type ∧
    SubjectEq ssl key id.key ∧ key.pub ≠ id.key.pub

lemma signRequest_ok {ssl : Openssl} {c : Codec} {y : Crypto} {pr : Process}
    {confirmKey : Identity → Bool} {tab : Idtable} {request sig : Bytes} {i : Nat}
    (h : signRequest ssl c y pr confirmKey tab request = .ok (i,sig)) :
    ∃ blob rest key pkalg id, getString request = .ok (blob,rest) ∧
      parseKeyFromBlob c pr blob = .ok (key,pkalg) ∧ lookupIdentity ssl tab key = some (i,id) := by
  rw [signRequest] at h
  obtain ⟨⟨blob,rest⟩,hb,h⟩ := bind_eq_ok.mp h
  obtain ⟨⟨key,pkalg⟩,hk,h⟩ := bind_eq_ok.mp h
  obtain ⟨⟨data,rest2⟩,-,h⟩ := bind_eq_ok.mp h
  obtain ⟨⟨flags,rest3⟩,-,h⟩ := bind_eq_ok.mp h
  simp only at h
  split at h
  · cases h
  · rename_i j id hl
    split at h
    · cases h
    obtain ⟨signature,-,h⟩ := bind_eq_ok.mp h
    cases h
    exact ⟨blob,rest,key,pkalg,id,check_eq_ok.mp hb,hk,hl⟩

lemma processSignRequest2_signed {ssl : Openssl} {c : Codec} {y : Crypto} {pr : Process}
    {confirmKey : Identity → Bool} {tab : Idtable} {request : Bytes} {r : SignReply} {i : Nat}
    (h : processSignRequest2 ssl c y pr confirmKey tab request = .ok r) (hs : r.signer = some i) :
    ∃ sig, signRequest ssl c y pr confirmKey tab request = .ok (i,sig) := by
  rw [processSignRequest2] at h
  split at h
  · rename_i j sig hr
    split at h
    · cases h
      cases hs
      exact ⟨sig,hr⟩
    · cases h
  · cases h
    cases hs
  · cases h

/-- The identity that is found has another public key exactly when they share only their subject. -/
lemma lookupIdentity_pub_iff {ssl : Openssl} {tab : Idtable} {key : LoadedKey} {i : Nat}
    {id : Identity} (h : lookupIdentity ssl tab key.1 = some (i,id)) :
    id.key.pub = key.pub ↔ ¬ SubjectOnly ssl tab key := by
  constructor
  · rintro heq ⟨pre,e,post,hl,hpre,hk,he,htype,hsub,hne⟩
    have hm : keyMatch ssl key.1 e.key.1 = true := by
      rw [keyMatch,if_pos he,sshkeyEqualPublic_of_x509 ssl key e.key hk he]
      exact ⟨htype,hsub⟩
    rw [lookupIdentity_of_first hl hm hpre] at h
    cases h
    exact hne heq.symm
  · intro hno
    obtain ⟨pre,post,hl,-,hm,hpre⟩ := lookupIdentity_some h
    rcases keyMatch_cases hm with ⟨hk,he,htype,hsub⟩ | heq
    · by_contra hne
      exact hno ⟨pre,id,post,hl,hpre,hk,he,htype,hsub,fun hp => hne hp.symm⟩
    · exact heq.symm

/-- A request is signed with the public key it names, unless the first match shares only its subject
with it. -/
theorem processSignRequest2_signer_iff (ssl : Openssl) (c : Codec) (y : Crypto) (pr : Process)
    (confirmKey : Identity → Bool) (tab : Idtable) (request : Bytes) (r : SignReply) (i : Nat)
    (h : processSignRequest2 ssl c y pr confirmKey tab request = .ok r) (hs : r.signer = some i) :
    ∃ (id : Identity) (key : LoadedKey), tab.idlist[i]? = some id ∧
      requestKey c pr request = some key.1 ∧
      (id.key.pub = key.pub ↔ ¬ SubjectOnly ssl tab key) := by
  obtain ⟨sig,hsign⟩ := processSignRequest2_signed h hs
  obtain ⟨blob,rest,key,pkalg,id,hb,hk,hl⟩ := signRequest_ok hsign
  have hloaded := parseKeyFromBlob_loaded hk
  refine ⟨id,⟨key,hloaded⟩,?_,?_,lookupIdentity_pub_iff hl⟩
  · obtain ⟨pre,post,he,rfl,-,-⟩ := lookupIdentity_some hl
    simp [he]
  · simp [requestKey,hb,hk,Except.toOption]

def exampleSignCodec : Codec where
  d2iX509 blob := if blob = exampleDer "other"
    then some (⟨[commonNameEntry .utf8String "alice"],exampleDer "other"⟩,[]) else none
  x509GetPubkey x := some (.rsa ⟨if x.der = exampleDer "other" then 2773 else 3233,17⟩)
  ecdsaKeyToNid _ := nidNone
  ecValidatePublic _ := false
  ecPoint _ := .error .invalidArgument
  sshkeyFromBlob _ := .error .invalidFormat

def exampleSignRequest : Bytes :=
  framed (exampleDer "other") ++ framed [] ++ BigEndian.encode 4 0

/-- The agent signs with the key it has when it is asked for another one of its subject. -/
theorem processSignRequest2_other_key :
    (processSignRequest2 asciiOpenssl exampleSignCodec exampleCrypto defaultProcess
      (fun _ => true) (exampleTable ⟨rsaX509Key 3233 17 "alice",by decide⟩)
      exampleSignRequest).toOption.map (fun r => r.signer) = some (some 0) ∧
    (requestKey exampleSignCodec defaultProcess exampleSignRequest).bind publicKey =
      some (.rsa 2773 17) ∧ publicKey (rsaX509Key 3233 17 "alice") = some (.rsa 3233 17) := by
  decide +kernel

/-- The key of the request signs when the identity is the one asked for. -/
theorem processSignRequest2_same_key :
    ∃ r, processSignRequest2 asciiOpenssl exampleSignCodec exampleCrypto defaultProcess
      (fun _ => true) (exampleTable ⟨rsaX509Key 2773 17 "alice",by decide⟩)
      exampleSignRequest = .ok r ∧ ∃ (id : Identity) (key : LoadedKey),
      (exampleTable ⟨rsaX509Key 2773 17 "alice",by decide⟩).idlist[0]? = some id ∧
      requestKey exampleSignCodec defaultProcess exampleSignRequest = some key.1 ∧
      (id.key.pub = key.pub ↔
        ¬ SubjectOnly asciiOpenssl (exampleTable ⟨rsaX509Key 2773 17 "alice",by decide⟩) key) := by
  have hr : processSignRequest2 asciiOpenssl exampleSignCodec exampleCrypto defaultProcess
      (fun _ => true) (exampleTable ⟨rsaX509Key 2773 17 "alice",by decide⟩)
      exampleSignRequest = .ok ⟨some 0,ssh2AgentSignResponse ::
        framed (framed (cstr "x509v3-sign-rsa") ++ framed [0x30,1,2])⟩ := by
    decide +kernel
  exact ⟨_,hr,processSignRequest2_signer_iff _ _ _ _ _ _ _ _ _ hr rfl⟩

end PkixSsh.Agent
