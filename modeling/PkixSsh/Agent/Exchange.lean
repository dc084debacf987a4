import PkixSsh.Agent.Request

/-!
# A sign request and its answer

The message of `Xssh_agent_sign`, how the agent takes it apart, and when the client gets a
signature back.
-/

namespace PkixSsh.Agent

open Key X509 Sshbuf List BigEndian

def signFlags (opaqueEcdsa : Bool) (k : SshKey) (alg : Bytes) : Nat :=
  (if opaqueEcdsa then sshAgentRfc6187OpaqueEcdsaSignature else 0) ||| agentEncodeAlg k alg

def keyBlob (c : Codec) (pr : Process) (alg : Bytes) (k : SshKey) : Except Stop Bytes :=
  match xkalgByName pr.xkalgs alg with
  | none => check (toBlobBuf c k)
  | some p =>
    if p.chain then xkeyToBuf2 c pr p k
    else
      match certOf k with
      | none => .error .nullRead
      | some x => .ok x.der

lemma xkeyPuts_eq (c : Codec) (pr : Process) (alg : Bytes) (k : SshKey) (b : Bytes) :
    xkeyPuts c pr alg k b = keyBlob c pr alg k >>= fun d => check (putString d b) := by
  rw [xkeyPuts,keyBlob]
  cases xkalgByName _ alg with
  | none =>
    simp only [sshkeyPuts]
    cases toBlobBuf c k with
    | error e => rfl
    | ok d => rfl
  | some p =>
    cases hc : p.chain with
    | true => simp [hc]
    | false =>
      simp only [hc,certOf]
      rcases k.x509Data with _ | ⟨_ | x,chain⟩
      · rfl
      · rfl
      · rfl

variable {c : Codec} {pr : Process} {alg data sig : Bytes} {opaqueEcdsa : Bool} {k : SshKey}
  {ssl : Openssl} {y : Crypto} {confirmKey : Identity → Bool} {tab : Idtable}

lemma signRequestMessage_iff {req : Bytes} :
    signRequestMessage c pr alg opaqueEcdsa k data = .ok req ↔
      data.length ≤ sshKeyMaxSignDataSize ∧ ∃ blob, keyBlob c pr alg k = .ok blob ∧
        blob.length + data.length + 13 ≤ sshbufSizeMax ∧
        req = ssh2AgentcSignRequest :: (framed blob ++
          (framed data ++ encode 4 (signFlags opaqueEcdsa k alg))) := by
  have hone : putU8 ssh2AgentcSignRequest [] = .ok [ssh2AgentcSignRequest] := by decide
  rw [signRequestMessage]
  by_cases hd : data.length > sshKeyMaxSignDataSize
  · rw [if_pos hd]
    constructor
    · intro h
      cases h
    · omega
  rw [if_neg hd]
  simp only [hone,check_ok,ok_bind,xkeyPuts_eq]
  constructor
  · intro h
    obtain ⟨b,hb,h⟩ := bind_eq_ok.mp h
    obtain ⟨blob,hblob,hb⟩ := bind_eq_ok.mp hb
    obtain ⟨-,rfl⟩ := putString_iff.mp (check_eq_ok.mp hb)
    obtain ⟨b,hb,h⟩ := bind_eq_ok.mp (check_eq_ok.mp h)
    obtain ⟨-,rfl⟩ := putString_iff.mp hb
    obtain ⟨hl,rfl⟩ := put_iff.mp h
    simp only [length_append,length_singleton,length_framed,length_encode] at hl
    refine ⟨by omega,blob,hblob,by omega,?_⟩
    simp [signFlags]
  · rintro ⟨-,blob,hblob,hl,rfl⟩
    refine bind_eq_ok.mpr ⟨[ssh2AgentcSignRequest] ++ framed blob,
      bind_eq_ok.mpr ⟨blob,hblob,?_⟩,?_⟩
    · rw [check_eq_ok,putString_iff,length_singleton]
      exact ⟨by omega,rfl⟩
    · rw [check_eq_ok,bind_eq_ok]
      refine ⟨_,putString_iff.mpr ⟨?_,rfl⟩,put_iff.mpr ⟨?_,?_⟩⟩
      · rw [length_append,length_singleton,length_framed]
        omega
      · simp only [length_append,length_singleton,length_framed,length_encode]
        omega
      · simp [signFlags]

lemma agentEncodeAlg_cases (k : SshKey) (alg : Bytes) :
    agentEncodeAlg k alg = 0 ∨ agentEncodeAlg k alg = 2 ∨ agentEncodeAlg k alg = 4 := by
  rw [agentEncodeAlg]
  split
  · exact .inl rfl
  split
  · exact .inr (.inl rfl)
  split
  · exact .inr (.inr rfl)
  split
  · exact .inr (.inl rfl)
  split
  · exact .inr (.inr rfl)
  · exact .inl rfl

lemma signFlags_ok (opaqueEcdsa : Bool) (k : SshKey) (alg : Bytes) :
    signFlags opaqueEcdsa k alg < 256 ^ 4 ∧
      decide (signFlags opaqueEcdsa k alg &&& sshAgentRfc6187OpaqueEcdsaSignature ≠ 0) =
        opaqueEcdsa := by
  rw [signFlags]
  rcases agentEncodeAlg_cases k alg with h | h | h <;> rw [h] <;>
    cases opaqueEcdsa <;> decide

lemma signRequest_message {blob : Bytes} (hl : blob.length + data.length + 13 ≤ sshbufSizeMax) :
    signRequest ssl c y pr confirmKey tab (framed blob ++
      (framed data ++ encode 4 (signFlags opaqueEcdsa k alg))) =
      parseKeyFromBlob c pr blob >>= fun kp => match lookupIdentity ssl tab kp.1 with
        | none => .error (.err .keyNotFound)
        | some (i,id) => if id.confirm && !confirmKey id then .error (.err .agentFailure) else
            check (xkeySign y pr.xkalgs (agentRecodeAlg kp.2 (signFlags opaqueEcdsa k alg))
              opaqueEcdsa id.key.1 data) >>= fun s => .ok (i,s) := by
  obtain ⟨hflags,hsigfmt⟩ := signFlags_ok _ k alg
  have hu : getU32 (encode 4 (signFlags opaqueEcdsa k alg)) =
      .ok (signFlags opaqueEcdsa k alg,[]) := by
    have h := getUint_encode hflags []
    rwa [append_nil] at h
  rw [signRequest,getString_framed (by omega)]
  simp only [check_ok,ok_bind]
  cases parseKeyFromBlob c pr blob with
  | error s => rfl
  | ok kp =>
    simp only [ok_bind,getString_framed (show data.length ≤ sshbufSizeMax - 4 by omega),
      check_ok,hu,hsigfmt]
    rfl

lemma signResponse_signed {t : XkalgTable} (hl : sig.length ≤ sshbufSizeMax - 4) :
    signResponse t alg (ssh2AgentSignResponse :: framed sig) =
      xkeyCheckSigalg t alg sig >>= fun _ => .ok sig := by
  have hg := getString_framed hl []
  rw [append_nil] at hg
  simp only [signResponse,getU8,ok_bind]
  simp only [hg]
  rfl

lemma xsshAgentSign_checked {agent : Bytes → Except Stop SignReply}
    (h : xsshAgentSign c pr agent alg opaqueEcdsa k data = .ok sig) :
    xkeyCheckSigalg pr.xkalgs alg sig = .ok () := by
  obtain ⟨req,-,h⟩ := bind_eq_ok.mp h
  obtain ⟨reply,-,h⟩ := bind_eq_ok.mp h
  obtain ⟨⟨type,msg⟩,-,h⟩ := bind_eq_ok.mp (check_eq_ok.mp h)
  simp only at h
  split at h
  · cases h
  split at h
  · cases h
  obtain ⟨⟨s,rest⟩,-,h⟩ := bind_eq_ok.mp h
  obtain ⟨u,hu,h⟩ := bind_eq_ok.mp h
  cases h
  exact hu

lemma signResponse_processSignRequest2 {agent : Process} {request : Bytes} {t : XkalgTable} :
    (∃ reply, processSignRequest2 ssl c y agent confirmKey tab request = .ok reply ∧
        signResponse t alg reply.msg = .ok sig) ↔
      ∃ i, signRequest ssl c y agent confirmKey tab request = .ok (i,sig) ∧
        sig.length + 5 ≤ sshbufSizeMax ∧ xkeyCheckSigalg t alg sig = .ok () := by
  have hmsg : ∀ s msg, putU8 ssh2AgentSignResponse [] >>= putString s = .ok msg ↔
      s.length + 5 ≤ sshbufSizeMax ∧ msg = ssh2AgentSignResponse :: framed s := by
    intro s msg
    have hone : putU8 ssh2AgentSignResponse [] = .ok [ssh2AgentSignResponse] := by decide
    have hlen : [ssh2AgentSignResponse].length + (s.length + 4) = s.length + 5 := by
      rw [length_singleton]
      omega
    rw [hone,ok_bind,putString_iff,hlen]
    rfl
  have hresp : ∀ s, s.length + 5 ≤ sshbufSizeMax →
      (signResponse t alg (ssh2AgentSignResponse :: framed s) = .ok sig ↔
        s = sig ∧ xkeyCheckSigalg t alg s = .ok ()) := by
    intro s hs
    rw [signResponse_signed (by omega),bind_eq_ok]
    constructor
    · rintro ⟨u,hu,hsig⟩
      cases hsig
      exact ⟨rfl,hu⟩
    · rintro ⟨rfl,hu⟩
      exact ⟨(),hu,rfl⟩
  rw [processSignRequest2]
  cases hr : signRequest ssl c y agent _ tab _ with
  | ok js =>
    obtain ⟨j,s⟩ := js
    cases hm : putU8 _ [] >>= putString s with
    | ok msg =>
      obtain ⟨hl,rfl⟩ := (hmsg s msg).mp hm
      simp only [hm,Except.ok.injEq,exists_eq_left',hresp s hl,Prod.mk.injEq]
      constructor
      · rintro ⟨rfl,hu⟩
        exact ⟨j,⟨rfl,rfl⟩,hl,hu⟩
      · rintro ⟨-,⟨-,rfl⟩,-,hu⟩
        exact ⟨rfl,hu⟩
    | error e =>
      simp only [hm,reduceCtorEq,false_and,exists_false,false_iff]
      rintro ⟨i,hi,hl,-⟩
      cases hi
      have hok := (hmsg sig _).mpr ⟨hl,rfl⟩
      rw [hm] at hok
      cases hok
  | error stop =>
    cases stop with
    | err e =>
      simp only [Except.ok.injEq,exists_eq_left',reduceCtorEq,false_and,exists_false,iff_false]
      intro hf
      cases hf
    | fatal => simp
    | nullRead => simp

/-- The codecs are inverse on the key and tell the blob formats apart, the agent is in no
compatibility mode and finds the identity, and the library signs with every algorithm of the agent,
with values that fit into a message. -/
structure Served (ssl : Openssl) (c : Codec) (y : Crypto) (client agent : Process)
    (tab : Idtable) (i : Nat) (id : Identity) (alg : Bytes) (opaqueEcdsa : Bool)
    (data : Bytes) : Prop where
  decodes : Decodes c id.key
  certNamed : CertNamed id.key.1
  chain : ∀ x ∈ certificates id.key.1, x.der ≠ [] ∧ c.d2iX509 x.der = some (x,[])
  disjoint : ∀ pr p b, xkeyToBuf2 c pr p id.key.1 = .ok b → ∃ e, c.sshkeyFromBlob b = .error e
  noCompat : agent.missingKeyIdentifier = false
  found : ∀ blob key pkalg, keyBlob c client alg id.key.1 = .ok blob →
    parseKeyFromBlob c agent blob = .ok (key,pkalg) → lookupIdentity ssl tab key = some (i,id)
  signs : ∀ q ∈ agent.xkalgs.algs, q.basetype = id.key.1.type →
    ∃ s, sshX509Sign y q opaqueEcdsa id.key.1 data = .ok s
  short : ∀ a s, xkeySign y agent.xkalgs a opaqueEcdsa id.key.1 data = .ok s →
    s.length + 5 ≤ sshbufSizeMax

/-- The client can write the key, the agent can read it and signs, and the client accepts
the signature. -/
def Answered (c : Codec) (y : Crypto) (client agent : Process) (alg : Bytes)
    (opaqueEcdsa : Bool) (k : SshKey) (data : Bytes) : Prop :=
  ∃ blob, keyBlob c client alg k = .ok blob ∧ blob.length + data.length + 13 ≤ sshbufSizeMax ∧
    ∃ key pkalg s, parseKeyFromBlob c agent blob = .ok (key,pkalg) ∧
      xkeySign y agent.xkalgs (agentRecodeAlg pkalg (signFlags opaqueEcdsa k alg))
        opaqueEcdsa k data = .ok s ∧
      xkeyCheckSigalg client.xkalgs alg s = .ok ()

lemma xsshAgentSign_iff {client agent : Process} {i : Nat} {id : Identity}
    (h : Served ssl c y client agent tab i id alg opaqueEcdsa data) :
    (∃ sig, xsshAgentSign c client (processSignRequest2 ssl c y agent confirmKey tab) alg
        opaqueEcdsa id.key.1 data = .ok sig) ↔
      data.length ≤ sshKeyMaxSignDataSize ∧ (id.confirm = true → confirmKey id = true) ∧
      Answered c y client agent alg opaqueEcdsa id.key.1 data := by
  -- what the agent does with a key it can read
  have hagent : ∀ blob s, keyBlob c client alg id.key.1 = .ok blob →
      blob.length + data.length + 13 ≤ sshbufSizeMax →
      ((∃ j, signRequest ssl c y agent confirmKey tab (framed blob ++ (framed data ++
          encode 4 (signFlags opaqueEcdsa id.key.1 alg))) = .ok (j,s)) ↔
        (id.confirm = true → confirmKey id = true) ∧
        ∃ key pkalg, parseKeyFromBlob c agent blob = .ok (key,pkalg) ∧
          xkeySign y agent.xkalgs (agentRecodeAlg pkalg (signFlags opaqueEcdsa id.key.1 alg))
            opaqueEcdsa id.key.1 data = .ok s) := by
    intro blob s hblob hl
    rw [signRequest_message hl]
    cases hp : parseKeyFromBlob c agent blob with
    | error stop => simp
    | ok kp =>
      obtain ⟨key,pkalg⟩ := kp
      simp only [ok_bind,h.found blob key pkalg hblob hp]
      by_cases hconf : id.confirm = true → confirmKey id = true
      · have hgo : (id.confirm && !confirmKey id) = false := by
          cases hc : id.confirm with
          | false => rfl
          | true => simp [hconf hc]
        simp only [hgo]
        cases hs : xkeySign y _ _ _ _ data with
        | error e => simp_all
        | ok s' => simp_all
      · have hstop : (id.confirm && !confirmKey id) = true := by
          simpa using hconf
        simp [hstop,hconf]
  constructor
  · rintro ⟨sig,hsig⟩
    obtain ⟨req,hreq,hrest⟩ := bind_eq_ok.mp hsig
    obtain ⟨hd,blob,hblob,hl,rfl⟩ := signRequestMessage_iff.mp hreq
    obtain ⟨reply,hreply,hs⟩ := bind_eq_ok.mp hrest
    obtain ⟨j,hj,-,hcheck⟩ := signResponse_processSignRequest2.mp ⟨reply,hreply,check_eq_ok.mp hs⟩
    obtain ⟨hconf,key,pkalg,hparse,hsign⟩ := (hagent blob sig hblob hl).mp ⟨j,hj⟩
    exact ⟨hd,hconf,blob,hblob,hl,key,pkalg,sig,hparse,hsign,hcheck⟩
  · rintro ⟨hd,hconf,blob,hblob,hl,key,pkalg,s,hparse,hsign,hcheck⟩
    obtain ⟨j,hj⟩ := (hagent blob s hblob hl).mpr ⟨hconf,key,pkalg,hparse,hsign⟩
    obtain ⟨reply,hreply,hs⟩ := signResponse_processSignRequest2.mpr ⟨j,hj,h.short _ s hsign,hcheck⟩
    exact ⟨s,bind_eq_ok.mpr ⟨_,signRequestMessage_iff.mpr ⟨hd,blob,hblob,hl,rfl⟩,
      bind_eq_ok.mpr ⟨reply,hreply,check_eq_ok.mpr hs⟩⟩⟩

end PkixSsh.Agent
