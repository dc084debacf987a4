import PkixSsh.Key.Sign

/-!
# The authentication agent

The identities of `ssh-agent.c`, removal and signing, and the functions of `authfd.c` for them. A
request is taken behind its type byte, and an identity is known by its position.
-/

namespace PkixSsh.Agent

open Key X509 Sshbuf List

structure Identity where
  key : LoadedKey
  comment : Bytes
  provider : Option Bytes
  death : Nat
  confirm : Bool

structure Idtable where
  nentries : Nat
  idlist : List Identity
  counted : nentries = idlist.length

def sshAgentFailure : UInt8 := 5
def sshAgentSuccess : UInt8 := 6
def ssh2AgentcSignRequest : UInt8 := 13
def ssh2AgentSignResponse : UInt8 := 14
def ssh2AgentcRemoveIdentity : UInt8 := 18
def ssh2AgentFailure : UInt8 := 30
def sshComAgent2Failure : UInt8 := 102

def sshAgentRsaSha2_256 : Nat := 0x02
def sshAgentRsaSha2_512 : Nat := 0x04
def sshAgentRfc6187OpaqueEcdsaSignature : Nat := 0x00010000

def keyMatch (ssl : Openssl) (key found : SshKey) : Bool :=
  if sshkeyIsX509 found then sshkeyEqualPublic ssl key found else sshkeyEqual ssl key found

def lookupIdentity (ssl : Openssl) (tab : Idtable) (key : SshKey) : Option (Nat × Identity) :=
  FirstMatch.scan (fun id => keyMatch ssl key id.key.1) 0 tab.idlist

variable {ssl : Openssl} {tab : Idtable} {key : SshKey} {id : Identity}

lemma lookupIdentity_some {i : Nat} (h : lookupIdentity ssl tab key = some (i,id)) :
    ∃ pre post, tab.idlist = pre ++ id :: post ∧ i = pre.length ∧
      keyMatch ssl key id.key.1 = true ∧ ∀ e ∈ pre, keyMatch ssl key e.key.1 = false := by
  obtain ⟨pre,post,hl,hi,hid,hpre⟩ := FirstMatch.scan_some h
  exact ⟨pre,post,hl,by omega,hid,hpre⟩

lemma lookupIdentity_lt {i : Nat} (h : lookupIdentity ssl tab key = some (i,id)) :
    i < tab.idlist.length := by
  obtain ⟨pre,post,hl,rfl,-,-⟩ := lookupIdentity_some h
  rw [hl,length_append,length_cons]
  omega

lemma lookupIdentity_of_first {pre post : List Identity} (hl : tab.idlist = pre ++ id :: post)
    (hid : keyMatch ssl key id.key.1 = true) (hpre : ∀ e ∈ pre, keyMatch ssl key e.key.1 = false) :
    lookupIdentity ssl tab key = some (pre.length,id) := by
  rw [lookupIdentity,hl]
  have hs := FirstMatch.scan_append _ 0 pre id post hid hpre
  rwa [Nat.zero_add] at hs

lemma keyMatch_cases {key found : LoadedKey} (h : keyMatch ssl key.1 found.1 = true) :
    (sshkeyIsX509 key.1 ∧ sshkeyIsX509 found.1 ∧ key.pub.type = found.pub.type ∧
      SubjectEq ssl key found) ∨ key.pub = found.pub := by
  have heq : sshkeyEqualPublic ssl key.1 found.1 = true := by
    rw [keyMatch] at h
    split at h
    · exact h
    · rw [sshkeyEqual] at h
      split at h
      · cases h
      split at h
      · cases h
      · exact h
  by_cases hx : sshkeyIsX509 key.1 ∧ sshkeyIsX509 found.1
  · exact .inl ⟨hx.1,hx.2,(sshkeyEqualPublic_of_x509 ssl key found hx.1 hx.2).mp heq⟩
  · exact .inr ((sshkeyEqualPublic_of_not_x509 ssl key found hx).mp heq)

/-- An X.509 key matches the X.509 keys of its type with its subject, and the plain keys with its
public key. -/
lemma keyMatch_x509 {key found : LoadedKey} (hk : sshkeyIsX509 key.1)
    (hc : sshkeyIsCert key.1 = false) : keyMatch ssl key.1 found.1 = true ↔
      (sshkeyIsX509 found.1 ∧ key.pub.type = found.pub.type ∧ SubjectEq ssl key found) ∨
      (¬ sshkeyIsX509 found.1 ∧ key.1.type = found.1.type ∧ key.pub = found.pub) := by
  rw [keyMatch]
  by_cases hx : sshkeyIsX509 found.1
  · rw [if_pos hx,sshkeyEqualPublic_of_x509 ssl key found hk hx]
    simp [hx]
  · rw [sshkeyEqual]
    have heq := sshkeyEqualPublic_of_not_x509 ssl key found fun h => hx h.2
    by_cases ht : key.1.type = found.1.type
    · simp [hc,hx,heq]
    · simp [ht,hx]

/-- The body of the message `send_status` writes. -/
def sendStatus (success : Bool) : Bytes :=
  [if success then sshAgentSuccess else sshAgentFailure]

/-- What a removal leaves: the table, the position that was taken out and the answer. -/
structure Removal where
  tab : Idtable
  removed : Option Nat
  output : Bytes

/-- `TAILQ_REMOVE` and the decrement of the counter. -/
def removeAt (tab : Idtable) (i : Nat) (hi : i < tab.idlist.length) : Idtable where
  nentries := tab.nentries - 1
  idlist := tab.idlist.eraseIdx i
  counted := by
    rw [length_eraseIdx_of_lt hi,tab.counted]

def processRemoveIdentity (ssl : Openssl) (c : Codec) (tab : Idtable) (request : Bytes) :
    Except Stop Removal :=
  match akeyGets c request with
  | .error _ => .ok ⟨tab,none,sendStatus false⟩
  | .ok (key,_) =>
    match h : lookupIdentity ssl tab key with
    | none => .ok ⟨tab,none,sendStatus false⟩
    | some (i,_) =>
      if tab.nentries < 1 then .error .fatal
      else .ok ⟨removeAt tab i (lookupIdentity_lt h),some i,sendStatus true⟩

def sshRemoveIdentityRequest (c : Codec) (k : SshKey) : Except SshErr Bytes :=
  if k.type = .unspec then .error .invalidArgument
  else do
    let blob ← akeyToBlob c k
    putU8 ssh2AgentcRemoveIdentity [] >>= putString blob

def agentRecodeAlg (pkalg : Bytes) (flags : Nat) : Bytes :=
  if pkalg = cstr "ssh-rsa" then
    if flags &&& sshAgentRsaSha2_256 ≠ 0 then cstr "rsa-sha2-256"
    else if flags &&& sshAgentRsaSha2_512 ≠ 0 then cstr "rsa-sha2-512"
    else pkalg
  else pkalg

/-- The message of an answer, and the position of the identity that signed. -/
structure SignReply where
  signer : Option Nat
  msg : Bytes
  deriving DecidableEq

/-- `process_sign_request2` up to the label `send`. Any code means that the answer is a failure. -/
def signRequest (ssl : Openssl) (c : Codec) (y : Crypto) (pr : Process)
    (confirmKey : Identity → Bool) (tab : Idtable) (request : Bytes) :
    Except Stop (Nat × Bytes) := do
  let (blob,b) ← check (getString request)
  let (key,pkalg) ← parseKeyFromBlob c pr blob
  let (data,b) ← check (getString b)
  let (flags,_) ← check (getU32 b)
  match lookupIdentity ssl tab key with
  | none => .error (.err .keyNotFound)
  | some (i,id) =>
    if id.confirm && !confirmKey id then .error (.err .agentFailure)
    else
      let signature ← check (xkeySign y pr.xkalgs (agentRecodeAlg pkalg flags)
        (flags &&& sshAgentRfc6187OpaqueEcdsaSignature ≠ 0) id.key.1 data)
      return (i,signature)

def processSignRequest2 (ssl : Openssl) (c : Codec) (y : Crypto) (pr : Process)
    (confirmKey : Identity → Bool) (tab : Idtable) (request : Bytes) : Except Stop SignReply :=
  match signRequest ssl c y pr confirmKey tab request with
  | .ok (i,signature) =>
    match putU8 ssh2AgentSignResponse [] >>= putString signature with
    | .ok msg => .ok ⟨some i,msg⟩
    | .error _ => .error .fatal
  | .error (.err _) => .ok ⟨none,[sshAgentFailure]⟩
  | .error s => .error s

def agentEncodeAlg (k : SshKey) (alg : Bytes) : Nat :=
  if k.type ≠ .rsa then 0
  else if alg = cstr "rsa-sha2-256" then sshAgentRsaSha2_256
  else if alg = cstr "rsa-sha2-512" then sshAgentRsaSha2_512
  else if alg = cstr "rsa-sha2-256-cert-v01@openssh.com" then sshAgentRsaSha2_256
  else if alg = cstr "rsa-sha2-512-cert-v01@openssh.com" then sshAgentRsaSha2_512
  else 0

def signRequestMessage (c : Codec) (pr : Process) (alg : Bytes) (opaqueEcdsa : Bool)
    (k : SshKey) (data : Bytes) : Except Stop Bytes := do
  if data.length > sshKeyMaxSignDataSize then .error (.err .invalidArgument)
  else
    let flags := (if opaqueEcdsa then sshAgentRfc6187OpaqueEcdsaSignature else 0) |||
      agentEncodeAlg k alg
    let b ← check (putU8 ssh2AgentcSignRequest [])
    let b ← xkeyPuts c pr alg k b
    check (putString data b >>= putU32 flags)

def signResponse (t : XkalgTable) (alg msg : Bytes) : Except SshErr Bytes := do
  let (type,b) ← getU8 msg
  if type = sshAgentFailure ∨ type = sshComAgent2Failure ∨ type = ssh2AgentFailure then
    .error .agentFailure
  else if type ≠ ssh2AgentSignResponse then .error .invalidFormat
  else
    let (sig,_) ← getString b
    xkeyCheckSigalg t alg sig
    return sig

/-- `Xssh_agent_sign`, where the agent takes the request behind its type byte. -/
def xsshAgentSign (c : Codec) (pr : Process) (agent : Bytes → Except Stop SignReply)
    (alg : Bytes) (opaqueEcdsa : Bool) (k : SshKey) (data : Bytes) : Except Stop Bytes := do
  let msg ← signRequestMessage c pr alg opaqueEcdsa k data
  let reply ← agent msg.tail
  check (signResponse pr.xkalgs alg reply.msg)

end PkixSsh.Agent
