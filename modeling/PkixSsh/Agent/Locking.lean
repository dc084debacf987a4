import PkixSsh.Agent.Signing
import PkixSsh.Lib.Machine
import PkixSsh.Match

/-!
# Locking the agent

The dispatcher of `ssh-agent.c` with its handlers, built with `ENABLE_PKCS11`. What is written to a
connection is taken as sent at once.
-/

namespace PkixSsh.Agent

open Key X509 Sshbuf List Machine Function

structure Services where
  ssl : Openssl
  codec : Codec
  crypto : Crypto
  process : Process
  confirmKey : Identity → Bool
  sshkeyPrivateDeserialize : Get LoadedKey
  sshkeyEnableMaxsign : LoadedKey → Nat → Except SshErr LoadedKey
  sshkeyShieldPrivate : LoadedKey → Except SshErr LoadedKey
  /-- Of the passphrase and the salt. -/
  bcryptPbkdf : Bytes → Bytes → Option Bytes
  lifetime : Nat
  realpath : Bytes → Option Bytes
  providerWhitelist : Bytes
  pkcs11AddProvider : Bytes → Bytes → List (LoadedKey × Bytes)
  pkcs11DelProvider : Bytes → Bool

structure AgentState where
  tab : Idtable
  locked : Bool
  lockPwhash : Bytes
  lockSalt : Bytes
  failCount : Nat
  /-- `sockets[socknum].input` -/
  input : Nat → Bytes

/-- The message written to the connection, the identities in it and the one that signed it. -/
structure Reply where
  output : Bytes
  listed : List Identity
  signer : Option Nat

def sshAgentcRemoveAllRsaIdentities : UInt8 := 9
def ssh2AgentcRequestIdentities : UInt8 := 11
def ssh2AgentIdentitiesAnswer : UInt8 := 12
def ssh2AgentcAddIdentity : UInt8 := 17
def ssh2AgentcRemoveAllIdentities : UInt8 := 19
def sshAgentcAddSmartcardKey : UInt8 := 20
def sshAgentcRemoveSmartcardKey : UInt8 := 21
def sshAgentcLock : UInt8 := 22
def sshAgentcUnlock : UInt8 := 23
def ssh2AgentcAddIdConstrained : UInt8 := 25
def sshAgentcAddSmartcardKeyConstrained : UInt8 := 26
def sshAgentConstrainLifetime : UInt8 := 1
def sshAgentConstrainConfirm : UInt8 := 2
def sshAgentConstrainMaxsign : UInt8 := 3
def sshAgentConstrainExtension : UInt8 := 255
def agentMaxLen : Nat := 256 * 1024
def lockSize : Nat := 32

def Idtable.filter (tab : Idtable) (keep : Identity → Bool) : Idtable :=
  ⟨(tab.idlist.filter keep).length,tab.idlist.filter keep,rfl⟩

def Idtable.insertTail (tab : Idtable) (id : Identity) : Idtable :=
  ⟨tab.nentries + 1,tab.idlist ++ [id],by rw [length_append,tab.counted]; rfl⟩

def Idtable.set (tab : Idtable) (i : Nat) (id : Identity) : Idtable :=
  ⟨tab.nentries,tab.idlist.set i id,by rw [length_set,tab.counted]⟩

def expired (now : Nat) (id : Identity) : Bool := id.death ≠ 0 && now ≥ id.death

def reaper (tab : Idtable) (now : Nat) : Idtable := tab.filter fun id => !expired now id

def Reply.status (success : Bool) : Reply := ⟨framed (sendStatus success),[],none⟩

def noIdentities : Reply :=
  ⟨framed (ssh2AgentIdentitiesAnswer :: BigEndian.encode 4 0),[],none⟩

def putMessage (msg : Bytes) (listed : List Identity) (signer : Option Nat) : Except Stop Reply :=
  match putString msg [] with
  | .error _ => .error .fatal
  | .ok output => .ok ⟨output,listed,signer⟩

variable (v : Services)

/-- An entry of the list. What was written before an error stays. -/
def putIdentity (msg : Bytes) (id : Identity) : Bytes :=
  match akeyToBlob v.codec id.key.1 >>= (putString · msg) with
  | .error _ => msg
  | .ok msg => (putString id.comment msg).toOption.getD msg

def processRequestIdentities (tab : Idtable) : Except Stop Reply :=
  putMessage (tab.idlist.foldl (putIdentity v)
    (ssh2AgentIdentitiesAnswer :: BigEndian.encode 4 tab.nentries)) tab.idlist none

/-- The constraints read so far, and the key they are put on. -/
structure Constraints where
  key : LoadedKey
  death : Nat
  confirm : Bool
  skProvider : Option Bytes

/-- One turn of the loop of `process_add_identity`. All errors have one answer. -/
def addConstraint (now : Nat) (c : Constraints) : Get Constraints := fun b => do
  let (ctype,b) ← getU8 b
  if ctype = sshAgentConstrainLifetime then
    let (seconds,b) ← getU32 b
    return ({ c with death := now + seconds },b)
  else if ctype = sshAgentConstrainConfirm then return ({ c with confirm := true },b)
  else if ctype = sshAgentConstrainMaxsign then
    let (maxsign,b) ← getU32 b
    let key ← v.sshkeyEnableMaxsign c.key maxsign
    return ({ c with key },b)
  else if ctype = sshAgentConstrainExtension then
    let (extName,b) ← getCstring b
    if extName ≠ cstr "sk-provider@openssh.com" ∨ c.skProvider.isSome then .error .invalidFormat
    else
      let (skProvider,b) ← getCstring b
      return ({ c with skProvider := some skProvider },b)
  else .error .invalidFormat

def deathOf (now death : Nat) : Nat :=
  if v.lifetime ≠ 0 ∧ death = 0 then now + v.lifetime else death

def addedIdentity (now : Nat) (request : Bytes) : Except SshErr Identity := do
  let (k,b) ← v.sshkeyPrivateDeserialize request
  let (comment,b) ← getCstring b
  let c ← untilEmpty (addConstraint v now) ⟨k,0,false,none⟩ b
  let key ← v.sshkeyShieldPrivate c.key
  return ⟨key,comment,none,deathOf v now c.death,c.confirm⟩

def processAddIdentity (now : Nat) (tab : Idtable) (request : Bytes) :
    Bool × Idtable :=
  match addedIdentity v now request with
  | .error _ => (false,tab)
  | .ok id =>
    match lookupIdentity v.ssl tab id.key.1 with
    | none => (true,tab.insertTail id)
    | some (i,old) => (true,tab.set i { id with provider := old.provider })

def smartcardConstraint (now : Nat) (c : Nat × Bool) : Get (Nat × Bool) := fun b => do
  let (type,b) ← getU8 b
  if type = sshAgentConstrainLifetime then
    let (seconds,b) ← getU32 b
    return ((now + seconds,c.2),b)
  else if type = sshAgentConstrainConfirm then return ((c.1,true),b)
  else .error .invalidFormat

def addSmartcardKeys (provider : Bytes) (death : Nat) (confirm : Bool) :
    Bool × Idtable → List (LoadedKey × Bytes) → Bool × Idtable :=
  List.foldl fun (success,tab) (k,comment) =>
    match lookupIdentity v.ssl tab k.1 with
    | some _ => (success,tab)
    | none => (true,tab.insertTail ⟨k,comment,some provider,death,confirm⟩)

def processAddSmartcardKey (now : Nat) (tab : Idtable) (request : Bytes) :
    Bool × Idtable :=
  let parsed : Except SshErr (Bytes × Bytes × Nat × Bool) := do
    let (provider,b) ← getCstring request
    let (pin,b) ← getCstring b
    let c ← untilEmpty (smartcardConstraint now) (0,false) b
    return (provider,pin,c)
  match parsed with
  | .error _ => (false,tab)
  | .ok (provider,pin,death,confirm) =>
    match v.realpath provider with
    | none => (false,tab)
    | some canonical =>
      if Match.matchPatternList canonical v.providerWhitelist false ≠ 1 then (false,tab)
      else addSmartcardKeys v canonical (deathOf v now death) confirm (false,tab)
        (v.pkcs11AddProvider canonical pin)

def processRemoveSmartcardKey (tab : Idtable) (request : Bytes) : Bool × Idtable :=
  let parsed : Except SshErr Bytes := do
    let (provider,b) ← getCstring request
    let _ ← getCstring b
    return provider
  match parsed with
  | .error _ => (false,tab)
  | .ok provider =>
    match v.realpath provider with
    | none => (false,tab)
    | some canonical =>
      (v.pkcs11DelProvider canonical,tab.filter fun id => id.provider ≠ some canonical)

/-- `sshbuf_get_cstring` with the length, which counts a final NUL. -/
def getPasswd : Get Bytes := fun buf => do
  let val ← peekStringDirect buf
  if 0 ∈ val.dropLast then .error .invalidFormat else return (val,buf.drop (val.length + 4))

/-- `process_lock_agent`, where `salt` is what `arc4random_buf` would give. -/
def processLockAgent (st : AgentState) (lock : Bool) (salt request : Bytes) :
    Except Stop (Bool × AgentState) :=
  match getPasswd request with
  | .error _ => .error .fatal
  | .ok (passwd,_) =>
    if passwd.length = 0 then .ok (false,st)
    else if st.locked && !lock then
      match v.bcryptPbkdf passwd st.lockSalt with
      | none => .error .fatal
      | some passwdhash =>
        if passwdhash = st.lockPwhash then
          .ok (true,{ st with
            locked := false
            failCount := 0
            lockPwhash := List.replicate lockSize 0 })
        else .ok (false,{ st with
          failCount := if st.failCount < 100 then st.failCount + 1 else st.failCount })
    else if !st.locked && lock then
      match v.bcryptPbkdf passwd salt with
      | none => .error .fatal
      | some passwdhash =>
        .ok (true,{ st with locked := true, lockSalt := salt, lockPwhash := passwdhash })
    else .ok (false,st)

/-- A handler that changes the table and sends a status. -/
def AgentState.answer (st : AgentState) (r : Bool × Idtable) : Reply × AgentState :=
  (.status r.1,{ st with tab := r.2 })

/-- The switches of `process_message`, on the type and the rest of a message. -/
def dispatch (st : AgentState) (now : Nat) (salt : Bytes) (type : UInt8)
    (request : Bytes) : Except Stop (Reply × AgentState) :=
  if st.locked ∧ type ≠ sshAgentcUnlock then
    .ok (if type = ssh2AgentcRequestIdentities then noIdentities else .status false,st)
  else if type = sshAgentcLock ∨ type = sshAgentcUnlock then
    match processLockAgent v st (type = sshAgentcLock) salt request with
    | .error e => .error e
    | .ok (success,st) => .ok (.status success,st)
  else if type = sshAgentcRemoveAllRsaIdentities ∨ type = ssh2AgentcRemoveAllIdentities then
    .ok (st.answer (true,⟨0,[],rfl⟩))
  else if type = ssh2AgentcSignRequest then
    match processSignRequest2 v.ssl v.codec v.crypto v.process v.confirmKey st.tab request with
    | .error e => .error e
    | .ok r => (putMessage r.msg [] r.signer).map (·,st)
  else if type = ssh2AgentcRequestIdentities then (processRequestIdentities v st.tab).map (·,st)
  else if type = ssh2AgentcAddIdentity ∨ type = ssh2AgentcAddIdConstrained then
    .ok (st.answer (processAddIdentity v now st.tab request))
  else if type = ssh2AgentcRemoveIdentity then
    match processRemoveIdentity v.ssl v.codec st.tab request with
    | .error e => .error e
    | .ok r => .ok (⟨framed r.output,[],none⟩,{ st with tab := r.tab })
  else if type = sshAgentcAddSmartcardKey ∨ type = sshAgentcAddSmartcardKeyConstrained then
    .ok (st.answer (processAddSmartcardKey v now st.tab request))
  else if type = sshAgentcRemoveSmartcardKey then
    .ok (st.answer (processRemoveSmartcardKey v st.tab request))
  else .ok (.status false,st)

/-- The message at the front of the input, if it is whole. A message without a type is dropped. -/
def takeMessage (input : Bytes) : Except Stop (Option (UInt8 × Bytes) × Bytes) :=
  if input.length < 5 then .ok (none,input)
  else if BigEndian.decode (input.take 4) > agentMaxLen then .ok (none,input)
  else if input.length < BigEndian.decode (input.take 4) + 4 then .ok (none,input)
  else
    match getString input with
    | .error .messageIncomplete => .ok (none,input)
    | .error .stringTooLarge => .ok (none,input)
    | .error _ => .error .fatal
    | .ok ([],rest) => .ok (none,rest)
    | .ok (type :: request,rest) => .ok (some (type,request),rest)

def processMessage (st : AgentState) (now : Nat) (salt : Bytes) (socknum : Nat) :
    Except Stop (Reply × AgentState) :=
  match takeMessage (st.input socknum) with
  | .error e => .error e
  | .ok (none,rest) => .ok (⟨[],[],none⟩,{ st with input := update st.input socknum rest })
  | .ok (some (type,request),rest) =>
    dispatch v { st with input := update st.input socknum rest } now salt type request

inductive Event where
  /-- `handle_socket_read` -/
  | accept (socknum : Nat)
  /-- `handle_conn_read`, at some time, with the salt that may be drawn -/
  | read (socknum : Nat) (buf salt : Bytes) (now : Nat)
  | reap (now : Nat)

def step (st : AgentState) : Event → Except Stop (Reply × AgentState)
  | .accept socknum => .ok (⟨[],[],none⟩,{ st with input := update st.input socknum [] })
  | .read socknum buf salt now =>
    match put buf (st.input socknum) with
    | .error _ => .error .fatal
    | .ok input =>
      processMessage v { st with input := update st.input socknum input } now salt socknum
  | .reap now => .ok (⟨[],[],none⟩,{ st with tab := reaper st.tab now })

/-- The event completes a message of this type with a passphrase. -/
def Submits (st : AgentState) (e : Event) (type : UInt8) (p : Bytes) : Prop :=
  ∃ socknum buf salt now input request rest rest', e = .read socknum buf salt now ∧
    put buf (st.input socknum) = .ok input ∧ takeMessage input = .ok (some (type,request),rest) ∧
    getPasswd request = .ok (p,rest')

def outlives (id : Identity) : Event → Bool
  | .reap now => !expired now id
  | _ => true

def Collision (salt p q : Bytes) : Prop :=
  p ≠ q ∧ v.bcryptPbkdf p salt = v.bcryptPbkdf q salt

variable {v : Services} {s s1 s2 : AgentState} {e : Event} {r : Reply} {p : Bytes}

lemma filter_true (tab : Idtable) : (tab.filter fun _ => true) = tab := by
  obtain ⟨n,ids,rfl⟩ := tab
  simp [Idtable.filter]

lemma filter_filter (tab : Idtable) (f g : Identity → Bool) :
    (tab.filter f).filter g = tab.filter fun id => f id && g id := by
  simp [Idtable.filter,Bool.and_comm]

/-- An answer without identity and signature, or none. -/
def Quiet (r : Reply) : Prop := r = ⟨[],[],none⟩ ∨ r = noIdentities ∨ ∃ success, r = .status success

/-- What may change in a locked agent by a message. -/
structure Seals (v : Services) (s s' : AgentState) (r : Reply) (unlocks : Bytes → Prop) : Prop where
  quiet : Quiet r
  tab : s'.tab = s.tab
  salt : s'.lockSalt = s.lockSalt
  kept : s'.locked = true → s'.lockPwhash = s.lockPwhash
  unlocked : s'.locked = false → ∃ q, unlocks q ∧ v.bcryptPbkdf q s.lockSalt = some s.lockPwhash

lemma Seals.still {P : Bytes → Prop} (hr : Quiet r) (ht : s1.tab = s.tab)
    (hsalt : s1.lockSalt = s.lockSalt) (hhash : s1.lockPwhash = s.lockPwhash)
    (hs : s1.locked = true) : Seals v s s1 r P :=
  ⟨hr,ht,hsalt,fun _ => hhash,fun hf => absurd (hs.symm.trans hf) nofun⟩

lemma dispatch_locked (hs : s.locked = true) {now : Nat} {salt request : Bytes} {type : UInt8}
    (h : dispatch v s now salt type request = .ok (r,s1)) :
    Seals v s s1 r fun q => type = sshAgentcUnlock ∧ ∃ rest, getPasswd request = .ok (q,rest) := by
  rw [dispatch] at h
  by_cases ht : type = sshAgentcUnlock
  · subst ht
    rw [if_neg (by simp)] at h
    cases hp : processLockAgent v s false salt _ with
    | error e =>
      rw [show decide _ = false from rfl,hp] at h
      cases h
    | ok x =>
      rw [show decide _ = false from rfl,hp] at h
      cases h
      rw [processLockAgent] at hp
      split at hp
      · cases hp
      next passwd rest hget =>
      rw [hs] at hp
      split at hp
      · cases hp
        exact .still (.inr (.inr ⟨false,rfl⟩)) rfl rfl rfl hs
      · rw [if_pos (show (true && !false) = true from rfl)] at hp
        split at hp
        · cases hp
        next passwdhash hhash =>
        split at hp
        · next heq =>
          cases hp
          exact ⟨.inr (.inr ⟨true,rfl⟩),rfl,rfl,nofun,fun _ => ⟨passwd,⟨rfl,rest,hget⟩,heq ▸ hhash⟩⟩
        · cases hp
          exact .still (.inr (.inr ⟨false,rfl⟩)) rfl rfl rfl rfl
  · rw [if_pos ⟨hs,ht⟩] at h
    cases h
    refine .still (.inr ?_) rfl rfl rfl hs
    split
    · exact .inl rfl
    · exact .inr ⟨false,rfl⟩

lemma processMessage_locked (hs : s.locked = true) {now : Nat} {salt : Bytes} {socknum : Nat}
    (h : processMessage v s now salt socknum = .ok (r,s1)) :
    Seals v s s1 r fun q => ∃ request rest rest', takeMessage (s.input socknum) =
      .ok (some (sshAgentcUnlock,request),rest) ∧ getPasswd request = .ok (q,rest') := by
  rw [processMessage] at h
  split at h
  · cases h
  · cases h
    exact .still (.inl rfl) rfl rfl rfl hs
  · next type request rest hm =>
    obtain ⟨hquiet,htab,hsalt,hkept,hun⟩ := dispatch_locked (by exact hs) h
    refine ⟨hquiet,htab,hsalt,hkept,fun hf => ?_⟩
    obtain ⟨q,⟨rfl,rest',hq⟩,hhash⟩ := hun hf
    exact ⟨q,⟨request,rest,rest',hm,hq⟩,hhash⟩

lemma step_locked (hs : s.locked = true) (h : step v s e = .ok (r,s1)) :
    Seals v { s with tab := s.tab.filter (outlives · e) } s1 r (Submits s e sshAgentcUnlock) := by
  cases e with
  | accept socknum =>
    cases h
    exact .still (.inl rfl) (filter_true _).symm rfl rfl hs
  | reap now =>
    cases h
    exact .still (.inl rfl) rfl rfl rfl hs
  | read socknum buf salt now =>
    rw [step] at h
    split at h
    · cases h
    next input hput =>
    obtain ⟨hquiet,htab,hsalt,hkept,hun⟩ := processMessage_locked (by exact hs) h
    refine ⟨hquiet,htab.trans (filter_true _).symm,hsalt,hkept,fun hf => ?_⟩
    obtain ⟨q,⟨request,rest,rest',hm,hq⟩,hhash⟩ := hun hf
    simp only [update_self] at hm
    exact ⟨q,⟨socknum,buf,salt,now,input,request,rest,rest',rfl,hput,hm,hq⟩,hhash⟩

lemma step_lock (hsub : Submits s e sshAgentcLock p) (hs : s.locked = false)
    (h : step v s e = .ok (r,s1)) (hs1 : s1.locked = true) :
    s1.tab = s.tab ∧ v.bcryptPbkdf p s1.lockSalt = some s1.lockPwhash := by
  obtain ⟨socknum,buf,salt,now,input,request,rest,rest',rfl,hput,hm,hp⟩ := hsub
  rw [step,hput] at h
  simp only [processMessage,update_self,hm] at h
  rw [dispatch,if_neg (by simp [hs]),if_pos (.inl rfl)] at h
  split at h
  · cases h
  next success st hl =>
  cases h
  rw [processLockAgent,hp] at hl
  simp only [hs] at hl
  split at hl
  · cases hl
    cases hs1
  · rw [if_neg (by simp),if_pos (by simp)] at hl
    split at hl
    · cases hl
    next passwdhash hhash =>
    cases hl
    exact ⟨rfl,hhash⟩

/-- What the run of a locked agent does, up to the event that unlocks it. -/
lemma run_locked {es : List Event} {os : List Reply} (hrun : run (step v) s es = .ok (os,s2))
    (hg : Machine.Guarded (step v) (fun s _ => s.locked = true) s es)
    (hp : v.bcryptPbkdf p s.lockSalt = some s.lockPwhash) : (∀ r ∈ os, Quiet r) ∧
    s2.tab = s.tab.filter (fun id => es.all (outlives id)) ∧
    (s.locked = true → s2.locked = false → ∃ es' e s' os' q, es = es' ++ [e] ∧
      run (step v) s es' = .ok (os',s') ∧ Submits s' e sshAgentcUnlock q ∧
      v.bcryptPbkdf q s.lockSalt = v.bcryptPbkdf p s.lockSalt) := by
  induction es generalizing s os with
  | nil =>
    cases hrun
    exact ⟨nofun,(filter_true _).symm,fun h h' => absurd (h.symm.trans h') nofun⟩
  | cons e es ih =>
    obtain ⟨r,s1,os',hstep,hrest,rfl⟩ := run_cons_ok.mp hrun
    obtain ⟨hquiet,htab,hsalt,hkept,hun⟩ := step_locked hg.1 hstep
    have hg' := hg.2 r s1 hstep
    cases hs1 : s1.locked with
    | true =>
      obtain ⟨hos,htab2,hend⟩ := ih hrest hg' (by rw [hsalt,hkept hs1]; exact hp)
      refine ⟨?_,?_,fun _ hs2 => ?_⟩
      · intro r' hr'
        rcases mem_cons.mp hr' with rfl | hr'
        · exact hquiet
        · exact hos r' hr'
      · rw [htab2,htab,filter_filter]
        rfl
      · obtain ⟨es',e',s',os'',q,rfl,hrun',hsub,hq⟩ := hend hs1 hs2
        rw [hsalt] at hq
        exact ⟨e :: es',e',s',r :: os'',q,rfl,run_cons_ok.mpr ⟨r,s1,os'',hstep,hrun',rfl⟩,hsub,hq⟩
    | false =>
      -- an event behind the unlocking one would come to an unlocked agent
      cases es with
      | cons e' es => exact absurd (hs1.symm.trans hg'.1) nofun
      | nil =>
        cases hrest
        refine ⟨?_,?_,fun _ _ => ?_⟩
        · intro r' hr'
          rw [mem_singleton.mp hr']
          exact hquiet
        · simpa using htab
        · obtain ⟨q,hsub,hq⟩ := hun hs1
          exact ⟨[],e,s,[],q,rfl,rfl,hsub,hq.trans hp.symm⟩

/-- From the locking to the first unlocking the agent lists no identity, does not sign or change its
table, and only its passphrase unlocks it. -/
theorem locked_agent_sealed {es : List Event} {os : List Reply}
    (hsub : Submits s e sshAgentcLock p) (hs : s.locked = false) (h : step v s e = .ok (r,s1))
    (hs1 : s1.locked = true) (hrun : run (step v) s1 es = .ok (os,s2))
    (hg : Machine.Guarded (step v) (fun s _ => s.locked = true) s1 es) :
    (∀ r ∈ os, Quiet r) ∧ s2.tab = s.tab.filter (fun id => es.all (outlives id)) ∧
    (s2.locked = false → ∃ es' e' s' os' q, es = es' ++ [e'] ∧
      run (step v) s1 es' = .ok (os',s') ∧ Submits s' e' sshAgentcUnlock q ∧
      (q = p ∨ Collision v s1.lockSalt p q)) := by
  obtain ⟨htab,hp⟩ := step_lock hsub hs h hs1
  obtain ⟨hos,htab2,hend⟩ := run_locked hrun hg hp
  refine ⟨hos,htab ▸ htab2,fun hs2 => ?_⟩
  obtain ⟨es',e',s',os',q,he,hrun',hq,hhash⟩ := hend hs1 hs2
  refine ⟨es',e',s',os',q,he,hrun',hq,?_⟩
  by_cases hqp : q = p
  · exact .inl hqp
  · exact .inr ⟨Ne.symm hqp,hhash.symm⟩

def exampleServices : Services where
  ssl := asciiOpenssl
  codec := exampleSignCodec
  crypto := exampleCrypto
  process := defaultProcess
  confirmKey _ := true
  sshkeyPrivateDeserialize _ := .error .invalidFormat
  sshkeyEnableMaxsign _ _ := .error .invalidArgument
  sshkeyShieldPrivate := .ok
  bcryptPbkdf passwd salt := some (passwd ++ salt)
  lifetime := 0
  realpath _ := none
  providerWhitelist := []
  pkcs11AddProvider _ _ := []
  pkcs11DelProvider _ := false

def exampleAgent : AgentState :=
  let id := exampleIdentity ⟨rsaX509Key 2773 17 "alice",by decide⟩
  ⟨⟨2,[id,{ id with death := 5 }],rfl⟩,false,[],[],0,fun _ => []⟩

def exampleRead (type : UInt8) (body : Bytes) : Event := .read 0 (framed (type :: body)) [7] 0

def exampleEvents : List Event :=
  [exampleRead ssh2AgentcRequestIdentities [],.reap 7,
    exampleRead sshAgentcUnlock (framed (cstr "p"))]

theorem locked_agent_sealed_example : ∃ r s1 os s2, step exampleServices exampleAgent
        (exampleRead sshAgentcLock (framed (cstr "p"))) = .ok (r,s1) ∧
      run (step exampleServices) s1 exampleEvents = .ok (os,s2) ∧ (∀ r ∈ os, Quiet r) ∧
      s2.tab = exampleAgent.tab.filter (fun id => exampleEvents.all (outlives id)) ∧
      ∃ es' e' s' os' q, exampleEvents = es' ++ [e'] ∧
        run (step exampleServices) s1 es' = .ok (os',s') ∧ Submits s' e' sshAgentcUnlock q ∧
        (q = cstr "p" ∨ Collision exampleServices s1.lockSalt (cstr "p") q) := by
  have hsub : Submits exampleAgent (exampleRead sshAgentcLock (framed (cstr "p")))
      sshAgentcLock (cstr "p") :=
    ⟨0,_,_,_,framed (sshAgentcLock :: framed (cstr "p")),framed (cstr "p"),[],[],rfl,
      by decide +kernel,by decide +kernel,by decide +kernel⟩
  obtain ⟨hquiet,htab,hunlock⟩ :=
    locked_agent_sealed (v := exampleServices) hsub rfl rfl rfl
      (show run (step exampleServices) _ exampleEvents = .ok _ from rfl)
      (.cons rfl rfl (.cons rfl rfl (.cons rfl rfl trivial)))
  exact ⟨_,_,_,_,rfl,rfl,hquiet,htab,hunlock rfl⟩

end PkixSsh.Agent
