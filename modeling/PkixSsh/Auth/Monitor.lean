import PkixSsh.Auth.Session

/-!
# The monitor before authentication

`monitor.c`. A request is a type and a payload, which the child chooses; an environment that may
differ from one request to the next answers what is asked outside. `none` is the end of the process.
Replies are left out, the child knows all that goes into them.
-/

namespace PkixSsh.Auth

open Key X509 Sshbuf

inductive MonitorReq where
  | moduli | sign | pwnam | authserv | auth2ReadBanner | authpassword | keyallowed | keyverify
  deriving DecidableEq

def MonitorReq.code : MonitorReq → UInt8
  | moduli => 0
  | authserv => 4
  | sign => 6
  | pwnam => 8
  | auth2ReadBanner => 10
  | authpassword => 12
  | keyallowed => 22
  | keyverify => 24

/-- An entry of the table, with its flags `MON_ISAUTH`, `MON_AUTHDECIDE`, `MON_ONCE` and
`MON_PERMIT`. -/
structure MonTable where
  type : MonitorReq
  isauth : Bool
  authdecide : Bool
  once : Bool
  permit : Bool

def monDispatchProto20 : List MonTable := [
  ⟨.moduli,false,false,true,false⟩,
  ⟨.sign,false,false,true,false⟩,
  ⟨.pwnam,false,false,true,false⟩,
  ⟨.authserv,false,false,true,false⟩,
  ⟨.auth2ReadBanner,false,false,true,false⟩,
  ⟨.authpassword,true,true,false,false⟩,
  ⟨.keyallowed,true,false,false,false⟩,
  ⟨.keyverify,true,true,false,false⟩]

def monitorPermit : List MonTable → MonitorReq → Bool → List MonTable
  | [], _, _ => []
  | ent :: rest, type, permit =>
    if ent.type = type then { ent with permit := permit } :: rest
    else ent :: monitorPermit rest type permit

def monitorPermitAuthentications (table : List MonTable) (permit : Bool) : List MonTable :=
  table.map fun ent =>
    if ent.isauth || ent.authdecide then { ent with permit := permit } else ent

inductive MmKeytype where
  | noKey | hostKey | userKey
  deriving DecidableEq

structure Monitor (O : Type) where
  authctxt : Authctxt O
  dispatch : List MonTable
  keyBlob : Option Bytes
  keyBlobtype : MmKeytype
  keyOpts : Option O
  hostbasedCuser : Option Bytes
  hostbasedChost : Option Bytes
  authMethod : Bytes
  authSubmethod : Option Bytes
  sessionId2 : Option Bytes
  /-- `call_count` of `mm_answer_authpassword` -/
  callCount : Nat

structure MonitorEnv (O : Type) extends Env O where
  /-- what `Xkey_puts` writes for the public host key of an index and an algorithm -/
  hostkeyPuts : Nat → Bytes → Option Bytes
  /-- whether the host key of an index signs data with an algorithm -/
  hostkeySigns : Nat → Bytes → Bytes → Bool

section

variable {O : Type} (options : ServerOptions) (env : MonitorEnv O) (st : Monitor O) (m : Bytes)

def monitorAllowedKey (blob : Bytes) : Bool := st.keyBlob = some blob

def monitorResetKeyState : Monitor O :=
  { st with
    keyBlob := none
    keyBlobtype := .noKey
    keyOpts := none
    hostbasedCuser := none
    hostbasedChost := none }

/-! ### Answers to the requests

A handler gives the state and its return value, whether it was one. -/

def int32Max : Nat := 0x7fffffff

def mmAnswerModuli : Option (Monitor O × Bool) :=
  let parsed : Except SshErr (Nat × Nat × Nat) := do
    let (min,m) ← getU32 m
    let (want,m) ← getU32 m
    let (max,_) ← getU32 m
    return (min,want,max)
  match parsed with
  | .error _ => none
  | .ok (min,want,max) =>
    if max < min ∨ want < min ∨ max < want ∨ max > int32Max ∨ want > int32Max ∨ min > int32Max
    then none
    else some (st,false)

/-- The request for a signature: the index of the key, the data and the algorithm. -/
def parseSign : Except SshErr (Nat × Bytes × Bytes) := do
  let (keyid,m) ← getU32 m
  let (p,m) ← getString m
  let (alg,m) ← getCstring m
  let (_,m) ← getU32 m
  let (_,_) ← getU32 m
  return (keyid,p,alg)

/-- Data of the length of a hash of a key exchange, or the proof for a host key of this
session. -/
def signDataAllowed (keyid : Nat) (p alg : Bytes) : Bool :=
  p.length ∈ [20,32,48,64] ||
    match st.sessionId2, env.hostkeyPuts keyid alg with
    | some sid, some blob =>
      p = framed (cstr "hostkeys-prove-00@openssh.com") ++ framed sid ++ blob
    | _, _ => false

def mmAnswerSign : Option (Monitor O × Bool) :=
  match parseSign m with
  | .error _ => none
  | .ok (keyid,p,alg) =>
    if keyid > int32Max then none
    else if !signDataAllowed env st keyid p alg then none
    else if !env.hostkeySigns keyid alg p then none
    else some ({ st with
      -- the session identifier is what the first call signs
      sessionId2 := some (st.sessionId2.getD p)
      dispatch := monitorPermit st.dispatch .pwnam true },false)

/-- A configuration that leaves no list lets the monitor go on with none. -/
def setupListsOrNone (s : Authctxt O) : Authctxt O :=
  (auth2SetupMethodsLists options s).getD { normaliseAny s with authMethods := [] }

def pwnamAuthctxt (env : Env O) (s : Authctxt O) (username : Bytes) : Authctxt O :=
  let pwent := env.getpwnamallow username
  setupListsOrNone options { s with
    attempt := s.attempt + 1
    user := some username
    pwUid := pwent.getD env.fakepwUid
    valid := s.valid || pwent.isSome }

def mmAnswerPwnamallow : Option (Monitor O × Bool) :=
  if st.authctxt.attempt ≠ 0 then none
  else
    match getCstring m with
    | .error _ => none
    | .ok (username,_) =>
      some ({ st with
        authctxt := pwnamAuthctxt options env.toEnv st.authctxt username
        dispatch := monitorPermit (monitorPermit st.dispatch .authserv true) .auth2ReadBanner
          true },false)

def mmAnswerAuthserv : Option (Monitor O × Bool) :=
  let parsed : Except SshErr (Bytes × Bytes) := do
    let (service,m) ← getCstring m
    let (style,_) ← getCstring m
    return (service,style)
  match parsed with
  | .error _ => none
  | .ok (service,style) =>
    some ({ st with
      authctxt := { st.authctxt with
        service := some service
        style := if style = [] then none else some style }
      dispatch := monitorPermitAuthentications st.dispatch true },false)

def mmAnswerAuthpassword : Option (Monitor O × Bool) :=
  if !options.passwordAuthentication then none
  else
    match getCstring m, peekStringDirect m with
    | .ok (passwd,_), .ok raw =>
      let callCount := st.callCount + 1
      some ({ st with
        callCount := callCount
        authMethod := if raw.length = 0 ∧ callCount = 1 then cstr "none" else cstr "password" },
        env.authPassword passwd)
    | _, _ => none

structure KeyallowedRequest where
  type : Nat
  cuser : Bytes
  chost : Bytes
  pkalg : Bytes
  blob : Bytes

def parseKeyallowed : Except SshErr KeyallowedRequest := do
  let (val,m) ← getU32 m
  let (cuser,m) ← getCstring m
  let (chost,m) ← getCstring m
  let (pkalg,m) ← getCstring m
  let (blob,m) ← getString m
  let (_,_) ← getU32 m
  return ⟨val,cuser,chost,pkalg,blob⟩

def MmKeytype.ofVal : Nat → Option MmKeytype
  | 1 => some .hostKey
  | 2 => some .userKey
  | _ => none

lemma MmKeytype.ofVal_userKey {n : Nat} (h : MmKeytype.ofVal n = some .userKey) : n = 2 := by
  unfold MmKeytype.ofVal at h
  split at h
  · cases h
  · rfl
  · cases h

/-- The decision on a key: the state with the method name, and for an allowed key the options
of its line. -/
def keyDecision (req : KeyallowedRequest) (key : LoadedKey) :
    Option (Monitor O × Option (MmKeytype × Option O)) :=
  if !st.authctxt.valid then some (st,none)
  else if sshkeyTypePlain key.1.type = .rsa ∧ env.bugRsasigmd5 then none
  else
    match MmKeytype.ofVal req.type with
    | some .userKey =>
      let st := { st with authMethod := cstr "publickey" }
      if !options.pubkeyAuthentication then some (st,none)
      else if auth2KeyAlreadyUsed env.ssl st.authctxt key.1 then some (st,none)
      else some (st,(env.userXkeyAllowed req.pkalg key).map fun opts => (.userKey,some opts))
    | some .hostKey =>
      let st := { st with authMethod := cstr "hostbased" }
      if !options.hostbasedAuthentication then some (st,none)
      else if auth2KeyAlreadyUsed env.ssl st.authctxt key.1 then some (st,none)
      else
        let info := cstr "client user \"" ++ upTo100 req.cuser ++ cstr "\", client host \"" ++
          upTo100 req.chost ++ cstr "\""
        some ({ st with authctxt := { st.authctxt with authMethodInfo := some info } },
          if env.hostbasedXkeyAllowed req.pkalg key req.cuser req.chost then some (.hostKey,none)
          else none)
    | _ => none

def mmAnswerKeyallowed : Option (Monitor O × Bool) :=
  match parseKeyallowed m with
  | .error _ => none
  | .ok req =>
    match env.xkeyFromBlob req.pkalg req.blob with
    | .error _ => none
    | .ok none => none
    | .ok (some key) => do
      let (st,allowed) ← keyDecision options env st req key
      let authctxt ← auth2RecordKey st.authctxt false key.1
      let st := monitorResetKeyState { st with authctxt := authctxt }
      match allowed with
      | none => return (st,false)
      | some (type,opts) =>
        return ({ st with
          keyBlob := some req.blob
          keyBlobtype := type
          keyOpts := opts
          hostbasedCuser := some req.cuser
          hostbasedChost := some req.chost },false)

def userstyle (s : Authctxt O) : Bytes :=
  s.user.getD [] ++
    match s.style with
    | some style => colon :: style
    | none => []

/-- The identifier in front of the signed data: whether it is that of the session, and the
rest of the data. -/
def takeSessionId (oldSessionid : Bool) (sid : Option Bytes) (data : Bytes) :
    Except SshErr (Bool × Bytes) :=
  if oldSessionid then do
    let (p,b) ← get (sid.getD []).length data
    return (sid = some p,b)
  else do
    let (p,b) ← getString data
    return (sid = some p,b)

def monitorValidUserblob (data : Bytes) : Except SshErr Bool := do
  let (sid,b) ← takeSessionId env.oldSessionid st.sessionId2 data
  let (type,b) ← getU8 b
  let (user,b) ← getCstring b
  let (_,b) ← getString b
  let (method,b) ← getCstring b
  let (haveSig,b) ← getU8 b
  let (_,b) ← getString b
  let (_,b) ← getString b
  return sid && type = msgUserauthRequest && user = userstyle st.authctxt &&
    method = cstr "publickey" && haveSig ≠ 0 && b.isEmpty

def monitorValidHostbasedblob (data cuser chost : Bytes) : Except SshErr Bool := do
  let (sid,b) ← takeSessionId false st.sessionId2 data
  let (type,b) ← getU8 b
  let (user,b) ← getCstring b
  let (_,b) ← getString b
  let (method,b) ← getCstring b
  let (_,b) ← getString b
  let (_,b) ← getString b
  let (host,b) ← getCstring b
  let (user',b) ← getCstring b
  -- a trailing dot of the client host is stripped
  let host := if host.getLast? = some 46 then host.dropLast else host
  return sid && type = msgUserauthRequest && user = userstyle st.authctxt &&
    method = cstr "hostbased" && host = chost && user' = cuser && b.isEmpty

structure KeyverifyRequest where
  pkalg : Bytes
  blob : Bytes
  signature : Bytes
  data : Bytes

/-- The algorithm is read as a string and used as a C string. -/
def parseKeyverify : Except SshErr KeyverifyRequest := do
  let (pkalg,m) ← getString m
  let (blob,m) ← getString m
  let (signature,m) ← getString m
  let (data,_) ← getString m
  return ⟨untilNul pkalg,blob,signature,data⟩

/-- The method name and whether the signed data is good for the kind of key that was
allowed. -/
def validData (data : Bytes) : Except SshErr (Bytes × Bool) :=
  match st.keyBlobtype with
  | .userKey => do return (cstr "publickey",← monitorValidUserblob env st data)
  | .hostKey => do return (cstr "hostbased",← monitorValidHostbasedblob st data
      (st.hostbasedCuser.getD []) (st.hostbasedChost.getD []))
  | .noKey => .ok (st.authMethod,false)

/-- The options of the allowed key become active whatever the verdict on the signature. -/
def activateKeyOpts : Option (Monitor O) :=
  if st.keyBlobtype = .userKey then do
    let opts ← st.keyOpts
    let (authctxt,_) ← authActivateOptions env.toEnv st.authctxt opts
    return { st with authctxt := authctxt }
  else some st

def mmAnswerKeyverify : Option (Monitor O × Bool) :=
  match parseKeyverify m with
  | .error _ => none
  | .ok req =>
    if st.hostbasedCuser = none ∨ st.hostbasedChost = none ∨ !monitorAllowedKey st req.blob
    then none
    else
      match env.xkeyFromBlob req.pkalg req.blob with
      | .error _ => none
      | .ok none => none
      | .ok (some key) =>
        match validData env st req.data with
        | .error _ => none
        | .ok (_,false) => none
        | .ok (method,true) => do
          let verified := env.xkeyVerify req.pkalg key req.signature req.data
          let authctxt ← auth2RecordKey st.authctxt verified key.1
          let st ← activateKeyOpts env { st with authctxt := authctxt, authMethod := method }
          return (monitorResetKeyState st,verified)

/-- A request of the child, with what the environment answers while it is handled. -/
structure MonitorRequest (O : Type) where
  env : MonitorEnv O
  type : UInt8
  payload : Bytes

variable (req : MonitorRequest O)

def answer : MonitorReq → Option (Monitor O × Bool)
  | .moduli => mmAnswerModuli st req.payload
  | .sign => mmAnswerSign req.env st req.payload
  | .pwnam => mmAnswerPwnamallow options req.env st req.payload
  | .authserv => mmAnswerAuthserv st req.payload
  | .auth2ReadBanner => some (st,false)
  | .authpassword => mmAnswerAuthpassword options req.env st req.payload
  | .keyallowed => mmAnswerKeyallowed options req.env st req.payload
  | .keyverify => mmAnswerKeyverify req.env st req.payload

/-- `monitor_read`: the state, the return value of the handler and the entry of the table. -/
def monitorRead : Option (Monitor O × Bool × MonTable) :=
  match st.dispatch.find? fun ent => ent.type.code = req.type with
  | none => none
  | some ent =>
    if !ent.permit then none
    else do
      let (st,ret) ← answer options st req ent.type
      let st := if ent.once then { st with dispatch := monitorPermit st.dispatch ent.type false }
        else st
      return (st,ret,ent)

def resetMethod : Monitor O :=
  { st with
    authMethod := cstr "unknown"
    authSubmethod := none
    authctxt := auth2AuthctxtResetInfo st.authctxt }

/-- The decision of the loop after a handler: the lists are updated before the special handling
for root. -/
def monitorDecide (env : Env O) (s : Authctxt O) (authenticated : Bool) (method : Bytes)
    (submethod : Option Bytes) (authdecide : Bool) : Option (Authctxt O × Bool × Bool) := do
  let (s,authenticated,isPartial) ← finishMethods s authenticated method submethod
  if authenticated ∧ !authdecide then none
  let authenticated ← rootVerdict options env s authenticated method
  return (s,authenticated,isPartial)

def preauthDecide (authenticated : Bool) (ent : MonTable) : Option (Monitor O × Bool) := do
  let (authctxt,authenticated,isPartial) ← monitorDecide options env.toEnv st.authctxt
    authenticated st.authMethod st.authSubmethod ent.authdecide
  let authctxt :=
    if ent.authdecide ∧ !isPartial ∧ !authenticated then
      { authctxt with failures := authctxt.failures + 1 }
    else authctxt
  let authctxt :=
    if ent.authdecide ∧ (authenticated ∨ isPartial) then
      auth2UpdateSessionInfo authctxt st.authMethod st.authSubmethod
    else authctxt
  return ({ st with authctxt := authctxt },authenticated)

def preauthStep : Option (Monitor O × Bool) := do
  let (st,ret,ent) ← monitorRead options (resetMethod st) req
  preauthDecide options req.env st ret ent

/-- How the monitor stands after requests of the child: still in the loop, out of it with the
requests that are left, or ended. -/
inductive Preauth (O : Type) where
  | waiting (st : Monitor O)
  | authenticated (st : Monitor O) (rest : List (MonitorRequest O))
  | dead

def monitorChildPreauth (options : ServerOptions) (st : Monitor O) :
    List (MonitorRequest O) → Preauth O
  | [] => .waiting st
  | req :: rest =>
    match preauthStep options st req with
    | none => .dead
    | some (st,false) => monitorChildPreauth options st rest
    | some (st,true) =>
      if !st.authctxt.valid ∨ st.authMethod = cstr "unknown" then .dead
      else .authenticated st rest

def Monitor.initial (authOpts : O) : Monitor O where
  authctxt := Auth.initial options authOpts
  dispatch := monitorPermit (monitorPermit monDispatchProto20 .moduli true) .sign true
  keyBlob := none
  keyBlobtype := .noKey
  keyOpts := none
  hostbasedCuser := none
  hostbasedChost := none
  authMethod := cstr "unknown"
  authSubmethod := none
  sessionId2 := none
  callCount := 0

/-- What a decision on a key changes, and for which keys it is positive. -/
lemma keyDecision_eq {options : ServerOptions} {env : MonitorEnv O} {st st' : Monitor O}
    {req : KeyallowedRequest} {key : LoadedKey} {allowed : Option (MmKeytype × Option O)}
    (h : keyDecision options env st req key = some (st',allowed)) :
    (∃ method info, st' = { st with authMethod := method, authctxt :=
      { st.authctxt with authMethodInfo := info } }) ∧
      ∀ type opts, allowed = some (type,opts) →
        type = .hostKey ∧ options.hostbasedAuthentication = true ∨
          type = .userKey ∧ req.type = 2 ∧ opts = env.userXkeyAllowed req.pkalg key ∧
            opts ≠ none := by
  have hsame : ∀ method, ∃ method' info, { st with authMethod := method } = { st with
      authMethod := method', authctxt := { st.authctxt with authMethodInfo := info } } :=
    fun method => ⟨method,st.authctxt.authMethodInfo,rfl⟩
  rw [keyDecision] at h
  split at h
  · cases h
    exact ⟨hsame _,nofun⟩
  split at h
  · cases h
  split at h
  · next htype =>
    dsimp only at h
    split at h
    · cases h
      exact ⟨hsame _,nofun⟩
    split at h
    · cases h
      exact ⟨hsame _,nofun⟩
    cases h
    refine ⟨hsame _,fun type opts ha => ?_⟩
    obtain ⟨o,ho,heq⟩ := Option.map_eq_some_iff.mp ha
    cases heq
    exact .inr ⟨rfl,MmKeytype.ofVal_userKey htype,ho.symm,nofun⟩
  · dsimp only at h
    split at h
    · cases h
      exact ⟨hsame _,nofun⟩
    next hhost =>
    split at h
    · cases h
      exact ⟨hsame _,nofun⟩
    cases h
    refine ⟨⟨_,_,rfl⟩,fun type opts ha => .inl ?_⟩
    split at ha
    · cases ha
      exact ⟨rfl,by simpa using hhost⟩
    · cases ha
  · cases h

end

end PkixSsh.Auth
