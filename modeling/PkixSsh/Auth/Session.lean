import PkixSsh.Sshbuf.Basic
import PkixSsh.Key.Basic
import PkixSsh.Auth.Methods

/-!
# The authentication session of the server

`auth2.c` and its methods, without privilege separation. `none` is the end of the process. What a
request depends on outside is answered by an environment that may differ from message to message.
-/

namespace PkixSsh.Auth

open Key X509 Sshbuf

inductive PermitRootLogin where
  | no | forcedOnly | noPasswd | yes

structure ServerOptions where
  authMethods : List Bytes
  maxAuthtries : Nat
  pubkeyAuthentication : Bool
  passwordAuthentication : Bool
  kbdInteractiveAuthentication : Bool
  challengeResponseAuthentication : Bool
  hostbasedAuthentication : Bool
  permitEmptyPasswd : Bool
  permitRootLogin : PermitRootLogin
  sessionId2 : Bytes

structure SessionInfo where
  method : Bytes
  submethod : Option Bytes
  key : Option SshKey
  info : Option Bytes

/-- The fields of `Authctxt` that the session uses, and the globals it changes. -/
structure Authctxt (O : Type) where
  success : Bool
  postponed : Bool
  valid : Bool
  attempt : Nat
  failures : Nat
  user : Option Bytes
  service : Option Bytes
  style : Option Bytes
  pwUid : Nat
  authMethods : List Bytes
  prevKeys : List SshKey
  authMethodKey : Option SshKey
  authMethodInfo : Option Bytes
  sessionInfo : List SessionInfo
  configured : List Bytes
  noneEnabled : Bool
  /-- null after a merge that failed -/
  authOpts : Option O
  userauthHandler : Bool
  infoResponseHandler : Bool
  /-- number of prompts of the pending information request -/
  nreq : Nat

inductive Respond where
  | success | more | failure

/-- What the environment answers while one message is handled. Decoders return keys
that carry their public key. -/
structure Env (O : Type) where
  /-- `getpwnamallow`, the user id of the account -/
  getpwnamallow : Bytes → Option Nat
  /-- user id of `fakepw` -/
  fakepwUid : Nat
  sshkeyTypeFromName : Bytes → KeyType
  pubkeyAlgorithmAllowed : Bytes → Bool
  hostbasedAlgorithmAllowed : Bytes → Bool
  xkeyFromBlob : Bytes → Bytes → Except SshErr (Option LoadedKey)
  /-- peer compatibility flag `SSH_BUG_RSASIGMD5` -/
  bugRsasigmd5 : Bool
  /-- peer compatibility flag `SSH_OLD_SESSIONID` -/
  oldSessionid : Bool
  sshkeyCheckCertSigtype : LoadedKey → Bool
  /-- `user_xkey_allowed` with the options of the key line -/
  userXkeyAllowed : Bytes → LoadedKey → Option O
  hostbasedXkeyAllowed : Bytes → LoadedKey → Bytes → Bytes → Bool
  /-- `Xkey_verify` of a signature over data -/
  xkeyVerify : Bytes → LoadedKey → Bytes → Bytes → Bool
  sshauthoptMerge : O → O → Option O
  forceCommand : O → Bool
  authPassword : Bytes → Bool
  /-- the next device and its information request, by the number of prompts -/
  challengeStart : Option Nat
  respond : List Bytes → Respond
  /-- a further information request of the same device -/
  sendInfoRequest : Option Nat
  deviceName : Bytes
  ssl : Openssl

def msgUserauthRequest : UInt8 := 50

inductive Message where
  | serviceRequest (payload : Bytes)
  | userauthRequest (payload : Bytes)
  | infoResponse (payload : Bytes)

section

variable {O : Type}

def getEnd (rest : Bytes) : Option Unit := if rest = [] then some () else none

variable (options : ServerOptions) (env : Env O) (s : Authctxt O) (authenticated : Bool)
  (method : Bytes) (submethod : Option Bytes) (payload : Bytes)

def auth2RecordKey (key : SshKey) : Option (Authctxt O) :=
  match sshkeyFromPrivate key with
  | .error _ => none
  | .ok dup =>
    let s := { s with authMethodKey := some dup }
    some (if authenticated then { s with prevKeys := s.prevKeys ++ [dup] } else s)

def auth2KeyAlreadyUsed (ssl : Openssl) (s : Authctxt O) (key : SshKey) : Bool :=
  s.prevKeys.any (sshkeyEqualPublic ssl key)

def auth2AuthctxtResetInfo : Authctxt O :=
  { s with authMethodKey := none, authMethodInfo := none }

def auth2UpdateSessionInfo : Authctxt O :=
  { s with sessionInfo :=
      s.sessionInfo ++ [⟨method,submethod,s.authMethodKey,s.authMethodInfo⟩] }

/-- `auth_activate_options`: the result of the merge replaces the active options also where it is
null. -/
def authActivateOptions (opts : O) : Option (Authctxt O × Bool) :=
  match s.authOpts with
  | none => none
  | some old =>
    let merged := env.sshauthoptMerge old opts
    some ({ s with authOpts := merged },merged.isSome)

section

variable {options : ServerOptions} {env : Env O} {s s' : Authctxt O} {authenticated : Bool}

lemma auth2RecordKey_eq {key : SshKey} (h : auth2RecordKey s authenticated key = some s') :
    ∃ dup, sshkeyFromPrivate key = .ok dup ∧ s' = { s with
      authMethodKey := some dup
      prevKeys := if authenticated then s.prevKeys ++ [dup] else s.prevKeys } := by
  rw [auth2RecordKey] at h
  split at h
  · cases h
  · next dup hdup =>
    cases h
    refine ⟨dup,hdup,?_⟩
    cases authenticated <;> rfl

lemma authActivateOptions_eq {opts : O} {ok : Bool}
    (h : authActivateOptions env s opts = some (s',ok)) :
    ∃ old, s.authOpts = some old ∧ s' = { s with authOpts := env.sshauthoptMerge old opts } := by
  rw [authActivateOptions] at h
  split at h
  · cases h
  · next old hold =>
    cases h
    exact ⟨old,hold,rfl⟩

end

structure PubkeyRequest where
  haveSig : UInt8
  pkalg : Bytes
  pkblob : Bytes
  rest : Bytes

variable (req : PubkeyRequest)

def parsePubkeyRequest : Except SshErr PubkeyRequest := do
  let (haveSig,rest) ← getU8 payload
  let (pkalg,rest) ← getCstring rest
  let (pkblob,rest) ← getString rest
  return ⟨haveSig,pkalg,pkblob,rest⟩

/-- The checks of `userauth_pubkey` before it looks at the signature: the key of an
acceptable request that was not used before. -/
def offeredKey : Option LoadedKey :=
  let pktype := env.sshkeyTypeFromName req.pkalg
  if pktype = .unspec then none
  else if !env.pubkeyAlgorithmAllowed req.pkalg then none
  else
    match env.xkeyFromBlob req.pkalg req.pkblob with
    | .error _ => none
    | .ok none => none
    | .ok (some key) =>
      if key.1.type ≠ pktype then none
      else if sshkeyTypePlain key.1.type = .rsa ∧ env.bugRsasigmd5 then none
      else if auth2KeyAlreadyUsed env.ssl s key.1 then none
      else if !env.sshkeyCheckCertSigtype key then none
      else some key

def signedData : Bytes :=
  let userstyle := s.user.getD [] ++
    match s.style with
    | some style => colon :: style
    | none => []
  (if env.oldSessionid then options.sessionId2 else framed options.sessionId2) ++
    [msgUserauthRequest] ++ framed userstyle ++
    framed (s.service.getD []) ++ framed (cstr "publickey") ++
    [req.haveSig] ++ framed req.pkalg ++ framed req.pkblob

/-- The branch with a signature. A step can fail in the merge after its key was recorded. -/
def pubkeyWithSignature (key : LoadedKey) : Option (Authctxt O × Bool) :=
  match getString req.rest with
  | .error _ => none
  | .ok (sig,rest) => do
    getEnd rest
    if !s.valid ∨ s.user = none then return (s,false)
    match env.userXkeyAllowed req.pkalg key with
    | none => return (← auth2RecordKey s false key.1,false)
    | some authopts =>
      let authenticated := env.xkeyVerify req.pkalg key sig (signedData options env s req)
      let s ← auth2RecordKey s authenticated key.1
      if !authenticated then return (s,false)
      authActivateOptions env s authopts

def pubkeyTest (key : LoadedKey) : Option (Authctxt O × Bool) := do
  getEnd req.rest
  if !s.valid ∨ s.user = none then return (s,false)
  if (env.userXkeyAllowed req.pkalg key).isSome then return ({ s with postponed := true },false)
  return (s,false)

def userauthPubkey : Option (Authctxt O × Bool) :=
  match parsePubkeyRequest payload with
  | .error _ => none
  | .ok req =>
    match offeredKey env s req with
    | none => some (s,false)
    | some key =>
      if req.haveSig ≠ 0 then pubkeyWithSignature options env s req key
      else pubkeyTest env s req key

structure HostbasedRequest where
  pkalg : Bytes
  pkblob : Bytes
  chost : Bytes
  cuser : Bytes
  sig : Bytes

def parseHostbasedRequest : Except SshErr HostbasedRequest := do
  let (pkalg,rest) ← getCstring payload
  let (pkblob,rest) ← getString rest
  let (chost,rest) ← getCstring rest
  let (cuser,rest) ← getCstring rest
  let (sig,_) ← getString rest
  return ⟨pkalg,pkblob,chost,cuser,sig⟩

/-- The checks of `userauth_hostbased`; keys used before are not refused. -/
def hostbasedKey (req : HostbasedRequest) : Option LoadedKey :=
  let pktype := env.sshkeyTypeFromName req.pkalg
  if pktype = .unspec then none
  else if !env.hostbasedAlgorithmAllowed req.pkalg then none
  else
    match env.xkeyFromBlob req.pkalg req.pkblob with
    | .error _ => none
    | .ok none => none
    | .ok (some key) =>
      if key.1.type ≠ pktype then none
      else if sshkeyTypePlain key.1.type = .rsa ∧ env.bugRsasigmd5 then none
      else if !env.sshkeyCheckCertSigtype key then none
      else some key

def upTo100 (s : Bytes) : Bytes := s.take 100

def userauthHostbased : Option (Authctxt O × Bool) :=
  match parseHostbasedRequest payload with
  | .error _ => none
  | .ok req =>
    match hostbasedKey env req with
    | none => some (s,false)
    | some key =>
      if !s.valid ∨ s.user = none then some (s,false)
      else
        let data := framed options.sessionId2 ++ [msgUserauthRequest] ++
          framed (s.user.getD []) ++ framed (s.service.getD []) ++
          framed (cstr "hostbased") ++ framed req.pkalg ++
          framed req.pkblob ++ framed req.chost ++
          framed req.cuser
        let info := cstr "client user \"" ++ upTo100 req.cuser ++ cstr "\", client host \"" ++
          upTo100 req.chost ++ cstr "\""
        let authenticated := env.hostbasedXkeyAllowed req.pkalg key req.cuser req.chost &&
          env.xkeyVerify req.pkalg key req.sig data
        (auth2RecordKey { s with authMethodInfo := some info } authenticated key.1).map
          fun s => (s,authenticated)

def userauthNone : Option (Authctxt O × Bool) := do
  let s := { s with noneEnabled := false }
  getEnd payload
  if options.permitEmptyPasswd ∧ options.passwordAuthentication then
    return (s,env.authPassword [])
  return (s,false)

def userauthPasswd : Option (Authctxt O × Bool) :=
  let parsed : Except SshErr (UInt8 × Bytes × Bytes) := do
    let (change,rest) ← getU8 payload
    let (password,rest) ← getCstring rest
    if change ≠ 0 then
      let (_,rest) ← getCstring rest
      return (change,password,rest)
    return (change,password,rest)
  match parsed with
  | .error _ => none
  | .ok (change,password,rest) => do
    getEnd rest
    return (s,change = 0 && env.authPassword password)

def auth2ChallengeStop : Authctxt O := { s with infoResponseHandler := false }

def auth2ChallengeStart : Authctxt O :=
  match env.challengeStart with
  | some nreq => { s with infoResponseHandler := true, postponed := true, nreq := nreq }
  | none => auth2ChallengeStop s

def userauthKbdint : Option (Authctxt O × Bool) :=
  let parsed : Except SshErr Bytes := do
    let (_,rest) ← getCstring payload
    let (_,rest) ← getCstring rest
    return rest
  match parsed with
  | .error _ => none
  | .ok rest => do
    getEnd rest
    if options.challengeResponseAuthentication ∧ s.user ≠ none then
      return (auth2ChallengeStart env s,false)
    return (s,false)

def methodEnabled : Authmethod → Bool
  | .none => s.noneEnabled
  | .publickey => options.pubkeyAuthentication
  | .password => options.passwordAuthentication
  | .keyboardInteractive => options.kbdInteractiveAuthentication
  | .hostbased => options.hostbasedAuthentication

def auth2MethodAllowed : Bool :=
  s.configured = [] || s.authMethods.any fun l => listStartsWith l method none ≠ .matchNone

def authmethodLookup (name : Bytes) : Option Authmethod :=
  authmethods.find? fun m => methodEnabled options s m && name = m.name &&
    auth2MethodAllowed s m.name

def normaliseAny : Authctxt O :=
  if s.configured = [cstr "any"] then { s with configured := [] } else s

/-- `auth2_setup_methods_lists`, `none` when no list is left. -/
def auth2SetupMethodsLists : Option (Authctxt O) :=
  let s := normaliseAny s
  if s.configured = [] then some s
  else
    let methods := s.configured.filter (auth2MethodsValid (methodEnabled options s))
    if methods = [] then none else some { s with authMethods := methods }

/-- `auth_root_allowed`, `none` where it reads the active options through a null pointer. -/
def authRootAllowed : Option Bool :=
  match options.permitRootLogin with
  | .yes => some true
  | .noPasswd => some (method = cstr "publickey" || method = cstr "hostbased" ||
      method = cstr "gssapi-with-mic")
  | .forcedOnly => s.authOpts.map env.forceCommand
  | .no => some false

def rootVerdict : Option Bool :=
  if authenticated ∧ s.pwUid = 0 then authRootAllowed options env s method
  else some authenticated

lemma rootVerdict_true {options : ServerOptions} {env : Env O} {s : Authctxt O}
    {authenticated : Bool} {method : Bytes}
    (h : rootVerdict options env s authenticated method = some true) : authenticated = true := by
  rw [rootVerdict] at h
  split at h
  · rename_i hroot
    exact hroot.1
  · exact Option.some.inj h

/-- The lists after a successful step and whether it completes authentication. -/
def finishMethods : Option (Authctxt O × Bool × Bool) :=
  if authenticated ∧ s.configured ≠ [] then
    match auth2UpdateMethodsLists s.authMethods method submethod with
    | none => none
    | some (methods,true) => some ({ s with authMethods := methods },true,false)
    | some (methods,false) => some ({ s with authMethods := methods },false,true)
  else some (s,authenticated,false)

def countFailure (isPartial : Bool) (method : Bytes) : Authctxt O :=
  if !isPartial ∧ (s.attempt > 1 ∨ method ≠ cstr "none") then
    { s with failures := s.failures + 1 }
  else s

def finishReply (isPartial : Bool) (method : Bytes) : Option (Authctxt O) :=
  if s.postponed then some s
  else if authenticated then some { s with success := true, userauthHandler := false }
  else
    let s := countFailure s isPartial method
    -- `auth_maxtries_exceeded`
    if s.failures ≥ options.maxAuthtries then none else some s

/-- The decision of `userauth_finish`, with the special handling for root before the lists are
updated. -/
def userauthDecide : Option (Authctxt O × Bool × Bool) :=
  if !s.valid ∧ authenticated then none
  else if authenticated ∧ s.postponed then none
  else do
    let authenticated ← rootVerdict options env s authenticated method
    finishMethods s authenticated method submethod

def userauthFinish : Option (Authctxt O) := do
  let (s,authenticated,isPartial) ← userauthDecide options env s authenticated method submethod
  let s := if authenticated || isPartial then auth2UpdateSessionInfo s method submethod else s
  finishReply options s authenticated isPartial method

def splitStyle (user : Bytes) : Bytes × Option Bytes :=
  match user.dropWhile (· ≠ colon) with
  | [] => (user,none)
  | _ :: style => (user.takeWhile (· ≠ colon),some style)

/-- The first request sets the context up, later ones must name the same user and
service. -/
def setupAuthctxt (user service : Bytes) (style : Option Bytes) : Option (Authctxt O) :=
  let first := s.attempt = 0
  let s := { s with attempt := s.attempt + 1 }
  if first then
    let pw := env.getpwnamallow user
    let s := { s with
      user := some user
      valid := s.valid || (pw.isSome && service = cstr "ssh-connection")
      pwUid := if service = cstr "ssh-connection" then pw.getD env.fakepwUid else env.fakepwUid
      service := some service
      style := style }
    auth2SetupMethodsLists options s
  else if s.user ≠ some user ∨ s.service ≠ some service then none
  else some s

def userauth : Authmethod → Option (Authctxt O × Bool)
  | .none => userauthNone options env s payload
  | .publickey => userauthPubkey options env s payload
  | .password => userauthPasswd env s payload
  | .keyboardInteractive => userauthKbdint options env s payload
  | .hostbased => userauthHostbased options env s payload

def parseUserauthRequest : Except SshErr (Bytes × Bytes × Bytes × Bytes) := do
  let (user,rest) ← getCstring payload
  let (service,rest) ← getCstring rest
  let (method,rest) ← getCstring rest
  return (user,service,method,rest)

def resetState : Authctxt O :=
  { auth2AuthctxtResetInfo (auth2ChallengeStop s) with postponed := false }

def tryMethod (rest : Bytes) : Option (Authctxt O × Bool) :=
  match authmethodLookup options s method with
  | none => some (s,false)
  | some m => if s.failures < options.maxAuthtries then userauth options env s rest m
    else some (s,false)

def inputUserauthRequest : Option (Authctxt O) :=
  match parseUserauthRequest payload with
  | .error _ => none
  | .ok (user,service,method,rest) => do
    let (user,style) := splitStyle user
    let s ← setupAuthctxt options env s user service style
    let (s,authenticated) ← tryMethod options env (resetState s) method rest
    userauthFinish options env s authenticated method none

def parseReplies : Nat → Bytes → Except SshErr (List Bytes × Bytes)
  | 0, rest => return ([],rest)
  | n + 1, rest => do
    let (reply,rest) ← getCstring rest
    let (replies,rest) ← parseReplies n rest
    return (reply :: replies,rest)

def parseInfoResponse (nreq : Nat) (payload : Bytes) : Option (List Bytes) :=
  match getU32 payload with
  | .error _ => none
  | .ok (nresp,rest) =>
    if nresp ≠ nreq ∨ nresp > 100 then none
    else
      match parseReplies nresp rest with
      | .error _ => none
      | .ok (replies,rest) => (getEnd rest).map fun _ => replies

/-- The context and the verdict after the device has seen the replies. -/
def respondReplies (replies : List Bytes) : Authctxt O × Bool :=
  match env.respond replies with
  | .success => if s.valid then (auth2ChallengeStop s,true) else (auth2ChallengeStart env s,false)
  | .more =>
    match env.sendInfoRequest with
    | some nreq => ({ s with postponed := true, nreq := nreq },false)
    | none => (auth2ChallengeStart env s,false)
  | .failure => (auth2ChallengeStart env s,false)

def inputUserauthInfoResponse : Option (Authctxt O) := do
  let replies ← parseInfoResponse s.nreq payload
  let (s,authenticated) := respondReplies env { s with postponed := false } replies
  userauthFinish options env s authenticated (cstr "keyboard-interactive") (some env.deviceName)

def inputServiceRequest : Option (Authctxt O) :=
  match getCstring payload with
  | .error _ => none
  | .ok (service,rest) => do
    getEnd rest
    if service = cstr "ssh-userauth" ∧ !s.success then return { s with userauthHandler := true }
    none

/-- One message through the dispatcher. An unregistered one is answered and ignored, and
so is every message once authentication succeeded. -/
def dispatch : Message → Option (Authctxt O)
  | .serviceRequest payload => if s.success then some s else inputServiceRequest s payload
  | .userauthRequest payload =>
    if s.success ∨ !s.userauthHandler then some s else inputUserauthRequest options env s payload
  | .infoResponse payload =>
    if s.success ∨ !s.infoResponseHandler then some s
    else inputUserauthInfoResponse options env s payload

def initial (authOpts : O) : Authctxt O where
  success := false
  postponed := false
  valid := false
  attempt := 0
  failures := 0
  user := none
  service := none
  style := none
  pwUid := 0
  authMethods := []
  prevKeys := []
  authMethodKey := none
  authMethodInfo := none
  sessionInfo := []
  configured := options.authMethods
  noneEnabled := true
  authOpts := some authOpts
  userauthHandler := false
  infoResponseHandler := false
  nreq := 0

/-- A whole session: the context after the messages, if it did not end before. -/
def run (options : ServerOptions) (s : Authctxt O) : List (Env O × Message) → Option (Authctxt O)
  | [] => some s
  | (env,m) :: rest => do
    let s ← dispatch options env s m
    run options s rest

end

end PkixSsh.Auth
