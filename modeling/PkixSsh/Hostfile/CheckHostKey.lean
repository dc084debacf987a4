import PkixSsh.Hostfile.Basic
import PkixSsh.Krl.Basic

/-!
# Checking the host key

`check_host_key` of `sshconnect.c`. A name with a port that is not known is tried without it, and
an OpenSSH certificate that is not trusted as a plain key.
-/

namespace PkixSsh.Hostfile

open Key X509 Sshbuf Match

inductive StrictHostkey where
  | off | new | yes | ask
  deriving DecidableEq

/-- The argument `readonly`: `RDRW`, `RDONLY` and `ROQUIET`. -/
inductive Readonly where
  | rdrw | rdonly | roquiet
  deriving DecidableEq

inductive UpdateHostkeys where
  | no | yes | ask
  deriving DecidableEq

structure Options where
  noHostAuthenticationForLocalhost : Bool
  hostKeyAlias : Option Bytes
  checkHostIp : Bool
  proxyCommand : Option Bytes
  strictHostKeyChecking : StrictHostkey
  hashKnownHosts : Bool
  updateHostkeys : UpdateHostkeys
  caSignAlgorithms : Option Bytes
  passwordAuthentication : Bool
  kbdInteractiveAuthentication : Bool
  challengeResponseAuthentication : Bool
  forwardAgent : Bool
  forwardX11 : Bool
  numLocalForwards : Nat
  numRemoteForwards : Nat
  tunOpen : Bool
  exitOnForwardFailure : Bool
  deriving DecidableEq

inductive Prompt where
  | newHost (host ip : Bytes) (key : SshKey)
  | addressDiffers (host ip : Bytes) (key : SshKey)

/-- A connection. `ntop` is the numeric address that `getnameinfo` gives, and `addHost` tells
whether a line can be added to the first file of the user. -/
structure Connection where
  hostname : Bytes
  ntop : Option Bytes
  isLocal : Bool
  userHostfiles : List File
  systemHostfiles : List File
  now : Int
  confirm : Prompt → Bool
  addHost : Bytes → SshKey → Bool

structure State where
  options : Options
  added : List (Bytes × SshKey)
  deriving DecidableEq

def sshDefaultPort : UInt16 := 22

def putHostPort (host : Bytes) (port : UInt16) : Bytes :=
  if port = 0 ∨ port = sshDefaultPort then host
  else cstr "[" ++ host ++ cstr "]:" ++ cstr (toString port.toNat)

def getHostfileHostnameIpaddr (o : Options) (conn : Connection) (port : UInt16) :
    Except Stop (Bytes × Bytes) := do
  let ip ←
    match o.proxyCommand, conn.ntop with
    | none, none => .error .fatal
    | none, some ntop => .ok (putHostPort ntop port)
    | some _, _ => .ok (cstr "<no hostip for proxy command>")
  return (o.hostKeyAlias.getD (putHostPort conn.hostname port),ip)

def sshkeyCertCheckAuthority (cert : CertInfo) (now : Int) (wantHost requirePrincipal : Bool)
    (name : Option Bytes) : Except Bytes Unit :=
  if wantHost && !cert.isHost then .error (cstr "Certificate invalid: not a host certificate")
  else if !wantHost && cert.isHost then
    .error (cstr "Certificate invalid: not a user certificate")
  else if now < 0 ∨ now < cert.validAfter then
    .error (cstr "Certificate invalid: not yet valid")
  else if cert.validBefore ≤ now then .error (cstr "Certificate invalid: expired")
  else if cert.principals = [] then
    if requirePrincipal then .error (cstr "Certificate lacks principal list") else .ok ()
  else if name.any fun name => name ∉ cert.principals then
    .error (cstr "Certificate invalid: name is not a listed principal")
  else .ok ()

def sshkeyCheckCertSigtype (env : Env) (key : SshKey) (allowed : Option Bytes) :
    Except SshErr Unit :=
  match allowed with
  | none => .error .invalidArgument
  | some allowed =>
    if !sshkeyTypeIsCert key.type then .ok ()
    else
      match (env.certInfo key).signatureType with
      | none => .error .invalidArgument
      | some type =>
        if matchPatternList type allowed false ≠ 1 then .error .signAlgUnsupported else .ok ()

section

variable (env : Env) (conn : Connection) (o : Options) (host : Bytes) (key : SshKey) (ip : Bytes)

def checkHostCert : Bool :=
  (sshkeyCertCheckAuthority (env.certInfo key) conn.now true false (some host)).isOk &&
    (env.certInfo key).critical.length = 0 &&
    (sshkeyCheckCertSigtype env key o.caSignAlgorithms).isOk

/-- The call of `check_host_cert`, for the alias or the name of the host without the port. -/
def certAccepted : Bool :=
  checkHostCert env conn o (o.hostKeyAlias.getD conn.hostname) key

/-- What follows the label `continue_unsafe`: everything that another host could misuse is
turned off. -/
def continueUnsafe : Except Stop Options :=
  let cancelledForwarding := o.passwordAuthentication || o.kbdInteractiveAuthentication ||
    o.challengeResponseAuthentication || o.forwardAgent || o.forwardX11 ||
    0 < o.numLocalForwards || 0 < o.numRemoteForwards || o.tunOpen
  if o.exitOnForwardFailure && cancelledForwarding then .error .fatal
  else
    .ok { o with
      passwordAuthentication := false
      kbdInteractiveAuthentication := false
      challengeResponseAuthentication := false
      forwardAgent := false
      forwardX11 := false
      numLocalForwards := 0
      numRemoteForwards := 0
      tunOpen := false }

def addHostToHostfile (st : State) : State :=
  { st with added := st.added ++ [(host,key)] }

def addNewHost (ipStatus : HostStatus) (key : SshKey) (st : State) : State :=
  if st.options.checkHostIp && ipStatus = .new then
    if st.options.hashKnownHosts then
      let st := addHostToHostfile host key st
      if conn.addHost host key then addHostToHostfile ip key st else st
    else addHostToHostfile (host ++ comma :: ip) key st
  else addHostToHostfile host key st

/-- How a pass ends: the key is accepted, or control goes to the label `fail` with a status. -/
inductive Verdict where
  | accept (key : SshKey)
  | fail (hostStatus : HostStatus)

/-- What follows the switch: the address must not be known with other keys only. -/
def checkAddress (hostStatus ipStatus : HostStatus) (trusted : Bool) (key accepted : SshKey)
    (st : State) : Verdict × State :=
  let differs := st.options.checkHostIp && hostStatus ≠ .changed && ipStatus = .changed
  let refused :=
    match st.options.strictHostKeyChecking with
    | .ask => !conn.confirm (.addressDiffers host ip key)
    | .off => false
    | _ => true
  if differs && refused then (.fail hostStatus,st)
  else
    let o := st.options
    (.accept accepted,
      if trusted then st else { st with options := { o with updateHostkeys := .no } })

/-- The switch over the status of the host. `found` is the key that the call without the port
has accepted. -/
def judge (readonly : Readonly) (hostStatus ipStatus : HostStatus) (found : Option SshKey)
    (key : SshKey) (st : State) : Except Stop (Verdict × State) :=
  let o := st.options
  let wantCert := sshkeyIsCert key
  match hostStatus with
  | .ok =>
    if wantCert && !certAccepted env conn o key then .ok (.fail .ok,st)
    else
      let st :=
        if o.checkHostIp && ipStatus = .new && readonly = .rdrw && !wantCert then
          addHostToHostfile ip key st
        else st
      .ok (checkAddress conn host ip .ok ipStatus true key key st)
  | .new =>
    match found with
    | some k => .ok (checkAddress conn host ip .new ipStatus false key k st)
    | none =>
      if readonly ≠ .rdrw || wantCert then .ok (.fail .new,st)
      else
        match o.strictHostKeyChecking with
        | .yes => .ok (.fail .new,st)
        | .ask =>
          if !conn.confirm (.newHost host ip key) then .ok (.fail .new,st)
          else
            .ok (checkAddress conn host ip .new ipStatus true key key
              (addNewHost conn host ip ipStatus key st))
        | _ =>
          .ok (checkAddress conn host ip .new ipStatus false key key
            (addNewHost conn host ip ipStatus key st))
  | .revoked =>
    if o.strictHostKeyChecking ≠ .off then .ok (.fail .revoked,st)
    else do
      let o ← continueUnsafe o
      return checkAddress conn host ip .revoked ipStatus false key key { st with options := o }
  | .changed =>
    if wantCert || readonly = .roquiet || o.strictHostKeyChecking ≠ .off then
      .ok (.fail .changed,st)
    else do
      let o ← continueUnsafe o
      return checkAddress conn host ip .changed ipStatus false key key { st with options := o }
  | .found => .error .fatal

/-- A call of `check_host_key`, which returns 0 with the key that it accepts. -/
abbrev HostKeyCall := SshKey → State → Except Stop (Option SshKey × State)

/-- The status for the address. A plain key is looked up if the keys of the address were
loaded. -/
def ipStatusOf (ipHostkeys : Option (List HostkeyEntry)) (hostStatus : HostStatus)
    (key : SshKey) : HostStatus :=
  match ipHostkeys with
  | some hostkeys =>
    if sshkeyIsCert key then hostStatus else (checkKeyInHostkeys env hostkeys key).1
  | none => hostStatus

/-- A new name with a port is tried without the port. -/
def triesWithoutPort (port : UInt16) (hostStatus : HostStatus) : Bool :=
  hostStatus = .new && o.hostKeyAlias.isNone && port ≠ 0 && port ≠ sshDefaultPort

/-- A pass from the label `retry`. -/
def pass (inner : HostKeyCall) (port : UInt16) (readonly : Readonly) (host ip : Bytes)
    (hostHostkeys : List HostkeyEntry) (ipHostkeys : Option (List HostkeyEntry)) (key : SshKey)
    (st : State) : Except Stop (Verdict × State) := do
  let hostStatus := (checkKeyInHostkeys env hostHostkeys key).1
  let ipStatus := ipStatusOf env ipHostkeys hostStatus key
  let (found,st) ←
    if triesWithoutPort st.options port hostStatus then inner key st else .ok (none,st)
  judge env conn host ip readonly hostStatus ipStatus found key st

/-- The plain key of a certificate. Where it cannot be made the client exits. -/
def rawKey : Except Stop SshKey :=
  (sshkeyFromPrivate key >>= Krl.sshkeyDropCert).mapError fun _ => .fatal

def Connection.hostfiles : List File := conn.userHostfiles ++ conn.systemHostfiles

/-- `check_host_ip` is turned off for connections to localhost or through a proxy command, and
where the name is the address. -/
def comparesAddress : Bool :=
  !(conn.isLocal || conn.hostname = ip || o.proxyCommand.isSome)

/-- The host key of localhost may be accepted without a check. -/
def exempt : Bool :=
  o.noHostAuthenticationForLocalhost && conn.isLocal && o.hostKeyAlias.isNone

/-- The body of `check_host_key`, with the call that it makes without the port. -/
def checkHostKeyWith (inner : HostKeyCall) (port : UInt16) (readonly : Readonly) : HostKeyCall :=
  fun key st => do
    let o := st.options
    if exempt conn o then return (some key,st)
    let (host,ip) ← getHostfileHostnameIpaddr o conn port
    let checkHostIp := o.checkHostIp && comparesAddress conn o ip
    let st := { st with options := { o with checkHostIp := checkHostIp } }
    let hostHostkeys := loadAll env host conn.hostfiles
    let ipHostkeys :=
      if !sshkeyIsCert key && checkHostIp then some (loadAll env ip conn.hostfiles) else none
    let (verdict,st) ← pass env conn inner port readonly host ip hostHostkeys ipHostkeys key st
    match verdict with
    | .accept k => return (some k,st)
    | .fail hostStatus =>
      if sshkeyIsCert key && hostStatus ≠ .revoked then
        let raw ← rawKey key
        let (verdict,st) ← pass env conn inner port readonly host ip hostHostkeys ipHostkeys raw st
        match verdict with
        | .accept k => return (some k,st)
        | .fail _ => return (none,st)
      else return (none,st)

def checkHostKeyWithoutPort : HostKeyCall :=
  checkHostKeyWith env conn (fun _ st => .ok (none,st)) 0 .roquiet

/-- `check_host_key`; the result is `none` where it returns -1. -/
def checkHostKey (port : UInt16) (readonly : Readonly) : HostKeyCall :=
  checkHostKeyWith env conn (checkHostKeyWithoutPort env conn) port readonly

end

/-! ### Strict checking

While the checking is strict and asks nothing, only two options change, and the result depends
on the statuses alone. -/

section

variable (env : Env) (conn : Connection) (o : Options)

def Options.Strict : Prop :=
  o.strictHostKeyChecking = .yes ∨ o.strictHostKeyChecking = .new

/-- The options that strict checking leaves alone are the same. -/
def Framed (o' : Options) : Prop :=
  o' = { o with checkHostIp := o'.checkHostIp, updateHostkeys := o'.updateHostkeys }

/-- The end of a pass, from the statuses and the flag for the address. -/
def verdictOf (checkHostIp : Bool) (readonly : Readonly) (hostStatus ipStatus : HostStatus)
    (found : Option SshKey) (key : SshKey) : Verdict :=
  let differs := checkHostIp && ipStatus = .changed
  match hostStatus with
  | .ok =>
    if sshkeyIsCert key && !certAccepted env conn o key || differs then .fail .ok else .accept key
  | .new =>
    match found with
    | some k => if differs then .fail .new else .accept k
    | none =>
      if readonly ≠ .rdrw || sshkeyIsCert key || o.strictHostKeyChecking = .yes || differs then
        .fail .new
      else .accept key
  | status => .fail status

/-- A call in strict checking, by the flag for the address before and after it. -/
abbrev StrictCall := SshKey → Bool → Except Stop (Option SshKey × Bool)

def strictPass (inner : StrictCall) (port : UInt16) (readonly : Readonly)
    (hostHostkeys : List HostkeyEntry) (ipHostkeys : Option (List HostkeyEntry)) (key : SshKey)
    (flag : Bool) : Except Stop (Verdict × Bool) := do
  let hostStatus := (checkKeyInHostkeys env hostHostkeys key).1
  let (found,flag) ←
    if triesWithoutPort o port hostStatus then inner key flag else .ok (none,flag)
  return (verdictOf env conn o flag readonly hostStatus
    (ipStatusOf env ipHostkeys hostStatus key) found key,flag)

def Verdict.accepted : Verdict → Option SshKey
  | .accept key => some key
  | .fail _ => none

def strictCallWith (inner : StrictCall) (port : UInt16) (readonly : Readonly) (host ip : Bytes)
    : StrictCall :=
  fun key flag => do
    let flag := flag && comparesAddress conn o ip
    let hostHostkeys := loadAll env host conn.hostfiles
    let ipHostkeys :=
      if !sshkeyIsCert key && flag then some (loadAll env ip conn.hostfiles) else none
    let (verdict,flag) ←
      strictPass env conn o inner port readonly hostHostkeys ipHostkeys key flag
    match verdict with
    | .accept k => return (some k,flag)
    | .fail hostStatus =>
      if sshkeyIsCert key && hostStatus ≠ .revoked then
        let raw ← rawKey key
        let (verdict,flag) ←
          strictPass env conn o inner port readonly hostHostkeys ipHostkeys raw flag
        return (verdict.accepted,flag)
      else return (none,flag)

def strictCallWithoutPort (host ip : Bytes) : StrictCall :=
  strictCallWith env conn o (fun _ flag => .ok (none,flag)) 0 .roquiet host ip

end

section

variable {env : Env} {conn : Connection}

lemma Framed.refl (o : Options) : Framed o o := rfl

variable {o o' : Options} {host ip : Bytes} {readonly : Readonly} {st : State}

lemma Framed.trans {o'' : Options} (h : Framed o o') (h' : Framed o' o'') : Framed o o'' := by
  rw [Framed] at h h' ⊢
  rw [h',h]

lemma Framed.strict (h : Framed o o') (hs : o.Strict) : o'.Strict := by
  rw [h]
  exact hs

lemma addNewHost_options (host ip : Bytes) (ipStatus : HostStatus) (key : SshKey) (st : State) :
    (addNewHost conn host ip ipStatus key st).options = st.options := by
  rw [addNewHost]
  split_ifs <;> rfl

lemma checkAddress_spec {host ip : Bytes} {hostStatus ipStatus : HostStatus} {trusted : Bool}
    {key accepted : SshKey} {st : State} (hs : st.options.Strict) (hc : hostStatus ≠ .changed) :
    ∃ st', checkAddress conn host ip hostStatus ipStatus trusted key accepted st =
        (if st.options.checkHostIp && ipStatus = .changed then .fail hostStatus
          else .accept accepted,st') ∧
      Framed st.options st'.options ∧ st'.options.checkHostIp = st.options.checkHostIp := by
  have hrefused : (match st.options.strictHostKeyChecking with
      | .ask => !conn.confirm (.addressDiffers host ip key)
      | .off => false
      | _ => true) = true := by
    rcases hs with hs | hs <;> rw [hs]
  rw [checkAddress]
  simp only [hrefused,hc,ne_eq,not_false_eq_true,decide_true,Bool.and_true]
  split
  · exact ⟨st,rfl,.refl _,rfl⟩
  · cases trusted with
    | true => exact ⟨st,rfl,.refl _,rfl⟩
    | false => exact ⟨_,rfl,rfl,rfl⟩

lemma judge_spec {hostStatus ipStatus : HostStatus} {found : Option SshKey} {key : SshKey}
    (hs : st.options.Strict) (hfound : hostStatus ≠ .found) :
    ∃ st', judge env conn host ip readonly hostStatus ipStatus found key st =
        .ok (verdictOf env conn st.options st.options.checkHostIp readonly hostStatus ipStatus
          found key,st') ∧
      Framed st.options st'.options ∧ st'.options.checkHostIp = st.options.checkHostIp := by
  have hoff : st.options.strictHostKeyChecking ≠ .off := by
    rcases hs with hs | hs <;> rw [hs] <;> decide
  cases hostStatus with
  | ok =>
    simp only [judge,verdictOf]
    by_cases hcert : (sshkeyIsCert key && !certAccepted env conn st.options key) = true
    · simp only [hcert]
      exact ⟨st,rfl,.refl _,rfl⟩
    · have hcert' := Bool.eq_false_of_not_eq_true hcert
      simp only [hcert',Bool.false_eq_true,if_false]
      split
      · obtain ⟨st',heq,hframe⟩ := @checkAddress_spec conn host ip .ok _ true key key
          (addHostToHostfile ip key st) hs (by decide)
        exact ⟨st',congrArg _ heq,hframe⟩
      · obtain ⟨st',heq,hframe⟩ := @checkAddress_spec conn host ip .ok _ true key key
          st hs (by decide)
        exact ⟨st',congrArg _ heq,hframe⟩
  | new =>
    simp only [judge,verdictOf]
    cases found with
    | some k =>
      obtain ⟨st',heq,hframe⟩ := @checkAddress_spec conn host ip .new _ false key k st hs
        (by decide)
      exact ⟨st',congrArg _ heq,hframe⟩
    | none =>
      by_cases hro : (decide (readonly ≠ .rdrw) || sshkeyIsCert key) = true
      · simp only [hro]
        exact ⟨st,rfl,.refl _,rfl⟩
      · have hro' := Bool.eq_false_of_not_eq_true hro
        simp only [hro']
        rcases hs with hyes | hnew
        · simp only [hyes]
          exact ⟨st,rfl,.refl _,rfl⟩
        · have hopt := @addNewHost_options conn host ip ipStatus key st
          obtain ⟨st',heq,hframe⟩ := @checkAddress_spec conn host ip .new _ false key key
            (addNewHost conn host ip ipStatus key st) (hopt ▸ .inr hnew) (by decide)
          rw [hopt] at heq hframe
          simp only [hnew]
          exact ⟨st',congrArg Except.ok heq,hframe⟩
  | revoked =>
    rw [judge]
    simp only [if_pos hoff]
    exact ⟨st,rfl,.refl _,rfl⟩
  | changed =>
    rw [judge]
    simp only [ne_eq,hoff,not_false_eq_true,decide_true,Bool.or_true]
    exact ⟨st,rfl,.refl _,rfl⟩
  | found => exact absurd rfl hfound

lemma checkKeyInHostkeys_ne_found {hostkeys : List HostkeyEntry} {k : SshKey} :
    (checkKeyInHostkeys env hostkeys k).1 ≠ .found := by
  cases hk : sshkeyIsCert k with
  | true =>
    rw [checkKeyInHostkeys_cert hk]
    split_ifs <;> decide
  | false =>
    rw [checkKeyInHostkeys_plain hk]
    split_ifs <;> decide

lemma verdictOf_framed (h : Framed o o') : verdictOf env conn o' = verdictOf env conn o := by
  rw [h]
  rfl

/-- A computation over states does what one over flags says. -/
def Simulates {α : Type} (o : Options) (x : Except Stop (α × State))
    (y : Except Stop (α × Bool)) : Prop :=
  match y with
  | .error e => x = .error e
  | .ok (a,flag) =>
    ∃ st, x = .ok (a,st) ∧ Framed o st.options ∧ st.options.checkHostIp = flag

lemma Simulates.ok {α : Type} {a : α} (h : Framed o st.options) :
    Simulates o (.ok (a,st)) (.ok (a,st.options.checkHostIp)) :=
  ⟨st,rfl,h,rfl⟩

lemma Simulates.bind {α β : Type} {x : Except Stop (α × State)} {y : Except Stop (α × Bool)}
    {f : α × State → Except Stop (β × State)} {g : α × Bool → Except Stop (β × Bool)}
    (h : Simulates o x y)
    (hstep : ∀ a st, Framed o st.options → Simulates o (f (a,st)) (g (a,st.options.checkHostIp))) :
    Simulates o (x >>= f) (y >>= g) := by
  match y, h with
  | .error e, h => rw [h]; rfl
  | .ok (a,_), ⟨st,h,hframe,rfl⟩ =>
    rw [h]
    exact hstep a st hframe

def Simulated (o : Options) (call : HostKeyCall) (strict : StrictCall) : Prop :=
  ∀ key st, Framed o st.options →
    Simulates o (call key st) (strict key st.options.checkHostIp)

lemma pass_simulates (hs : o.Strict) {inner : HostKeyCall} {strict : StrictCall}
    (hinner : Simulated o inner strict) {port : UInt16} {hostHostkeys : List HostkeyEntry}
    {ipHostkeys : Option (List HostkeyEntry)} {key : SshKey} (hframe : Framed o st.options) :
    Simulates o (pass env conn inner port readonly host ip hostHostkeys ipHostkeys key st)
      (strictPass env conn o strict port readonly hostHostkeys ipHostkeys key
        st.options.checkHostIp) := by
  have htries : ∀ status,
      triesWithoutPort st.options port status = triesWithoutPort o port status := by
    rw [hframe]
    exact fun _ => rfl
  have hjudge : ∀ found st, Framed o st.options →
      Simulates o (judge env conn host ip readonly (checkKeyInHostkeys env hostHostkeys key).1
          (ipStatusOf env ipHostkeys (checkKeyInHostkeys env hostHostkeys key).1 key) found key st)
        (.ok (verdictOf env conn o st.options.checkHostIp readonly
          (checkKeyInHostkeys env hostHostkeys key).1
          (ipStatusOf env ipHostkeys (checkKeyInHostkeys env hostHostkeys key).1 key) found key,
          st.options.checkHostIp)) := by
    intro found st hframe
    obtain ⟨st',hjudge,hframe',hflag⟩ := judge_spec (hframe.strict hs) checkKeyInHostkeys_ne_found
    rw [verdictOf_framed hframe] at hjudge
    exact ⟨st',hjudge,hframe.trans hframe',hflag⟩
  simp only [pass,strictPass,htries]
  split
  · exact Simulates.bind (hinner key st hframe) hjudge
  · exact Simulates.bind (.ok hframe) hjudge

lemma checkHostKeyWith_simulates (hs : o.Strict) (hexempt : exempt conn o = false)
    {inner : HostKeyCall} {strict : StrictCall} (hinner : Simulated o inner strict) {port : UInt16}
    (hnames : getHostfileHostnameIpaddr o conn port = .ok (host,ip)) :
    Simulated o (checkHostKeyWith env conn inner port readonly)
      (strictCallWith env conn o strict port readonly host ip) := by
  intro key st hframe
  have hexempt' : exempt conn st.options = false := by
    rw [hframe]
    exact hexempt
  have hnames' : getHostfileHostnameIpaddr st.options conn port = .ok (host,ip) := by
    rw [hframe]
    exact hnames
  have hcompares : comparesAddress conn st.options ip = comparesAddress conn o ip := by
    rw [hframe]
    rfl
  simp only [checkHostKeyWith,strictCallWith,hexempt',hnames',ok_bind,hcompares]
  have hframe0 : ∀ flag, Framed o { st.options with checkHostIp := flag } := by
    rw [hframe]
    exact fun _ => rfl
  refine Simulates.bind (pass_simulates hs hinner (hframe0 _)) fun verdict st1 hframe1 => ?_
  cases verdict with
  | accept k => exact .ok hframe1
  | fail hostStatus =>
    dsimp only
    split
    · cases rawKey key with
      | error e => rfl
      | ok raw =>
        refine Simulates.bind (pass_simulates hs hinner hframe1) fun verdict st2 hframe2 => ?_
        cases verdict with
        | accept k => exact .ok hframe2
        | fail status => exact .ok hframe2
    · exact .ok hframe1

/-- The names and addresses of a call and of the call without the port. -/
structure Names (conn : Connection) (o : Options) (port : UInt16) (host ip host0 ip0 : Bytes) :
    Prop where
  withPort : getHostfileHostnameIpaddr o conn port = .ok (host,ip)
  withoutPort : getHostfileHostnameIpaddr o conn 0 = .ok (host0,ip0)

lemma checkHostKey_simulates {o : Options} (hs : o.Strict) (hexempt : exempt conn o = false)
    {port : UInt16} {host ip host0 ip0 : Bytes} (hnames : Names conn o port host ip host0 ip0)
    (readonly : Readonly) : Simulated o (checkHostKey env conn port readonly)
      (strictCallWith env conn o (strictCallWithoutPort env conn o host0 ip0) port readonly
        host ip) := by
  refine checkHostKeyWith_simulates hs hexempt ?_ hnames.withPort
  refine checkHostKeyWith_simulates hs hexempt (fun key st hframe => ?_) hnames.withoutPort
  exact .ok hframe

end

end PkixSsh.Hostfile
