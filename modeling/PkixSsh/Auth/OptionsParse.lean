import Mathlib.Tactic.Common
import PkixSsh.Auth.Options

/-!
# Options in front of a key

`sshauthopt_parse` and `sshkey_advance_past_options`. A pointer into the line is what is left of it;
where the parser keeps its pointer to itself the model returns it.
-/

namespace PkixSsh.Auth

def quote : UInt8 := 34

def advanceLoop : Bool → Bytes → Bool × Bytes
  | quoted, [] => (quoted,[])
  | quoted, [c] =>
    if !quoted && isBlank c then (quoted,[c])
    else (if c = quote then !quoted else quoted,[])
  | quoted, c :: d :: s =>
    if !quoted && isBlank c then (quoted,c :: d :: s)
    -- an escaped quote is skipped with its backslash
    else if c = backslash ∧ d = quote then advanceLoop quoted s
    else advanceLoop (if c = quote then !quoted else quoted) (d :: s)

/-- `sshkey_advance_past_options`: the updated pointer, and whether it returns success. -/
def sshkeyAdvancePastOptions (cp : Bytes) : Bytes × Bool :=
  let (quoted,cp) := advanceLoop false cp
  (cp,!(cp.isEmpty && quoted))

/-- What the parser asks the system: the seconds of a local date, and the port of a service. -/
structure ParseEnv where
  parseAbsoluteTime : Bytes → Option UInt64
  getservbyname : Bytes → Option Nat

/-- `strncasecmp` finds the whole of the term in front of the text. -/
def startsWithTerm (term opts : Bytes) : Bool := strncasecmp term.length (opts ++ [0]) term = 0

variable (env : ParseEnv) (s : Bytes) (ret : SshAuthOpt) (opt : Bytes)

/-- `opt_flag`: the flag, and the text behind it; none where it returns `-1`. -/
def optFlag (allowNegate : Bool) (opts : Bytes) : Option (Int32 × Bytes) :=
  if allowNegate && startsWithTerm (cstr "no-") opts then
    if startsWithTerm opt (opts.drop 3) then some (0,(opts.drop 3).drop opt.length) else none
  else if startsWithTerm opt opts then some (1,opts.drop opt.length) else none

def optMatch (term opts : Bytes) : Option Bytes :=
  if startsWithTerm term opts ∧ opts[term.length]? = some 61 then
    some (opts.drop (term.length + 1))
  else none

/-- The loop of `opt_dequote`: the value and the text behind the closing quote. -/
def dequoteLoop : Bytes → Option (Bytes × Bytes)
  | [] => none
  | [c] => if c = quote then some ([],[]) else none
  | c :: d :: s =>
    if c = quote then some ([],d :: s)
    else if c = backslash ∧ d = quote then
      (dequoteLoop s).map fun (ret,s) => (quote :: ret,s)
    else (dequoteLoop (d :: s)).map fun (ret,s) => (c :: ret,s)

def optDequote : Bytes → Except String (Bytes × Bytes)
  | [] => .error "missing start quote"
  | c :: s =>
    if c ≠ quote then .error "missing start quote"
    else
      match dequoteLoop s with
      | none => .error "missing end quote"
      | some r => .ok r

def isalnum (c : UInt8) : Bool := isdigit c || (97 ≤ tolower c && tolower c ≤ 122)

/-- `strtoll` to the base ten of a text that is all number. The callers' bounds lie inside
the range of its type. -/
def strtollAll : Option Int :=
  let s := s.dropWhile isspace
  let (negative,digits) :=
    match s with
    | 45 :: s => (true,s)
    | 43 :: s => (false,s)
    | s => (false,s)
  if digits.isEmpty || digits.any (fun c => !isdigit c) then none
  else
    let n : Nat := digits.foldl (fun n c => n * 10 + (c.toNat - 48)) 0
    some (if negative then -n else n)

def strtonum (maxval : Nat) : Option Nat :=
  match strtollAll s with
  | none => none
  | some ll => if ll < 0 ∨ ll > maxval then none else some ll.toNat

def a2port : Option Nat := (strtonum s 65535).or (env.getservbyname s)

def sshTunidAny : Int32 := 0x7fffffff

def sshTunidErr : Int32 := 0x7ffffffe

def a2tun : Int32 :=
  if s.map tolower = cstr "any" then sshTunidAny
  else
    match strtonum s 0x7ffffffd with
    | none => sshTunidErr
    | some tun => Int32.ofNat tun

def hpdelim (cp : Bytes) : Option (Bytes × Option Bytes) :=
  let isDelim (c : UInt8) : Bool := c = 58 || c = 47
  if cp.head? = some 91 then
    if 93 ∈ cp then
      let host := cp.takeWhile (· ≠ 93) ++ [93]
      match cp.drop host.length with
      | [] => some (host,none)
      | c :: s => if isDelim c then some (host,some s) else none
    else none
  else
    match cp.dropWhile (!isDelim ·) with
    | [] => some (cp,none)
    | _ :: s => some (cp.takeWhile (!isDelim ·),some s)

def validEnvName (name : Bytes) : Bool := !name.isEmpty && name.all fun c => isalnum c || c = 95

def sshAuthoptPermitMax : Nat := 4096

/-- What `handle_permit` checks of a permission, with a wildcard in front of a bare port. -/
def checkPermit (allowBarePort : Bool) (opt : Bytes) : Except String Bytes :=
  let opt := if allowBarePort && 58 ∉ opt then cstr "*:" ++ opt else opt
  match hpdelim opt with
  | none => .error "invalid permission hostname"
  | some (host,cp) =>
    if host.length ≥ niMaxhost then .error "invalid permission hostname"
    else
      match cp with
      | none => .error "invalid permission port"
      | some port =>
        if port ≠ cstr "*" ∧ (a2port env port).getD 0 = 0 then .error "invalid permission port"
        else .ok opt

/-- The options so far, and the error text for a failure that sets none: a value taken out of its
quotes clears it. -/
structure ParseState where
  ret : SshAuthOpt
  errstr : Option String

/-- What is made of the text behind the name of an option. -/
abbrev Handler := ParseState → Bytes → Except (Option String) (ParseState × Bytes)

/-- A branch of the parser, none if the option has another name. -/
abbrev Branch := ParseState → Bytes → Option (Except (Option String) (ParseState × Bytes))

def flagOption (opt : String) (allowNegate : Bool) (set : Int32 → SshAuthOpt → SshAuthOpt) :
    Branch := fun st opts =>
  (optFlag (cstr opt) allowNegate opts).map fun (r,opts) =>
    .ok ({ st with ret := set r st.ret },opts)

def matchOption (term : String) (handle : Handler) : Branch := fun st opts =>
  (optMatch (cstr term) opts).map (handle st)

def quoted (store : SshAuthOpt → Bytes → Except String SshAuthOpt) : Handler := fun st opts =>
  match optDequote opts with
  | .error e => .error (some e)
  | .ok (opt,opts) =>
    match store st.ret opt with
    | .error e => .error (some e)
    | .ok ret => .ok ({ ret := ret, errstr := none },opts)

def quotedOnce (name : String) (old : SshAuthOpt → Option Bytes)
    (set : SshAuthOpt → Bytes → SshAuthOpt) : Handler := fun st opts =>
  if old st.ret ≠ none then .error (some ("multiple \"" ++ name ++ "\" clauses"))
  else quoted (fun ret opt => .ok (set ret opt)) st opts

def storeExpiryTime : Except String SshAuthOpt :=
  match env.parseAbsoluteTime opt with
  | none => .error "invalid expires time"
  | some validBefore =>
    if validBefore = 0 then .error "invalid expires time"
    else if ret.validBefore = 0 ∨ validBefore < ret.validBefore then
      .ok { ret with validBefore := validBefore }
    else .ok ret

def storeEnvironment : Except String SshAuthOpt :=
  if 61 ∉ opt then .error "invalid environment string"
  else if !validEnvName (opt.takeWhile (· ≠ 61)) then .error "invalid environment string"
  else .ok { ret with env := ret.env ++ [opt] }

def handleEnvironment : Handler := fun st opts =>
  if st.ret.env.length > intMax then .error (some "too many environment strings")
  else quoted storeEnvironment st opts

/-- `handle_permit`. The error of a value that is not quoted stays its own, and the caller
reports what it had before. -/
def handlePermit (allowBarePort : Bool) (permits : SshAuthOpt → List Bytes)
    (set : SshAuthOpt → List Bytes → SshAuthOpt) : Handler := fun st opts =>
  if (permits st.ret).length > sshAuthoptPermitMax then
    .error (some "too many permission directives")
  else
    match optDequote opts with
    | .error _ => .error st.errstr
    | .ok (opt,opts) =>
      match checkPermit env allowBarePort opt with
      | .error e => .error (some e)
      | .ok opt => .ok ({ st with ret := set st.ret (permits st.ret ++ [opt]) },opts)

def storeTunnel : Except String SshAuthOpt :=
  if a2tun opt = sshTunidErr then .error "invalid tun device"
  else .ok { ret with forceTunDevice := a2tun opt }

/-- The branches of `sshauthopt_parse`, in their order. -/
def optionBranches : List Branch := [
  flagOption "restrict" false fun _ ret =>
    { ret with
      restricted := 1
      permitPortForwardingFlag := 0
      permitAgentForwardingFlag := 0
      permitX11ForwardingFlag := 0
      permitPtyFlag := 0
      permitUserRc := 0 },
  flagOption "cert-authority" false fun r ret => { ret with certAuthority := r },
  flagOption "port-forwarding" true fun r ret => { ret with permitPortForwardingFlag := r },
  flagOption "agent-forwarding" true fun r ret => { ret with permitAgentForwardingFlag := r },
  flagOption "x11-forwarding" true fun r ret => { ret with permitX11ForwardingFlag := r },
  flagOption "pty" true fun r ret => { ret with permitPtyFlag := r },
  flagOption "user-rc" true fun r ret => { ret with permitUserRc := r },
  matchOption "command" (quotedOnce "command" SshAuthOpt.forceCommand
    fun ret opt => { ret with forceCommand := some opt }),
  matchOption "principals" (quotedOnce "principals" SshAuthOpt.certPrincipals
    fun ret opt => { ret with certPrincipals := some opt }),
  matchOption "from" (quotedOnce "from" SshAuthOpt.requiredFromHostKeys
    fun ret opt => { ret with requiredFromHostKeys := some opt }),
  matchOption "expiry-time" (quoted (storeExpiryTime env)),
  matchOption "environment" handleEnvironment,
  matchOption "permitopen" (handlePermit env false SshAuthOpt.permitopen
    fun ret permits => { ret with permitopen := permits }),
  matchOption "permitlisten" (handlePermit env true SshAuthOpt.permitlisten
    fun ret permits => { ret with permitlisten := permits }),
  matchOption "tunnel" (quoted storeTunnel)]

/-- One option. An unknown name is not consumed, which the loop then reports. -/
def parseOption (st : ParseState) (opts : Bytes) : Except (Option String) (ParseState × Bytes) :=
  ((optionBranches env).findSome? fun branch => branch st opts).getD (.ok (st,opts))

def atEnd (opts : Bytes) : Bool := (opts.head?.map isBlank).getD true

def parseLoop (env : ParseEnv) : Nat → ParseState → Bytes →
    Except (Option String) (SshAuthOpt × Bytes)
  | 0, st, _ => .error st.errstr
  | n + 1, st, opts =>
    if atEnd opts then .ok (st.ret,opts)
    else
      match parseOption env st opts with
      | .error e => .error e
      | .ok (st,opts) =>
        if atEnd opts then .ok (st.ret,opts)
        else
          match opts with
          | [] => .error st.errstr
          | c :: opts =>
            if c ≠ comma then .error (some "unknown key option")
            else if opts = [] then .error (some "unexpected end-of-options")
            else parseLoop env n st opts

/-- `sshauthopt_parse`. Every round of its loop takes a comma at least. -/
def sshauthoptParse (opts : Option Bytes) : Except (Option String) (SshAuthOpt × Bytes) :=
  let st : ParseState := { ret := sshauthoptNewWithKeysDefaults, errstr := some "unknown error" }
  match opts with
  | none => .ok (st.ret,[])
  | some opts => parseLoop env (opts.length + 1) st opts

end PkixSsh.Auth
