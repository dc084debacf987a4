import PkixSsh.Libc

/-!
# Key options

`struct sshauthopt` of `auth-options.c`, and how the options of two sources are merged. Pointers
that may be null are options, and an array with its count is a list.
-/

namespace PkixSsh.Auth

def intMax : Nat := 0x7fffffff

structure SshAuthOpt where
  permitPortForwardingFlag : Int32
  permitAgentForwardingFlag : Int32
  permitX11ForwardingFlag : Int32
  permitPtyFlag : Int32
  permitUserRc : Int32
  restricted : Int32
  validBefore : UInt64
  certAuthority : Int32
  certPrincipals : Option Bytes
  forceTunDevice : Int32
  forceCommand : Option Bytes
  env : List Bytes
  permitopen : List Bytes
  permitlisten : List Bytes
  requiredFromHostCert : Option Bytes
  requiredFromHostKeys : Option Bytes
  deriving DecidableEq

def sshauthoptNew : SshAuthOpt where
  permitPortForwardingFlag := 0
  permitAgentForwardingFlag := 0
  permitX11ForwardingFlag := 0
  permitPtyFlag := 0
  permitUserRc := 0
  restricted := 0
  validBefore := 0
  certAuthority := 0
  certPrincipals := none
  forceTunDevice := -1
  forceCommand := none
  env := []
  permitopen := []
  permitlisten := []
  requiredFromHostCert := none
  requiredFromHostKeys := none

def sshauthoptNewWithKeysDefaults : SshAuthOpt :=
  { sshauthoptNew with
    permitPortForwardingFlag := 1
    permitAgentForwardingFlag := 1
    permitX11ForwardingFlag := 1
    permitPtyFlag := 1
    permitUserRc := 1 }

def optflagAnd (primary additional : Int32) : Int32 := if primary = 1 ∧ additional = 1 then 1 else 0

def preferStrings (primary additional : List Bytes) : List Bytes :=
  if primary ≠ [] then primary else additional

/-- The expiry times are compared with that of the result so far, which is still zero where
the primary options have none. -/
def mergeValidBefore (primary additional : UInt64) : UInt64 :=
  if additional ≠ 0 ∧ additional < primary then additional else primary

def mergeForceCommand : Option Bytes → Option Bytes → Except String (Option Bytes)
  | some primary, some additional =>
    if primary = additional then .ok (some primary)
    else .error "forced command options do not match"
  | some primary, none => .ok (some primary)
  | none, additional => .ok additional

/-- `sshauthopt_merge`, with the error text of a null result. -/
def sshauthoptMerge (primary additional : SshAuthOpt) : Except String SshAuthOpt := do
  let forceCommand ← mergeForceCommand primary.forceCommand additional.forceCommand
  return { sshauthoptNew with
    requiredFromHostCert := primary.requiredFromHostCert.or additional.requiredFromHostCert
    requiredFromHostKeys := primary.requiredFromHostKeys.or additional.requiredFromHostKeys
    forceTunDevice :=
      if primary.forceTunDevice = -1 then additional.forceTunDevice else primary.forceTunDevice
    env := preferStrings primary.env additional.env
    permitopen := preferStrings primary.permitopen additional.permitopen
    permitlisten := preferStrings primary.permitlisten additional.permitlisten
    permitPortForwardingFlag :=
      optflagAnd primary.permitPortForwardingFlag additional.permitPortForwardingFlag
    permitAgentForwardingFlag :=
      optflagAnd primary.permitAgentForwardingFlag additional.permitAgentForwardingFlag
    permitX11ForwardingFlag :=
      optflagAnd primary.permitX11ForwardingFlag additional.permitX11ForwardingFlag
    permitPtyFlag := optflagAnd primary.permitPtyFlag additional.permitPtyFlag
    permitUserRc := optflagAnd primary.permitUserRc additional.permitUserRc
    validBefore := mergeValidBefore primary.validBefore additional.validBefore
    forceCommand := forceCommand }

end PkixSsh.Auth
