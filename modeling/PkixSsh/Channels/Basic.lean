import PkixSsh.Sshbuf.Basic

/-!
# Channels and their two state machines

The record of a channel and the functions of `nchan.c`, which close its two halves and send EOF, EOW
and CLOSE on the way. A side is the record with what it has sent.
-/

namespace PkixSsh.Channels

inductive ChannelType
  | x11Listener | portListener | opening | opened | closed | authSocket | x11Open | larval
  | rportListener | connecting | dynamic | zombie | muxListener | muxClient | abandoned
  | unixListener | runixListener | muxProxy | rdynamicOpen | rdynamicFinish
  deriving DecidableEq

inductive InputState
  | opened | waitDrain | waitOclose | closed
  deriving DecidableEq

inductive OutputState
  | opened | waitDrain | waitIeof | closed
  deriving DecidableEq

inductive ExtendedUsage
  | ignore | read | write
  deriving DecidableEq

/-- The messages of one channel; `eow` is the channel request `eow@openssh.com`, `request` any
other one. -/
inductive Msg
  | openRequest (window maxpacket : UInt32)
  | openConfirmation (window maxpacket : UInt32)
  | openFailure
  | data (v : Bytes)
  | extendedData (tcode : UInt32) (v : Bytes)
  | windowAdjust (adjust : UInt32)
  | eof
  | eow
  | request (rtype : String)
  | close
  deriving DecidableEq

structure EscapeFilter where
  escapePending : Bool
  escapeChar : UInt8

/-- `struct Channel`. A descriptor that is -1 is `none`, and the bits of `flags` are fields.
`inputFilter` is the context of the escape filter, if that is registered. -/
structure Channel where
  type : ChannelType
  haveRemoteId : Bool
  istate : InputState
  ostate : OutputState
  closeSent : Bool
  closeRcvd : Bool
  eofSent : Bool
  eofRcvd : Bool
  isLocal : Bool
  socks5Authdone : Bool
  rfd : Option Nat
  wfd : Option Nat
  efd : Option Nat
  sock : Option Nat
  ctlChan : Option Nat
  isatty : Bool
  forceDrain : Bool
  input : Bytes
  output : Bytes
  extended : Bytes
  remoteWindow : UInt32
  remoteMaxpacket : UInt32
  localWindow : UInt32
  localWindowMax : UInt32
  localConsumed : UInt32
  localMaxpacket : UInt32
  extendedUsage : ExtendedUsage
  ctype : String
  detachUser : Bool
  detachClose : Bool
  inputFilter : Option EscapeFilter
  datagram : Bool

structure Compat where
  newOpenssh : Bool
  bugExteof : Bool

/-- The ends of a process: `fatal` and `ssh_packet_disconnect`. -/
inductive Stop
  | fatal | disconnect

/-- One end of a channel: its record, what it has sent, and whether `channel_free` was called. -/
structure Side where
  c : Channel
  sent : List Msg
  freed : Bool

namespace Side

def on (f : Channel → Channel) (s : Side) : Side := { s with c := f s.c }

def callIf (s : Side) (p : Prop) [Decidable p] (f : Side → Except Stop Side) : Except Stop Side :=
  if p then f s else .ok s

def push (m : Msg) (s : Side) : Side := { s with sent := s.sent ++ [m] }

/-- The same behind the check of `have_remote_id`. -/
def send (m : Msg) (s : Side) : Except Stop Side :=
  if s.c.haveRemoteId then .ok (s.push m) else .error .fatal

lemma send_ok {m : Msg} {s s' : Side} (h : s.send m = .ok s') : s' = s.push m := by
  unfold send at h
  split at h
  · cases h
    rfl
  · cases h

end Side

variable (c : Channel)

def channelEfdInputActive : Prop :=
  c.extendedUsage = .read ∧ (c.efd ≠ none ∨ c.extended ≠ [])

def channelEfdOutputActive : Prop :=
  c.extendedUsage = .write ∧ c.efd ≠ none ∧
    (¬ (c.eofRcvd ∨ c.closeRcvd) ∨ c.extended ≠ [])

instance (c : Channel) : Decidable (channelEfdInputActive c) :=
  inferInstanceAs (Decidable (_ ∧ _))

instance (c : Channel) : Decidable (channelEfdOutputActive c) :=
  inferInstanceAs (Decidable (_ ∧ _))

/-- `chan_shutdown_write`; a socket stays open with its writing half shut down. -/
def chanShutdownWrite : Channel :=
  let c := { c with output := [] }
  if c.type = .larval then c
  else if c.sock ≠ none then c
  else { c with wfd := none }

def chanShutdownRead : Channel :=
  if c.type = .larval then c
  else if c.sock ≠ none then c
  else { c with rfd := none }

def chanShutdownExtendedRead : Channel :=
  if c.type = .larval ∨ c.efd = none then c
  else if c.extendedUsage ≠ .read ∧ c.extendedUsage ≠ .ignore then c
  else { c with efd := none }

def chanSendEof2 (s : Side) : Except Stop Side :=
  match s.c.istate with
  | .waitDrain => do
    let s ← s.send .eof
    return s.on fun c => { c with eofSent := true }
  | _ => .ok s

def chanSendClose2 (s : Side) : Except Stop Side :=
  if s.c.ostate ≠ .closed ∨ s.c.istate ≠ .closed then .ok s
  else if s.c.closeSent then .ok s
  else do
    let s ← s.send .close
    return s.on fun c => { c with closeSent := true }

def chanSendEow2 (k : Compat) (s : Side) : Except Stop Side :=
  if s.c.ostate = .closed then .ok s
  else if !k.newOpenssh then .ok s
  else s.send .eow

def chanReadFailed : Channel :=
  match c.istate with
  | .opened => { chanShutdownRead c with istate := .waitDrain }
  | _ => c

def chanIbufEmpty (s : Side) : Except Stop Side :=
  if s.c.input ≠ [] then .ok s
  else
    match s.c.istate with
    | .waitDrain => do
      let s ← s.callIf (¬ (s.c.closeSent ∨ s.c.isLocal)) chanSendEof2
      return s.on fun c => { c with istate := .closed }
    | _ => .ok s

def chanObufEmpty : Channel :=
  if c.output ≠ [] then c
  else
    match c.ostate with
    | .waitDrain => { chanShutdownWrite c with ostate := .closed }
    | _ => c

def chanRcvdEow : Channel :=
  match c.istate with
  | .opened => { chanShutdownRead c with istate := .closed }
  | _ => c

/-- Received data is still to be written when the peer has ended its own. -/
def chanStartDrain : Channel :=
  if c.ostate = .opened then { c with ostate := .waitDrain } else c

def chanRcvdIeof : Channel :=
  let c := chanStartDrain { c with eofRcvd := true }
  if c.ostate = .waitDrain ∧ c.output = [] ∧ ¬ channelEfdOutputActive c then chanObufEmpty c
  else c

def chanRcvdOclose (s : Side) : Except Stop Side :=
  let s := s.on fun c => { c with closeRcvd := c.closeRcvd || !c.isLocal }
  if s.c.type = .larval then
    .ok (s.on fun c => { c with ostate := .closed, istate := .closed })
  else
    let s := s.on chanStartDrain
    match s.c.istate with
    | .opened =>
      .ok (s.on fun c =>
        { chanShutdownExtendedRead (chanShutdownRead c) with istate := .closed })
    | .waitDrain => do
      let s ← s.callIf (¬ s.c.isLocal) chanSendEof2
      return s.on fun c => { chanShutdownExtendedRead c with istate := .closed }
    | _ => .ok s

def chanWriteFailed (k : Compat) (s : Side) : Except Stop Side :=
  match s.c.ostate with
  | .opened | .waitDrain => do
    let s := s.on chanShutdownWrite
    let s ← s.callIf (s.c.ctype = "session") (chanSendEow2 k)
    return s.on fun c => { c with ostate := .closed }
  | _ => .ok s

def chanMarkDead : Channel := { c with type := .zombie }

def chanIsDead (k : Compat) (doSend : Bool) (s : Side) : Except Stop (Bool × Side) :=
  if s.c.type = .zombie then .ok (true,s)
  else if s.c.istate ≠ .closed ∨ s.c.ostate ≠ .closed then .ok (false,s)
  else if k.bugExteof ∧ s.c.extendedUsage = .write ∧ s.c.efd ≠ none ∧ s.c.extended ≠ [] then
    .ok (false,s)
  else if s.c.isLocal then .ok (true,s)
  else if ¬ s.c.closeSent ∧ ¬ doSend ∧ s.c.closeRcvd then .ok (true,s)
  else do
    let s ← s.callIf (¬ s.c.closeSent ∧ doSend) chanSendClose2
    return (s.c.closeSent && s.c.closeRcvd,s)

end PkixSsh.Channels
