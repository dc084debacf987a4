import PkixSsh.Lib.Machine
import PkixSsh.Channels.Escapes
import PkixSsh.Channels.Opening

/-!
# The handlers of a channel

The functions of `channels.c` around `select` and for messages, with the results of the system calls
as arguments, and the machine whose steps they are.
-/

namespace PkixSsh.Channels

open Sshbuf

def extendedDataStderr : UInt32 := 1

/-- The result of `read`: EINTR, EAGAIN, another error, or bytes (none at the end). -/
inductive Read
  | intr | again | failed | got (v : Bytes)

/-- The result of `write`: EINTR or EAGAIN, another error, or how much was written. -/
inductive Write
  | again | failed | wrote (len : Nat)

/-- The end of a connect: done, failed with another address to try, or failed for good. -/
inductive Connect
  | connected | next (sock : Nat) | failed

/-- The descriptors that are set and the results of the calls of a post handler. `lastWasCr` is a
static variable. -/
structure Io where
  rset : Bool
  wset : Bool
  eset : Bool
  rfd : Read
  wfd : Write
  efdRead : Read
  efdWrite : Write
  connect : Connect
  lastWasCr : Bool
  console : Console

def Io.idle : Io :=
  { rset := false, wset := false, eset := false, rfd := .again, wfd := .again, efdRead := .again
    efdWrite := .again, connect := .failed, lastWasCr := false, console := ⟨false,[],[],[],false⟩ }

def channelPreOpen (c : Channel) : Channel :=
  if c.ostate = .waitDrain ∧ c.output = [] ∧ ¬ channelEfdOutputActive c then chanObufEmpty c
  else c

variable (k : Compat)

/-- The steps that simulate a read error and a write error on a channel that is not open yet. -/
def refuse (s : Side) : Except Stop Side := do
  let s := s.on chanReadFailed
  let s ← chanIbufEmpty (s.on fun c => { c with input := [] })
  chanWriteFailed k (s.on fun c => { c with output := [] })

def channelPreX11Open (x : X11) (s : Side) : Except Stop Side :=
  match x11OpenHelper x s.c.output with
  | (.done,output) => .ok (s.on fun c => channelPreOpen { c with output, type := .opened })
  | (.bad,_) => refuse k s
  | (.more,_) => .ok s

def channelPreDynamic (s : Side) : Except Stop Side :=
  if s.c.input.length < 3 then .ok s
  else do
    let (authdone,ret,input,reply) := channelDecodeSocks s.c.socks5Authdone s.c.input
    let s := s.on fun c => { c with socks5Authdone := authdone, input }
    let s ← s.putOutput reply
    match ret with
    | .bad => return s.on chanMarkDead
    | .more => return s
    | .done =>
      let s := s.on fun c => { c with type := .opening }
      return s.push (.openRequest s.c.localWindow s.c.localMaxpacket)

def rdynamicClose (s : Side) : Except Stop Side :=
  refuse k (s.on fun c => { c with type := .opened })

/-- `channel_register_fds`; one descriptor for both directions is a socket. -/
def channelRegisterFds (rfd wfd efd : Option Nat) (extusage : ExtendedUsage) (isTty : Bool)
    (c : Channel) : Channel :=
  { c with rfd, wfd, sock := if rfd = wfd then rfd else none, efd, extendedUsage := extusage
           isatty := isTty }

def channelNew (ctype : String) (type : ChannelType) (rfd wfd efd : Option Nat)
    (window maxpack : UInt32) (extusage : ExtendedUsage) : Channel :=
  channelRegisterFds rfd wfd efd extusage false
    { type, haveRemoteId := false, istate := .opened, ostate := .opened, closeSent := false
      closeRcvd := false, eofSent := false, eofRcvd := false, isLocal := false
      socks5Authdone := false, rfd := none, wfd := none, efd := none, sock := none
      ctlChan := none, isatty := false, forceDrain := false, input := [], output := []
      extended := [], remoteWindow := 0, remoteMaxpacket := 0, localWindow := window
      localWindowMax := window, localConsumed := 0, localMaxpacket := maxpack
      extendedUsage := extusage, ctype, detachUser := false, detachClose := false
      inputFilter := none, datagram := false }

/-- `channel_before_prepare_select_rdynamic`; `sock` is what `rdynamic_connect_finish` gets. -/
def channelBeforePrepareSelectRdynamic (sock : Option Nat) (s : Side) :
    Except Stop Side :=
  if s.c.eofRcvd then rdynamicClose k (s.on fun c => { c with output := [] })
  else if s.c.output.length < 3 then .ok s
  else do
    let (authdone,ret,output,reply) := channelDecodeSocks s.c.socks5Authdone s.c.output
    let s := s.on fun c => { c with socks5Authdone := authdone, output }
    let s ← s.putInput reply
    match ret with
    | .bad => rdynamicClose k s
    | .more =>
      let len := s.c.input.length
      if 0 < len ∧ len < s.c.remoteWindow.toNat then
        let s := s.push (.data s.c.input)
        return s.on fun c =>
          { c with input := [], remoteWindow := c.remoteWindow - UInt32.ofNat len }
      else return s
    | .done =>
      match sock with
      | none => rdynamicClose k s
      | some fd => return s.on fun c =>
          { channelRegisterFds (some fd) (some fd) none .ignore false c with
            type := .rdynamicFinish }

def readFail (c : Channel) : Channel :=
  if c.type ≠ .opened then chanMarkDead c else chanReadFailed c

def channelHandleRfd (io : Io) (s : Side) : Except Stop Side :=
  let force := s.c.isatty ∧ s.c.detachClose ∧ s.c.istate ≠ .closed
  if s.c.rfd = none ∨ (¬ force ∧ ¬ io.rset) then .ok s
  else
    match io.rfd with
    | .intr => .ok s
    | .again => if force then .ok (s.on readFail) else .ok s
    | .failed | .got [] => .ok (s.on readFail)
    | .got buf =>
      if s.c.inputFilter.isSome then do
        let (stop,s) ← clientSimpleEscapeFilter k io.console io.lastWasCr buf s
        return if stop then s.on chanReadFailed else s
      else if s.c.datagram then do
        let b ← orFatal (putString buf s.c.input)
        return s.on fun c => { c with input := b }
      else s.putInput buf

def writeFail (s : Side) : Except Stop Side :=
  if s.c.type ≠ .opened then .ok (s.on chanMarkDead) else chanWriteFailed k s

def written (output : Bytes) (c : Channel) : Channel :=
  { c with output, localConsumed :=
             c.localConsumed + UInt32.ofNat (c.output.length - output.length) }

def channelHandleWfd (io : Io) (s : Side) : Except Stop Side :=
  if s.c.wfd = none ∨ ¬ io.wset ∨ s.c.output = [] then .ok s
  else if s.c.datagram then do
    let (_,output) ← orFatal (getString s.c.output)
    match io.wfd with
    | .again => return s.on fun c => { c with output }
    | .failed | .wrote 0 => writeFail k (s.on fun c => { c with output })
    | .wrote _ => return s.on (written output)
  else
    match io.wfd with
    | .again => .ok s
    | .failed | .wrote 0 => writeFail k s
    | .wrote len => do
      let (_,output) ← orFatal (get len s.c.output)
      return s.on (written output)

def channelHandleEfdWrite (io : Io) (s : Side) : Except Stop Side :=
  if ¬ io.eset ∨ s.c.extended = [] then .ok s
  else
    match io.efdWrite with
    | .again => .ok s
    | .failed | .wrote 0 => .ok (s.on fun c => { c with efd := none })
    | .wrote len => do
      let (_,extended) ← orFatal (get len s.c.extended)
      return s.on fun c =>
        { c with extended, localConsumed := c.localConsumed + UInt32.ofNat len }

def channelHandleEfdRead (io : Io) (s : Side) : Except Stop Side :=
  let force := s.c.isatty ∧ s.c.detachClose ∧ s.c.istate ≠ .closed
  if s.c.efd = none ∨ (¬ force ∧ ¬ io.eset) then .ok s
  else
    match io.efdRead with
    | .intr => .ok s
    | .again => if force then .ok (s.on fun c => { c with efd := none }) else .ok s
    | .failed | .got [] => .ok (s.on fun c => { c with efd := none })
    | .got buf => if s.c.extendedUsage = .ignore then .ok s else s.putExtended buf

def channelHandleEfd (io : Io) (s : Side) : Except Stop Side :=
  if s.c.efd = none then .ok s
  else
    match s.c.extendedUsage with
    | .write => channelHandleEfdWrite io s
    | .read | .ignore => channelHandleEfdRead io s

def channelCheckWindow (s : Side) : Except Stop Side :=
  if s.c.type = .opened ∧ ¬ (s.c.closeSent ∨ s.c.closeRcvd) ∧
      (s.c.localWindowMax - s.c.localWindow > s.c.localMaxpacket * 3 ∨
        s.c.localWindow < s.c.localWindowMax / 2) ∧ s.c.localConsumed > 0 then do
    let s ← s.send (.windowAdjust s.c.localConsumed)
    return s.on fun c =>
      { c with localWindow := c.localWindow + c.localConsumed, localConsumed := 0 }
  else .ok s

def channelPostOpen (io : Io) (s : Side) : Except Stop Side := do
  let s ← channelHandleRfd k io s
  let s ← channelHandleWfd k io s
  let s ← channelHandleEfd io s
  channelCheckWindow s

def channelPostConnecting (io : Io) (s : Side) : Except Stop Side :=
  if ¬ io.wset then .ok s
  else if ¬ s.c.haveRemoteId then .error .fatal
  else
    let isopen := s.c.type = .rdynamicFinish
    match io.connect with
    | .connected =>
      let s := s.on fun c => { c with type := .opened }
      if isopen then .ok s
      else .ok (s.push (.openConfirmation s.c.localWindow s.c.localMaxpacket))
    | .next sock =>
      .ok (s.on fun c => { c with sock := some sock, rfd := some sock, wfd := some sock })
    | .failed =>
      if isopen then rdynamicClose k s else .ok ((s.push .openFailure).on chanMarkDead)

def channelOutputPollInputOpen (s : Side) : Except Stop Side :=
  if s.c.input = [] then
    if s.c.istate = .waitDrain ∧ ¬ channelEfdInputActive s.c then chanIbufEmpty s else .ok s
  else if ¬ s.c.haveRemoteId then .error .fatal
  else if s.c.datagram then do
    let (pkt,input) ← orFatal (getString s.c.input)
    let s := s.on fun c => { c with input }
    if pkt.length > s.c.remoteWindow.toNat ∨ pkt.length > s.c.remoteMaxpacket.toNat then return s
    let s := s.push (.data pkt)
    return s.on fun c => { c with remoteWindow := c.remoteWindow - UInt32.ofNat pkt.length }
  else
    let len := min (min s.c.input.length s.c.remoteWindow.toNat) s.c.remoteMaxpacket.toNat
    if len = 0 then .ok s
    else
      let s := s.push (.data (s.c.input.take len))
      .ok (s.on fun c =>
        { c with input := c.input.drop len, remoteWindow := c.remoteWindow - UInt32.ofNat len })

def channelOutputPollExtendedRead (s : Side) : Except Stop Side :=
  let len := min (min s.c.extended.length s.c.remoteWindow.toNat) s.c.remoteMaxpacket.toNat
  if len = 0 then .ok s
  else do
    let s ← s.send (.extendedData extendedDataStderr (s.c.extended.take len))
    return s.on fun c =>
      { c with extended := c.extended.drop len
               remoteWindow := c.remoteWindow - UInt32.ofNat len }

def channelOutputPoll (s : Side) : Except Stop Side :=
  if s.c.type ≠ .opened then .ok s
  else if s.c.closeSent ∨ s.c.closeRcvd then .ok s
  else do
    let s ← s.callIf (s.c.istate = .opened ∨ s.c.istate = .waitDrain) channelOutputPollInputOpen
    s.callIf (¬ s.c.eofSent ∧ s.c.extendedUsage = .read) channelOutputPollExtendedRead

def channelInputOpenConfirmation (window maxpacket : UInt32) (s : Side) : Except Stop Side :=
  if s.c.type ≠ .opening then .error .disconnect
  else
    .ok (s.on fun c =>
      { c with haveRemoteId := true, remoteWindow := window, remoteMaxpacket := maxpacket
               type := .opened })

def channelInputOpenFailure (s : Side) : Except Stop Side :=
  if s.c.type ≠ .opening then .error .disconnect else .ok (s.on chanMarkDead)

def takesData (t : ChannelType) : Prop :=
  t = .opened ∨ t = .rdynamicOpen ∨ t = .rdynamicFinish ∨ t = .x11Open

instance (t : ChannelType) : Decidable (takesData t) := inferInstanceAs (Decidable (_ ∨ _))

/-- `win_len` of `channel_input_data`: a datagram counts with the header of its string. -/
def winLen (c : Channel) (data : Bytes) : Nat :=
  if c.datagram then data.length + 4 else data.length

def channelInputData (data : Bytes) (s : Side) : Except Stop Side :=
  if ¬ takesData s.c.type then .ok s
  else
    let winLen := winLen s.c data
    if s.c.ostate ≠ .opened then
      .ok (s.on fun c =>
        { c with localWindow := c.localWindow - UInt32.ofNat winLen
                 localConsumed := c.localConsumed + UInt32.ofNat winLen })
    else if winLen > s.c.localMaxpacket.toNat then .ok s
    else if winLen > s.c.localWindow.toNat then .ok s
    else do
      let s := s.on fun c => { c with localWindow := c.localWindow - UInt32.ofNat winLen }
      let b ← orFatal (if s.c.datagram then putString data s.c.output else put data s.c.output)
      return s.on fun c => { c with output := b }

/-- `channel_input_extended_data`; data that finds no room in the buffer is only complained
about. -/
def channelInputExtendedData (tcode : UInt32) (data : Bytes) (s : Side) :
    Except Stop Side :=
  if s.c.type ≠ .opened then .ok s
  else if s.c.eofRcvd ∧ ¬ k.bugExteof then .error .disconnect
  else if s.c.efd = none ∨ s.c.extendedUsage ≠ .write ∨ tcode ≠ extendedDataStderr then .ok s
  else if data.length > s.c.localWindow.toNat then .ok s
  else
    let extended := match put data s.c.extended with
      | .ok b => b
      | .error _ => s.c.extended
    .ok (s.on fun c =>
      { c with extended, localWindow := c.localWindow - UInt32.ofNat data.length })

def channelInputIeof (s : Side) : Except Stop Side :=
  let s := s.on chanRcvdIeof
  if s.c.forceDrain ∧ s.c.istate = .opened then
    let s := s.on fun c => { c with istate := .waitDrain }
    if s.c.input = [] then chanIbufEmpty s else .ok s
  else .ok s

def channelInputWindowAdjust (adjust : UInt32) (s : Side) : Except Stop Side :=
  if s.c.remoteWindow + adjust < s.c.remoteWindow then .error .fatal
  else .ok (s.on fun c => { c with remoteWindow := c.remoteWindow + adjust })

/-- A message for the channel; requests other than EOW do not touch it. -/
def receive (m : Msg) (s : Side) : Except Stop Side :=
  match m with
  | .openRequest _ _ | .request _ => .ok s
  | .openConfirmation window maxpacket => channelInputOpenConfirmation window maxpacket s
  | .openFailure => channelInputOpenFailure s
  | .data v => channelInputData v s
  | .extendedData tcode v => channelInputExtendedData k tcode v s
  | .windowAdjust adjust => channelInputWindowAdjust adjust s
  | .eof => channelInputIeof s
  | .eow => .ok (s.on chanRcvdEow)
  | .close => chanRcvdOclose s

def channelSetFds (rfd wfd efd : Option Nat) (extusage : ExtendedUsage) (isTty : Bool)
    (windowMax : UInt32) (s : Side) : Except Stop Side :=
  if s.c.type ≠ .larval then .error .fatal
  else do
    let s := s.on fun c =>
      { channelRegisterFds rfd wfd efd extusage isTty c with
        type := .opened, localWindow := windowMax, localWindowMax := windowMax }
    s.send (.windowAdjust windowMax)

/-- `session_exit_message`, whose session has its descriptors. -/
def sessionExitMessage (rtype : String) (s : Side) : Except Stop Side :=
  if s.c.type ≠ .opened then .ok s
  else do
    let s ← s.send (.request rtype)
    let s := s.on fun c => { c with detachUser := true, detachClose := true }
    s.callIf (s.c.ostate ≠ .closed) (chanWriteFailed k)

/-- `mux_master_control_cleanup_cb`, for the session of the control channel. -/
def muxMasterControlCleanupCb (s : Side) : Except Stop Side :=
  if s.c.ctlChan = none then .ok s
  else
    let s := s.on fun c => { c with ctlChan := none }
    if s.c.type ≠ .opened ∧ s.c.type ≠ .opening then .ok (s.on chanMarkDead)
    else
      let s := s.on fun c => if c.istate = .opened then chanReadFailed c else c
      s.callIf (s.c.ostate = .opened) (chanWriteFailed k)

/-- `tochan` of `client_status_confirm`: an error goes to the stderr of a multiplexed session, if
errors are logged at all. -/
def tochan (logged : Bool) (c : Channel) : Prop :=
  logged ∧ c.ctlChan ≠ none ∧ c.extendedUsage = .write

instance (logged : Bool) (c : Channel) : Decidable (tochan logged c) :=
  inferInstanceAs (Decidable (_ ∧ _))

/-- `client_status_confirm` of a failed request, with its text; `confirmClose` closes the channel.
-/
def clientStatusConfirm (logged : Bool) (errmsg : Bytes) (confirmClose : Bool)
    (s : Side) : Except Stop Side :=
  if s.c.type ≠ .opened ∧ s.c.type ≠ .abandoned then .ok s
  else do
    let s ← s.callIf (tochan logged s.c) (Side.putExtended errmsg)
    s.callIf confirmClose fun s => chanWriteFailed k (s.on chanReadFailed)

def channelReap (s : Side) : Except Stop Side := do
  let (dead,s) ← chanIsDead k true s
  return if dead then { s with freed := true } else s

/-- `channel_garbage_collect`; `detaches` says that the callback removes itself. -/
def channelGarbageCollect (detaches : Bool) (s : Side) : Except Stop Side :=
  if s.c.detachUser then do
    let (dead,s) ← chanIsDead k s.c.detachClose s
    if ¬ dead then return s
    if ¬ detaches then return s
    channelReap k (s.on channelCancelCleanup)
  else channelReap k s

def Write.fails : Write → Prop
  | .failed | .wrote 0 => True
  | _ => False

section

variable {k : Compat} {io : Io} {s s' : Side}

/-- A read fills the input, fails, or goes through the escape filter. -/
lemma channelHandleRfd_cases (h : channelHandleRfd k io s = .ok s') :
    (∃ b, s' = s.on fun c => { c with input := b }) ∨ s' = s.on readFail ∨
      ∃ buf stop t, s.c.inputFilter.isSome ∧ io.rfd = .got buf ∧
        clientSimpleEscapeFilter k io.console io.lastWasCr buf s = .ok (stop,t) ∧
        s' = if stop then t.on chanReadFailed else t := by
  have hsame : ∃ b, s = s.on fun c => { c with input := b } := ⟨s.c.input,rfl⟩
  unfold channelHandleRfd at h
  dsimp only at h
  split at h
  · cases h
    exact .inl hsame
  split at h
  · cases h
    exact .inl hsame
  · split at h
    · cases h
      exact .inr (.inl rfl)
    · cases h
      exact .inl hsame
  · cases h
    exact .inr (.inl rfl)
  · cases h
    exact .inr (.inl rfl)
  next buf _ hbuf =>
  split at h
  · next hfilter =>
    obtain ⟨⟨stop,t⟩,ht,h⟩ := bind_eq_ok.mp h
    cases h
    exact .inr (.inr ⟨buf,stop,t,hfilter,hbuf,ht,rfl⟩)
  split at h
  · obtain ⟨b,-,h⟩ := bind_eq_ok.mp h
    cases h
    exact .inl ⟨b,rfl⟩
  · exact .inl ⟨_,Side.putInput_ok h⟩

/-- A write takes bytes from the output or fails. A datagram is taken in any case. -/
lemma channelHandleWfd_cases (h : channelHandleWfd k io s = .ok s') :
    s' = s ∨ (∃ b, b.length ≤ s.c.output.length ∧ s' = s.on (written b)) ∨
      (io.wfd.fails ∧ writeFail k s = .ok s') ∨
      s.c.datagram = true ∧ ∃ b, b.length ≤ s.c.output.length ∧
        (s' = (s.on fun c => { c with output := b }) ∨
          writeFail k (s.on fun c => { c with output := b }) = .ok s') := by
  unfold channelHandleWfd at h
  split at h
  · cases h
    exact .inl rfl
  split at h
  · next hd =>
    obtain ⟨⟨v,b⟩,hget,h⟩ := bind_eq_ok.mp h
    have hlen : b.length ≤ s.c.output.length := by
      obtain ⟨-,hout⟩ := getString_ok (orFatal_ok.mp hget)
      rw [hout,List.length_append]
      omega
    dsimp only at h
    split at h
    · cases h
      exact .inr (.inr (.inr ⟨hd,b,hlen,.inl rfl⟩))
    · exact .inr (.inr (.inr ⟨hd,b,hlen,.inr h⟩))
    · exact .inr (.inr (.inr ⟨hd,b,hlen,.inr h⟩))
    · cases h
      exact .inr (.inl ⟨b,hlen,rfl⟩)
  · split at h
    · cases h
      exact .inl rfl
    · next hw => exact .inr (.inr (.inl ⟨by rw [hw]; trivial,h⟩))
    · next hw => exact .inr (.inr (.inl ⟨by rw [hw]; trivial,h⟩))
    · obtain ⟨⟨v,b⟩,hget,h⟩ := bind_eq_ok.mp h
      obtain ⟨-,hget⟩ := ite_error_eq_ok.mp (orFatal_ok.mp hget)
      cases hget
      cases h
      exact .inr (.inl ⟨_,by simp,rfl⟩)

lemma channelHandleEfd_cases (h : channelHandleEfd io s = .ok s') :
    s' = s ∨ s' = (s.on fun c => { c with efd := none }) ∨
      (s.c.extendedUsage = .write ∧ ∃ len ≤ s.c.extended.length, s' = s.on fun c =>
        { c with extended := c.extended.drop len
                 localConsumed := c.localConsumed + UInt32.ofNat len }) ∨
      s.c.extendedUsage ≠ .write ∧ ∃ b, s' = s.on fun c => { c with extended := b } := by
  have hread : s.c.extendedUsage ≠ .write → channelHandleEfdRead io s = .ok s' →
      s' = s ∨ s' = (s.on fun c => { c with efd := none }) ∨
        s.c.extendedUsage ≠ .write ∧ ∃ b, s' = s.on fun c => { c with extended := b } := by
    intro hu h
    unfold channelHandleEfdRead at h
    dsimp only at h
    split at h
    · cases h
      exact .inl rfl
    split at h
    · cases h
      exact .inl rfl
    · split at h
      · cases h
        exact .inr (.inl rfl)
      · cases h
        exact .inl rfl
    · cases h
      exact .inr (.inl rfl)
    · cases h
      exact .inr (.inl rfl)
    split at h
    · cases h
      exact .inl rfl
    · obtain ⟨b,-,h⟩ := bind_eq_ok.mp h
      cases h
      exact .inr (.inr ⟨hu,b,rfl⟩)
  unfold channelHandleEfd at h
  split at h
  · cases h
    exact .inl rfl
  split at h
  · next hu =>
    unfold channelHandleEfdWrite at h
    split at h
    · cases h
      exact .inl rfl
    split at h
    · cases h
      exact .inl rfl
    · cases h
      exact .inr (.inl rfl)
    · cases h
      exact .inr (.inl rfl)
    next len _ _ =>
    obtain ⟨⟨v,extended⟩,hget,h⟩ := bind_eq_ok.mp h
    obtain ⟨hlen,hget⟩ := ite_error_eq_ok.mp (orFatal_ok.mp hget)
    cases hget
    cases h
    exact .inr (.inr (.inl ⟨hu,len,by omega,rfl⟩))
  · next hu => exact (hread (by rw [hu]; decide) h).imp_right (.imp_right .inr)
  · next hu => exact (hread (by rw [hu]; decide) h).imp_right (.imp_right .inr)

lemma channelInputData_frame {data : Bytes} (h : channelInputData data s = .ok s') :
    ∃ w n b, s' = s.on fun c => { c with localWindow := w, localConsumed := n, output := b } := by
  have hsame : ∃ w n b, s = s.on fun c =>
      { c with localWindow := w, localConsumed := n, output := b } :=
    ⟨s.c.localWindow,s.c.localConsumed,s.c.output,rfl⟩
  unfold channelInputData at h
  split at h
  · cases h
    exact hsame
  dsimp only at h
  split at h
  · cases h
    exact ⟨_,_,s.c.output,rfl⟩
  split at h
  · cases h
    exact hsame
  split at h
  · cases h
    exact hsame
  · obtain ⟨b,-,h⟩ := bind_eq_ok.mp h
    cases h
    exact ⟨_,s.c.localConsumed,b,rfl⟩

lemma channelInputExtendedData_frame {tcode : UInt32} {data : Bytes}
    (h : channelInputExtendedData k tcode data s = .ok s') :
    ∃ w b, s' = s.on fun c => { c with localWindow := w, extended := b } := by
  have hsame : ∃ w b, s = s.on fun c => { c with localWindow := w, extended := b } :=
    ⟨s.c.localWindow,s.c.extended,rfl⟩
  unfold channelInputExtendedData at h
  split at h
  · cases h
    exact hsame
  split at h
  · cases h
  split at h
  · cases h
    exact hsame
  split at h
  · cases h
    exact hsame
  · cases h
    exact ⟨_,_,rfl⟩

end

inductive LocalEvent
  | beforeSelect (sock : Option Nat)
  | pre (x : X11)
  | post (io : Io)
  | collect (detaches : Bool)
  | poll
  | setFds (rfd wfd efd : Option Nat) (extusage : ExtendedUsage) (isTty : Bool)
      (windowMax : UInt32)
  | sessionExit (rtype : String)
  | controlClosed
  | requestFailed (logged : Bool) (errmsg : Bytes) (confirmClose : Bool)

/-- The handlers by the type of the channel, as in `channel_handler_init`. -/
def localStep (e : LocalEvent) (s : Side) : Except Stop Side :=
  match e with
  | .beforeSelect sock =>
    if s.c.type = .rdynamicOpen then channelBeforePrepareSelectRdynamic k sock s else .ok s
  | .pre x =>
    match s.c.type with
    | .opened => .ok (s.on channelPreOpen)
    | .x11Open => channelPreX11Open k x s
    | .dynamic => channelPreDynamic s
    | _ => .ok s
  | .post io =>
    match s.c.type with
    | .opened | .dynamic => channelPostOpen k io s
    | .connecting | .rdynamicFinish => channelPostConnecting k io s
    | _ => .ok s
  | .collect detaches => channelGarbageCollect k detaches s
  | .poll => channelOutputPoll s
  | .setFds rfd wfd efd extusage isTty windowMax =>
    channelSetFds rfd wfd efd extusage isTty windowMax s
  | .sessionExit rtype => sessionExitMessage k rtype s
  | .controlClosed => muxMasterControlCleanupCb k s
  | .requestFailed logged errmsg confirmClose => clientStatusConfirm k logged errmsg confirmClose s

inductive Event
  | here (e : LocalEvent)
  | peer (m : Msg)

/-- One step of a side that has not sent anything in this step yet. A channel that was freed
is not found any more. -/
def act (e : Event) (s : Side) : Except Stop Side :=
  match e with
  | .here e => if s.freed then .ok s else localStep k e s
  | .peer m =>
    if s.freed then
      match m with
      | .windowAdjust _ => .ok s
      | _ => .error .disconnect
    else receive k m s

def sideStep (s : Side) (e : Event) : Except Stop (List Msg × Side) := do
  let s ← act k e { s with sent := [] }
  return (s.sent,s)

section

variable {k : Compat} {s s' : Side} {ms : List Msg}

lemma sideStep_here {e : LocalEvent} (h : sideStep k s (.here e) = .ok (ms,s')) :
    ms = s'.sent ∧ (s.freed = true ∧ s' = { s with sent := [] } ∨
      s.freed = false ∧ localStep k e { s with sent := [] } = .ok s') := by
  obtain ⟨t,ht,h⟩ := bind_eq_ok.mp h
  cases h
  refine ⟨rfl,?_⟩
  rw [act] at ht
  split at ht
  · next hf =>
    cases ht
    exact .inl ⟨hf,rfl⟩
  · next hf => exact .inr ⟨Bool.eq_false_iff.mpr hf,ht⟩

lemma sideStep_peer {m : Msg} (h : sideStep k s (.peer m) = .ok (ms,s')) :
    ms = s'.sent ∧ (s.freed = true ∧ (∃ n, m = .windowAdjust n) ∧ s' = { s with sent := [] } ∨
      s.freed = false ∧ receive k m { s with sent := [] } = .ok s') := by
  obtain ⟨t,ht,h⟩ := bind_eq_ok.mp h
  cases h
  refine ⟨rfl,?_⟩
  unfold act at ht
  dsimp only at ht
  split at ht
  · next hf =>
    split at ht
    · next n =>
      cases ht
      exact .inl ⟨hf,⟨n,rfl⟩,rfl⟩
    · cases ht
  · next hf => exact .inr ⟨Bool.eq_false_iff.mpr hf,ht⟩

lemma freed_of_sideStep {e : Event} (h : sideStep k s e = .ok (ms,s')) (hf : s'.freed = false) :
    s.freed = false := by
  cases e with
  | here e =>
    rcases (sideStep_here h).2 with ⟨-,rfl⟩ | ⟨hfreed,-⟩
    · exact hf
    · exact hfreed
  | peer m =>
    rcases (sideStep_peer h).2 with ⟨-,-,rfl⟩ | ⟨hfreed,-⟩
    · exact hf
    · exact hfreed

end

end PkixSsh.Channels
