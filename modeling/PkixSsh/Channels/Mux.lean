import PkixSsh.Channels.Tables

/-!
# The multiplexer with its proxy clients

A client in proxy mode sends whole packets. The master passes them on, keeps a proxy channel for
each channel of the client, and puts its own numbers in the place of the client's.
-/

namespace PkixSsh.Channels

open Sshbuf BigEndian

/-- Who a channel belongs to: the master, the client of a control connection, or the client that had
it opened through the proxy, under its own number. -/
inductive Origin
  | master
  | client (tag : Nat)
  | proxied (tag number : Nat)
  deriving DecidableEq

def Origin.owner : Origin → Option Nat
  | .master => none
  | .client tag => some tag
  | .proxied tag _ => some tag

def Origin.isProxied : Origin → Bool
  | .proxied _ _ => true
  | _ => false

/-- A channel at its address, with the fields for multiplexing; `muxCtx` is a pointer. The origin
is not a field of the source. -/
structure MuxChannel where
  addr : Nat
  c : Channel
  remoteId : Nat
  muxCtx : Option Nat
  muxDownstreamId : Nat
  origin : Origin

structure Permission where
  listenHost : Option Bytes
  listenPort : Nat
  downstream : Option Nat

/-- `struct ssh_channels` of the master; `fresh` is the tag of the next client. -/
structure Master where
  channels : List (Option MuxChannel)
  permitted : List Permission
  fresh : Nat

/-- What the master sends to the server: a packet it has put together itself, or a message of
an ordinary channel. -/
inductive Out
  | packet (type : UInt8) (payload : Bytes)
  | message (remoteId : Nat) (m : Msg)

/-- The ends of the master; `dangling` is an access through a pointer to a channel that was
freed. -/
inductive Halt
  | stop (s : Stop)
  | dangling

def orStop {α : Type} (x : Except Stop α) : Except Halt α := x.mapError .stop

def msgGlobalRequest : UInt8 := 80
def msgChannelOpen : UInt8 := 90
def msgChannelOpenConfirmation : UInt8 := 91
def msgChannelClose : UInt8 := 97

def chanRbuf : Nat := 16 * 1024

def channelMuxMaxPacket : Nat := 256 * 1024

namespace Master

variable (m : Master)

def get (i : Nat) : Option MuxChannel := Slots.get m.channels i

def modify (i : Nat) (f : MuxChannel → MuxChannel) : Master :=
  { m with channels := Slots.modify f i m.channels }

def put (i : Nat) (e : MuxChannel) : Master := m.modify i fun _ => e

def on (i : Nat) (f : Channel → Channel) : Master :=
  m.modify i fun e => { e with c := f e.c }

def addrs : List Nat := m.channels.reduceOption.map MuxChannel.addr

/-- The address of a new channel: the allocator may choose any that is not in use, also one that
a freed channel had. -/
def xcalloc (addr : Nat) : Nat := if addr ∈ m.addrs then m.addrs.sum + 1 else addr

def channelNew (e : MuxChannel) : Except Halt (Nat × Master) :=
  match Slots.insert channelsMaxChannels 10 { e with addr := m.xcalloc e.addr } m.channels with
  | none => .error (.stop .fatal)
  | some (i,channels) => .ok (i,{ m with channels })

def channelByRemoteId (remoteId : Nat) : Option Nat :=
  Slots.find? (fun e => e.c.haveRemoteId && e.remoteId = remoteId) m.channels

def deref (addr : Nat) : Option Nat := Slots.find? (fun e => e.addr = addr) m.channels

end Master

def channelRfwdBindHost : Option Bytes → Bytes
  | none => cstr "localhost"
  | some host => if host = [] ∨ host = cstr "*" then [] else host

def cancelTcpipForward (p : Permission) : Out :=
  .packet msgGlobalRequest (framed (cstr "cancel-tcpip-forward") ++ [0] ++
    framed (channelRfwdBindHost p.listenHost) ++ encode 4 p.listenPort)

variable (m : Master) (addr : Nat) (cp : Bytes)

def muxRemoveRemoteForwardings (permitted : List Permission) : List Out × List Permission :=
  ((permitted.filter fun p => p.downstream = some addr).map cancelTcpipForward,
    permitted.map fun p => if p.downstream = some addr then ⟨none,0,none⟩ else p)

/-- The loop body of `channel_free`, for the client at `addr`. -/
def detach (e : MuxChannel) : MuxChannel :=
  if e.c.type = .muxProxy ∧ e.muxCtx = some addr then
    { e with muxCtx := none
             c := { e.c with type := .opened, istate := .closed, ostate := .closed } }
  else e

def Master.channelFree (i : Nat) : List Out × Master :=
  match m.get i with
  | none => ([],m)
  | some e =>
    if e.c.type = .muxClient then
      let (outs,permitted) := muxRemoveRemoteForwardings e.addr m.permitted
      (outs,{ m with channels := Slots.clear i (Slots.update (detach e.addr) m.channels)
                     permitted })
    else ([],{ m with channels := Slots.clear i m.channels })

/-- The proxy channel of client `d` for its number `id`, and the message with the number of the
proxy. -/
def proxyNew (d : MuxChannel) (id : Nat) (remoteId : Option Nat) (type : UInt8)
    (compose : Nat → Except SshErr Bytes) : Except Halt (Bool × List Out × Master) := do
  let c := channelNew "mux proxy" .muxProxy none none none 0 0 .ignore
  let (self,m) ← m.channelNew
    { addr, c := { c with haveRemoteId := remoteId.isSome }, remoteId := remoteId.getD 0
      muxCtx := some d.addr, muxDownstreamId := id
      origin := .proxied (d.origin.owner.getD 0) id }
  match compose self with
  | .ok modified => return (true,[.packet type modified],m)
  | .error _ => return (false,m.channelFree self)

def openFields : Except SshErr (Bytes × Nat × Bytes) := do
  let (ctype,original) ← getCstring cp
  let (id,original) ← getU32 original
  return (ctype,id,original)

def openConfirmationFields : Except SshErr (Nat × Nat × Bytes) := do
  let (remoteId,original) ← getU32 cp
  let (id,original) ← getU32 original
  return (remoteId,id,original)

/-- The forwarding that a global request asks for; no other request is supported. -/
def tcpipForward : Except SshErr (Option (Bytes × Nat)) := do
  let (ctype,original) ← getCstring cp
  if ctype ≠ cstr "tcpip-forward" then return none
  let (_,original) ← getU8 original
  let (listenHost,original) ← getCstring original
  let (listenPort,_) ← getU32 original
  return if listenPort > 65535 then none else some (listenHost,listenPort)

/-- What a CLOSE of a client does to the channel that it names by the number of the server. -/
def proxyClose : List Out × Master :=
  if cp.length < 4 then ([],m)
  else
    match m.channelByRemoteId (decode (cp.take 4)) with
    | none => ([],m)
    | some j =>
      if (m.get j).any fun e => e.c.closeRcvd then m.channelFree j
      else ([],m.on j fun c => { c with closeSent := true })

/-- The part of `channel_proxy_downstream` by the type of the message; the result is false where
the source returns -1. -/
def proxyMessage (d : MuxChannel) (type : UInt8) (cp : Bytes) :
    Except Halt (Bool × List Out × Master) :=
  if type = msgChannelOpen then
    match openFields cp with
    | .error _ => .ok (false,[],m)
    | .ok (ctype,id,original) => proxyNew m addr d id none type fun self => do
        let modified ← putString ctype []
        let modified ← putU32 self modified
        put original modified
  else if type = msgChannelOpenConfirmation then
    match openConfirmationFields cp with
    | .error _ => .ok (false,[],m)
    | .ok (remoteId,id,original) => proxyNew m addr d id (some remoteId) type fun self => do
        let modified ← putU32 remoteId []
        let modified ← putU32 self modified
        put original modified
  else if type = msgGlobalRequest then
    match tcpipForward cp with
    | .error _ | .ok none => .ok (false,[],m)
    | .ok (some (listenHost,listenPort)) =>
      .ok (true,[.packet type cp],{ m with
        permitted := m.permitted ++ [⟨some listenHost,listenPort,some d.addr⟩] })
  else if type = msgChannelClose then
    let (outs,m) := proxyClose m cp
    .ok (true,outs ++ [.packet type cp],m)
  else .ok (true,[.packet type cp],m)

/-- `channel_proxy_downstream` for client `d` in slot `i`. -/
def channelProxyDownstream (i : Nat) (d : MuxChannel) : Except Halt (Bool × List Out × Master) :=
  match getString d.c.input with
  | .error _ => .ok (false,[],m)
  | .ok (msg,input) =>
    let m := m.on i fun c => { c with input }
    match msg with
    | _ :: type :: cp => proxyMessage m addr d type cp
    | _ => .ok (false,[],m)

def upstreamTypes : List UInt8 := [97,94,96,95,91,92,93,99,100,98]

def MuxChannel.confirm (remoteId : Nat) (e : MuxChannel) : MuxChannel :=
  { e with remoteId, c := { e.c with haveRemoteId := true } }

/-- The end of `channel_proxy_upstream`, on the record of the proxy channel. -/
def upstreamState (j : Nat) (type : UInt8) (payload : Bytes) : List Out × Master :=
  if type = msgChannelOpenConfirmation then
    if payload.length > 4 then
      ([],m.modify j (MuxChannel.confirm (decode (payload.take 4))))
    else ([],m)
  else if type = msgChannelClose then
    if (m.get j).any fun e => e.c.closeSent then m.channelFree j
    else ([],m.on j fun c => { c with closeRcvd := true })
  else ([],m)

/-- What a client reads: the message under its own number of the channel. -/
def upstreamMessage (type : UInt8) (id : Nat) (payload : Bytes) : Bytes :=
  [0,type] ++ encode 4 id ++ payload

/-- `sshbuf_put_stringb` to the client, which is only complained about when it fails. -/
def deliver (b : Bytes) (c : Channel) : Channel :=
  match putString b c.output with
  | .ok output => { c with output }
  | .error _ => c

/-- `channel_proxy_upstream` for proxy channel `e` in slot `j`, with the payload behind the
number. -/
def channelProxyUpstream (j : Nat) (e : MuxChannel) (type : UInt8) (payload : Bytes)
    : Except Halt (List Out × Master) :=
  match e.muxCtx with
  | none => .ok ([],m)
  | some addr =>
    if type ∉ upstreamTypes then .ok ([],m)
    else
      match m.deref addr with
      | none => .error .dangling
      | some i =>
        let m := m.on i (deliver (upstreamMessage type e.muxDownstreamId payload))
        .ok (upstreamState m j type payload)

/-- `channel_pre_mux_client`; a control channel does not send, so that the messages are none. -/
def channelPreMuxClient (c : Channel) : Except Stop Channel := do
  let s : Side := { c, sent := [], freed := false }
  let s ← s.callIf (s.c.istate = .waitDrain) fun s => do
    let s ← chanIbufEmpty (s.on fun c => { c with input := [] })
    chanRcvdOclose s
  if s.c.output = [] ∧ s.c.ostate = .waitDrain then return chanObufEmpty s.c else return s.c

def readMux (need : Nat) (r : Read) (c : Channel) : Nat × Channel :=
  if c.input.length < need then
    match r with
    | .intr | .again => (c.input.length,c)
    | .failed | .got [] => (0,chanReadFailed c)
    | .got v =>
      let input := c.input ++ v.take (min (need - c.input.length) chanRbuf)
      (input.length,{ c with input })
  else (c.input.length,c)

/-- The reads of `channel_post_mux_client_read`, up to the call of `mux_rcb`, which is made when
the result is true. -/
def muxClientInput (header body : Read) (c : Channel) : Except Stop (Bool × Channel) :=
  let (got,c) := readMux 4 header c
  if got < 4 then .ok (false,c)
  else
    let need := decode (c.input.take 4)
    if need > channelMuxMaxPacket then do
      let s ← chanRcvdOclose { c, sent := [], freed := false }
      return (false,s.c)
    else
      let (got,c) := readMux (need + 4) body c
      .ok (decide (need + 4 ≤ got),c)

def channelPostMuxClientRead (i : Nat) (d : MuxChannel) (header body : Read) :
    Except Halt (List Out × Master) :=
  if d.c.rfd = none then .ok ([],m)
  else if d.c.istate ≠ .opened ∧ d.c.istate ≠ .waitDrain then .ok ([],m)
  else do
    let (complete,c) ← orStop (muxClientInput header body d.c)
    let d := { d with c }
    let m := m.put i d
    if ¬ complete then return ([],m)
    let (ok,outs,m) ← channelProxyDownstream m addr i d
    return (outs,if ok then m else m.on i chanMarkDead)

def channelPostMuxClientWrite (w : Write) (c : Channel) : Channel :=
  if c.wfd = none ∨ c.output = [] then c
  else
    match w with
    | .again => c
    | .failed | .wrote 0 => chanMarkDead c
    | .wrote len => { c with output := c.output.drop len }

/-- What happens in the master. The allocator's choice for a new channel is part of the event;
`handle` is for a channel of a client that has left. -/
inductive MasterEvent
  | accept (addr fd : Nat) (window maxpack : UInt32)
  | opens (addr : Nat) (c : Channel) (remoteId : Nat)
  | own (i : Nat) (c : Channel) (remoteId : Nat)
  | release (i : Nat)
  | pre (i : Nat)
  | read (i addr : Nat) (header body : Read)
  | write (i : Nat) (w : Write)
  | upstream (j : Nat) (type : UInt8) (payload : Bytes)
  | handle (j : Nat) (e : Event)
  | collect (i : Nat) (detaches : Bool)

/-- A channel of the multiplexer, which the master does not use for itself. -/
def Multiplexed (t : ChannelType) : Prop := t = .muxClient ∨ t = .muxProxy

instance (t : ChannelType) : Decidable (Multiplexed t) := inferInstanceAs (Decidable (_ ∨ _))

namespace Master

/-- A step of the client in slot `i`, as long as it has its type. -/
def ofClient (m : Master) (i : Nat)
    (f : MuxChannel → Except Halt (List Out × Master)) : Except Halt (List Out × Master) :=
  match m.get i with
  | some d => if d.c.type = .muxClient then f d else .ok ([],m)
  | none => .ok ([],m)

def settle (m : Master) (i : Nat) (e : MuxChannel) (s : Side) : List Out × Master :=
  let outs := s.sent.map (Out.message e.remoteId)
  if s.freed then
    let (cancels,m) := m.channelFree i
    (outs ++ cancels,m)
  else (outs,m.put i { e with c := s.c })

/-- An event of an ordinary channel. A message for an unknown channel is an error of the peer, but
for WINDOW_ADJUST. -/
def input (k : Compat) (e : Event) (c : Channel) : Except Stop Side :=
  match e with
  | .here e => localStep k e { c, sent := [], freed := false }
  | .peer msg =>
    if Public c.type then receive k msg { c, sent := [], freed := false }
    else
      match msg with
      | .windowAdjust _ => .ok { c, sent := [], freed := false }
      | _ => .error .disconnect

def step (k : Compat) (m : Master) : MasterEvent → Except Halt (List Out × Master)
  | .accept addr fd window maxpack => do
    let c := Channels.channelNew "multiplex client" .muxClient (some fd) (some fd) none window
      maxpack .ignore
    let (_,m) ← m.channelNew
      { addr, c := { c with isLocal := true }, remoteId := 0, muxCtx := none
        muxDownstreamId := 0, origin := .client m.fresh }
    return ([],{ m with fresh := m.fresh + 1 })
  | .opens addr c remoteId =>
    if Multiplexed c.type then .ok ([],m)
    else do
      let (_,m) ← m.channelNew
        { addr, c, remoteId, muxCtx := none, muxDownstreamId := 0, origin := .master }
      return ([],m)
  | .own i c remoteId =>
    match m.get i with
    | some e =>
      if e.origin = .master ∧ ¬ Multiplexed c.type then .ok ([],m.put i { e with c, remoteId })
      else .ok ([],m)
    | none => .ok ([],m)
  | .release i =>
    match m.get i with
    | some e => if e.origin = .master then .ok (m.channelFree i) else .ok ([],m)
    | none => .ok ([],m)
  | .pre i => m.ofClient i fun d => do
      let c ← orStop (channelPreMuxClient d.c)
      return ([],m.put i { d with c })
  | .read i addr header body => m.ofClient i fun d =>
      channelPostMuxClientRead m addr i d header body
  | .write i w => m.ofClient i fun d =>
      .ok ([],m.put i { d with c := channelPostMuxClientWrite w d.c })
  | .upstream j type payload =>
    match m.get j with
    | some e =>
      if e.c.type = .muxProxy then channelProxyUpstream m j e type payload else .ok ([],m)
    | none => .ok ([],m)
  | .handle j ev =>
    match m.get j with
    | some e =>
      if e.origin.isProxied ∧ e.c.type ≠ .muxProxy then do
        let s ← orStop (input k ev e.c)
        return m.settle j e s
      else .ok ([],m)
    | none => .ok ([],m)
  | .collect i detaches =>
    match m.get i with
    | some e => do
      let s ← orStop (channelGarbageCollect k detaches { c := e.c, sent := [], freed := false })
      return m.settle i e s
    | none => .ok ([],m)

end Master

end PkixSsh.Channels
