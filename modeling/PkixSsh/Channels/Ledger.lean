import PkixSsh.Channels.Handlers

/-!
# The accounts of a channel

The windows, buffers and counters of a channel, and what one step does to them.
-/

namespace PkixSsh.Channels

open Sshbuf List

def Msg.bytes : Msg → Nat
  | .data v | .extendedData _ v => v.length
  | _ => 0

def Msg.adjust : Msg → Nat
  | .windowAdjust n => n.toNat
  | _ => 0

variable (ms : List Msg) (c : Channel)

def bytes : Nat := (ms.map Msg.bytes).sum

def adjusts : Nat := (ms.map Msg.adjust).sum

@[simp] lemma bytes_nil : bytes [] = 0 := rfl

@[simp] lemma bytes_cons (m : Msg) : bytes (m :: ms) = m.bytes + bytes ms := by
  simp [bytes]

@[simp] lemma bytes_append (ms' : List Msg) : bytes (ms ++ ms') = bytes ms + bytes ms' := by
  simp [bytes]

@[simp] lemma adjusts_nil : adjusts [] = 0 := rfl

@[simp] lemma adjusts_cons (m : Msg) :
    adjusts (m :: ms) = m.adjust + adjusts ms := by
  simp [adjusts]

@[simp] lemma adjusts_append (ms' : List Msg) :
    adjusts (ms ++ ms') = adjusts ms + adjusts ms' := by
  simp [adjusts]

def Msg.control : Msg → Prop
  | .data _ | .extendedData _ _ | .windowAdjust _ => False
  | _ => True

lemma Msg.control.zero {m : Msg} (h : m.control) : m.bytes = 0 ∧ m.adjust = 0 := by
  cases m with
  | data v => exact h.elim
  | extendedData tcode v => exact h.elim
  | windowAdjust adjust => exact h.elim
  | openRequest window maxpacket => exact ⟨rfl,rfl⟩
  | openConfirmation window maxpacket => exact ⟨rfl,rfl⟩
  | request rtype => exact ⟨rfl,rfl⟩
  | openFailure | eof | eow | close => exact ⟨rfl,rfl⟩

lemma control_zero {ms : List Msg} (h : ∀ m ∈ ms, m.control) : bytes ms = 0 ∧ adjusts ms = 0 := by
  induction ms with
  | nil => exact ⟨rfl,rfl⟩
  | cons m ms ih =>
    obtain ⟨hb,ha⟩ := ih fun m' hm => h m' (mem_cons_of_mem _ hm)
    obtain ⟨hmb,hma⟩ := (h m mem_cons_self).zero
    rw [bytes_cons,adjusts_cons,hb,ha,hmb,hma]
    exact ⟨rfl,rfl⟩

/-- The part of a channel that the functions of `nchan.c` leave alone, the output apart. -/
structure Ledger where
  type : ChannelType
  socks5Authdone : Bool
  ctlChan : Option Nat
  input : Bytes
  output : Bytes
  extended : Bytes
  remoteWindow : UInt32
  remoteMaxpacket : UInt32
  localWindow : UInt32
  localWindowMax : UInt32
  localConsumed : UInt32
  localMaxpacket : UInt32
  extendedUsage : ExtendedUsage
  datagram : Bool

def Channel.ledger : Ledger :=
  ⟨c.type,c.socks5Authdone,c.ctlChan,c.input,c.output,c.extended,c.remoteWindow,
    c.remoteMaxpacket,c.localWindow,c.localWindowMax,c.localConsumed,c.localMaxpacket,
    c.extendedUsage,c.datagram⟩

/-- The types of a channel that both ends know: it takes data, or will when the session starts. -/
def Live (t : ChannelType) : Prop := takesData t ∨ t = .larval

def held (usage : ExtendedUsage) (extended : Bytes) : Nat :=
  if usage = .write then extended.length else 0

namespace Ledger

/-- The credit the peer has, is still to get, or gets when what is buffered is written. -/
def pool (l : Ledger) : Nat :=
  l.localWindow.toNat + l.localConsumed.toNat + l.output.length + held l.extendedUsage l.extended

/-- The credit fits its counters; a reverse SOCKS channel that is not open has at most the choice
of the method to send, a larval one has no window, and only sessions are multiplexed. -/
structure Sound (l : Ledger) : Prop where
  bound : l.pool < 2 ^ 32
  socks : l.type = .rdynamicOpen → l.input.length ≤ 2 ∧ (l.socks5Authdone = false → l.input = [])
  larval : l.type = .larval → l.localWindow = 0 ∧ l.localConsumed = 0 ∧ l.output = [] ∧
    l.extended = []
  control : l.ctlChan ≠ none → Live l.type → l.type = .opened

end Ledger

@[simp] lemma ledger_chanShutdownRead : (chanShutdownRead c).ledger = c.ledger := by
  unfold chanShutdownRead
  split
  · rfl
  · split <;> rfl

@[simp] lemma ledger_chanShutdownExtendedRead :
    (chanShutdownExtendedRead c).ledger = c.ledger := by
  unfold chanShutdownExtendedRead
  split
  · rfl
  · split <;> rfl

lemma ledger_chanShutdownWrite :
    (chanShutdownWrite c).ledger = { c.ledger with output := [] } := by
  unfold chanShutdownWrite
  dsimp only
  split
  · rfl
  · split <;> rfl

@[simp] lemma ledger_istate (i : InputState) :
    ({ c with istate := i }).ledger = c.ledger := rfl

@[simp] lemma ledger_ostate (o : OutputState) :
    ({ c with ostate := o }).ledger = c.ledger := rfl

@[simp] lemma ledger_chanReadFailed : (chanReadFailed c).ledger = c.ledger := by
  unfold chanReadFailed
  split
  · rw [ledger_istate,ledger_chanShutdownRead]
  · rfl

@[simp] lemma ledger_chanRcvdEow : (chanRcvdEow c).ledger = c.ledger := by
  unfold chanRcvdEow
  split
  · rw [ledger_istate,ledger_chanShutdownRead]
  · rfl

@[simp] lemma ledger_chanObufEmpty : (chanObufEmpty c).ledger = c.ledger := by
  unfold chanObufEmpty
  split
  · rfl
  · next h =>
    split
    · rw [ledger_ostate,ledger_chanShutdownWrite]
      have hempty : c.ledger.output = [] := not_not.mp h
      rw [← hempty]
    · rfl

@[simp] lemma ledger_chanStartDrain : (chanStartDrain c).ledger = c.ledger := by
  unfold chanStartDrain
  split <;> rfl

@[simp] lemma ledger_chanRcvdIeof : (chanRcvdIeof c).ledger = c.ledger := by
  unfold chanRcvdIeof
  dsimp only
  split
  · rw [ledger_chanObufEmpty,ledger_chanStartDrain]
    rfl
  · rw [ledger_chanStartDrain]
    rfl

@[simp] lemma ledger_channelPreOpen : (channelPreOpen c).ledger = c.ledger := by
  unfold channelPreOpen
  split
  · rw [ledger_chanObufEmpty]
  · rfl

/-- A step that leaves the accounts alone and sends neither data nor credit. -/
structure Quiet (s s' : Side) : Prop where
  ledger : s'.c.ledger = s.c.ledger
  sent : ∃ ms, s'.sent = s.sent ++ ms ∧ ∀ m ∈ ms, m.control

namespace Quiet

variable {s s' s'' : Side}

lemma refl (s : Side) : Quiet s s := ⟨rfl,[],(append_nil _).symm,by simp⟩

lemma trans (h : Quiet s s') (h' : Quiet s' s'') : Quiet s s'' := by
  obtain ⟨ms,hs,hms⟩ := h.sent
  obtain ⟨ms',hs',hms'⟩ := h'.sent
  refine ⟨h'.ledger.trans h.ledger,ms ++ ms',by rw [hs',hs,append_assoc],fun m hm => ?_⟩
  exact (mem_append.mp hm).elim (hms m) (hms' m)

lemma on {f : Channel → Channel} (h : (f s.c).ledger = s.c.ledger) : Quiet s (s.on f) :=
  ⟨h,[],(append_nil _).symm,by simp⟩

lemma push {m : Msg} (h : m.control) : Quiet s (s.push m) :=
  ⟨rfl,[m],rfl,by simpa using h⟩

lemma callIf {p : Prop} [Decidable p] {f : Side → Except Stop Side}
    (hf : ∀ {s'}, f s = .ok s' → Quiet s s') (h : s.callIf p f = .ok s') : Quiet s s' := by
  unfold Side.callIf at h
  split at h
  · exact hf h
  · cases h
    exact .refl _

lemma send {m : Msg} (hm : m.control) (h : s.send m = .ok s') : Quiet s s' := by
  obtain rfl := Side.send_ok h
  exact push hm

end Quiet

section

variable {k : Compat} {s s' : Side}

lemma chanSendEof2_quiet (h : chanSendEof2 s = .ok s') : Quiet s s' := by
  unfold chanSendEof2 at h
  split at h
  · obtain ⟨s1,hs1,h⟩ := bind_eq_ok.mp h
    cases h
    exact (Quiet.send (m := .eof) trivial hs1).trans (.on rfl)
  · cases h
    exact .refl _

lemma chanSendClose2_quiet (h : chanSendClose2 s = .ok s') : Quiet s s' := by
  unfold chanSendClose2 at h
  split at h
  · cases h
    exact .refl _
  · split at h
    · cases h
      exact .refl _
    · obtain ⟨s1,hs1,h⟩ := bind_eq_ok.mp h
      cases h
      exact (Quiet.send (m := .close) trivial hs1).trans (.on rfl)

lemma chanSendEow2_quiet (h : chanSendEow2 k s = .ok s') : Quiet s s' := by
  unfold chanSendEow2 at h
  split at h
  · cases h
    exact .refl _
  · split at h
    · cases h
      exact .refl _
    · exact .send (m := .eow) trivial h

lemma chanIbufEmpty_quiet (h : chanIbufEmpty s = .ok s') : Quiet s s' := by
  unfold chanIbufEmpty at h
  split at h
  · cases h
    exact .refl _
  · split at h
    · obtain ⟨s1,hs1,h⟩ := bind_eq_ok.mp h
      cases h
      exact (Quiet.callIf chanSendEof2_quiet hs1).trans (.on rfl)
    · cases h
      exact .refl _

lemma chanRcvdOclose_quiet (h : chanRcvdOclose s = .ok s') : Quiet s s' := by
  unfold chanRcvdOclose at h
  refine Quiet.trans (.on (f := fun c => { c with closeRcvd := c.closeRcvd || !c.isLocal }) rfl) ?_
  dsimp only at h
  split at h
  · cases h
    exact .on rfl
  · refine Quiet.trans (.on (ledger_chanStartDrain _)) ?_
    split at h
    · cases h
      exact .on (by rw [ledger_istate,ledger_chanShutdownExtendedRead,ledger_chanShutdownRead])
    · obtain ⟨s1,hs1,h⟩ := bind_eq_ok.mp h
      cases h
      exact (Quiet.callIf chanSendEof2_quiet hs1).trans
        (.on (by rw [ledger_istate,ledger_chanShutdownExtendedRead]))
    · cases h
      exact .refl _

/-- A failed write empties the output of a channel whose output is not closed yet, and is
quiet otherwise. -/
lemma chanWriteFailed_quiet (h : chanWriteFailed k s = .ok s') :
    Quiet s s' ∨ Quiet (s.on fun c => { c with output := [] }) s' := by
  unfold chanWriteFailed at h
  have hshut : ∀ {r : Except Stop Side}, r = .ok s' → r = (do
        let t ← (s.on chanShutdownWrite).callIf ((s.on chanShutdownWrite).c.ctype = "session")
          (chanSendEow2 k)
        return t.on fun c => { c with ostate := .closed }) →
      Quiet (s.on fun c => { c with output := [] }) s' := by
    intro r h hr
    rw [hr] at h
    obtain ⟨s1,hs1,h⟩ := bind_eq_ok.mp h
    cases h
    have hs0 : Quiet (s.on fun c => { c with output := [] }) (s.on _) :=
      ⟨ledger_chanShutdownWrite s.c,[],(append_nil _).symm,by simp⟩
    exact (hs0.trans (Quiet.callIf chanSendEow2_quiet hs1)).trans (.on rfl)
  split at h
  · exact .inr (hshut h rfl)
  · exact .inr (hshut h rfl)
  · cases h
    exact .inl (.refl _)

lemma chanIsDead_quiet {doSend dead : Bool} (h : chanIsDead k doSend s = .ok (dead,s')) :
    Quiet s s' := by
  unfold chanIsDead at h
  split at h
  · cases h
    exact .refl _
  split at h
  · cases h
    exact .refl _
  split at h
  · cases h
    exact .refl _
  split at h
  · cases h
    exact .refl _
  split at h
  · cases h
    exact .refl _
  obtain ⟨s1,hs1,h⟩ := bind_eq_ok.mp h
  cases h
  exact .callIf chanSendClose2_quiet hs1

end

end PkixSsh.Channels
