import PkixSsh.Channels.Receipt

/-!
# The credit between two ends of a channel

What the sender may still send and what is under way add up to the window of the receiver.
-/

namespace PkixSsh.Channels

open Sshbuf Machine List

/-- Both ends of one channel, with the messages that are under way to each. -/
structure Net where
  left : Side
  right : Side
  toRight : List Msg
  toLeft : List Msg

inductive NetEvent
  | left (e : LocalEvent)
  | right (e : LocalEvent)
  | deliverLeft
  | deliverRight

namespace Net

def swap (n : Net) : Net := ⟨n.right,n.left,n.toLeft,n.toRight⟩

/-- The left side takes a step; what it sends is put on the link. -/
def stepLeft (k : Compat) (n : Net) (e : Event) : Except Stop Net := do
  let (ms,s) ← sideStep k n.left e
  return { n with left := s, toRight := n.toRight ++ ms }

def arriveLeft (k : Compat) (n : Net) : Except Stop Net :=
  match n.toLeft with
  | [] => .ok n
  | m :: rest => stepLeft k { n with toLeft := rest } (.peer m)

def step (kl kr : Compat) (n : Net) : NetEvent → Except Stop Net
  | .left e => n.stepLeft kl (.here e)
  | .right e => do
    let n ← n.swap.stepLeft kr (.here e)
    return n.swap
  | .deliverLeft => n.arriveLeft kl
  | .deliverRight => do
    let n ← n.swap.arriveLeft kr
    return n.swap

end Net

def netStep (kl kr : Compat) (n : Net) (e : NetEvent) : Except Stop (Unit × Net) := do
  let n ← n.step kl kr e
  return ((),n)

/-- The credit of the sender `s` towards the receiver `r`. -/
def InCredit (s r : Side) (fwd back : List Msg) : Prop :=
  s.c.remoteWindow.toNat + bytes fwd + adjusts back = r.c.localWindow.toNat

instance (s r : Side) (fwd back : List Msg) : Decidable (InCredit s r fwd back) :=
  inferInstanceAs (Decidable (_ = _))

/-- The messages on the link are within the credit and within the size of a packet. -/
structure Flow (s r : Side) (fwd back : List Msg) : Prop where
  credit : InCredit s r fwd back
  fits : ∀ m ∈ fwd, m.Fits r.c.localMaxpacket.toNat
  maxpacket : s.c.remoteMaxpacket.toNat ≤ r.c.localMaxpacket.toNat
  two : 2 ≤ r.c.localMaxpacket.toNat

/-- A side that can be at the end of such a link; `d` says whether it is one of datagrams. -/
structure Party (d : Bool) (s : Side) : Prop where
  sound : s.c.ledger.Sound
  live : Live s.c.type
  datagram : s.c.datagram = d

/-- What a message does to the accounts of the side that it reaches. -/
structure Credited (m : Msg) (s s' : Side) : Prop where
  remote : s'.c.remoteWindow.toNat + bytes s'.sent =
    s.c.remoteWindow.toNat + bytes s.sent + m.adjust
  window : s'.c.localWindow.toNat + m.bytes + adjusts s.sent =
    s.c.localWindow.toNat + adjusts s'.sent
  fits : ∀ m' ∈ s'.sent, m' ∈ s.sent ∨ m'.Fits (max s.c.remoteMaxpacket.toNat 2)
  remoteMaxpacket : s'.c.remoteMaxpacket = s.c.remoteMaxpacket
  localMaxpacket : s'.c.localMaxpacket = s.c.localMaxpacket
  datagram : s'.c.datagram = s.c.datagram
  type : Evolves s.c.type s'.c.type
  sound : s'.c.ledger.Sound

section

variable {k : Compat} {m : Msg} {s s' r : Side} {fwd back rest : List Msg}

lemma Books.credited (h : Books s s') (hm : m.bytes = 0 ∧ m.adjust = 0) : Credited m s s' := by
  refine ⟨?_,?_,h.fits,h.remoteMaxpacket,h.localMaxpacket,h.datagram,h.type,h.sound⟩
  · rw [hm.2]
    exact h.remote
  · rw [hm.1]
    exact h.window

lemma Taken.credited {n lost : Nat} (h : Taken n lost s s') (hb : m.bytes = n)
    (ha : m.adjust = 0) : Credited m s s' := by
  refine ⟨?_,?_,fun m' hm' => .inl (h.sent ▸ hm'),h.remoteMaxpacket,h.localMaxpacket,h.datagram,?_,
    h.sound⟩
  · rw [h.sent,h.remoteWindow,ha]
    rfl
  · rw [h.sent,hb,h.window]
  · rw [h.type]
    exact .refl _

/-- The message finds a channel that accounts for it: data a stream, extended data an open
descriptor for it. -/
def Accounted (c : Channel) : Msg → Prop
  | .data _ => c.datagram = false
  | .extendedData _ _ => c.type = .opened ∧ c.efd ≠ none ∧ c.extendedUsage = .write
  | _ => True

lemma channelInputData_credited {v : Bytes} (hp : Party false s)
    (hw : v.length ≤ s.c.localWindow.toNat) (hm : v.length ≤ s.c.localMaxpacket.toNat)
    (h : channelInputData v s = .ok s') : Credited (.data v) s s' := by
  have hlen : winLen s.c v = v.length := by simp [winLen,hp.datagram]
  rcases channelInputData_spec hp.sound (fun _ _ => hlen ▸ hw) h with ⟨hdrop,rfl⟩ | ⟨-,htaken⟩
  · have hlarval : s'.c.type = .larval := by
      rcases hdrop with hno | ⟨-,hbig⟩
      · exact hp.live.resolve_left hno
      · omega
    have hzero := (hp.sound.larval hlarval).1
    refine Books.credited ((Quiet.refl s').accounts hp.sound).toBooks ⟨?_,rfl⟩
    have hz : s'.c.localWindow.toNat = 0 := by
      rw [show s'.c.localWindow = 0 from hzero]
      rfl
    change v.length = 0
    omega
  · exact htaken.credited hlen.symm rfl

lemma receive_credited {d : Bool} (hp : Party d s) (hacc : Accounted s.c m)
    (hw : m.bytes ≤ s.c.localWindow.toNat) (hm : m.Fits s.c.localMaxpacket.toNat)
    (h : receive k m s = .ok s') : Credited m s s' := by
  have hquiet : Quiet s s' → m.bytes = 0 ∧ m.adjust = 0 → Credited m s s' :=
    fun hq hz => Books.credited (hq.accounts hp.sound).toBooks hz
  have hopening : s.c.type ≠ .opening := by
    intro ht
    rcases hp.live with hlive | hlive
    · rw [ht] at hlive
      exact absurd hlive (by decide)
    · rw [ht] at hlive
      cases hlive
  cases m with
  | openRequest | request =>
    cases h
    exact hquiet (.refl s) ⟨rfl,rfl⟩
  | openConfirmation window maxpacket =>
    rw [receive,channelInputOpenConfirmation,if_pos hopening] at h
    cases h
  | openFailure =>
    rw [receive,channelInputOpenFailure,if_pos hopening] at h
    cases h
  | data v => exact channelInputData_credited ⟨hp.sound,hp.live,hacc⟩ hw hm h
  | extendedData tcode v =>
    obtain ⟨ht,hefd,hu⟩ := hacc
    rcases channelInputExtendedData_spec hp.sound h with ⟨hdrop,-⟩ | ⟨-,lost,htaken⟩
    · rcases hdrop with hno | (hno | hno | hno) | hbig
      · exact absurd ht hno
      · exact absurd hno hefd
      · exact absurd hu hno
      · exact absurd hm.1 hno
      · exact absurd hbig (not_lt.mpr hw)
    · exact htaken.credited rfl rfl
  | windowAdjust adjust =>
    rw [receive,channelInputWindowAdjust] at h
    split at h
    · cases h
    · next hno =>
      cases h
      have hsum : (s.c.remoteWindow + adjust).toNat = s.c.remoteWindow.toNat + adjust.toNat := by
        have hle := UInt32.le_iff_toNat_le.mp (UInt32.not_lt.mp hno)
        have ha := adjust.toNat_lt
        rw [UInt32.toNat_add] at hle ⊢
        omega
      have hs := hp.sound
      refine ⟨?_,by simp [Msg.bytes,Side.on],fun _ => .inl,rfl,rfl,rfl,.refl _,
        ⟨hs.bound,hs.socks,hs.larval,hs.control⟩⟩
      change (s.c.remoteWindow + adjust).toNat + _ = _
      change _ + bytes s.sent = _ + bytes _ + adjust.toNat
      omega
  | eof | eow | close => exact hquiet (receive_quiet (by simp) h) ⟨rfl,rfl⟩

lemma Msg.Fits.mono {n n' : Nat} (h : m.Fits n) (hn : n ≤ n') : m.Fits n' := by
  cases m with
  | data v => exact le_trans h hn
  | extendedData tcode v => exact ⟨h.1,le_trans h.2 hn⟩
  | _ => trivial

lemma Flow.sends (h : Flow s r fwd back) (hs : s.sent = []) (hb : Books s s') :
    Flow s' r (fwd ++ s'.sent) back := by
  have hremote := hb.remote
  rw [hs] at hremote
  refine ⟨?_,?_,?_,h.two⟩
  · have hc := h.credit
    unfold InCredit at hc ⊢
    rw [bytes_append]
    simp only [bytes_nil] at hremote
    omega
  · intro m hm
    rcases mem_append.mp hm with hm | hm
    · exact h.fits m hm
    · rcases hb.fits m hm with hold | hfit
      · rw [hs] at hold
        cases hold
      · exact hfit.mono (max_le h.maxpacket h.two)
  · rw [hb.remoteMaxpacket]
    exact h.maxpacket

lemma Flow.receives (h : Flow s r fwd back) {r' : Side} (hr : r.sent = []) (hb : Books r r') :
    Flow s r' fwd (back ++ r'.sent) := by
  have hwindow := hb.window
  rw [hr] at hwindow
  refine ⟨?_,?_,?_,?_⟩
  · have hc := h.credit
    unfold InCredit at hc ⊢
    rw [adjusts_append]
    simp only [adjusts_nil] at hwindow
    omega
  · rw [hb.localMaxpacket]
    exact h.fits
  · rw [hb.localMaxpacket]
    exact h.maxpacket
  · rw [hb.localMaxpacket]
    exact h.two

lemma Flow.delivers {r' : Side} (h : Flow s r (m :: fwd) back) (hr : r.sent = [])
    (hm : Credited m r r') : Flow s r' fwd (back ++ r'.sent) := by
  have hwindow := hm.window
  rw [hr] at hwindow
  refine ⟨?_,?_,?_,?_⟩
  · have hc := h.credit
    unfold InCredit at hc ⊢
    rw [bytes_cons] at hc
    rw [adjusts_append]
    simp only [adjusts_nil] at hwindow
    omega
  · rw [hm.localMaxpacket]
    exact fun m' hm' => h.fits m' (mem_cons_of_mem m hm')
  · rw [hm.localMaxpacket]
    exact h.maxpacket
  · rw [hm.localMaxpacket]
    exact h.two

lemma Flow.heard (h : Flow s r fwd (m :: back)) (hs : s.sent = []) (hm : Credited m s s') :
    Flow s' r (fwd ++ s'.sent) back := by
  have hremote := hm.remote
  rw [hs] at hremote
  refine ⟨?_,?_,?_,h.two⟩
  · have hc := h.credit
    unfold InCredit at hc ⊢
    rw [adjusts_cons] at hc
    rw [bytes_append]
    simp only [bytes_nil] at hremote
    omega
  · intro m' hm'
    rcases mem_append.mp hm' with hm' | hm'
    · exact h.fits m' hm'
    · rcases hm.fits m' hm' with hold | hfit
      · rw [hs] at hold
        cases hold
      · exact hfit.mono (max_le h.maxpacket h.two)
  · rw [hm.remoteMaxpacket]
    exact h.maxpacket

end

structure Net.Balanced (d d' : Bool) (n : Net) : Prop where
  left : Party d n.left
  right : Party d' n.right
  ltr : Flow n.left n.right n.toRight n.toLeft
  rtl : Flow n.right n.left n.toLeft n.toRight

/-- The channel is in credit as long as both sides have it. -/
def Net.Holds (d d' : Bool) (n : Net) : Prop :=
  n.left.freed = false → n.right.freed = false → n.Balanced d d'

namespace Net

variable {k kl kr : Compat} {n n' : Net} {d d' : Bool}

lemma Balanced.swap (h : n.Balanced d d') : n.swap.Balanced d' d := ⟨h.right,h.left,h.rtl,h.ltr⟩

lemma Holds.swap (h : n.Holds d d') : n.swap.Holds d' d := fun hl hr => (h hr hl).swap

lemma stepLeft_holds {e : LocalEvent} (hn : n.Holds d d')
    (hq : n.Balanced d d' → Silent n.left.c e)
    (h : n.stepLeft k (.here e) = .ok n') : n'.Holds d d' := by
  obtain ⟨⟨ms,s⟩,hs,h⟩ := bind_eq_ok.mp h
  cases h
  intro hl hr
  have hfreed := freed_of_sideStep hs hl
  have hq := hq (hn hfreed hr)
  obtain ⟨hleft,hright,hltr,hrtl⟩ := hn hfreed hr
  obtain ⟨rfl,hstep⟩ := sideStep_here hs
  have hstep := (hstep.resolve_left fun hf => by rw [hfreed] at hf; cases hf.1).2
  have hbooks : Books { n.left with sent := [] } s := by
    rcases localStep_accounts (s := { n.left with sent := [] }) hleft.sound hq hstep with
      ⟨hb,-⟩ | ⟨lost,ha,-⟩
    · exact hb
    · exact ha.toBooks
  have hltr' : Flow { n.left with sent := [] } _ _ _ :=
    ⟨hltr.credit,hltr.fits,hltr.maxpacket,hltr.two⟩
  have hrtl' : Flow _ { n.left with sent := [] } _ _ :=
    ⟨hrtl.credit,hrtl.fits,hrtl.maxpacket,hrtl.two⟩
  exact ⟨⟨hbooks.sound,hbooks.type.live hleft.live,hbooks.datagram.trans hleft.datagram⟩,hright,
    hltr'.sends rfl hbooks,hrtl'.receives rfl hbooks⟩

lemma arriveLeft_holds (hn : n.Holds d d')
    (hacc : n.Balanced d d' → ∀ m rest, n.toLeft = m :: rest → Accounted n.left.c m)
    (h : n.arriveLeft k = .ok n') : n'.Holds d d' := by
  unfold arriveLeft at h
  split at h
  · cases h
    exact hn
  next m rest hlink =>
  obtain ⟨⟨ms,s⟩,hs,h⟩ := bind_eq_ok.mp h
  cases h
  intro hl hr
  have hfreed := freed_of_sideStep hs hl
  have hacc := hacc (hn hfreed hr)
  obtain ⟨hleft,hright,hltr,hrtl⟩ := hn hfreed hr
  rw [hlink] at hltr hrtl
  obtain ⟨rfl,hstep⟩ := sideStep_peer hs
  have hstep := (hstep.resolve_left fun hf => by rw [hfreed] at hf; cases hf.1).2
  have hparty : Party d { n.left with sent := [] } := ⟨hleft.sound,hleft.live,hleft.datagram⟩
  have hwithin : m.bytes ≤ n.left.c.localWindow.toNat := by
    have hc := hrtl.credit
    unfold InCredit at hc
    rw [bytes_cons] at hc
    omega
  have hm : Credited m _ s :=
    receive_credited hparty (hacc m rest hlink) hwithin (hrtl.fits m mem_cons_self) hstep
  have hltr' : Flow { n.left with sent := [] } _ _ _ :=
    ⟨hltr.credit,hltr.fits,hltr.maxpacket,hltr.two⟩
  have hrtl' : Flow _ { n.left with sent := [] } _ _ :=
    ⟨hrtl.credit,hrtl.fits,hrtl.maxpacket,hrtl.two⟩
  exact ⟨⟨hm.sound,hm.type.live hleft.live,hm.datagram.trans hleft.datagram⟩,hright,
    hltr'.heard rfl hm,hrtl'.delivers rfl hm⟩

end Net

/-- Events that the credit accounts for: no text of this side's own is buffered, and what arrives
finds a channel that accounts for it. -/
def Credible (n : Net) : NetEvent → Prop
  | .left e => Silent n.left.c e
  | .right e => Silent n.right.c e
  | .deliverLeft => ∀ m rest, n.toLeft = m :: rest → Accounted n.left.c m
  | .deliverRight => ∀ m rest, n.toRight = m :: rest → Accounted n.right.c m

lemma netStep_holds {kl kr : Compat} {d d' : Bool} {n n' : Net} {e : NetEvent} {o : Unit}
    (hn : n.Holds d d') (he : n.Balanced d d' → Credible n e)
    (h : netStep kl kr n e = .ok (o,n')) : n'.Holds d d' := by
  obtain ⟨n1,hn1,h⟩ := bind_eq_ok.mp h
  cases h
  cases e with
  | left e => exact Net.stepLeft_holds hn he hn1
  | right e =>
    obtain ⟨n2,hn2,hn1⟩ := bind_eq_ok.mp hn1
    cases hn1
    exact (Net.stepLeft_holds hn.swap (fun hb => he hb.swap) hn2).swap
  | deliverLeft => exact Net.arriveLeft_holds hn he hn1
  | deliverRight =>
    obtain ⟨n2,hn2,hn1⟩ := bind_eq_ok.mp hn1
    cases hn1
    exact (Net.arriveLeft_holds hn.swap (fun hb => he hb.swap) hn2).swap

/-- One side of a channel that has just been opened, with nothing buffered: a larval session has no
window yet, and only open sessions are multiplexed. -/
structure Fresh (s : Side) : Prop where
  live : Live s.c.type
  localConsumed : s.c.localConsumed = 0
  input : s.c.input = []
  output : s.c.output = []
  extended : s.c.extended = []
  larval : s.c.type = .larval → s.c.localWindow = 0
  control : s.c.ctlChan ≠ none → s.c.type = .opened

lemma fresh_channelNew {ctype : String} {t : ChannelType} {rfd wfd efd : Option Nat}
    {window maxpack remoteWindow remoteMaxpacket : UInt32} {extusage : ExtendedUsage}
    {haveRemoteId datagram : Bool} {sent : List Msg} (ht : Live t) (hw : t = .larval → window = 0) :
    Fresh ⟨{ channelNew ctype t rfd wfd efd window maxpack extusage with
      haveRemoteId, remoteWindow, remoteMaxpacket, datagram },sent,false⟩ :=
  ⟨ht,rfl,rfl,rfl,rfl,hw,fun h => absurd rfl h⟩

lemma Fresh.pool {s : Side} (h : Fresh s) : s.c.ledger.pool = s.c.localWindow.toNat := by
  simp only [Ledger.pool,Channel.ledger,h.localConsumed,h.output,h.extended,held,length_nil,
    ite_self]
  rfl

lemma Fresh.party {s : Side} (h : Fresh s) : Party s.c.datagram s := by
  refine ⟨⟨?_,fun _ => ?_,fun ht => ?_,fun hc _ => h.control hc⟩,h.live,rfl⟩
  · rw [h.pool]
    exact s.c.localWindow.toNat_lt
  · rw [show s.c.ledger.input = [] from h.input]
    exact ⟨Nat.zero_le 2,fun _ => rfl⟩
  · exact ⟨h.larval ht,h.localConsumed,h.output,h.extended⟩

/-- The channel has just been opened: each side knows the window and the packet size of the other
from the messages that opened it. What a SOCKS request has left in the buffers may stand there. -/
structure Opened (n : Net) : Prop where
  left : Party n.left.c.datagram n.left
  right : Party n.right.c.datagram n.right
  toRight : n.toRight = []
  toLeft : n.toLeft = []
  ltrWindow : n.left.c.remoteWindow = n.right.c.localWindow
  rtlWindow : n.right.c.remoteWindow = n.left.c.localWindow
  ltrMaxpacket : n.left.c.remoteMaxpacket = n.right.c.localMaxpacket
  rtlMaxpacket : n.right.c.remoteMaxpacket = n.left.c.localMaxpacket
  leftMaxpacket : 2 ≤ n.left.c.localMaxpacket.toNat
  rightMaxpacket : 2 ≤ n.right.c.localMaxpacket.toNat

lemma Opened.balanced {n : Net} (h : Opened n) :
    n.Balanced n.left.c.datagram n.right.c.datagram := by
  refine ⟨h.left,h.right,⟨?_,?_,?_,h.rightMaxpacket⟩,⟨?_,?_,?_,h.leftMaxpacket⟩⟩
  · simp [InCredit,h.toRight,h.toLeft,h.ltrWindow]
  · simp [h.toRight]
  · rw [h.ltrMaxpacket]
  · simp [InCredit,h.toRight,h.toLeft,h.rtlWindow]
  · simp [h.toLeft]
  · rw [h.rtlMaxpacket]

def smallSide (extusage : ExtendedUsage) (datagram : Bool) : Side :=
  { c := { channelNew "session" .opened (some 3) (some 4) (some 5) 16 8 extusage with
           haveRemoteId := true, remoteWindow := 16, remoteMaxpacket := 8, datagram }
    sent := [], freed := false }

def smallNet (l r : ExtendedUsage) (datagram : Bool) : Net :=
  ⟨smallSide l datagram,smallSide r datagram,[],[]⟩

lemma fresh_smallSide (u : ExtendedUsage) (d : Bool) : Fresh (smallSide u d) :=
  fresh_channelNew (.inl (.inl rfl)) (by rintro ⟨⟩)

lemma opened_smallNet (l r : ExtendedUsage) (d : Bool) : Opened (smallNet l r d) := by
  have htwo : 2 ≤ (8 : UInt32).toNat := by decide
  exact ⟨(fresh_smallSide l d).party,(fresh_smallSide r d).party,rfl,rfl,rfl,rfl,rfl,rfl,htwo,htwo⟩

def readsInput (v : Bytes) : LocalEvent := .post { Io.idle with rset := true, rfd := .got v }

def readsStderr (v : Bytes) : LocalEvent := .post { Io.idle with eset := true, efdRead := .got v }

/-- In every run whose messages find channels that account for them, the credit of both directions
equals the window of the receiver as long as both sides have the channel. -/
theorem netRun_inCredit {kl kr : Compat} {n n' : Net} {es : List NetEvent} {os : List Unit}
    (hn : Opened n) (hg : Guarded (netStep kl kr) Credible n es)
    (hrun : run (netStep kl kr) n es = .ok (os,n')) (hl : n'.left.freed = false)
    (hr : n'.right.freed = false) : InCredit n'.left n'.right n'.toRight n'.toLeft ∧
      InCredit n'.right n'.left n'.toLeft n'.toRight := by
  have hholds : n'.Holds _ _ :=
    run_invariant (fun _ _ _ _ hn he hok => netStep_holds hn (fun _ => he) hok)
      (fun _ _ => hn.balanced) hg hrun
  have hbal := hholds hl hr
  exact ⟨hbal.ltr.credit,hbal.rtl.credit⟩

theorem netRun_inCredit_stderr :
    ∃ n', run (netStep ⟨true,false⟩ ⟨true,false⟩) (smallNet .read .write false)
      [.left (readsStderr [1]),.left .poll,.deliverRight] = .ok ([(),(),()],n') ∧
      n'.left.c.remoteWindow = 15 ∧ InCredit n'.left n'.right n'.toRight n'.toLeft ∧
      InCredit n'.right n'.left n'.toLeft n'.toRight := by
  obtain ⟨n',hrun,hl,hr,hw⟩ : ∃ n', run (netStep _ _) (smallNet .read .write false)
      [.left (readsStderr [1]),.left .poll,.deliverRight] = .ok _ ∧
      n'.left.freed = false ∧ n'.right.freed = false ∧ n'.left.c.remoteWindow = 15 :=
    ⟨_,rfl,rfl,rfl,rfl⟩
  refine ⟨n',hrun,hw,netRun_inCredit (opened_smallNet .read _ false) ?_ hrun hl hr⟩
  refine .cons nofun rfl (.cons trivial rfl (.cons (fun m rest h => ?_) rfl trivial))
  cases h
  exact ⟨rfl,by decide,rfl⟩

/-- The receiver drops what arrives for a stderr that it has closed and counts the header of a
datagram, and the sender does neither. -/
theorem netRun_drifts : (∃ n', run (netStep ⟨true,false⟩ ⟨true,false⟩) (smallNet .read .write false)
      [.left (readsStderr [1]),.left .poll,.deliverRight,
        .right (.post { Io.idle with eset := true, efdWrite := .failed }),
        .left (readsStderr [2]),.left .poll,.deliverRight] = .ok ([(),(),(),(),(),(),()],n') ∧
      n'.left.freed = false ∧ n'.right.freed = false ∧
      ¬ InCredit n'.left n'.right n'.toRight n'.toLeft) ∧
    ∃ n', run (netStep ⟨true,false⟩ ⟨true,false⟩) (smallNet .ignore .ignore true)
      [.left (readsInput [7]),.left .poll,.deliverRight] = .ok ([(),(),()],n') ∧
      n'.left.freed = false ∧ n'.right.freed = false ∧
      ¬ InCredit n'.left n'.right n'.toRight n'.toLeft :=
  ⟨⟨_,rfl,rfl,rfl,by decide +kernel⟩,⟨_,rfl,rfl,rfl,by decide +kernel⟩⟩

/-- Events of a channel that carries only CHANNEL_DATA: no extended data arrives, and no text of
this side's own is buffered. -/
def Streams (n : Net) : NetEvent → Prop
  | .left e => Silent n.left.c e
  | .right e => Silent n.right.c e
  | .deliverLeft => ∀ tcode v rest, n.toLeft ≠ .extendedData tcode v :: rest
  | .deliverRight => ∀ tcode v rest, n.toRight ≠ .extendedData tcode v :: rest

/-- What the sender has sent is in its credit and within the window, and the receiver does not
drop the data that arrive next. -/
structure Conforms (s r : Side) (fwd back : List Msg) : Prop where
  credit : InCredit s r fwd back
  within : bytes fwd ≤ r.c.localWindow.toNat
  taken : ∀ v rest, fwd = .data v :: rest → v ≠ [] → ¬ Drops r.c v

lemma Flow.conforms {s r : Side} {fwd back : List Msg} (h : Flow s r fwd back)
    (hr : Party false r) : Conforms s r fwd back := by
  have hwithin : bytes fwd ≤ r.c.localWindow.toNat := by
    have hc := h.credit
    unfold InCredit at hc
    omega
  refine ⟨h.credit,hwithin,?_⟩
  rintro v rest rfl hv hdrop
  have hlen : winLen r.c v = v.length := by simp [winLen,hr.datagram]
  have hw : v.length ≤ r.c.localWindow.toNat := by
    exact le_trans (Nat.le_add_right _ _) hwithin
  have hm : v.length ≤ r.c.localMaxpacket.toNat := h.fits _ mem_cons_self
  rcases hdrop with hno | ⟨-,hbig⟩
  · -- only a larval channel is left, and its window is empty
    have hzero := (hr.sound.larval (hr.live.resolve_left hno)).1
    rw [show r.c.localWindow = 0 from hzero] at hw
    exact hv (length_eq_zero_iff.mp (Nat.le_zero.mp hw))
  · omega

lemma streams_accounted {c : Channel} {link : List Msg} (hd : c.datagram = false)
    (h : ∀ tcode v rest, link ≠ .extendedData tcode v :: rest) :
    ∀ m rest, link = m :: rest → Accounted c m := by
  rintro m rest rfl
  cases m with
  | data v => exact hd
  | extendedData tcode v => exact absurd rfl (h tcode v rest)
  | _ => trivial

/-- A stream that carries only CHANNEL_DATA keeps its credit in every interleaving and within the
window, and loses no data. -/
theorem netRun_conforms {kl kr : Compat} {n n' : Net} {es : List NetEvent} {os : List Unit}
    (hn : Opened n) (hdl : n.left.c.datagram = false) (hdr : n.right.c.datagram = false)
    (hg : Guarded (netStep kl kr) Streams n es) (hrun : run (netStep kl kr) n es = .ok (os,n'))
    (hl : n'.left.freed = false) (hr : n'.right.freed = false) :
    Conforms n'.left n'.right n'.toRight n'.toLeft ∧
      Conforms n'.right n'.left n'.toLeft n'.toRight := by
  have hstep : ∀ n e o n', n.Holds false false → Streams n e → netStep kl kr n e = .ok (o,n') →
      n'.Holds false false := by
    intro n e o n' hn he hok
    refine netStep_holds hn (fun hb => ?_) hok
    cases e with
    | left e | right e => exact he
    | deliverLeft => exact streams_accounted hb.left.datagram he
    | deliverRight => exact streams_accounted hb.right.datagram he
  have hstart : n.Holds false false := by
    have hb := hn.balanced
    rw [hdl,hdr] at hb
    exact fun _ _ => hb
  have hbal := run_invariant hstep hstart hg hrun hl hr
  exact ⟨hbal.ltr.conforms hbal.right,hbal.rtl.conforms hbal.left⟩

theorem netRun_conforms_data :
    ∃ n', run (netStep ⟨true,false⟩ ⟨true,false⟩) (smallNet .read .write false)
      [.left (readsInput [7]),.left .poll,.deliverRight] = .ok ([(),(),()],n') ∧
      n'.right.c.output = [7] ∧ Conforms n'.left n'.right n'.toRight n'.toLeft ∧
      Conforms n'.right n'.left n'.toLeft n'.toRight := by
  obtain ⟨n',hrun,hl,hr,hout⟩ : ∃ n', run (netStep _ _) (smallNet .read .write false)
      [.left (readsInput [7]),.left .poll,.deliverRight] = .ok _ ∧
      n'.left.freed = false ∧ n'.right.freed = false ∧ n'.right.c.output = [7] :=
    ⟨_,rfl,rfl,rfl,rfl⟩
  refine ⟨n',hrun,hout,netRun_conforms (opened_smallNet .read _ false) rfl rfl ?_ hrun hl hr⟩
  refine .cons nofun rfl (.cons trivial rfl (.cons (fun t v rest h => ?_) rfl trivial))
  cases h

end PkixSsh.Channels
