import PkixSsh.Channels.Credit

/-!
# The receive window of one side

The window, what was consumed and what is buffered add up to the largest window as long as no
buffered output is given up.
-/

namespace PkixSsh.Channels

open Sshbuf Machine

section

variable {k : Compat} {s s' : Side} {e : Event} {ms : List Msg}

/-- Every byte of the window of an open stream is accounted for. -/
structure Full (s : Side) : Prop where
  sound : s.c.ledger.Sound
  type : s.c.type = .opened
  datagram : s.c.datagram = false
  pool : s.c.ledger.pool = s.c.localWindowMax.toNat
  stderr : held s.c.extendedUsage s.c.extended = 0

lemma Fresh.full (h : Fresh s) (ht : s.c.type = .opened) (hd : s.c.datagram = false)
    (hw : s.c.localWindow = s.c.localWindowMax) : Full s := by
  refine ⟨h.party.sound,ht,hd,?_,?_⟩
  · rw [h.pool,hw]
  · simp [held,h.extended]

/-- The peer sends data within its window and in packets it may send, and no extended data; this
side does not give up an output that holds bytes. -/
def Conserves (s : Side) : Event → Prop
  | .here e => Silent s.c e ∧ Lossless s.c e
  | .peer (.data v) => v.length ≤ s.c.localWindow.toNat ∧ v.length ≤ s.c.localMaxpacket.toNat
  | .peer (.extendedData _ _) => False
  | .peer _ => True

lemma Accounts.full (h : Accounts 0 s s') (hs : Full s) : Full s' := by
  refine ⟨h.sound,h.type.opened hs.type,h.datagram.trans hs.datagram,?_,?_⟩
  · rw [h.localWindowMax,← hs.pool]
    exact h.pool
  · exact Nat.le_zero.mp (hs.stderr ▸ h.stderr)

lemma channelInputData_full {v : Bytes} (hs : Full s) (hv : v.length ≤ s.c.localWindow.toNat)
    (h : channelInputData v s = .ok s') : Full s' := by
  have hlen : winLen s.c v = v.length := by simp [winLen,hs.datagram]
  rcases channelInputData_spec hs.sound (fun _ _ => hlen ▸ hv) h with ⟨-,rfl⟩ | ⟨-,htaken⟩
  · exact hs
  · obtain ⟨hu,he⟩ := channelInputData_extended h
    refine ⟨htaken.sound,htaken.type.trans hs.type,htaken.datagram.trans hs.datagram,?_,?_⟩
    · rw [htaken.localWindowMax,← hs.pool]
      exact htaken.pool
    · rw [hu,he]
      exact hs.stderr

lemma localStep_full {e : LocalEvent} (hs : Full s) (hq : Silent s.c e) (hl : Lossless s.c e)
    (h : localStep k e s = .ok s') : Full s' := by
  rcases localStep_accounts hs.sound hq h with ⟨-,ht,-⟩ | ⟨lost,hacc,hzero⟩
  · rw [hs.type] at ht
    cases ht
  · obtain rfl := hzero hs.type hs.datagram hl
    exact hacc.full hs

lemma Ledger.Sound.setRemote {l : Ledger} (h : l.Sound) (w m : UInt32) :
    ({ l with remoteWindow := w, remoteMaxpacket := m }).Sound :=
  ⟨h.bound,h.socks,h.larval,h.control⟩

lemma receive_full {m : Msg} (hs : Full s) (hm : Conserves s (.peer m))
    (h : receive k m s = .ok s') : Full s' := by
  have hquiet : Quiet s s' → Full s' := fun hq => (hq.accounts hs.sound).full hs
  have hopening : s.c.type ≠ .opening := by
    rw [hs.type]
    decide
  cases m with
  | openRequest | request =>
    cases h
    exact hs
  | openConfirmation window maxpacket =>
    rw [receive,channelInputOpenConfirmation,if_pos hopening] at h
    cases h
  | openFailure =>
    rw [receive,channelInputOpenFailure,if_pos hopening] at h
    cases h
  | data v => exact channelInputData_full hs hm.1 h
  | extendedData tcode v => exact hm.elim
  | windowAdjust adjust =>
    rw [receive,channelInputWindowAdjust] at h
    split at h
    · cases h
    · cases h
      exact ⟨hs.sound.setRemote _ _,hs.type,hs.datagram,hs.pool,hs.stderr⟩
  | eof | eow | close => exact hquiet (receive_quiet (by simp) h)

lemma sideStep_full (hs : Full s) (he : Conserves s e) (h : sideStep k s e = .ok (ms,s')) :
    Full s' := by
  have hs0 : Full { s with sent := [] } := ⟨hs.sound,hs.type,hs.datagram,hs.pool,hs.stderr⟩
  cases e with
  | here e =>
    rcases (sideStep_here h).2 with ⟨-,rfl⟩ | ⟨-,hstep⟩
    · exact hs0
    · exact localStep_full hs0 he.1 he.2 hstep
  | peer m =>
    rcases (sideStep_peer h).2 with ⟨-,-,rfl⟩ | ⟨-,hstep⟩
    · exact hs0
    · refine receive_full hs0 ?_ hstep
      cases m with
      | data v => exact he
      | extendedData tcode v => exact he
      | _ => trivial

/-- An open channel whose peer has used up half of the window gets it back as soon as what it sent
was written. -/
lemma channelCheckWindow_refills (hs : Full s) (hid : s.c.haveRemoteId = true)
    (hc : s.c.closeSent = false) (hr : s.c.closeRcvd = false) (hout : s.c.output = [])
    (hlow : s.c.localWindow < s.c.localWindowMax / 2) :
    ∃ t, channelCheckWindow s = .ok t ∧ t.c.localWindow = s.c.localWindowMax ∧
      t.sent = s.sent ++ [.windowAdjust s.c.localConsumed] := by
  have hpool := hs.pool
  simp only [Ledger.pool,Channel.ledger,hout,hs.stderr,List.length_nil,Nat.add_zero] at hpool
  have hlow' : s.c.localWindow.toNat < s.c.localWindowMax.toNat / 2 :=
    UInt32.lt_iff_toNat_lt.mp hlow
  have hpos : s.c.localConsumed > 0 := by
    rw [gt_iff_lt,UInt32.lt_iff_toNat_lt,UInt32.toNat_zero]
    omega
  have hsum : s.c.localWindow + s.c.localConsumed = s.c.localWindowMax := by
    apply UInt32.toNat_inj.mp
    have hlt := s.c.localWindowMax.toNat_lt
    rw [UInt32.toNat_add,hpool,Nat.mod_eq_of_lt hlt]
  refine ⟨(s.push _).on fun c =>
    { c with localWindow := c.localWindow + c.localConsumed, localConsumed := 0 },?_,hsum,rfl⟩
  rw [channelCheckWindow,if_pos ⟨hs.type,by simp [hc,hr],.inr hlow,hpos⟩,Side.send,if_pos hid]
  rfl

/-- In every run of a stream that was opened with nothing buffered, with a conforming peer and no
output given up, the window, what was consumed and what is buffered make up the largest window. -/
theorem sideRun_keepsCredit {es : List Event} {os : List (List Msg)} (hs : Fresh s)
    (ht : s.c.type = .opened) (hd : s.c.datagram = false)
    (hw : s.c.localWindow = s.c.localWindowMax) (hg : Guarded (sideStep k) Conserves s es)
    (hrun : run (sideStep k) s es = .ok (os,s')) :
    s'.c.localWindow.toNat + s'.c.localConsumed.toNat + s'.c.output.length =
      s'.c.localWindowMax.toNat ∧
    (s'.c.haveRemoteId = true → s'.c.closeSent = false → s'.c.closeRcvd = false →
      s'.c.output = [] → s'.c.localWindow < s'.c.localWindowMax / 2 →
      ∃ t, channelCheckWindow s' = .ok t ∧ t.c.localWindow = s'.c.localWindowMax ∧
        t.sent = s'.sent ++ [.windowAdjust s'.c.localConsumed]) := by
  have hfull : Full s' := run_invariant (fun _ _ _ _ hs he hok => sideStep_full hs he hok)
    (hs.full ht hd hw) hg hrun
  refine ⟨?_,channelCheckWindow_refills hfull⟩
  have hpool := hfull.pool
  simp only [Ledger.pool,Channel.ledger,hfull.stderr,Nat.add_zero] at hpool
  exact hpool

def writesOutput (n : Nat) : LocalEvent := .post { Io.idle with wset := true, wfd := .wrote n }

theorem sideRun_keepsCredit_written : ∃ s', run (sideStep ⟨true,false⟩) (smallSide .read false)
      [.here (readsStderr [1]),.peer (.data [1,2,3]),.here (writesOutput 3),.peer .eof,
        .peer (.data [1,2,3,4,5,6,7,8])] = .ok ([[],[],[],[],[]],s') ∧ s'.c.extended = [1] ∧
      s'.c.localWindow.toNat + s'.c.localConsumed.toNat + s'.c.output.length =
        s'.c.localWindowMax.toNat ∧
      ∃ t, channelCheckWindow s' = .ok t ∧ t.c.localWindow = s'.c.localWindowMax ∧
        t.sent = s'.sent ++ [.windowAdjust s'.c.localConsumed] := by
  obtain ⟨s',hrun,hext,hid,hc,hr,hout,hlow⟩ : ∃ s', run (sideStep _)
      (smallSide .read false) [.here (readsStderr [1]),.peer (.data [1,2,3]),
        .here (writesOutput 3),.peer .eof,.peer (.data [1,2,3,4,5,6,7,8])] =
        .ok _ ∧ s'.c.extended = [1] ∧ s'.c.haveRemoteId = true ∧
      s'.c.closeSent = false ∧ s'.c.closeRcvd = false ∧ s'.c.output = [] ∧
      s'.c.localWindow < s'.c.localWindowMax / 2 :=
    ⟨_,rfl,rfl,rfl,rfl,rfl,rfl,by decide +kernel⟩
  have hkeeps := sideRun_keepsCredit (fresh_smallSide .read false) rfl rfl rfl ?_ hrun
  · exact ⟨s',hrun,hext,hkeeps.1,hkeeps.2 hid hc hr hout hlow⟩
  · refine .cons ⟨nofun,nofun⟩ rfl (.cons ⟨by decide,by decide⟩ rfl (.cons ⟨nofun,nofun⟩ rfl ?_))
    exact .cons trivial rfl (.cons ⟨by decide +kernel,by decide⟩ rfl trivial)

/-- A write that fails with the whole window buffered: the buffer is reset, the window stays empty
and `channel_check_window` has nothing to give back. -/
theorem sideRun_losesCredit : ∃ os s', run (sideStep ⟨true,false⟩) (smallSide .ignore false)
      [.peer (.data [1,2,3,4,5,6,7,8]),.peer (.data [1,2,3,4,5,6,7,8]),
        .here (.post { Io.idle with wset := true, wfd := .failed })] = .ok (os,s') ∧
      s'.c.type = .opened ∧ s'.c.closeSent = false ∧ s'.c.closeRcvd = false ∧ s'.c.extended = [] ∧
      s'.c.localWindow.toNat + s'.c.localConsumed.toNat + s'.c.output.length ≠
        s'.c.localWindowMax.toNat ∧ s'.c.localWindow = 0 ∧ channelCheckWindow s' = .ok s' :=
  ⟨_,_,rfl,rfl,rfl,rfl,rfl,by decide +kernel,rfl,rfl⟩

/-- The credit and what is buffered are within the largest window. -/
structure Bounded (s : Side) : Prop where
  sound : s.c.ledger.Sound
  pool : s.c.ledger.pool ≤ s.c.localWindowMax.toNat

/-- Nothing of this side's own is buffered, and data for a closed output, whose length the receiver
does not check, is within the window. -/
def Paid (s : Side) : Event → Prop
  | .here e => Silent s.c e
  | .peer (.data v) => s.c.ostate ≠ .opened → winLen s.c v ≤ s.c.localWindow.toNat
  | .peer _ => True

lemma Fresh.bounded (h : Fresh s) (hw : s.c.localWindow = s.c.localWindowMax) : Bounded s :=
  ⟨h.party.sound,by rw [h.pool,hw]⟩

lemma Accounts.bounded {lost : Nat} (h : Accounts lost s s') (hs : Bounded s) : Bounded s' := by
  refine ⟨h.sound,?_⟩
  have hpool := h.pool
  have hle := hs.pool
  rw [h.localWindowMax]
  omega

lemma Taken.bounded {n lost : Nat} (h : Taken n lost s s') (hs : Bounded s) : Bounded s' := by
  refine ⟨h.sound,?_⟩
  have hpool := h.pool
  have hle := hs.pool
  rw [h.localWindowMax]
  omega

lemma localStep_bounded {e : LocalEvent} (hs : Bounded s) (hq : Silent s.c e)
    (h : localStep k e s = .ok s') : Bounded s' := by
  rcases localStep_accounts hs.sound hq h with ⟨hbooks,-,hpool⟩ | ⟨lost,hacc,-⟩
  · exact ⟨hbooks.sound,hpool.le⟩
  · exact hacc.bounded hs

lemma receive_bounded {m : Msg} (hs : Bounded s) (hm : Paid s (.peer m))
    (h : receive k m s = .ok s') : Bounded s' := by
  have hquiet : Quiet s s' → Bounded s' := fun hq => (hq.accounts hs.sound).bounded hs
  have hsound := hs.sound
  cases m with
  | openRequest | request =>
    cases h
    exact hs
  | openConfirmation window maxpacket =>
    obtain ⟨-,h⟩ := ite_error_eq_ok.mp h
    cases h
    exact ⟨⟨hsound.bound,nofun,nofun,fun _ _ => rfl⟩,hs.pool⟩
  | openFailure =>
    obtain ⟨-,h⟩ := ite_error_eq_ok.mp h
    cases h
    refine ⟨⟨hsound.bound,nofun,nofun,fun _ hlive => ?_⟩,hs.pool⟩
    rcases hlive with hlive | hlive
    · exact absurd (show takesData .zombie from hlive) (by decide)
    · cases hlive
  | data v =>
    rcases channelInputData_spec hs.sound (fun _ ho => hm ho) h with ⟨-,rfl⟩ | ⟨-,htaken⟩
    · exact hs
    · exact htaken.bounded hs
  | extendedData tcode v =>
    rcases channelInputExtendedData_spec hs.sound h with ⟨-,rfl⟩ | ⟨-,lost,htaken⟩
    · exact hs
    · exact htaken.bounded hs
  | windowAdjust adjust =>
    obtain ⟨-,h⟩ := ite_error_eq_ok.mp h
    cases h
    exact ⟨hs.sound.setRemote _ _,hs.pool⟩
  | eof | eow | close => exact hquiet (receive_quiet (by simp) h)

lemma sideStep_bounded (hs : Bounded s) (he : Paid s e) (h : sideStep k s e = .ok (ms,s')) :
    Bounded s' := by
  have hs0 : Bounded { s with sent := [] } := ⟨hs.sound,hs.pool⟩
  cases e with
  | here e =>
    rcases (sideStep_here h).2 with ⟨-,rfl⟩ | ⟨-,hstep⟩
    · exact hs0
    · exact localStep_bounded hs0 he hstep
  | peer m =>
    rcases (sideStep_peer h).2 with ⟨-,-,rfl⟩ | ⟨-,hstep⟩
    · exact hs0
    · refine receive_bounded hs0 ?_ hstep
      cases m with
      | data v => exact he
      | _ => trivial

/-- Against any peer, in every run that is paid for, the window and what is buffered stay within the
largest window. -/
theorem sideRun_bounded {es : List Event} {os : List (List Msg)} (hs : Bounded s)
    (hg : Guarded (sideStep k) Paid s es) (hrun : run (sideStep k) s es = .ok (os,s')) :
    s'.c.localWindow.toNat ≤ s'.c.localWindowMax.toNat ∧
      s'.c.output.length + held s'.c.extendedUsage s'.c.extended ≤ s'.c.localWindowMax.toNat := by
  have hbounded : Bounded s' :=
    run_invariant (fun _ _ _ _ hs he hok => sideStep_bounded hs he hok) hs hg hrun
  have hpool := hbounded.pool
  simp only [Ledger.pool,Channel.ledger] at hpool
  omega

theorem sideRun_bounded_eof :
    ∃ s', run (sideStep ⟨true,false⟩) (smallSide .ignore false) [.peer .eof,.peer (.data [1])] =
      .ok ([[],[]],s') ∧ s'.c.localWindow = 15 ∧
      s'.c.localWindow.toNat ≤ s'.c.localWindowMax.toNat ∧
      s'.c.output.length + held s'.c.extendedUsage s'.c.extended ≤ s'.c.localWindowMax.toNat := by
  obtain ⟨s',hrun,hw⟩ : ∃ s', run (sideStep _) (smallSide .ignore false)
      [.peer .eof,.peer (.data [1])] = .ok _ ∧ s'.c.localWindow = 15 := ⟨_,rfl,rfl⟩
  refine ⟨s',hrun,hw,sideRun_bounded ((fresh_smallSide _ false).bounded rfl) ?_ hrun⟩
  exact .cons trivial rfl (.cons (fun _ => (by decide +kernel)) rfl trivial)

/-- Behind EOF the length of data is not checked: 17 bytes take the window of 16 below zero. -/
theorem sideRun_exceeds : ∃ s', run (sideStep ⟨true,false⟩) (smallSide .ignore false)
      [.peer .eof,.peer (.data (List.replicate 17 0))] = .ok ([[],[]],s') ∧
      s'.c.localWindowMax.toNat < s'.c.localWindow.toNat :=
  ⟨_,rfl,by decide +kernel⟩

end

end PkixSsh.Channels
