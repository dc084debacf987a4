import PkixSsh.Channels.Close

/-!
# A channel before and after it is open

Events of a channel that the peer does not know, that waits for an answer or owes one, or is dead.
-/

namespace PkixSsh.Channels

open Sshbuf

/-- The side that asked for the channel and has no answer yet. -/
structure Opening (s : Side) : Prop where
  type : s.c.type = .opening
  haveRemoteId : s.c.haveRemoteId = false
  istate : s.c.istate ≠ .closed
  closeRcvd : s.c.closeRcvd = false
  isLocal : s.c.isLocal = false
  ordered : s.halves.Ordered
  freed : s.freed = false

structure Connecting (s : Side) : Prop where
  type : s.c.type = .connecting
  istate : s.c.istate ≠ .closed
  closeRcvd : s.c.closeRcvd = false
  isLocal : s.c.isLocal = false
  ctlChan : s.c.ctlChan = none
  ordered : s.halves.Ordered
  freed : s.freed = false

def Listens (t : ChannelType) : Prop :=
  t = .x11Listener ∨ t = .portListener ∨ t = .authSocket ∨ t = .rportListener ∨
    t = .muxListener ∨ t = .muxClient ∨ t = .unixListener ∨ t = .runixListener

instance (t : ChannelType) : Decidable (Listens t) := inferInstanceAs (Decidable (_ ∨ _))

/-- A channel that the peer does not know: a listener, or a connection whose SOCKS request is not
read yet. -/
structure Private (s : Side) : Prop where
  type : s.c.type = .dynamic ∨ Listens s.c.type
  haveRemoteId : s.c.haveRemoteId = false
  istate : s.c.istate ≠ .closed
  closeRcvd : s.c.closeRcvd = false
  isLocal : s.c.type = .dynamic → s.c.isLocal = false
  ctlChan : s.c.ctlChan = none
  inputFilter : s.c.inputFilter = none
  ordered : s.halves.Ordered
  freed : s.freed = false

structure Talks (s : Side) : Prop where
  peered : Peered s.c.type
  zombie : s.c.type ≠ .zombie
  isLocal : s.c.isLocal = false
  ordered : s.halves.Ordered
  freed : s.freed = false

section

variable {k : Compat} {e : LocalEvent} {s s' : Side}

lemma channelGarbageCollect_idle {detaches : Bool} (hi : s.c.istate ≠ .closed)
    (hz : s.c.type ≠ .zombie) (h : channelGarbageCollect k detaches s = .ok s') : s' = s := by
  have hdead : ∀ doSend, chanIsDead k doSend s = .ok _ :=
    fun _ => (if_neg hz).trans (if_pos (.inl hi))
  have hreap : channelReap k s = .ok s := by
    rw [channelReap,hdead true]
    rfl
  unfold channelGarbageCollect at h
  split at h
  · rw [hdead _] at h
    cases h
    rfl
  · rw [hreap] at h
    cases h
    rfl

lemma chanWriteFailed_mute (hid : s.c.haveRemoteId = false) (h : chanWriteFailed k s = .ok s') :
    s'.sent = s.sent ∧ s'.freed = s.freed ∧ s'.c.type = s.c.type ∧ s'.c.istate = s.c.istate ∧
      s'.c.haveRemoteId = false := by
  have hid' : (s.on _).c.haveRemoteId = false := (chanShutdownWrite_kept s.c).2.trans hid
  have hh := halves_chanShutdownWrite s
  have hrest : (do
        let t ← (s.on chanShutdownWrite).callIf ((s.on chanShutdownWrite).c.ctype = "session")
          (chanSendEow2 k)
        return t.on fun c => { c with ostate := .closed }) = Except.ok s' →
      s'.sent = s.sent ∧ s'.freed = s.freed ∧ s'.c.type = s.c.type ∧ s'.c.istate = s.c.istate ∧
        s'.c.haveRemoteId = false := by
    intro h
    obtain ⟨t,ht,h⟩ := bind_eq_ok.mp h
    cases h
    have hsame : t = s.on chanShutdownWrite := by
      unfold Side.callIf chanSendEow2 Side.send at ht
      rw [hid'] at ht
      split at ht
      · split at ht
        · cases ht
          rfl
        · split at ht
          · cases ht
            rfl
          · cases ht
      · cases ht
        rfl
    subst hsame
    exact ⟨rfl,rfl,congrArg Halves.type hh,congrArg Halves.istate hh,hid'⟩
  unfold chanWriteFailed at h
  split at h
  · exact hrest h
  · exact hrest h
  · cases h
    exact ⟨rfl,rfl,rfl,rfl,hid⟩

lemma chanReadFailed_istate {c : Channel} (h : c.istate ≠ .closed) :
    (chanReadFailed c).istate ≠ .closed := by
  unfold chanReadFailed
  split
  · nofun
  · exact h

lemma localStep_still (ht : Peered s.c.type → s.c.type = .zombie) (h : localStep k e s = .ok s') :
    s' = s ∨ (∃ detaches, e = .collect detaches) ∨ e = .controlClosed ∨
      (∃ io, e = .post io ∧ s.c.type = .connecting) ∨
      s.c.type = .dynamic ∧
        (channelPreDynamic s = .ok s' ∨ ∃ io, channelPostOpen k io s = .ok s') := by
  have hne : ∀ {t : ChannelType}, Peered t → t ≠ .zombie → s.c.type ≠ t := by
    rintro t hp hz rfl
    exact hz (ht hp)
  have hopened : s.c.type ≠ .opened := hne (by decide) (by decide)
  cases e with
  | beforeSelect sock =>
    rw [localStep,if_neg (hne (by decide) (by decide))] at h
    cases h
    exact .inl rfl
  | pre x =>
    rw [localStep] at h
    split at h
    · next htype => exact absurd htype hopened
    · next htype => exact absurd htype (hne (by decide) (by decide))
    · next htype => exact .inr (.inr (.inr (.inr ⟨htype,.inl h⟩)))
    · cases h
      exact .inl rfl
  | post io =>
    rw [localStep] at h
    split at h
    · next htype => exact absurd htype hopened
    · next htype => exact .inr (.inr (.inr (.inr ⟨htype,.inr ⟨io,h⟩⟩)))
    · next htype => exact .inr (.inr (.inr (.inl ⟨io,rfl,htype⟩)))
    · next htype => exact absurd htype (hne (by decide) (by decide))
    · cases h
      exact .inl rfl
  | collect detaches => exact .inr (.inl ⟨detaches,rfl⟩)
  | poll =>
    rw [localStep,channelOutputPoll,if_pos hopened] at h
    cases h
    exact .inl rfl
  | setFds rfd wfd efd extusage isTty windowMax =>
    rw [localStep,channelSetFds,if_pos (hne (by decide) (by decide))] at h
    cases h
  | sessionExit rtype =>
    rw [localStep,sessionExitMessage,if_pos hopened] at h
    cases h
    exact .inl rfl
  | requestFailed logged errmsg confirmClose =>
    rw [localStep,clientStatusConfirm,if_pos ⟨hopened,hne (by decide) (by decide)⟩] at h
    cases h
    exact .inl rfl
  | controlClosed => exact .inr (.inr (.inl rfl))

lemma Opening.controlClosed (hs : Opening s) (h : muxMasterControlCleanupCb k s = .ok s') :
    s'.sent = s.sent ∧ s'.freed = s.freed ∧ s'.c.type = s.c.type ∧ s'.c.istate ≠ .closed ∧
      s'.c.haveRemoteId = false := by
  unfold muxMasterControlCleanupCb at h
  split at h
  · cases h
    exact ⟨rfl,rfl,rfl,hs.istate,hs.haveRemoteId⟩
  dsimp only at h
  rw [if_neg (fun hno => hno.2 hs.type)] at h
  generalize hread : ((s.on _).on _) = t at h
  have ht : t.sent = s.sent ∧ t.freed = s.freed ∧ t.c.type = s.c.type ∧ t.c.istate ≠ .closed ∧
      t.c.haveRemoteId = false := by
    subst hread
    obtain ⟨htype,hid⟩ := chanReadFailed_kept _
    refine ⟨rfl,rfl,?_⟩
    unfold Side.on
    dsimp only
    split
    · exact ⟨htype,chanReadFailed_istate hs.istate,hid.trans hs.haveRemoteId⟩
    · exact ⟨rfl,hs.istate,hs.haveRemoteId⟩
  obtain ⟨hm,hf,htype,hi,hid⟩ := ht
  unfold Side.callIf at h
  split at h
  · obtain ⟨hm',hf',htype',hi',hid'⟩ := chanWriteFailed_mute hid h
    exact ⟨hm'.trans hm,hf'.trans hf,htype'.trans htype,by rw [hi']; exact hi,hid'⟩
  · cases h
    exact ⟨hm,hf,htype,hi,hid⟩

lemma Opening.step (hs : Opening s) (hsent : s.sent = []) (h : localStep k e s = .ok s') :
    Opening s' ∧ s'.sent = [] := by
  have hstep := localStep_stepped hs.ordered hs.freed h
  have hstill : Peered s.c.type → s.c.type = .zombie := by
    rw [hs.type]
    decide
  rcases localStep_still hstill h with rfl | ⟨detaches,rfl⟩ | rfl | ⟨io,-,ht⟩ | ⟨ht,-⟩
  · exact ⟨hs,hsent⟩
  · have hz : s.c.type ≠ .zombie := by
      rw [hs.type]
      decide
    obtain rfl := channelGarbageCollect_idle hs.istate hz h
    exact ⟨hs,hsent⟩
  · obtain ⟨hm,hf,ht,hi,hid⟩ := hs.controlClosed h
    exact ⟨⟨ht.trans hs.type,hid,hi,hstep.closeRcvd.trans hs.closeRcvd,
      hstep.isLocal.trans hs.isLocal,hstep.ordered,hf.trans hs.freed⟩,hm.trans hsent⟩
  · rw [hs.type] at ht
    cases ht
  · rw [hs.type] at ht
    cases ht

lemma Opening.confirmed {w m : UInt32} (hs : Opening s) (hsent : s.sent = [])
    (h : receive k (.openConfirmation w m) s = .ok s') :
    Talks s' ∧ s'.c.closeRcvd = false ∧ s'.sent = [] := by
  rw [receive,channelInputOpenConfirmation,if_neg (not_not.mpr hs.type)] at h
  cases h
  exact ⟨⟨show Peered .opened by decide,show ChannelType.opened ≠ .zombie by decide,hs.isLocal,
    hs.ordered.setType (t := .opened) (by decide) (by decide),hs.freed⟩,hs.closeRcvd,hsent⟩

lemma Connecting.step (hs : Connecting s) (hsent : s.sent = []) (h : localStep k e s = .ok s') :
    (Connecting s' ∧ s'.sent = []) ∨
      (Talks s' ∧ s'.c.closeRcvd = false ∧ ∃ w m, s'.sent = [.openConfirmation w m]) ∨
      (s'.c.type = .zombie ∧ s'.freed = false ∧ s'.sent = [.openFailure]) := by
  have hstep := localStep_stepped hs.ordered hs.freed h
  have hstill : Peered s.c.type → s.c.type = .zombie := by
    rw [hs.type]
    decide
  rcases localStep_still hstill h with rfl | ⟨detaches,rfl⟩ | rfl | ⟨io,rfl,-⟩ | ⟨ht,-⟩
  · exact .inl ⟨hs,hsent⟩
  · have hz : s.c.type ≠ .zombie := by
      rw [hs.type]
      decide
    obtain rfl := channelGarbageCollect_idle hs.istate hz h
    exact .inl ⟨hs,hsent⟩
  · rw [localStep,muxMasterControlCleanupCb,if_pos hs.ctlChan] at h
    cases h
    exact .inl ⟨hs,hsent⟩
  case inr.inr.inr.inr =>
    rw [hs.type] at ht
    cases ht
  rw [localStep,hs.type] at h
  dsimp only at h
  have hfinish : s.c.type ≠ .rdynamicFinish := by
    rw [hs.type]
    decide
  unfold channelPostConnecting at h
  split at h
  · cases h
    exact .inl ⟨hs,hsent⟩
  split at h
  · cases h
  dsimp only at h
  split at h
  · rw [if_neg hfinish] at h
    cases h
    refine .inr (.inl ⟨⟨show Peered .opened by decide,show ChannelType.opened ≠ .zombie by decide,
      hs.isLocal,hstep.ordered,hs.freed⟩,hs.closeRcvd,s.c.localWindow,s.c.localMaxpacket,?_⟩)
    change s.sent ++ _ = _
    rw [hsent]
    rfl
  · cases h
    exact .inl ⟨⟨hs.type,hs.istate,hs.closeRcvd,hs.isLocal,hs.ctlChan,hstep.ordered,hs.freed⟩,hsent⟩
  · rw [if_neg hfinish] at h
    cases h
    refine .inr (.inr ⟨rfl,hs.freed,?_⟩)
    change s.sent ++ _ = _
    rw [hsent]
    rfl

/-- A step of a channel that is not open: it sends nothing, and may mark itself dead. -/
structure Stays (s s' : Side) : Prop where
  sent : s'.sent = s.sent
  freed : s'.freed = s.freed
  type : s'.c.type = s.c.type ∨ s'.c.type = .zombie
  haveRemoteId : s'.c.haveRemoteId = s.c.haveRemoteId
  istate : s'.c.istate = s.c.istate
  ctlChan : s'.c.ctlChan = s.c.ctlChan
  inputFilter : s'.c.inputFilter = s.c.inputFilter

lemma Stays.refl (s : Side) : Stays s s := ⟨rfl,rfl,.inl rfl,rfl,rfl,rfl,rfl⟩

lemma Stays.trans {s'' : Side} (h : Stays s s') (h' : Stays s' s'') : Stays s s'' := by
  refine ⟨h'.sent.trans h.sent,h'.freed.trans h.freed,?_,h'.haveRemoteId.trans h.haveRemoteId,
    h'.istate.trans h.istate,h'.ctlChan.trans h.ctlChan,h'.inputFilter.trans h.inputFilter⟩
  rcases h'.type with ht | ht
  · rw [ht]
    exact h.type
  · exact .inr ht

lemma Stays.not_opened (h : Stays s s') (ht : s.c.type ≠ .opened) : s'.c.type ≠ .opened := by
  rcases h.type with he | he
  · rw [he]
    exact ht
  · rw [he]
    decide

variable (ht : s.c.type ≠ .opened)

include ht

lemma stays_readFail : Stays s (s.on readFail) := by
  have he : s.on readFail = s.on chanMarkDead := by
    simp only [Side.on,readFail,if_pos ht]
  rw [he]
  exact ⟨rfl,rfl,.inr rfl,rfl,rfl,rfl,rfl⟩

lemma stays_writeFail (h : writeFail k s = .ok s') : Stays s s' := by
  rw [writeFail,if_pos ht] at h
  cases h
  exact ⟨rfl,rfl,.inr rfl,rfl,rfl,rfl,rfl⟩

lemma channelHandleRfd_stays {io : Io} (hf : s.c.inputFilter = none)
    (h : channelHandleRfd k io s = .ok s') : Stays s s' := by
  rcases channelHandleRfd_cases h with ⟨b,rfl⟩ | rfl | ⟨buf,stop,t,hfilter,-⟩
  · exact ⟨rfl,rfl,.inl rfl,rfl,rfl,rfl,rfl⟩
  · exact stays_readFail ht
  · rw [hf] at hfilter
    cases hfilter

lemma channelHandleWfd_stays {io : Io} (h : channelHandleWfd k io s = .ok s') : Stays s s' := by
  have hset : ∀ output, Stays s (s.on fun c => { c with output }) :=
    fun _ => ⟨rfl,rfl,.inl rfl,rfl,rfl,rfl,rfl⟩
  rcases channelHandleWfd_cases h with rfl | ⟨b,-,rfl⟩ | ⟨-,h⟩ | ⟨-,b,-,rfl | h⟩
  · exact .refl _
  · exact ⟨rfl,rfl,.inl rfl,rfl,rfl,rfl,rfl⟩
  · exact stays_writeFail ht h
  · exact hset b
  · exact (hset b).trans (stays_writeFail ht h)

omit ht

lemma channelHandleEfd_stays {io : Io} (h : channelHandleEfd io s = .ok s') : Stays s s' := by
  rcases channelHandleEfd_cases h with rfl | rfl | ⟨-,len,-,rfl⟩ | ⟨-,b,rfl⟩
  · exact .refl _
  all_goals exact ⟨rfl,rfl,.inl rfl,rfl,rfl,rfl,rfl⟩

lemma channelPostOpen_stays {io : Io} (ht : s.c.type ≠ .opened) (hf : s.c.inputFilter = none)
    (h : channelPostOpen k io s = .ok s') : Stays s s' := by
  obtain ⟨s1,hs1,h⟩ := bind_eq_ok.mp h
  have h1 := channelHandleRfd_stays ht hf hs1
  obtain ⟨s2,hs2,h⟩ := bind_eq_ok.mp h
  have h2 := h1.trans (channelHandleWfd_stays (h1.not_opened ht) hs2)
  obtain ⟨s3,hs3,h⟩ := bind_eq_ok.mp h
  have h3 := h2.trans (channelHandleEfd_stays hs3)
  rw [channelCheckWindow,if_neg fun hopen => h3.not_opened ht hopen.1] at h
  cases h
  exact h3

lemma Private.step (hs : Private s) (hsent : s.sent = []) (h : localStep k e s = .ok s') :
    (Private s' ∧ s'.sent = []) ∨ (s'.c.type = .zombie ∧ s'.sent = []) ∨
      (Opening s' ∧ ∃ w m, s'.sent = [.openRequest w m]) := by
  have hstep := localStep_stepped hs.ordered hs.freed h
  have htypes : ∀ t, t = .dynamic ∨ Listens t → t ≠ .zombie ∧ t ≠ .connecting ∧ t ≠ .opened ∧
      ¬ Peered t := by
    intro t
    cases t <;> decide
  obtain ⟨hz,hc,ho,hp⟩ := htypes _ hs.type
  rcases localStep_still (fun h => absurd h hp) h with
    rfl | ⟨detaches,rfl⟩ | rfl | ⟨io,-,ht⟩ | ⟨ht,hpre | ⟨io,hpost⟩⟩
  · exact .inl ⟨hs,hsent⟩
  · obtain rfl := channelGarbageCollect_idle hs.istate hz h
    exact .inl ⟨hs,hsent⟩
  · rw [localStep,muxMasterControlCleanupCb,if_pos hs.ctlChan] at h
    cases h
    exact .inl ⟨hs,hsent⟩
  · exact absurd ht hc
  · unfold channelPreDynamic at hpre
    split at hpre
    · cases hpre
      exact .inl ⟨hs,hsent⟩
    generalize channelDecodeSocks _ _ = r at hpre
    obtain ⟨authdone,ret,input,reply⟩ := r
    obtain ⟨s1,hs1,hpre⟩ := bind_eq_ok.mp hpre
    obtain ⟨b,-,hs1⟩ := bind_eq_ok.mp hs1
    cases hs1
    cases ret with
    | bad =>
      cases hpre
      exact .inr (.inl ⟨rfl,hsent⟩)
    | more =>
      cases hpre
      exact .inl ⟨⟨hs.type,hs.haveRemoteId,hs.istate,hs.closeRcvd,hs.isLocal,hs.ctlChan,
        hs.inputFilter,hstep.ordered,hs.freed⟩,hsent⟩
    | done =>
      cases hpre
      refine .inr (.inr ⟨⟨rfl,hs.haveRemoteId,hs.istate,hs.closeRcvd,hs.isLocal ht,hstep.ordered,
        hs.freed⟩,s.c.localWindow,s.c.localMaxpacket,?_⟩)
      change s.sent ++ _ = _
      rw [hsent]
      rfl
  · have hstay := channelPostOpen_stays ho hs.inputFilter hpost
    rcases hstay.type with he | he
    · refine .inl
        ⟨⟨?_,hstay.haveRemoteId.trans hs.haveRemoteId,?_,hstep.closeRcvd.trans hs.closeRcvd,
        fun _ => hstep.isLocal.trans (hs.isLocal ht),hstay.ctlChan.trans hs.ctlChan,
        hstay.inputFilter.trans hs.inputFilter,hstep.ordered,hstay.freed.trans hs.freed⟩,
        hstay.sent.trans hsent⟩
      · rw [he]
        exact hs.type
      · rw [hstay.istate]
        exact hs.istate
    · exact .inr (.inl ⟨he,hstay.sent.trans hsent⟩)

lemma zombie_step (hz : s.c.type = .zombie) (hsent : s.sent = []) (h : localStep k e s = .ok s') :
    s'.c.type = .zombie ∧ s'.sent = [] := by
  have hdead : ∀ (t : Side) doSend, t.c.type = .zombie → chanIsDead k doSend t = .ok _ :=
    fun t doSend ht => if_pos ht
  have hreap : ∀ t, t.c.type = .zombie → channelReap k t = .ok { t with freed := true } := by
    intro t ht
    rw [channelReap,hdead t true ht]
    rfl
  rcases localStep_still (fun _ => hz) h with rfl | ⟨detaches,rfl⟩ | rfl | ⟨io,-,ht⟩ | ⟨ht,-⟩
  · exact ⟨hz,hsent⟩
  · rw [localStep,channelGarbageCollect] at h
    split at h
    · rw [hdead s _ hz] at h
      cases detaches with
      | false =>
        cases h
        exact ⟨hz,hsent⟩
      | true =>
        have h : channelReap k _ = .ok s' := h
        rw [hreap (s.on channelCancelCleanup) hz] at h
        cases h
        exact ⟨hz,hsent⟩
    · rw [hreap s hz] at h
      cases h
      exact ⟨hz,hsent⟩
  · rw [localStep,muxMasterControlCleanupCb] at h
    split at h
    · cases h
      exact ⟨hz,hsent⟩
    · dsimp only at h
      split at h
      · cases h
        exact ⟨rfl,hsent⟩
      · next hno =>
        rcases or_iff_not_and_not.mpr hno with ht | ht
        · rw [show s.c.type = .opened from ht] at hz
          cases hz
        · rw [show s.c.type = .opening from ht] at hz
          cases hz
  · rw [hz] at ht
    cases ht
  · rw [hz] at ht
    cases ht

end

end PkixSsh.Channels
