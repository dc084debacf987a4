import PkixSsh.Channels.Accounts

/-!
# The accounts over the steps of a channel

Each event of this side keeps the accounts, and loses credit only if it gives up output that was
not written.
-/

namespace PkixSsh.Channels

open Sshbuf List Ledger Side

section

variable {k : Compat} {s s' : Side}

lemma accounts_push {m : Msg} {f : Channel → Channel} {b e : Bytes}
    (hl : (f s.c).ledger = { s.c.ledger with
      input := b, extended := e, remoteWindow := s.c.remoteWindow - UInt32.ofNat m.bytes })
    (he : held s.c.extendedUsage e = held s.c.extendedUsage s.c.extended)
    (ha : m.adjust = 0) (hw : m.bytes ≤ s.c.remoteWindow.toNat)
    (hfit : m.Fits (max s.c.remoteMaxpacket.toNat 2))
    (hs : ((f s.c).ledger.pool < 2 ^ 32 → (f s.c).ledger.Sound)) (hb : s.c.ledger.pool < 2 ^ 32) :
    Accounts 0 s ((s.push m).on f) := by
  have hfield : ∀ {α : Type} (g : Ledger → α), g (f s.c).ledger = g _ := fun g => by rw [hl]
  have hpool : (f s.c).ledger.pool = s.c.ledger.pool := by
    rw [hl]
    simp only [pool,Channel.ledger,he]
  have hremote : (f s.c).remoteWindow = s.c.remoteWindow - UInt32.ofNat _ := hfield remoteWindow
  have hlocal : (f s.c).localWindow = s.c.localWindow := hfield localWindow
  exact {
    remote := by
      simp only [on,push,hremote,toNat_sub_ofNat hw,bytes_append,bytes_cons,bytes_nil]
      omega
    window := by
      simp only [on,push,hlocal,adjusts_append,adjusts_cons,adjusts_nil]
      omega
    fits := by
      intro m' hm
      rcases mem_append.mp hm with hm | hm
      · exact .inl hm
      · rw [mem_singleton.mp hm]
        exact .inr hfit
    remoteMaxpacket := hfield remoteMaxpacket
    localMaxpacket := hfield localMaxpacket
    localWindowMax := hfield localWindowMax
    datagram := hfield datagram
    type := by
      rw [show ((s.push m).on f).c.type = s.c.type from hfield type]
      exact .refl _
    pool := hpool
    stderr := by
      change held (f s.c).ledger.extendedUsage (f s.c).ledger.extended ≤ _
      rw [hl]
      exact he.le
    sound := hs (hpool ▸ hb) }

variable (hs : s.c.ledger.Sound)

include hs

lemma channelOutputPollInputOpen_accounts (ht : s.c.type = .opened)
    (h : channelOutputPollInputOpen s = .ok s') : Accounts 0 s s' := by
  unfold channelOutputPollInputOpen at h
  split at h
  · split at h
    · exact (chanIbufEmpty_quiet h).accounts hs
    · cases h
      exact (Quiet.refl s).accounts hs
  split at h
  · cases h
  split at h
  · obtain ⟨⟨pkt,input⟩,-,h⟩ := bind_eq_ok.mp h
    dsimp only at h
    have hinput : Accounts 0 s (s.on fun c => { c with input }) :=
      .on (.of_selected hs.bound (.inl ht)) rfl rfl rfl rfl rfl rfl rfl (.refl _) le_rfl
    split at h
    · cases h
      exact hinput
    · next hfit =>
      obtain ⟨hw,hp⟩ := not_or.mp hfit
      cases h
      refine hinput.trans (accounts_push (m := .data pkt) rfl rfl rfl (not_lt.mp hw) ?_ ?_
        hinput.sound.bound)
      · exact (not_lt.mp hp).trans (le_max_left _ _)
      · exact fun hb => .of_selected hb (.inl ht)
  · dsimp only at h
    generalize hlen : min (min s.c.input.length _) _ = len at h
    split at h
    · cases h
      exact (Quiet.refl s).accounts hs
    · cases h
      have hbytes : (Msg.data (s.c.input.take len)).bytes = len := by
        rw [Msg.bytes,length_take]
        omega
      refine accounts_push (b := s.c.input.drop len) ?_ rfl rfl ?_ ?_ ?_ hs.bound
      · rw [hbytes]
        rfl
      · omega
      · change (s.c.input.take len).length ≤ _
        rw [length_take]
        omega
      · exact fun hb => .of_selected hb (.inl ht)

lemma channelOutputPollExtendedRead_accounts (ht : s.c.type = .opened)
    (hu : s.c.extendedUsage = .read) (h : channelOutputPollExtendedRead s = .ok s') :
    Accounts 0 s s' := by
  have hheld : ∀ b, held s.c.extendedUsage b = 0 := by
    intro b
    rw [held,if_neg (by rw [hu]; decide)]
  unfold channelOutputPollExtendedRead at h
  dsimp only at h
  generalize hlen : min (min s.c.extended.length _) _ = len at h
  split at h
  · cases h
    exact (Quiet.refl s).accounts hs
  · obtain ⟨s1,hs1,h⟩ := bind_eq_ok.mp h
    obtain rfl := send_ok hs1
    cases h
    have hbytes : (Msg.extendedData extendedDataStderr (s.c.extended.take len)).bytes = len := by
      rw [Msg.bytes,length_take]
      omega
    refine accounts_push (b := s.c.input) (e := s.c.extended.drop len) ?_ ?_ rfl ?_ ?_ ?_ hs.bound
    · rw [hbytes]
      rfl
    · rw [hheld,hheld]
    · omega
    · refine ⟨rfl,?_⟩
      rw [length_take]
      omega
    · exact fun hb => .of_selected hb (.inl ht)

lemma channelOutputPoll_accounts (h : channelOutputPoll s = .ok s') :
    Accounts 0 s s' := by
  unfold channelOutputPoll at h
  split at h
  · cases h
    exact (Quiet.refl s).accounts hs
  split at h
  · cases h
    exact (Quiet.refl s).accounts hs
  next ht _ =>
  have ht : s.c.type = .opened := not_not.mp ht
  obtain ⟨s1,hs1,h⟩ := bind_eq_ok.mp h
  have h1 : Accounts 0 s s1 := by
    unfold callIf at hs1
    split at hs1
    · exact channelOutputPollInputOpen_accounts hs ht hs1
    · cases hs1
      exact (Quiet.refl s).accounts hs
  have h2 : Accounts 0 s1 s' := by
    unfold callIf at h
    split at h
    · next hread =>
      exact channelOutputPollExtendedRead_accounts h1.sound (h1.type.opened ht) hread.2 h
    · cases h
      exact (Quiet.refl _).accounts h1.sound
  exact h1.trans h2

lemma channelPreX11Open_accounts {x : X11}
    (h : channelPreX11Open k x s = .ok s') : ∃ lost, Accounts lost s s' := by
  unfold channelPreX11Open at h
  split at h
  · next output hx =>
    cases h
    have hlen := length_x11OpenHelper hx
    have hpool : ({ s.c with output, type := .opened }).ledger.pool =
        s.c.ledger.pool := by
      simp only [pool,Channel.ledger,hlen]
    have hopen : Accounts 0 s (s.on fun c => { c with output, type := .opened }) :=
      .on (.of_selected (hpool ▸ hs.bound) (.inl rfl)) rfl rfl hpool rfl rfl rfl rfl
        (evolves_opened _) le_rfl
    exact ⟨_,hopen.trans ((Quiet.on (ledger_channelPreOpen _)).accounts hopen.sound)⟩
  · exact refuse_accounts hs h
  · cases h
    exact ⟨0,(Quiet.refl s).accounts hs⟩

section

variable {authdone : Bool} {output reply : Bytes} (ht : s.c.type = .rdynamicOpen)
  (hlen : output.length ≤ s.c.output.length)

include ht hlen

lemma rdynamicAnswer_accounts (hanswer : (reply = [] ∧ authdone = s.c.socks5Authdone) ∨
      (reply = [5,0] ∧ s.c.socks5Authdone = false ∧ authdone = true)) :
    Accounts (s.c.output.length - output.length) s (s.on fun c =>
      { c with socks5Authdone := authdone, output, input := c.input ++ reply }) := by
  have hcut := accounts_output hs hlen
  refine .on ⟨hcut.sound.bound,fun _ => ?_,fun hl => ?_,hs.control⟩ rfl rfl hcut.pool rfl rfl rfl
    rfl (.refl _) le_rfl
  · -- the choice of the method is made once
    obtain ⟨hin,hempty⟩ := hs.socks ht
    rcases hanswer with ⟨rfl,rfl⟩ | ⟨rfl,hfresh,rfl⟩
    · rw [append_nil]
      exact ⟨hin,hempty⟩
    · rw [show s.c.input = [] from hempty hfresh]
      exact ⟨le_rfl,by rintro ⟨⟩⟩
  · rw [show s.c.type = .larval from hl] at ht
    cases ht

lemma rdynamicFinish_accounts {fd : Nat} :
    Accounts (s.c.output.length - output.length + held s.c.extendedUsage s.c.extended) s
      (s.on fun c =>
        { channelRegisterFds (some fd) (some fd) none .ignore false
            { c with socks5Authdone := authdone, output, input := c.input ++ reply } with
          type := .rdynamicFinish }) := by
  have hcontrol : s.c.ctlChan = none := by
    by_contra hctl
    have htype : s.c.ledger.type = .rdynamicOpen := ht
    have := hs.control hctl (by rw [htype]; unfold Live; decide)
    rw [htype] at this
    cases this
  have hbound := hs.bound
  simp only [pool,Channel.ledger] at hbound
  have hignore : held .ignore s.c.extended = 0 := rfl
  refine .on ⟨?_,?_,?_,fun hctl => absurd hcontrol hctl⟩ rfl rfl ?_ rfl rfl rfl rfl ?_
    (Nat.zero_le _)
  · simp only [pool,Channel.ledger,channelRegisterFds]
    omega
  · rintro ⟨⟩
  · rintro ⟨⟩
  · simp only [pool,Channel.ledger,channelRegisterFds]
    omega
  · rw [ht]
    exact ⟨fun _ => .inl (.inr (.inr (.inl rfl))),by rintro ⟨⟩,fun hsel =>
      absurd hsel (by unfold Selected; decide)⟩

end

lemma channelBeforePrepareSelectRdynamic_accounts {sock : Option Nat}
    (ht : s.c.type = .rdynamicOpen) (h : channelBeforePrepareSelectRdynamic k sock s = .ok s') :
    ∃ lost, Accounts lost s s' := by
  unfold channelBeforePrepareSelectRdynamic at h
  split at h
  · have hcut := accounts_output hs (b := []) (Nat.zero_le _)
    obtain ⟨lost,hclose⟩ := rdynamicClose_accounts hcut.sound h
    exact ⟨_,hcut.trans hclose⟩
  split at h
  · cases h
    exact ⟨0,(Quiet.refl s).accounts hs⟩
  generalize hdecode : channelDecodeSocks _ _ = r at h
  obtain ⟨authdone,ret,output,reply⟩ := r
  dsimp only at h
  obtain ⟨hlen,hanswer⟩ := channelDecodeSocks_spec hdecode
  obtain ⟨s1,hs1,h⟩ := bind_eq_ok.mp h
  obtain rfl := putInput_ok hs1
  have hcut := accounts_output hs hlen
  have hopen : Accounts (s.c.output.length - output.length) s (s.on fun c =>
      { c with socks5Authdone := authdone, output, input := c.input ++ reply,
               type := .opened }) :=
    .on (.of_selected hcut.sound.bound (.inl rfl)) rfl rfl hcut.pool rfl rfl rfl rfl
      (evolves_opened _) le_rfl
  split at h
  · obtain ⟨lost,hclose⟩ := refuse_accounts hopen.sound h
    exact ⟨_,hopen.trans hclose⟩
  · have hanswered := rdynamicAnswer_accounts hs ht hlen (hanswer (by decide))
    split at h
    · next hroom =>
      cases h
      refine ⟨_,hanswered.trans (accounts_push rfl rfl rfl hroom.2.le ?_ ?_ hanswered.sound.bound)⟩
      · exact ((hanswered.sound.socks ht).1).trans (le_max_right _ _)
      · exact fun hb => ⟨hb,fun _ => ⟨Nat.zero_le _,fun _ => rfl⟩,hanswered.sound.larval,
          hanswered.sound.control⟩
    · cases h
      exact ⟨_,hanswered⟩
  · split at h
    · obtain ⟨lost,hclose⟩ := refuse_accounts hopen.sound h
      exact ⟨_,hopen.trans hclose⟩
    · cases h
      exact ⟨_,rdynamicFinish_accounts hs ht hlen⟩

omit hs

lemma channelReap_quiet (h : channelReap k s = .ok s') : Quiet s s' := by
  obtain ⟨⟨dead,s1⟩,hs1,h⟩ := bind_eq_ok.mp h
  have hdead := chanIsDead_quiet hs1
  cases h
  cases dead
  · exact hdead
  · exact ⟨hdead.ledger,hdead.sent⟩

lemma channelGarbageCollect_quiet {detaches : Bool}
    (h : channelGarbageCollect k detaches s = .ok s') : Quiet s s' := by
  unfold channelGarbageCollect at h
  split at h
  · obtain ⟨⟨dead,s1⟩,hs1,h⟩ := bind_eq_ok.mp h
    refine (chanIsDead_quiet hs1).trans ?_
    dsimp only at h
    split at h
    · cases h
      exact .refl _
    split at h
    · cases h
      exact .refl _
    · exact Quiet.trans (.on rfl) (channelReap_quiet h)
  · exact channelReap_quiet h

variable (hs : s.c.ledger.Sound)

include hs

lemma callIf_chanWriteFailed_accounts {p : Prop} [Decidable p]
    (h : s.callIf p (chanWriteFailed k) = .ok s') :
    ∃ lost, Accounts lost s s' ∧ (s.c.output = [] → lost = 0) := by
  unfold callIf at h
  split at h
  · exact chanWriteFailed_accounts hs h
  · cases h
    exact ⟨0,(Quiet.refl s).accounts hs,fun _ => rfl⟩

lemma sessionExitMessage_accounts {rtype : String} (h : sessionExitMessage k rtype s = .ok s') :
    ∃ lost, Accounts lost s s' ∧ (s.c.output = [] → lost = 0) := by
  unfold sessionExitMessage at h
  split at h
  · cases h
    exact ⟨0,(Quiet.refl s).accounts hs,fun _ => rfl⟩
  obtain ⟨s1,hs1,h⟩ := bind_eq_ok.mp h
  have hq : Quiet s (s1.on fun c => { c with detachUser := true, detachClose := true }) :=
    (Quiet.send (m := .request rtype) trivial hs1).trans (.on rfl)
  have h1 := hq.accounts hs
  obtain ⟨lost,h2,hlost⟩ := callIf_chanWriteFailed_accounts h1.sound h
  refine ⟨_,h1.trans h2,fun he => ?_⟩
  have hout : s1.c.output = s.c.output := congrArg output hq.ledger
  rw [hlost (hout.trans he)]

lemma muxMasterControlCleanupCb_accounts (h : muxMasterControlCleanupCb k s = .ok s') :
    ∃ lost, Accounts lost s s' ∧ (s.c.output = [] → lost = 0) := by
  unfold muxMasterControlCleanupCb at h
  split at h
  · cases h
    exact ⟨0,(Quiet.refl s).accounts hs,fun _ => rfl⟩
  next hctl =>
  have hnone : Accounts 0 s (s.on fun c => { c with ctlChan := none }) :=
    .on ⟨hs.bound,hs.socks,hs.larval,fun hno => absurd rfl hno⟩ rfl rfl rfl rfl rfl rfl rfl
      (.refl _) le_rfl
  dsimp only at h
  split at h
  · next ht =>
    cases h
    refine ⟨_,hnone.trans (accounts_type hnone.sound (evolves_zombie fun hlive => ?_)
      (.inr (.inr rfl))),fun _ => rfl⟩
    exact ht.1 (hs.control hctl hlive)
  · have hq : ∀ c, (if c.istate = .opened then chanReadFailed c else c).ledger = c.ledger := by
      intro c
      split
      · exact ledger_chanReadFailed c
      · rfl
    have hread := (Quiet.on (hq _)).accounts hnone.sound
    obtain ⟨lost,hfail,hlost⟩ := callIf_chanWriteFailed_accounts hread.sound h
    refine ⟨_,(hnone.trans hread).trans hfail,fun he => ?_⟩
    rw [hlost ((congrArg output (hq _)).trans he)]

lemma clientStatusConfirm_accounts {logged confirmClose : Bool} {errmsg : Bytes}
    (hno : ¬ tochan logged s.c)
    (h : clientStatusConfirm k logged errmsg confirmClose s = .ok s') :
    ∃ lost, Accounts lost s s' ∧ ((confirmClose → s.c.output = []) → lost = 0) := by
  unfold clientStatusConfirm at h
  split at h
  · cases h
    exact ⟨0,(Quiet.refl s).accounts hs,fun _ => rfl⟩
  obtain ⟨s1,hs1,h⟩ := bind_eq_ok.mp h
  unfold callIf at hs1 h
  rw [if_neg hno] at hs1
  cases hs1
  split at h
  · next hclose =>
    have hread := (Quiet.on (ledger_chanReadFailed s.c)).accounts hs
    obtain ⟨lost,hfail,hlost⟩ := chanWriteFailed_accounts hread.sound h
    refine ⟨_,hread.trans hfail,fun he => ?_⟩
    rw [hlost ((congrArg output (ledger_chanReadFailed s.c)).trans (he hclose))]
  · cases h
    exact ⟨0,(Quiet.refl s).accounts hs,fun _ => rfl⟩

lemma channelSetFds_books {rfd wfd efd : Option Nat} {extusage : ExtendedUsage} {isTty : Bool}
    {windowMax : UInt32} (h : channelSetFds rfd wfd efd extusage isTty windowMax s = .ok s') :
    Books s s' ∧ s'.c.ledger.pool = s'.c.localWindowMax.toNat := by
  obtain ⟨ht,h⟩ := ite_error_eq_ok.mp h
  have ht : s.c.ledger.type = .larval := not_not.mp ht
  obtain ⟨hw,hc,ho,he⟩ := hs.larval ht
  obtain rfl := send_ok h
  have hpool : ({ channelRegisterFds rfd wfd efd extusage isTty s.c with
      type := .opened, localWindow := windowMax, localWindowMax := windowMax }).ledger.pool =
        windowMax.toNat := by
    have hc : s.c.localConsumed = 0 := hc
    have ho : s.c.output = [] := ho
    have he : s.c.extended = [] := he
    have hheld : held extusage [] = 0 := by
      rw [held]
      split <;> rfl
    simp only [pool,Channel.ledger,channelRegisterFds,hc,ho,he,hheld]
    rfl
  refine ⟨?_,hpool⟩
  have hw : s.c.localWindow = 0 := hw
  exact {
    remote := by simp [on,push,channelRegisterFds,Msg.bytes]
    window := by
      simp only [on,push,adjusts_append,adjusts_cons,adjusts_nil,Msg.adjust,hw]
      rw [show (0 : UInt32).toNat = 0 from rfl]
      omega
    fits := by
      intro m hm
      rcases mem_append.mp hm with hm | hm
      · exact .inl hm
      · rw [mem_singleton.mp hm]
        exact .inr trivial
    remoteMaxpacket := rfl
    localMaxpacket := rfl
    datagram := rfl
    type := evolves_opened _
    sound := .of_selected (hpool ▸ windowMax.toNat_lt) (.inl rfl) }

end

/-- The event adds nothing of this side's own to what is buffered for the local end: no answer to
a SOCKS request or to an escape, no text of a failed request. -/
def Silent (c : Channel) : LocalEvent → Prop
  | .pre _ => c.type ≠ .dynamic
  | .post io => typesUnanswered c io
  | .requestFailed logged _ _ => ¬ tochan logged c
  | _ => True

/-- The event does not give up an output that holds bytes, on an open channel. -/
def Lossless (c : Channel) : LocalEvent → Prop
  | .post io => io.wfd.fails → c.output = []
  | .sessionExit _ | .controlClosed => c.output = []
  | .requestFailed _ _ confirmClose => confirmClose → c.output = []
  | _ => True

section

variable {k : Compat} {s s' : Side} {e : LocalEvent}

/-- A silent event keeps the accounts: it is the first window of a larval channel, or loses at most
what an output that is given up holds. -/
lemma localStep_accounts (hs : s.c.ledger.Sound) (hq : Silent s.c e)
    (h : localStep k e s = .ok s') :
    (Books s s' ∧ s.c.type = .larval ∧ s'.c.ledger.pool = s'.c.localWindowMax.toNat) ∨
      ∃ lost, Accounts lost s s' ∧
        (s.c.type = .opened → s.c.datagram = false → Lossless s.c e → lost = 0) := by
  have hsame : s' = s → ∃ lost, Accounts lost s s' ∧
      (s.c.type = .opened → s.c.datagram = false → Lossless s.c e → lost = 0) := by
    rintro rfl
    exact ⟨0,(Quiet.refl _).accounts hs,fun _ _ _ => rfl⟩
  cases e with
  | beforeSelect sock =>
    right
    rw [localStep] at h
    split at h
    · next ht =>
      obtain ⟨lost,ha⟩ := channelBeforePrepareSelectRdynamic_accounts hs ht h
      exact ⟨lost,ha,fun ho => by rw [ho] at ht; cases ht⟩
    · cases h
      exact hsame rfl
  | pre x =>
    right
    rw [localStep] at h
    split at h
    · cases h
      exact ⟨0,(Quiet.on (ledger_channelPreOpen s.c)).accounts hs,fun _ _ _ => rfl⟩
    · next ht =>
      obtain ⟨lost,ha⟩ := channelPreX11Open_accounts hs h
      exact ⟨lost,ha,fun ho => by rw [ho] at ht; cases ht⟩
    · next ht => exact absurd ht hq
    · cases h
      exact hsame rfl
  | post io =>
    right
    rw [localStep] at h
    split at h
    · next ht =>
      obtain ⟨lost,ha,hlost⟩ := channelPostOpen_accounts hs (.inl ht) hq h
      exact ⟨lost,ha,fun _ => hlost⟩
    · next ht =>
      obtain ⟨lost,ha,hlost⟩ := channelPostOpen_accounts hs (.inr (.inl ht)) hq h
      exact ⟨lost,ha,fun _ => hlost⟩
    · next ht =>
      obtain ⟨lost,ha⟩ := channelPostConnecting_accounts hs (.inl ht) h
      exact ⟨lost,ha,fun ho => by rw [ho] at ht; cases ht⟩
    · next ht =>
      obtain ⟨lost,ha⟩ := channelPostConnecting_accounts hs (.inr ht) h
      exact ⟨lost,ha,fun ho => by rw [ho] at ht; cases ht⟩
    · cases h
      exact hsame rfl
  | collect detaches => exact .inr ⟨0,(channelGarbageCollect_quiet h).accounts hs,fun _ _ _ => rfl⟩
  | poll => exact .inr ⟨0,channelOutputPoll_accounts hs h,fun _ _ _ => rfl⟩
  | setFds rfd wfd efd extusage isTty windowMax =>
    obtain ⟨hb,hp⟩ := channelSetFds_books hs h
    exact .inl ⟨hb,not_not.mp (ite_error_eq_ok.mp h).1,hp⟩
  | sessionExit rtype =>
    obtain ⟨lost,ha,hlost⟩ := sessionExitMessage_accounts hs h
    exact .inr ⟨lost,ha,fun _ _ => hlost⟩
  | controlClosed =>
    obtain ⟨lost,ha,hlost⟩ := muxMasterControlCleanupCb_accounts hs h
    exact .inr ⟨lost,ha,fun _ _ => hlost⟩
  | requestFailed logged errmsg confirmClose =>
    obtain ⟨lost,ha,hlost⟩ := clientStatusConfirm_accounts hs hq h
    exact .inr ⟨lost,ha,fun _ _ => hlost⟩

end

end PkixSsh.Channels
