import PkixSsh.Channels.Ledger

/-!
# What one step does to the accounts

The accounts before and after a step, for every handler. The credit of the peer loses only what is
held by an output that is given up.
-/

namespace PkixSsh.Channels

open Sshbuf List Ledger Side

lemma toNat_add_ofNat {a : UInt32} {n : Nat} (h : a.toNat + n < 2 ^ 32) :
    (a + UInt32.ofNat n).toNat = a.toNat + n := by
  rw [UInt32.toNat_add,UInt32.toNat_ofNat']
  omega

lemma toNat_sub_ofNat {a : UInt32} {n : Nat} (h : n ≤ a.toNat) :
    (a - UInt32.ofNat n).toNat = a.toNat - n := by
  have ha : a.toNat < 2 ^ 32 := a.toNat_lt
  rw [UInt32.toNat_sub,UInt32.toNat_ofNat']
  omega

def Selected (t : ChannelType) : Prop := t = .opened ∨ t = .dynamic ∨ t = .zombie

variable {t : ChannelType}

lemma Selected.opened_of_live (h : Selected t) (ht : Live t) : t = .opened := by
  rcases h with rfl | rfl | rfl
  · rfl
  · exact absurd ht (by unfold Live; decide)
  · exact absurd ht (by unfold Live; decide)

/-- What a step may do to the type: a live channel stays alive, an open one open. -/
structure Evolves (t t' : ChannelType) : Prop where
  live : Live t → Live t'
  opened : t = .opened → t' = .opened
  selected : Selected t → Selected t'

lemma Evolves.refl (t : ChannelType) : Evolves t t := ⟨id,id,id⟩

lemma Evolves.trans {t' t'' : ChannelType} (h : Evolves t t') (h' : Evolves t' t'') :
    Evolves t t'' :=
  ⟨h'.live ∘ h.live,h'.opened ∘ h.opened,h'.selected ∘ h.selected⟩

lemma evolves_opened (t : ChannelType) : Evolves t .opened :=
  ⟨fun _ => .inl (.inl rfl),fun _ => rfl,fun _ => .inl rfl⟩

lemma evolves_zombie (h : ¬ Live t) : Evolves t .zombie :=
  ⟨fun ht => absurd ht h,fun ho => absurd (.inl (.inl ho)) h,fun _ => .inr (.inr rfl)⟩

/-- A message the receiver can take whole, with packets of up to `n` bytes. -/
def Msg.Fits (n : Nat) : Msg → Prop
  | .data v => v.length ≤ n
  | .extendedData tcode v => tcode = extendedDataStderr ∧ v.length ≤ n
  | _ => True

lemma Msg.control.fits {m : Msg} (h : m.control) (n : Nat) : m.Fits n := by
  cases m with
  | data v => exact h.elim
  | extendedData tcode v => exact h.elim
  | windowAdjust adjust => exact h.elim
  | _ => trivial

/-- The accounts before and after: the bytes sent are taken from the remote window, and the
adjustments sent are in the local one. -/
structure Books (s s' : Side) : Prop where
  remote : s'.c.remoteWindow.toNat + bytes s'.sent = s.c.remoteWindow.toNat + bytes s.sent
  window : s'.c.localWindow.toNat + adjusts s.sent = s.c.localWindow.toNat + adjusts s'.sent
  fits : ∀ m ∈ s'.sent, m ∈ s.sent ∨ m.Fits (max s.c.remoteMaxpacket.toNat 2)
  remoteMaxpacket : s'.c.remoteMaxpacket = s.c.remoteMaxpacket
  localMaxpacket : s'.c.localMaxpacket = s.c.localMaxpacket
  datagram : s'.c.datagram = s.c.datagram
  type : Evolves s.c.type s'.c.type
  sound : s'.c.ledger.Sound

/-- The same for a channel that keeps its window: `lost` is the credit that nobody has any
more. -/
structure Accounts (lost : Nat) (s s' : Side) : Prop extends Books s s' where
  pool : s'.c.ledger.pool + lost = s.c.ledger.pool
  stderr : held s'.c.extendedUsage s'.c.extended ≤ held s.c.extendedUsage s.c.extended
  localWindowMax : s'.c.localWindowMax = s.c.localWindowMax

namespace Accounts

variable {s s' s'' : Side} {lost lost' : Nat}

lemma trans (h : Accounts lost s s') (h' : Accounts lost' s' s'') :
    Accounts (lost + lost') s s'' where
  remote := h'.remote.trans h.remote
  window := by
    have := h.window
    have := h'.window
    omega
  pool := by
    have := h.pool
    have := h'.pool
    omega
  stderr := h'.stderr.trans h.stderr
  fits := by
    intro m hm
    rcases h'.fits m hm with hm | hm
    · exact h.fits m hm
    · rw [h.remoteMaxpacket] at hm
      exact .inr hm
  remoteMaxpacket := h'.remoteMaxpacket.trans h.remoteMaxpacket
  localMaxpacket := h'.localMaxpacket.trans h.localMaxpacket
  localWindowMax := h'.localWindowMax.trans h.localWindowMax
  datagram := h'.datagram.trans h.datagram
  type := h.type.trans h'.type
  sound := h'.sound

lemma on {f : Channel → Channel} (hs : (f s.c).ledger.Sound)
    (hr : (f s.c).remoteWindow = s.c.remoteWindow) (hw : (f s.c).localWindow = s.c.localWindow)
    (hp : (f s.c).ledger.pool + lost = s.c.ledger.pool)
    (hrm : (f s.c).remoteMaxpacket = s.c.remoteMaxpacket)
    (hlm : (f s.c).localMaxpacket = s.c.localMaxpacket)
    (hwm : (f s.c).localWindowMax = s.c.localWindowMax)
    (hd : (f s.c).datagram = s.c.datagram) (ht : Evolves s.c.type (f s.c).type)
    (he : held (f s.c).extendedUsage (f s.c).extended ≤ held s.c.extendedUsage s.c.extended) :
    Accounts lost s (s.on f) :=
  ⟨⟨by rw [Side.on,hr],by rw [Side.on,hw],fun _ hm => .inl hm,hrm,hlm,hd,ht,hs⟩,hp,he,hwm⟩

end Accounts

lemma Quiet.accounts {s s' : Side} (h : Quiet s s') (hs : s.c.ledger.Sound) :
    Accounts 0 s s' := by
  obtain ⟨hl,ms,hsent,hms⟩ := h
  obtain ⟨hb,ha⟩ := control_zero hms
  have hfield : ∀ {α : Type} (f : Ledger → α), f s'.c.ledger = f _ := fun f => by rw [hl]
  exact {
    remote := by
      rw [show s'.c.remoteWindow = s.c.remoteWindow from hfield remoteWindow,hsent,bytes_append,hb]
      rfl
    window := by
      rw [show s'.c.localWindow = s.c.localWindow from hfield localWindow,hsent,adjusts_append,ha]
      rfl
    pool := hfield pool
    stderr := (hfield fun l => held l.extendedUsage l.extended).le
    fits := by
      intro m hm
      rw [hsent] at hm
      rcases mem_append.mp hm with hm | hm
      · exact .inl hm
      · exact .inr ((hms m hm).fits _)
    remoteMaxpacket := hfield remoteMaxpacket
    localMaxpacket := hfield localMaxpacket
    localWindowMax := hfield localWindowMax
    datagram := hfield datagram
    type := by
      rw [show s'.c.type = s.c.type from hfield type]
      exact .refl _
    sound := hl ▸ hs }

section

variable {k : Compat} {s s' : Side} {b : Bytes} {t : ChannelType} {io : Io}

lemma Ledger.Sound.output {l : Ledger} (hs : l.Sound) (hb : b.length ≤ l.output.length) :
    ({ l with output := b }).Sound := by
  have hbound := hs.bound
  refine ⟨?_,hs.socks,fun ht => ?_,?_⟩
  · simp only [pool] at hbound ⊢
    omega
  · obtain ⟨hw,hc,ho,he⟩ := hs.larval ht
    rw [ho] at hb
    exact ⟨hw,hc,length_eq_zero_iff.mp (Nat.le_zero.mp hb),he⟩
  · exact hs.control

lemma accounts_output (hs : s.c.ledger.Sound) (hb : b.length ≤ s.c.output.length) :
    Accounts (s.c.output.length - b.length) s (s.on fun c => { c with output := b }) := by
  refine .on (hs.output hb) rfl rfl ?_ rfl rfl rfl rfl (.refl _) le_rfl
  simp only [pool,Channel.ledger]
  omega

lemma chanWriteFailed_accounts (hs : s.c.ledger.Sound) (h : chanWriteFailed k s = .ok s') :
    ∃ lost, Accounts lost s s' ∧ (s.c.output = [] → lost = 0) := by
  rcases chanWriteFailed_quiet h with hq | hq
  · exact ⟨0,hq.accounts hs,fun _ => rfl⟩
  · have hcut := accounts_output hs (b := []) (Nat.zero_le _)
    refine ⟨_,hcut.trans (hq.accounts hcut.sound),fun he => ?_⟩
    rw [he]
    rfl

lemma refuse_accounts (hs : s.c.ledger.Sound) (h : refuse k s = .ok s') :
    ∃ lost, Accounts lost s s' := by
  obtain ⟨s1,hs1,h⟩ := bind_eq_ok.mp h
  have hread : Accounts 0 s _ := (Quiet.on (ledger_chanReadFailed _)).accounts hs
  have hinput : Accounts 0 (s.on chanReadFailed)
      ((s.on chanReadFailed).on fun c => { c with input := [] }) := by
    refine .on ⟨hread.sound.bound,fun ht => ?_,hread.sound.larval,hread.sound.control⟩
      rfl rfl rfl rfl rfl rfl rfl (.refl _) le_rfl
    exact ⟨Nat.zero_le _,fun _ => rfl⟩
  have hdrain := (chanIbufEmpty_quiet hs1).accounts hinput.sound
  have hcut := accounts_output hdrain.sound (b := []) (Nat.zero_le _)
  obtain ⟨lost,hw,-⟩ := chanWriteFailed_accounts hcut.sound h
  exact ⟨_,(((hread.trans hinput).trans hdrain).trans hcut).trans hw⟩

lemma Ledger.Sound.of_selected {l : Ledger} (hb : l.pool < 2 ^ 32) (ht : Selected l.type) :
    l.Sound := by
  refine ⟨hb,fun h => ?_,fun h => ?_,fun _ => ht.opened_of_live⟩
  · rw [h] at ht
    exact absurd ht (by unfold Selected; decide)
  · rw [h] at ht
    exact absurd ht (by unfold Selected; decide)

/-- A read touches the input buffer only; it may give up a channel that is not open. -/
structure Reads (s s' : Side) (b : Bytes) (t : ChannelType) : Prop where
  sent : s'.sent = s.sent
  ledger : s'.c.ledger = { s.c.ledger with input := b, type := t }
  type : t = s.c.type ∨ s.c.type ≠ .opened ∧ t = .zombie

/-- No escape that is typed is answered by a text. -/
def typesUnanswered (c : Channel) (io : Io) : Prop :=
  ∀ efc buf, c.inputFilter = some efc → c.extendedUsage = .write → io.rfd = .got buf →
    unanswered efc.escapeChar (c.ctlChan ≠ none) efc.escapePending io.lastWasCr buf

lemma Reads.evolves (h : Reads s s' b t) (hs : Selected s.c.type) : Evolves s.c.type t := by
  rcases h.type with rfl | ⟨hno,rfl⟩
  · exact .refl _
  · exact evolves_zombie fun hlive => hno (hs.opened_of_live hlive)

lemma Reads.accounts (h : Reads s s' b t) (hs : s.c.ledger.Sound) (ht : Selected s.c.type) :
    Accounts 0 s s' := by
  have hl := h.ledger
  have hpool : s'.c.ledger.pool = s.c.ledger.pool := by rw [hl]; rfl
  have hfield : ∀ {α : Type} (f : Ledger → α),f s'.c.ledger = f _ := fun f => by rw [hl]
  have htype : s'.c.type = t := hfield Ledger.type
  exact {
    remote := by
      rw [show s'.c.remoteWindow = s.c.remoteWindow from hfield remoteWindow,h.sent]
    window := by
      rw [show s'.c.localWindow = s.c.localWindow from hfield localWindow,h.sent]
    pool := hpool
    stderr := (hfield fun l => held l.extendedUsage l.extended).le
    fits := fun m hm => .inl (h.sent ▸ hm)
    remoteMaxpacket := hfield remoteMaxpacket
    localMaxpacket := hfield localMaxpacket
    localWindowMax := hfield localWindowMax
    datagram := hfield datagram
    type := htype ▸ h.evolves ht
    sound := .of_selected (hpool ▸ hs.bound) (hl ▸ (h.evolves ht).selected ht) }

lemma reads_readFail (s : Side) : ∃ b t, Reads s (s.on readFail) b t := by
  by_cases h : s.c.type = .opened
  · refine ⟨s.c.input,s.c.type,rfl,?_,.inl rfl⟩
    rw [on,readFail,if_neg (not_not.mpr h)]
    exact ledger_chanReadFailed s.c
  · refine ⟨s.c.input,.zombie,rfl,?_,.inr ⟨h,rfl⟩⟩
    rw [on,readFail,if_pos h]
    rfl

lemma channelHandleRfd_spec (hq : typesUnanswered s.c io)
    (h : channelHandleRfd k io s = .ok s') : ∃ b t, Reads s s' b t := by
  rcases channelHandleRfd_cases h with ⟨b,rfl⟩ | rfl | ⟨buf,stop,s1,hfilter,hbuf,hs1,rfl⟩
  · exact ⟨b,s.c.type,rfl,rfl,.inl rfl⟩
  · exact reads_readFail s
  obtain ⟨efc,hefc⟩ := Option.isSome_iff_exists.mp hfilter
  unfold clientSimpleEscapeFilter at hs1
  split at hs1
  · cases hs1
    exact ⟨s.c.input,s.c.type,rfl,rfl,.inl rfl⟩
  · next hu =>
    obtain ⟨rfl,b,filter,rfl⟩ :=
      processEscapes_unanswered hefc (hq efc buf hefc (not_not.mp hu) hbuf) hs1
    exact ⟨b,s.c.type,rfl,rfl,.inl rfl⟩

variable (hs : s.c.ledger.Sound)

include hs

lemma accounts_markDead (ht : s.c.type ≠ .opened)
    (hsel : Selected s.c.type) : Accounts 0 s (s.on chanMarkDead) :=
  .on (.of_selected hs.bound (.inr (.inr rfl))) rfl rfl rfl rfl rfl rfl rfl
    (evolves_zombie fun hlive => ht (hsel.opened_of_live hlive)) le_rfl

variable (hsel : Selected s.c.type)

include hsel

lemma writeFail_accounts
    (h : writeFail k s = .ok s') : ∃ lost, Accounts lost s s' ∧ (s.c.output = [] → lost = 0) := by
  unfold writeFail at h
  split at h
  · next ht =>
    cases h
    exact ⟨0,accounts_markDead hs ht hsel,fun _ => rfl⟩
  · exact chanWriteFailed_accounts hs h

lemma accounts_written (hb : b.length ≤ s.c.output.length) : Accounts 0 s (s.on (written b)) := by
  have hbound := hs.bound
  simp only [pool,Channel.ledger] at hbound
  have hcredit := toNat_add_ofNat (a := s.c.localConsumed) (n := s.c.output.length - b.length)
    (by omega)
  have hpool : (written b s.c).ledger.pool = s.c.ledger.pool := by
    simp only [pool,Channel.ledger,written]
    omega
  exact .on (.of_selected (hpool ▸ hs.bound) hsel) rfl rfl hpool rfl rfl rfl rfl (.refl _) le_rfl

lemma channelHandleWfd_accounts
    (h : channelHandleWfd k io s = .ok s') : ∃ lost, Accounts lost s s' ∧
      (s.c.datagram = false → (io.wfd.fails → s.c.output = []) → lost = 0) := by
  rcases channelHandleWfd_cases h with rfl | ⟨b,hb,rfl⟩ | ⟨hw,h⟩ | ⟨hd,b,hb,h⟩
  · exact ⟨0,(Quiet.refl _).accounts hs,fun _ _ => rfl⟩
  · exact ⟨0,accounts_written hs hsel hb,fun _ _ => rfl⟩
  · obtain ⟨lost,hfail,hzero⟩ := writeFail_accounts hs hsel h
    exact ⟨lost,hfail,fun _ hcond => hzero (hcond hw)⟩
  · have hcut := accounts_output hs hb
    rw [hd]
    rcases h with rfl | h
    · exact ⟨_,hcut,nofun⟩
    · obtain ⟨lost,hfail,-⟩ := writeFail_accounts hcut.sound hsel h
      exact ⟨_,hcut.trans hfail,nofun⟩

lemma channelHandleEfd_accounts (h : channelHandleEfd io s = .ok s') : Accounts 0 s s' := by
  rcases channelHandleEfd_cases h with rfl | rfl | ⟨hu,len,hlen,rfl⟩ | ⟨hu,b,rfl⟩
  · exact (Quiet.refl _).accounts hs
  · exact (Quiet.on rfl).accounts hs
  · have hheld : ∀ b, held _ b = b.length := fun b => if_pos hu
    have hbound := hs.bound
    simp only [pool,Channel.ledger,hheld] at hbound
    have hcredit := toNat_add_ofNat (a := s.c.localConsumed) (n := len) (by omega)
    have hpool : ({ s.c with extended := s.c.extended.drop len
                             localConsumed := s.c.localConsumed + UInt32.ofNat len }).ledger.pool =
        s.c.ledger.pool := by
      simp only [pool,Channel.ledger,hheld,length_drop]
      omega
    refine .on (.of_selected (hpool ▸ hs.bound) hsel) rfl rfl hpool rfl rfl rfl rfl (.refl _) ?_
    simp only [hheld,length_drop]
    exact Nat.sub_le _ _
  · have hheld : ∀ b, held _ b = 0 := fun b => if_neg hu
    have hpool : ({ s.c with extended := b }).ledger.pool = s.c.ledger.pool := by
      simp only [pool,Channel.ledger,hheld]
    exact .on (.of_selected (hpool ▸ hs.bound) hsel) rfl rfl hpool rfl rfl rfl rfl (.refl _)
      ((hheld b).trans (hheld _).symm).le

omit hsel

lemma channelCheckWindow_accounts (h : channelCheckWindow s = .ok s') :
    Accounts 0 s s' := by
  unfold channelCheckWindow at h
  split at h
  · next hcond =>
    obtain ⟨s1,hs1,h⟩ := bind_eq_ok.mp h
    cases h
    obtain rfl := send_ok hs1
    have hbound := hs.bound
    simp only [pool,Channel.ledger] at hbound
    have hadd : (s.c.localWindow + s.c.localConsumed).toNat =
        s.c.localWindow.toNat + s.c.localConsumed.toNat := by
      rw [UInt32.toNat_add]
      omega
    have hpool : ({ s.c with localWindow := s.c.localWindow + s.c.localConsumed
                             localConsumed := 0 }).ledger.pool = s.c.ledger.pool := by
      simp only [pool,Channel.ledger,hadd]
      rfl
    exact {
      remote := by simp [on,push,Msg.bytes]
      window := by
        simp only [on,push,adjusts_append,adjusts_cons,adjusts_nil,Msg.adjust]
        omega
      pool := hpool
      stderr := le_rfl
      fits := by
        intro m hm
        rcases mem_append.mp hm with hm | hm
        · exact .inl hm
        · rw [mem_singleton.mp hm]
          exact .inr trivial
      remoteMaxpacket := rfl
      localMaxpacket := rfl
      localWindowMax := rfl
      datagram := rfl
      type := .refl _
      sound := .of_selected (hpool ▸ hs.bound) (.inl hcond.1) }
  · cases h
    exact (Quiet.refl s).accounts hs

lemma channelPostOpen_accounts (hsel : Selected s.c.type)
    (hq : typesUnanswered s.c io) (h : channelPostOpen k io s = .ok s') :
    ∃ lost, Accounts lost s s' ∧
      (s.c.datagram = false → (io.wfd.fails → s.c.output = []) → lost = 0) := by
  obtain ⟨s1,hs1,h⟩ := bind_eq_ok.mp h
  obtain ⟨s2,hs2,h⟩ := bind_eq_ok.mp h
  obtain ⟨s3,hs3,h⟩ := bind_eq_ok.mp h
  obtain ⟨b,t,hreads⟩ := channelHandleRfd_spec hq hs1
  have h1 := hreads.accounts hs hsel
  have hfield : ∀ {α : Type} (f : Ledger → α),f s1.c.ledger = f _ := fun f => by rw [hreads.ledger]
  have hsel1 := h1.type.selected hsel
  obtain ⟨lost,h2,hlost⟩ := channelHandleWfd_accounts h1.sound hsel1 hs2
  have h3 := channelHandleEfd_accounts h2.sound (h2.type.selected hsel1) hs3
  refine ⟨_,((h1.trans h2).trans h3).trans (channelCheckWindow_accounts h3.sound h),?_⟩
  intro hd hw
  have hout : s1.c.output = s.c.output := hfield output
  have := hlost (h1.datagram.trans hd) (by rw [hout]; exact hw)
  omega

lemma accounts_type (ht : Evolves s.c.type t) (hsel : Selected t) :
    Accounts 0 s (s.on fun c => { c with type := t }) :=
  .on (.of_selected hs.bound hsel) rfl rfl rfl rfl rfl rfl rfl ht le_rfl

lemma rdynamicClose_accounts (h : rdynamicClose k s = .ok s') :
    ∃ lost, Accounts lost s s' := by
  have hopen := accounts_type hs (evolves_opened _) (.inl rfl)
  obtain ⟨lost,hrest⟩ := refuse_accounts hopen.sound h
  exact ⟨_,hopen.trans hrest⟩

lemma channelPostConnecting_accounts (ht : s.c.type = .connecting ∨ s.c.type = .rdynamicFinish)
    (h : channelPostConnecting k io s = .ok s') : ∃ lost, Accounts lost s s' := by
  unfold channelPostConnecting at h
  split at h
  · cases h
    exact ⟨0,(Quiet.refl s).accounts hs⟩
  split at h
  · cases h
  dsimp only at h
  have hopen := accounts_type hs (evolves_opened _) (.inl rfl)
  split at h
  · split at h
    · cases h
      exact ⟨0,hopen⟩
    · cases h
      exact ⟨_,hopen.trans ((Quiet.push (m := .openConfirmation _ _) trivial).accounts hopen.sound)⟩
  · cases h
    exact ⟨0,(Quiet.on rfl).accounts hs⟩
  · split at h
    · exact rdynamicClose_accounts hs h
    · next hfinish =>
      cases h
      have hpush : Accounts 0 s _ := (Quiet.push (m := .openFailure) trivial).accounts hs
      have hno : ¬ Live (s.push .openFailure).c.type := by
        change ¬ Live s.c.type
        rw [ht.resolve_right hfinish]
        unfold Live
        decide
      exact ⟨_,hpush.trans (accounts_type hpush.sound (evolves_zombie hno) (.inr (.inr rfl)))⟩

end

end PkixSsh.Channels
