import Mathlib.Algebra.Order.BigOperators.Group.List
import Mathlib.Data.List.ReduceOption
import PkixSsh.Channels.Mux

/-!
# Clients of the multiplexer that leave

What each channel of the master looks like in every state that it reaches, and when the channels of
a client that has left can be closed.
-/

namespace PkixSsh.Channels

open Sshbuf Machine List Option Master Side BigEndian Prod Slots

lemma orStop_ok {α : Type} {x : Except Stop α} {a : α} (h : orStop x = .ok a) : x = .ok a := by
  cases x with
  | error s => cases h
  | ok b =>
    cases h
    rfl

namespace Master

variable {m m' : Master} {i j : Nat} {e : MuxChannel}

lemma get_modify (m : Master) (i : Nat) (f : MuxChannel → MuxChannel) (j : Nat) :
    (m.modify i f).get j = if j = i then (m.get j).map f else m.get j :=
  Slots.get_modify f i j _

lemma get_modify_self (h : m.get i = some e) (f : MuxChannel → MuxChannel) :
    (m.modify i f).get i = some (f e) := by
  rw [get_modify,if_pos rfl,h]
  rfl

lemma get_modify_of_ne {f : MuxChannel → MuxChannel} (h : j ≠ i) :
    (m.modify i f).get j = m.get j := by
  rw [get_modify,if_neg h]

variable (h : m.get i = some e)

include h

lemma get_on_self (f : Channel → Channel) :
    (m.on i f).get i = some { e with c := f e.c } := get_modify_self h _

lemma get_channelFree (j : Nat) : (m.channelFree i).2.get j = if j = i then none
      else (m.get j).map (if e.c.type = .muxClient then detach e.addr else id) := by
  unfold channelFree
  rw [h]
  dsimp only
  by_cases ht : e.c.type = .muxClient
  · rw [if_pos ht,if_pos ht]
    exact (get_clear i j _).trans (by rw [get_update]; rfl)
  · rw [if_neg ht,if_neg ht,Option.map_id]
    exact get_clear i j _

lemma get_channelFree_of_ne (ht : e.c.type ≠ .muxClient) (hj : j ≠ i) :
    (m.channelFree i).2.get j = m.get j := by
  rw [get_channelFree h,if_neg hj,if_neg ht,Option.map_id,id]

lemma mem_channels : some e ∈ m.channels := by
  unfold get Slots.get at h
  cases hget : m.channels[i]? with
  | none =>
    rw [hget] at h
    cases h
  | some o =>
    rw [hget] at h
    exact mem_of_getElem? (hget.trans (congrArg some h))

lemma mem_addrs : e.addr ∈ m.addrs :=
  List.mem_map.mpr ⟨e,reduceOption_mem_iff.mpr (mem_channels h),rfl⟩

lemma xcalloc_ne (addr : Nat) : e.addr ≠ m.xcalloc addr := by
  unfold xcalloc
  split
  · have hle := single_le_sum (fun _ _ => Nat.zero_le _) _ (mem_addrs h)
    omega
  · next hnot =>
    rintro rfl
    exact hnot (mem_addrs h)

omit h

lemma get_channelNew (h : m.channelNew e = .ok (i,m')) : m.get i = none ∧ m'.fresh = m.fresh ∧
      ∀ j, m'.get j = if j = i then some { e with addr := m.xcalloc e.addr } else m.get j := by
  unfold channelNew at h
  split at h
  · cases h
  · next i' channels hins =>
    cases h
    obtain ⟨hnone,hget⟩ := insert_spec (by decide) hins
    exact ⟨hnone,rfl,hget⟩

end Master

/-- The fields of a proxy channel that nothing changes: it has no descriptors. -/
structure Bare (c : Channel) : Prop where
  rfd : c.rfd = none
  wfd : c.wfd = none
  efd : c.efd = none
  ctlChan : c.ctlChan = none
  extendedUsage : c.extendedUsage = .ignore

structure Detached (c : Channel) : Prop extends Bare c where
  type : c.type = .opened
  istate : c.istate = .closed
  ostate : c.ostate = .closed

structure Attached (e : MuxChannel) : Prop extends Bare e.c where
  type : e.c.type = .muxProxy
  istate : e.c.istate = .opened
  muxCtx : e.muxCtx ≠ none

/-- What a channel looks like, by its origin; with `b`, the server has confirmed each channel
whose client has left. -/
def Formed (b : Prop) (e : MuxChannel) : Prop :=
  match e.origin with
  | .master => ¬ Multiplexed e.c.type
  | .client _ => (e.c.type = .muxClient ∨ e.c.type = .zombie) ∧ e.c.haveRemoteId = false
  | .proxied _ n =>
    e.muxDownstreamId = n ∧ (Attached e ∨ Detached e.c ∧ (b → e.c.haveRemoteId = true))

section

variable {c c' : Channel} {s s' : Side}

lemma chanShutdownExtendedRead_kept (c : Channel) : Kept c (chanShutdownExtendedRead c) := by
  unfold chanShutdownExtendedRead
  split
  · exact .refl c
  · split <;> exact ⟨rfl,rfl⟩

lemma chanObufEmpty_kept (c : Channel) : Kept c (chanObufEmpty c) := by
  unfold chanObufEmpty
  split
  · exact .refl c
  · split
    · exact chanShutdownWrite_kept c
    · exact .refl c

lemma chanSendEof2_kept (h : chanSendEof2 s = .ok s') : Kept s.c s'.c := by
  unfold chanSendEof2 at h
  split at h
  · obtain ⟨s1,hs1,h⟩ := bind_eq_ok.mp h
    cases h
    obtain rfl := send_ok hs1
    exact ⟨rfl,rfl⟩
  · cases h
    exact .refl _

lemma callIf_kept {p : Prop} [Decidable p] {f : Side → Except Stop Side}
    (hf : ∀ s', f s = .ok s' → Kept s.c s'.c) (h : s.callIf p f = .ok s') : Kept s.c s'.c := by
  unfold callIf at h
  split at h
  · exact hf s' h
  · cases h
    exact .refl _

lemma chanIbufEmpty_kept (h : chanIbufEmpty s = .ok s') : Kept s.c s'.c := by
  unfold chanIbufEmpty at h
  split at h
  · cases h
    exact .refl _
  split at h
  · obtain ⟨s1,hs1,h⟩ := bind_eq_ok.mp h
    have heof : Kept s.c _ := callIf_kept (fun _ => chanSendEof2_kept) hs1
    cases h
    exact heof
  · cases h
    exact .refl _

lemma chanRcvdOclose_kept (h : chanRcvdOclose s = .ok s') : Kept s.c s'.c := by
  unfold chanRcvdOclose at h
  dsimp only at h
  split at h
  · cases h
    exact ⟨rfl,rfl⟩
  have hdrain : ∀ c : Channel, Kept c (chanStartDrain c) := by
    intro c
    unfold chanStartDrain
    split
    · exact ⟨rfl,rfl⟩
    · exact .refl c
  have hstart := hdrain { s.c with closeRcvd := s.c.closeRcvd || !s.c.isLocal }
  split at h
  · cases h
    exact hstart.trans ((chanShutdownRead_kept _).trans (chanShutdownExtendedRead_kept _))
  · obtain ⟨s1,hs1,h⟩ := bind_eq_ok.mp h
    cases h
    exact hstart.trans ((callIf_kept (fun _ => chanSendEof2_kept) hs1).trans
      (chanShutdownExtendedRead_kept _))
  · cases h
    exact hstart

lemma channelPreMuxClient_kept (h : channelPreMuxClient c = .ok c') : Kept c c' := by
  obtain ⟨s,hs,h⟩ := bind_eq_ok.mp h
  have hkept : Kept c s.c := by
    refine callIf_kept (fun s' hs' => ?_) hs
    obtain ⟨s1,hs1,hs'⟩ := bind_eq_ok.mp hs'
    exact (chanIbufEmpty_kept hs1).trans (chanRcvdOclose_kept hs')
  split at h
  · cases h
    exact hkept.trans (chanObufEmpty_kept s.c)
  · cases h
    exact hkept

lemma readMux_kept (need : Nat) (r : Read) (c : Channel) : Kept c (readMux need r c).2 := by
  unfold readMux
  split
  · split
    · exact .refl c
    · exact .refl c
    · exact chanReadFailed_kept c
    · exact chanReadFailed_kept c
    · exact ⟨rfl,rfl⟩
  · exact .refl c

lemma muxClientInput_kept {header body : Read} {complete : Bool}
    (h : muxClientInput header body c = .ok (complete,c')) : Kept c c' := by
  unfold muxClientInput at h
  have hheader := readMux_kept 4 header c
  dsimp only at h
  split at h
  · cases h
    exact hheader
  split at h
  · obtain ⟨s,hs,h⟩ := bind_eq_ok.mp h
    cases h
    exact hheader.trans (chanRcvdOclose_kept hs)
  · cases h
    exact hheader.trans (readMux_kept _ body _)

end

section

variable {k : Compat} {c : Channel} {s s' : Side}

lemma chanIsDead_kept {doSend dead : Bool} (h : chanIsDead k doSend s = .ok (dead,s')) :
    ∃ x, s'.c = { s.c with closeSent := x } := by
  by_cases hset : Settled k s.c
  · rcases chanIsDead_settled hset h with ⟨-,rfl,-⟩ | ⟨-,-,rfl,-⟩ | ⟨-,-,-,rfl⟩
    · exact ⟨_,rfl⟩
    · exact ⟨_,rfl⟩
    · exact ⟨true,rfl⟩
  · obtain ⟨d,-,hd⟩ := chanIsDead_unsettled hset
    cases (hd _).1.symm.trans h
    exact ⟨_,rfl⟩

lemma channelGarbageCollect_kept {detaches : Bool}
    (h : channelGarbageCollect k detaches s = .ok s') :
    ∃ x y z, s'.c = { s.c with closeSent := x, detachUser := y, detachClose := z } := by
  have hreap : ∀ {t t' : Side}, channelReap k t = .ok t' →
      ∃ x, t'.c = { t.c with closeSent := x } := by
    intro t t' h
    obtain ⟨⟨dead,t1⟩,ht1,h⟩ := bind_eq_ok.mp h
    have hx := chanIsDead_kept ht1
    cases h
    cases dead <;> exact hx
  unfold channelGarbageCollect at h
  split at h
  · obtain ⟨⟨dead,s1⟩,hs1,h⟩ := bind_eq_ok.mp h
    obtain ⟨x,hx⟩ := chanIsDead_kept hs1
    dsimp only at h
    split at h
    · cases h
      exact ⟨x,_,_,hx⟩
    split at h
    · cases h
      exact ⟨x,_,_,hx⟩
    · obtain ⟨x',hx'⟩ := hreap h
      refine ⟨x',false,false,hx'.trans ?_⟩
      change { channelCancelCleanup _ with closeSent := x' } = _
      rw [hx]
      rfl
  · obtain ⟨x,hx⟩ := hreap h
    exact ⟨x,_,_,hx⟩

/-- The fields that a step on such a channel does not touch. -/
def Channel.shape (c : Channel) :=
  (c.type,c.istate,c.ostate,c.haveRemoteId,c.rfd,c.wfd,c.efd,c.ctlChan,c.extendedUsage)

lemma Bare.of_shape {c' : Channel} (hc : Bare c) (h : c'.shape = c.shape) : Bare c' := by
  simp only [Channel.shape,Prod.mk.injEq] at h
  obtain ⟨-,-,-,-,hr,hw,he,hctl,hext⟩ := h
  exact ⟨hr.trans hc.rfd,hw.trans hc.wfd,he.trans hc.efd,hctl.trans hc.ctlChan,
    hext.trans hc.extendedUsage⟩

lemma Detached.of_shape {c' : Channel} (hc : Detached c) (h : c'.shape = c.shape) :
    Detached c' := by
  have hbare := hc.toBare.of_shape h
  simp only [Channel.shape,Prod.mk.injEq] at h
  exact ⟨hbare,h.1.trans hc.type,h.2.1.trans hc.istate,h.2.2.1.trans hc.ostate⟩

lemma haveRemoteId_of_shape {c' : Channel} (h : c'.shape = c.shape) :
    c'.haveRemoteId = c.haveRemoteId := by
  simp only [Channel.shape,Prod.mk.injEq] at h
  exact h.2.2.2.1

lemma channelCheckWindow_shape (h : channelCheckWindow s = .ok s') : s'.c.shape = s.c.shape := by
  unfold channelCheckWindow at h
  split at h
  · obtain ⟨s1,hs1,h⟩ := bind_eq_ok.mp h
    obtain rfl := send_ok hs1
    cases h
    rfl
  · cases h
    rfl

lemma Detached.chanReadFailed (hc : Detached c) : chanReadFailed c = c := by
  unfold Channels.chanReadFailed
  rw [hc.istate]

lemma Detached.chanWriteFailed (hc : Detached s.c) : chanWriteFailed k s = .ok s := by
  unfold Channels.chanWriteFailed
  rw [hc.ostate]

lemma Detached.chanStartDrain (hc : Detached c) : chanStartDrain c = c :=
  if_neg (by rw [hc.ostate]; decide)

lemma localStep_detached {e : LocalEvent} (hc : Detached s.c) (h : localStep k e s = .ok s') :
    s'.c.shape = s.c.shape := by
  cases e with
  | beforeSelect sock =>
    rw [localStep,if_neg (by rw [hc.type]; decide)] at h
    cases h
    rfl
  | pre x =>
    have hpre : channelPreOpen s.c = s.c := if_neg (by rw [hc.ostate]; simp)
    simp only [localStep,hc.type] at h
    cases h
    exact congrArg _ hpre
  | post io =>
    simp only [localStep,hc.type] at h
    have hr : channelHandleRfd k io s = .ok s := if_pos (.inl hc.rfd)
    have hw : channelHandleWfd k io s = .ok s := if_pos (.inl hc.wfd)
    have he : channelHandleEfd io s = .ok s := if_pos hc.efd
    rw [channelPostOpen,hr,ok_bind,hw,ok_bind,he] at h
    exact channelCheckWindow_shape h
  | collect detaches =>
    obtain ⟨x,y,z,hx⟩ := channelGarbageCollect_kept h
    rw [hx]
    rfl
  | poll =>
    rw [localStep,channelOutputPoll,if_neg (by rw [hc.type]; decide)] at h
    split at h
    · cases h
      rfl
    · rw [callIf,if_neg (by rw [hc.istate]; decide),ok_bind,callIf,
        if_neg (by rw [hc.extendedUsage]; simp)] at h
      cases h
      rfl
  | setFds rfd wfd efd extusage isTty windowMax =>
    rw [localStep,channelSetFds,if_pos (by rw [hc.type]; decide)] at h
    cases h
  | sessionExit rtype =>
    rw [localStep,sessionExitMessage,if_neg (by rw [hc.type]; decide)] at h
    obtain ⟨s1,hs1,h⟩ := bind_eq_ok.mp h
    obtain rfl := send_ok hs1
    unfold callIf at h
    dsimp only at h
    split at h
    · next ho => exact absurd hc.ostate ho
    · cases h
      rfl
  | controlClosed =>
    rw [localStep,muxMasterControlCleanupCb,if_pos hc.ctlChan] at h
    cases h
    rfl
  | requestFailed logged errmsg confirmClose =>
    have hto : ¬ tochan logged s.c := fun hto => hto.2.1 hc.ctlChan
    have hread : s.on Channels.chanReadFailed = s := by
      rw [Side.on,hc.chanReadFailed]
    rw [localStep,clientStatusConfirm,if_neg (by rw [hc.type]; decide),callIf,if_neg hto,
      ok_bind,callIf] at h
    split at h
    · rw [hread,hc.chanWriteFailed] at h
      cases h
      rfl
    · cases h
      rfl

lemma receive_detached {msg : Msg} (hc : Detached s.c) (h : receive k msg s = .ok s') :
    s'.c.shape = s.c.shape := by
  cases msg with
  | openRequest | request =>
    cases h
    rfl
  | openConfirmation window maxpacket =>
    rw [receive,channelInputOpenConfirmation,if_pos (by rw [hc.type]; decide)] at h
    cases h
  | openFailure =>
    rw [receive,channelInputOpenFailure,if_pos (by rw [hc.type]; decide)] at h
    cases h
  | data v =>
    rw [receive,channelInputData,if_neg (not_not.mpr (.inl hc.type))] at h
    rw [if_pos (by rw [hc.ostate]; decide)] at h
    cases h
    rfl
  | extendedData tcode v =>
    rw [receive,channelInputExtendedData,if_neg (not_not.mpr hc.type)] at h
    split at h
    · cases h
    · rw [if_pos (.inl hc.efd)] at h
      cases h
      rfl
  | windowAdjust adjust =>
    obtain ⟨-,h⟩ := ite_error_eq_ok.mp h
    cases h
    rfl
  | eof =>
    have hdrain : chanRcvdIeof s.c = { s.c with eofRcvd := true } := by
      unfold chanRcvdIeof Channels.chanStartDrain
      simp [hc.ostate]
    rw [receive,channelInputIeof,Side.on,hdrain] at h
    rw [if_neg (by rw [hc.istate]; simp)] at h
    cases h
    rfl
  | eow =>
    have heow : chanRcvdEow s.c = s.c := by
      unfold chanRcvdEow
      rw [hc.istate]
    cases h
    exact congrArg _ heow
  | close =>
    have hheard : Detached { s.c with closeRcvd := s.c.closeRcvd || !s.c.isLocal } :=
      hc.of_shape rfl
    have hdrain := hheard.chanStartDrain
    unfold receive chanRcvdOclose at h
    dsimp only [Side.on] at h
    rw [if_neg (by rw [hc.type]; decide),hdrain] at h
    split at h
    · next hi => exact absurd (hc.istate.symm.trans hi) (by decide)
    · next hi => exact absurd (hc.istate.symm.trans hi) (by decide)
    · cases h
      rfl

lemma input_detached {e : Event} {c : Channel} (hc : Detached c)
    (h : input k e c = .ok s') : s'.c.shape = c.shape := by
  cases e with
  | here e => exact localStep_detached hc h
  | peer msg =>
    have hpub : Public c.type := by
      rw [hc.type]
      decide
    unfold input at h
    dsimp only at h
    rw [if_pos hpub] at h
    exact receive_detached hc h

end

section

variable {k : Compat} {b : Prop} {m m' : Master} {e d : MuxChannel} {i j : Nat}

lemma Formed.client (h : Formed b e) (ht : e.c.type = .muxClient) :
    (∃ t, e.origin = .client t) ∧ e.c.haveRemoteId = false := by
  unfold Formed at h
  split at h
  · exact absurd (.inl ht) h
  · next t ho => exact ⟨⟨t,ho⟩,h.2⟩
  · rcases h.2 with ha | ⟨hd,-⟩
    · exact absurd (ha.type.symm.trans ht) (by decide)
    · exact absurd (hd.type.symm.trans ht) (by decide)

lemma Formed.proxied (h : Formed b e) (ht : e.c.type = .muxProxy) :
    (∃ t, e.origin = .proxied t e.muxDownstreamId) ∧ Attached e := by
  unfold Formed at h
  split at h
  · exact absurd (.inr ht) h
  · rcases h.1 with hc | hz
    · exact absurd (hc.symm.trans ht) (by decide)
    · exact absurd (hz.symm.trans ht) (by decide)
  · next t n ho =>
    rcases h.2 with ha | ⟨hd,-⟩
    · exact ⟨⟨t,by rw [ho,h.1]⟩,ha⟩
    · exact absurd (hd.type.symm.trans ht) (by decide)

lemma Formed.of_origin_client {t : Nat} (ho : e.origin = .client t)
    (ht : e.c.type = .muxClient ∨ e.c.type = .zombie) (hid : e.c.haveRemoteId = false) :
    Formed b e := by
  unfold Formed
  rw [ho]
  exact ⟨ht,hid⟩

variable {c : Channel} {addr : Nat} {type : UInt8} {ok : Bool} {outs : List Out} {cp : Bytes}

lemma Formed.keep (h : Formed b d) (ht : d.c.type = .muxClient)
    (htype : c.type = .muxClient ∨ c.type = .zombie) (hid : c.haveRemoteId = d.c.haveRemoteId) :
    Formed b { d with c } := by
  obtain ⟨⟨t,ho⟩,hfalse⟩ := h.client ht
  exact .of_origin_client ho htype (hid.trans hfalse)

lemma Attached.of_shape (h : Attached e) (hs : c.shape = e.c.shape) : Attached { e with c } := by
  have hbare := h.toBare.of_shape hs
  simp only [Channel.shape,Prod.mk.injEq] at hs
  exact ⟨hbare,hs.1.trans h.type,hs.2.1.trans h.istate,h.muxCtx⟩

lemma Formed.of_shape (h : Formed b e) (hs : c.shape = e.c.shape) : Formed b { e with c } := by
  have hid := haveRemoteId_of_shape hs
  have ht : c.type = e.c.type := congrArg fst hs
  unfold Formed at h ⊢
  dsimp only
  split at h
  · rw [ht]
    exact h
  · rw [ht,hid]
    exact h
  · refine ⟨h.1,h.2.imp (fun ha => ha.of_shape hs) ?_⟩
    rintro ⟨hd,hb⟩
    exact ⟨hd.of_shape hs,fun hb' => hid.trans (hb hb')⟩

lemma Formed.detach (h : Formed b e)
    (hid : b → e.c.type = .muxProxy → e.muxCtx = some addr → e.c.haveRemoteId = true) :
    Formed b (detach addr e) := by
  unfold Channels.detach
  split
  · next hc =>
    obtain ⟨⟨t,ho⟩,ha⟩ := h.proxied hc.1
    rw [ho]
    exact ⟨rfl,.inr ⟨⟨⟨ha.rfd,ha.wfd,ha.efd,ha.ctlChan,ha.extendedUsage⟩,rfl,rfl,rfl⟩,
      fun hb => hid hb hc.1 hc.2⟩⟩
  · exact h

namespace Master

def AllFormed (b : Prop) (m : Master) : Prop := ∀ i e, m.get i = some e → Formed b e

lemma AllFormed.modify {f : MuxChannel → MuxChannel} (hm : m.AllFormed b)
    (hf : ∀ e, m.get i = some e → Formed b (f e)) : (m.modify i f).AllFormed b := by
  intro j e he
  rw [get_modify] at he
  split at he
  · next hji =>
    obtain ⟨e0,he0,rfl⟩ := map_eq_some_iff.mp he
    exact hf e0 (hji ▸ he0)
  · exact hm j e he

lemma AllFormed.channelNew (hm : m.AllFormed b) (he : ∀ addr, Formed b { e with addr })
    (h : m.channelNew e = .ok (i,m')) : m'.AllFormed b := by
  obtain ⟨-,-,hget⟩ := get_channelNew h
  intro j f hf
  rw [hget] at hf
  split at hf
  · cases hf
    exact he _
  · exact hm j f hf

/-- When this is a client, the server has confirmed its channels. -/
def ConfirmedAt (m : Master) (i : Nat) : Prop :=
  ∀ e, m.get i = some e → e.c.type = .muxClient → ∀ j f, m.get j = some f →
    f.c.type = .muxProxy → f.muxCtx = some e.addr → f.c.haveRemoteId = true

lemma confirmedAt_of_type (h : ∀ e, m.get i = some e → e.c.type ≠ .muxClient) :
    m.ConfirmedAt i := fun e he ht => absurd ht (h e he)

lemma AllFormed.channelFree (hm : m.AllFormed b) (hid : b → m.ConfirmedAt i) :
    (m.channelFree i).2.AllFormed b := by
  cases hi : m.get i with
  | none =>
    unfold Master.channelFree
    rw [hi]
    exact hm
  | some e =>
    intro j f hf
    rw [get_channelFree hi] at hf
    split at hf
    · cases hf
    obtain ⟨f0,hf0,rfl⟩ := map_eq_some_iff.mp hf
    split
    · next ht => exact (hm j f0 hf0).detach fun hb hp hctx => hid hb e hi ht j f0 hf0 hp hctx
    · exact hm j f0 hf0

end Master

/-- A change of a channel that leaves it what it is to the others. -/
structure Steady (e e' : MuxChannel) : Prop where
  addr : e'.addr = e.addr
  origin : e'.origin = e.origin
  muxCtx : e'.muxCtx = e.muxCtx
  formed : ∀ b, Formed b e → Formed b e'
  proxy : e'.c.type = .muxProxy → e.c.type = .muxProxy
  client : e.c.type = .muxClient → e'.c.type = .muxClient

lemma Steady.of_shape (hs : c.shape = e.c.shape) : Steady e { e with c } := by
  have ht : c.type = e.c.type := congrArg fst hs
  exact ⟨rfl,rfl,rfl,fun _ h => h.of_shape hs,ht.symm.trans,ht.trans⟩

lemma Steady.keep (ht : d.c.type = .muxClient) (hc : Kept d.c c) : Steady d { d with c } :=
  ⟨rfl,rfl,rfl,fun _ h => h.keep ht (.inl (hc.1.trans ht)) hc.2,hc.1.symm.trans,hc.1.trans⟩

/-- What a step does to the table, but for clients that are marked dead or freed. -/
inductive Move : Master → Master → Prop
  | same {m m' : Master} (h : ∀ j, m'.get j = m.get j) : Move m m'
  | modify {m : Master} {i : Nat} {f : MuxChannel → MuxChannel}
      (h : ∀ e, m.get i = some e → Steady e (f e)) : Move m (m.modify i f)
  | free {m : Master} {i : Nat} (h : ∀ e, m.get i = some e → e.c.type ≠ .muxClient) :
      Move m (m.channelFree i).2
  | new {m m' : Master} {i : Nat} {e : MuxChannel} (h : m.channelNew e = .ok (i,m'))
      (hf : ∀ b addr, Formed b { e with addr })
      (hlink : e.c.type = .muxProxy → ∀ t n, e.origin = .proxied t n →
        ∃ i d, m.get i = some d ∧ d.c.type = .muxClient ∧ d.origin = .client t ∧
          e.muxCtx = some d.addr) : Move m m'
  | trans {m m1 m' : Master} (h : Move m m1) (h' : Move m1 m') : Move m m'

lemma Move.refl (m : Master) : Move m m := .same fun _ => rfl

lemma Move.put {e' : MuxChannel} (he : m.get i = some e) (h : Steady e e') :
    Move m (m.put i e') := by
  refine .modify fun f hf => ?_
  cases he.symm.trans hf
  exact h

variable (hm : m.AllFormed b)

include hm

lemma Master.AllFormed.move (h : Move m m') : m'.AllFormed b := by
  induction h with
  | same h => exact fun j e he => hm j e ((h j).symm.trans he)
  | modify h => exact hm.modify fun e he => (h e he).formed b (hm _ e he)
  | free h => exact hm.channelFree fun _ => confirmedAt_of_type h
  | new h hf => exact hm.channelNew (hf b) h
  | trans _ _ ih ih' => exact ih' (ih hm)

lemma Master.AllFormed.free_of_remoteId (he : m.get j = some e)
    (hid : e.c.haveRemoteId = true) : Move m (m.channelFree j).2 := by
  refine .free fun f hf ht => ?_
  cases he.symm.trans hf
  rw [((hm j e he).client ht).2] at hid
  cases hid

lemma proxyNew_moves {id : Nat} {remoteId : Option Nat} {compose : Nat → Except SshErr Bytes}
    (hd : m.get i = some { d with c }) (ht : c.type = .muxClient)
    (h : proxyNew m addr d id remoteId type compose = .ok (ok,outs,m')) : Move m m' := by
  obtain ⟨⟨self,m1⟩,hnew,h⟩ := bind_eq_ok.mp h
  obtain ⟨⟨t,ho⟩,-⟩ := (hm i _ hd).client ht
  have h1 : Move m m1 := by
    refine .new hnew (fun _ _ => ?_) fun _ t' n ho' => ?_
    · exact ⟨rfl,.inl ⟨⟨rfl,rfl,rfl,rfl,rfl⟩,rfl,rfl,some_ne_none _⟩⟩
    · rw [ho] at ho'
      cases ho'
      exact ⟨i,_,hd,ht,ho,rfl⟩
  dsimp only at h
  split at h
  · cases h
    exact h1
  · have hfree : Move m1 (m1.channelFree self).2 := by
      refine .free fun e he => ?_
      rw [(get_channelNew hnew).2.2,if_pos rfl] at he
      cases he
      exact show ChannelType.muxProxy ≠ .muxClient by decide
    simp only [pure_eq_ok,Except.ok.injEq,Prod.mk.injEq] at h
    rw [h.2] at hfree
    exact h1.trans hfree

lemma proxyClose_moves : Move m (proxyClose m cp).2 := by
  unfold proxyClose
  split
  · exact .refl m
  split
  · exact .refl m
  · next j hj =>
    obtain ⟨e,he,hid⟩ := get_of_find? hj
    split
    · exact hm.free_of_remoteId he (by simpa using (Bool.and_eq_true_iff.mp hid).1)
    · exact .modify fun _ _ => .of_shape rfl

lemma proxyMessage_moves (hd : m.get i = some { d with c })
    (ht : c.type = .muxClient) (h : proxyMessage m addr d type cp = .ok (ok,outs,m')) :
    Move m m' := by
  unfold proxyMessage at h
  split at h
  · split at h
    · cases h
      exact .refl m
    · exact proxyNew_moves hm hd ht h
  split at h
  · split at h
    · cases h
      exact .refl m
    · exact proxyNew_moves hm hd ht h
  split at h
  · split at h
    · cases h
      exact .refl m
    · cases h
      exact .refl m
    · cases h
      exact .same fun _ => rfl
  split at h
  · cases h
    exact proxyClose_moves hm
  · cases h
    exact .refl m

lemma channelProxyDownstream_moves (hd : m.get i = some d)
    (ht : d.c.type = .muxClient) (h : channelProxyDownstream m addr i d = .ok (ok,outs,m')) :
    Move m m' := by
  unfold channelProxyDownstream at h
  split at h
  · cases h
    exact .refl m
  · next msg input _ =>
    have hon : Move m (m.on i fun c => { c with input }) := .modify fun _ _ => .of_shape rfl
    split at h
    · exact hon.trans (proxyMessage_moves (hm.move hon) (get_on_self hd _) ht h)
    · cases h
      exact hon

omit hm

lemma proxyNew_get {id : Nat} {remoteId : Option Nat} {compose : Nat → Except SshErr Bytes}
    (hj : m.get j = some e) (h : proxyNew m addr d id remoteId type compose = .ok (ok,outs,m')) :
    m'.get j = some e := by
  obtain ⟨⟨self,m1⟩,hnew,h⟩ := bind_eq_ok.mp h
  obtain ⟨hnone,-,hget⟩ := get_channelNew hnew
  have hne : j ≠ self := by
    rintro rfl
    rw [hnone] at hj
    cases hj
  have hj1 : m1.get j = some e := by
    rw [hget,if_neg hne,hj]
  dsimp only at h
  split at h
  · cases h
    exact hj1
  · have hfree := get_channelFree_of_ne ((hget self).trans (if_pos rfl))
      (show ChannelType.muxProxy ≠ .muxClient by decide) hne
    simp only [pure_eq_ok,Except.ok.injEq,Prod.mk.injEq] at h
    rw [h.2,hj1] at hfree
    exact hfree

def named (m : Master) (cp : Bytes) : Option Nat :=
  if cp.length < 4 then none else m.channelByRemoteId (decode (cp.take 4))

variable (hm : m.AllFormed b)

include hm

lemma proxyClose_get (hj : m.get j = some e) (hne : named m cp ≠ some j) :
    (proxyClose m cp).2.get j = some e := by
  unfold proxyClose
  unfold named at hne
  split
  · exact hj
  next hlen =>
  rw [if_neg hlen] at hne
  split
  · exact hj
  next l hl =>
  have hjl : j ≠ l := by
    rintro rfl
    exact hne hl
  obtain ⟨f,hf,hid⟩ := get_of_find? hl
  split
  · have hnot : f.c.type ≠ .muxClient := by
      intro ht
      rw [((hm l f hf).client ht).2] at hid
      cases hid
    rw [get_channelFree_of_ne hf hnot hjl,hj]
  · exact (get_modify_of_ne hjl).trans hj

lemma proxyMessage_get (hj : m.get j = some e)
    (hne : type = msgChannelClose → named m cp ≠ some j)
    (h : proxyMessage m addr d type cp = .ok (ok,outs,m')) : m'.get j = some e := by
  unfold proxyMessage at h
  split at h
  · split at h
    · cases h
      exact hj
    · exact proxyNew_get hj h
  split at h
  · split at h
    · cases h
      exact hj
    · exact proxyNew_get hj h
  split at h
  · split at h
    · cases h
      exact hj
    · cases h
      exact hj
    · cases h
      exact hj
  split at h
  · next hclose =>
    cases h
    exact proxyClose_get hm hj (hne hclose)
  · cases h
    exact hj

lemma named_ne_client (hi : m.get i = some d) (ht : d.c.type = .muxClient) :
    named m cp ≠ some i := by
  intro h
  unfold named at h
  split at h
  · cases h
  · obtain ⟨f,hf,hid⟩ := get_of_find? h
    cases (show m.get i = some f from hf).symm.trans hi
    rw [((hm i d hi).client ht).2] at hid
    cases hid

lemma channelProxyDownstream_self (hi : m.get i = some d)
    (ht : d.c.type = .muxClient) (h : channelProxyDownstream m addr i d = .ok (ok,outs,m')) :
    ∃ input, m'.get i = some { d with c := { d.c with input } } := by
  unfold channelProxyDownstream at h
  split at h
  · cases h
    exact ⟨d.c.input,hi⟩
  · next msg input _ =>
    have hon : (m.on i fun c => { c with input }).AllFormed b :=
      hm.modify fun f hf => (hm i f hf).of_shape rfl
    have hi' := get_on_self hi fun c => { c with input }
    split at h
    · exact ⟨input,proxyMessage_get hon hi' (fun _ => named_ne_client hon hi' ht) h⟩
    · cases h
      exact ⟨input,hi'⟩

/-- The client in slot `i` is marked dead. -/
inductive Dies (i addr : Nat) : Master → Master → Prop
  | intro {m : Master} {d : MuxChannel} {c : Channel} {f : MuxChannel → MuxChannel}
      (hd : m.get i = some d) (ht : d.c.type = .muxClient) (ha : d.addr = addr)
      (hf : f d = { d with c }) (hz : c.type = .zombie)
      (hid : c.haveRemoteId = d.c.haveRemoteId) : Dies i addr m (m.modify i f)

lemma Master.AllFormed.dies (h : Dies i addr m m') : m'.AllFormed b := by
  obtain ⟨hd,ht,-,hf,hz,hid⟩ := h
  refine hm.modify fun e he => ?_
  cases hd.symm.trans he
  rw [hf]
  exact (hm _ _ hd).keep ht (.inr hz) hid

lemma channelPostMuxClientRead_moves {header body : Read}
    (hd : m.get i = some d) (ht : d.c.type = .muxClient)
    (h : channelPostMuxClientRead m addr i d header body = .ok (outs,m')) :
    Move m m' ∨ ∃ m1, Move m m1 ∧ Dies i d.addr m1 m' := by
  unfold channelPostMuxClientRead at h
  split at h
  · cases h
    exact .inl (.refl m)
  split at h
  · cases h
    exact .inl (.refl m)
  obtain ⟨⟨complete,c⟩,hc,h⟩ := bind_eq_ok.mp h
  have hkept := muxClientInput_kept (orStop_ok hc)
  have hput : Move m _ := .put hd (.keep ht hkept)
  dsimp only at h
  split at h
  · cases h
    exact .inl hput
  obtain ⟨⟨ok,outs1,m1⟩,hm1,h⟩ := bind_eq_ok.mp h
  have hself := get_modify_self hd fun _ => { d with c }
  have hdown := hput.trans
    (channelProxyDownstream_moves (hm.move hput) hself (hkept.1.trans ht) hm1)
  cases h
  split
  · exact .inl hdown
  · obtain ⟨input,hi⟩ := channelProxyDownstream_self (hm.move hput) hself (hkept.1.trans ht) hm1
    exact .inr ⟨m1,hdown,.intro hi (hkept.1.trans ht) rfl rfl rfl rfl⟩

omit hm

lemma Formed.confirm (h : Formed b e) (ht : e.c.type = .muxProxy) (remoteId : Nat) :
    Formed b (e.confirm remoteId) := by
  obtain ⟨⟨t,ho⟩,ha⟩ := h.proxied ht
  unfold Formed MuxChannel.confirm
  rw [ho]
  exact ⟨rfl,.inl ⟨⟨ha.rfd,ha.wfd,ha.efd,ha.ctlChan,ha.extendedUsage⟩,ha.type,ha.istate,ha.muxCtx⟩⟩

lemma upstreamState_moves (type : UInt8) (payload : Bytes) (hj : m.get j = some e)
    (ht : e.c.type = .muxProxy) :
    Move m (upstreamState m j type payload).2 := by
  unfold upstreamState
  split
  · split
    · refine .modify fun f hf => ?_
      cases hj.symm.trans hf
      exact ⟨rfl,rfl,rfl,fun _ h => h.confirm ht _,id,id⟩
    · exact .refl m
  split
  · split
    · refine .free fun f hf => ?_
      cases hj.symm.trans hf
      rw [ht]
      decide
    · exact .modify fun _ _ => .of_shape rfl
  · exact .refl m

lemma deliver_shape (bs : Bytes) (c : Channel) : (deliver bs c).shape = c.shape := by
  unfold deliver
  split <;> rfl

lemma channelProxyUpstream_moves {payload : Bytes} (hj : m.get j = some e)
    (ht : e.c.type = .muxProxy) (h : channelProxyUpstream m j e type payload = .ok (outs,m')) :
    Move m m' := by
  unfold channelProxyUpstream at h
  split at h
  · cases h
    exact .refl m
  split at h
  · cases h
    exact .refl m
  split at h
  · cases h
  next i _ =>
  have hon : Move m (m.on i (deliver (upstreamMessage type e.muxDownstreamId payload))) :=
    .modify fun _ _ => .of_shape (deliver_shape _ _)
  have hj' : ∃ c, (m.on i (deliver (upstreamMessage type e.muxDownstreamId payload))).get j =
      some { e with c } ∧ c.type = .muxProxy := by
    by_cases hji : j = i
    · subst hji
      exact ⟨_,get_on_self hj _,(congrArg fst (deliver_shape _ _)).trans ht⟩
    · exact ⟨e.c,(get_modify_of_ne hji).trans hj,ht⟩
  obtain ⟨c,hj',ht'⟩ := hj'
  have hstate := hon.trans (upstreamState_moves type payload hj' ht')
  simp only [Except.ok.injEq] at h
  rw [h] at hstate
  exact hstate

/-- When the master frees a client, the server has confirmed all its channels. -/
def Confirmed (k : Compat) (m : Master) : MasterEvent → Prop
  | .collect i detaches => ∀ e s, m.get i = some e →
      channelGarbageCollect k detaches { c := e.c, sent := [], freed := false } = .ok s →
      s.freed = true → m.ConfirmedAt i
  | _ => True

/-- An event of a slot does nothing unless a channel stands there that it is for. -/
lemma slot_ok {p : MuxChannel → Prop} [DecidablePred p]
    {f : MuxChannel → Except Halt (List Out × Master)} (h : (match m.get i with
      | some e => if p e then f e else .ok ([],m)
      | none => .ok ([],m)) = .ok (outs,m')) :
    m = m' ∨ ∃ e, m.get i = some e ∧ p e ∧ f e = .ok (outs,m') := by
  split at h
  · next e he =>
    split at h
    · next hp => exact .inr ⟨e,he,hp,h⟩
    · cases h
      exact .inl rfl
  · cases h
    exact .inl rfl

lemma channelPostMuxClientWrite_kept (w : Write) (c : Channel) :
    ((channelPostMuxClientWrite w c).type = c.type ∨
      (channelPostMuxClientWrite w c).type = .zombie) ∧
      (channelPostMuxClientWrite w c).haveRemoteId = c.haveRemoteId := by
  unfold channelPostMuxClientWrite
  split
  · exact ⟨.inl rfl,rfl⟩
  split
  · exact ⟨.inl rfl,rfl⟩
  · exact ⟨.inr rfl,rfl⟩
  · exact ⟨.inr rfl,rfl⟩
  · exact ⟨.inl rfl,rfl⟩

lemma Formed.detached (h : Formed b e) (ho : e.origin.isProxied = true)
    (ht : e.c.type ≠ .muxProxy) : Detached e.c := by
  unfold Formed at h
  split at h
  · next hm =>
    rw [hm] at ho
    cases ho
  · next hc =>
    rw [hc] at ho
    cases ho
  · exact h.2.elim (fun ha => absurd ha.type ht) fun hd => hd.1

inductive Change (k : Compat) (m : Master) : MasterEvent → Master → Prop
  | move {ev : MasterEvent} {m' : Master} (h : Move m m') : Change k m ev m'
  | dies {ev : MasterEvent} {i : Nat} {d : MuxChannel} {m1 m' : Master} (hd : m.get i = some d)
      (ht : d.c.type = .muxClient) (hmove : Move m m1) (h : Dies i d.addr m1 m') :
      Change k m ev m'
  | freed {i : Nat} {detaches : Bool} {e : MuxChannel} {s : Side} (he : m.get i = some e)
      (hs : channelGarbageCollect k detaches { c := e.c, sent := [], freed := false } = .ok s)
      (hf : s.freed = true) : Change k m (.collect i detaches) (m.channelFree i).2

lemma step_change {ev : MasterEvent} (hm : m.AllFormed b) (h : m.step k ev = .ok (outs,m')) :
    Change k m ev m' := by
  have hstay : Change k m ev m := .move (.refl m)
  cases ev with
  | accept addr fd window maxpack =>
    obtain ⟨⟨i,m1⟩,hnew,h⟩ := bind_eq_ok.mp h
    have hmove : Move m m1 := .new hnew (fun _ _ => ⟨.inl rfl,rfl⟩) nofun
    cases h
    exact .move (hmove.trans (.same fun _ => rfl))
  | opens addr c remoteId =>
    unfold step at h
    dsimp only at h
    split at h
    · cases h
      exact hstay
    · next ht =>
      obtain ⟨⟨i,m1⟩,hnew,h⟩ := bind_eq_ok.mp h
      cases h
      exact .move (.new hnew (fun _ _ => ht) fun hp => absurd (.inr hp) ht)
  | own i c remoteId =>
    obtain rfl | ⟨e,he,hc,h⟩ := slot_ok h
    · exact hstay
    cases h
    refine .move (.put he ⟨rfl,rfl,rfl,fun _ _ => ?_,fun hp => absurd (.inr hp) hc.2,fun ht => ?_⟩)
    · rw [hc.1]
      exact hc.2
    · obtain ⟨⟨t,ho⟩,-⟩ := (hm i e he).client ht
      rw [hc.1] at ho
      cases ho
  | release i =>
    obtain rfl | ⟨e,he,ho,h⟩ := slot_ok h
    · exact hstay
    obtain rfl : (m.channelFree i).2 = m' := congrArg snd (Except.ok.inj h)
    refine .move (.free fun f hf ht => ?_)
    cases he.symm.trans hf
    obtain ⟨⟨t,ho'⟩,-⟩ := (hm i e he).client ht
    rw [ho] at ho'
    cases ho'
  | pre i =>
    obtain rfl | ⟨d,hd,ht,h⟩ := slot_ok h
    · exact hstay
    obtain ⟨c,hc,h⟩ := bind_eq_ok.mp h
    cases h
    exact .move (.put hd (.keep ht (channelPreMuxClient_kept (orStop_ok hc))))
  | read i addr header body =>
    obtain rfl | ⟨d,hd,ht,h⟩ := slot_ok h
    · exact hstay
    rcases channelPostMuxClientRead_moves hm hd ht h with hmove | ⟨m1,hmove,hdies⟩
    · exact .move hmove
    · exact .dies hd ht hmove hdies
  | write i w =>
    obtain rfl | ⟨d,hd,ht,h⟩ := slot_ok h
    · exact hstay
    cases h
    obtain ⟨htype | hz,hid⟩ := channelPostMuxClientWrite_kept w d.c
    · exact .move (.put hd (.keep ht ⟨htype,hid⟩))
    · exact .dies hd ht (.refl m) (.intro hd ht rfl rfl hz hid)
  | upstream j type payload =>
    obtain rfl | ⟨e,he,ht,h⟩ := slot_ok h
    · exact hstay
    · exact .move (channelProxyUpstream_moves he ht h)
  | handle j ev =>
    obtain rfl | ⟨e,he,hc,h⟩ := slot_ok h
    · exact hstay
    obtain ⟨s,hs,h⟩ := bind_eq_ok.mp h
    have hdet := (hm j e he).detached hc.1 hc.2
    obtain rfl : (m.settle j e s).2 = m' := congrArg snd (Except.ok.inj h)
    unfold settle
    split
    · refine .move (.free fun f hf => ?_)
      cases he.symm.trans hf
      rw [hdet.type]
      decide
    · exact .move (.put he (.of_shape (input_detached hdet (orStop_ok hs))))
  | collect i detaches =>
    unfold step at h
    dsimp only at h
    split at h
    · next e he =>
      obtain ⟨s,hs,h⟩ := bind_eq_ok.mp h
      have hs := orStop_ok hs
      obtain ⟨x,y,z,hx⟩ := channelGarbageCollect_kept hs
      obtain rfl : (m.settle i e s).2 = m' := congrArg snd (Except.ok.inj h)
      unfold settle
      split
      · next hf => exact .freed he hs hf
      · refine .move (.put he (.of_shape ?_))
        rw [hx]
        rfl
    · cases h
      exact hstay

lemma step_formed {ev : MasterEvent} (hm : m.AllFormed b) (hg : b → Confirmed k m ev)
    (h : m.step k ev = .ok (outs,m')) : m'.AllFormed b := by
  cases step_change hm h with
  | move h => exact hm.move h
  | dies _ _ hmove h => exact (hm.move hmove).dies h
  | freed he hs hf => exact hm.channelFree fun hb => hg hb _ _ he hs hf

end

structure Master.Initial (m : Master) : Prop where
  own : ∀ i e, m.get i = some e → e.origin = .master ∧ ¬ Multiplexed e.c.type
  addr : ∀ i j e f, m.get i = some e → m.get j = some f → e.addr = f.addr → i = j

lemma Master.initial_empty (permitted : List Permission) (fresh : Nat) :
    Master.Initial ⟨[],permitted,fresh⟩ := by
  refine ⟨fun i e he => ?_,fun i j e f he => ?_⟩
  · cases he
  · cases he

lemma Master.Initial.allFormed {m : Master} (hm : m.Initial) (b : Prop) : m.AllFormed b := by
  intro i e he
  obtain ⟨ho,ht⟩ := hm.own i e he
  unfold Formed
  rw [ho]
  exact ht

section

variable {k : Compat} {s : Side}

lemma chanIsDead_safe (k : Compat) (doSend : Bool)
    (h : s.c.istate ≠ .closed ∨ s.c.haveRemoteId = true) :
    ∃ dead s', chanIsDead k doSend s = .ok (dead,s') := by
  unfold chanIsDead
  split
  · exact ⟨_,_,rfl⟩
  split
  · exact ⟨_,_,rfl⟩
  next hclosed =>
  split
  · exact ⟨_,_,rfl⟩
  split
  · exact ⟨_,_,rfl⟩
  split
  · exact ⟨_,_,rfl⟩
  have hid : s.c.haveRemoteId = true := h.resolve_left fun hi => hclosed (.inl hi)
  have hsend : ∃ s', chanSendClose2 s = .ok s' := by
    unfold chanSendClose2
    split
    · exact ⟨_,rfl⟩
    split
    · exact ⟨_,rfl⟩
    · rw [send,if_pos hid]
      exact ⟨_,rfl⟩
  unfold callIf
  split
  · obtain ⟨s',hs'⟩ := hsend
    rw [hs']
    exact ⟨_,_,rfl⟩
  · exact ⟨_,_,rfl⟩

/-- A channel can be collected while its input is open, and when it has the number of the
peer. -/
lemma channelGarbageCollect_safe (h : s.c.istate ≠ .closed ∨ s.c.haveRemoteId = true)
    (detaches : Bool) : ∃ s', channelGarbageCollect k detaches s = .ok s' := by
  have hreap : ∀ t, t.c.istate ≠ .closed ∨ t.c.haveRemoteId = true →
      ∃ t', channelReap k t = .ok t' := by
    intro t ht
    obtain ⟨dead,t',ht'⟩ := chanIsDead_safe k true ht
    rw [channelReap,ht']
    exact ⟨_,rfl⟩
  unfold channelGarbageCollect
  split
  · obtain ⟨dead,s1,hs1⟩ := chanIsDead_safe k _ h
    obtain ⟨x,hx⟩ := chanIsDead_kept hs1
    rw [hs1,ok_bind]
    dsimp only
    split
    · exact ⟨_,rfl⟩
    split
    · exact ⟨_,rfl⟩
    · refine hreap _ ?_
      rw [Side.on,hx]
      exact h
  · exact hreap s h

end

/-- In every run in which the server has confirmed all channels of a client before the master frees
it, no proxied channel ends the master when it is collected. -/
theorem masterRun_collectable {k : Compat} {m m' : Master} {es : List MasterEvent}
    {os : List (List Out)} (hm : m.Initial) (hg : Guarded (step k) (Confirmed k) m es)
    (hrun : run (step k) m es = .ok (os,m')) {j t n : Nat} {e : MuxChannel}
    (he : m'.get j = some e) (ho : e.origin = .proxied t n) (detaches : Bool) (stop : Stop) :
    channelGarbageCollect k detaches { c := e.c, sent := [], freed := false } ≠ .error stop := by
  have hformed := run_invariant (fun _ _ _ _ hI hP hok => step_formed hI (fun _ => hP) hok)
    (hm.allFormed True) hg hrun
  have hsafe : e.c.istate ≠ .closed ∨ e.c.haveRemoteId = true := by
    have hform := hformed j e he
    unfold Formed at hform
    rw [ho] at hform
    rcases hform.2 with ha | ⟨-,hid⟩
    · refine .inl ?_
      rw [ha.istate]
      decide
    · exact .inr (hid trivial)
  obtain ⟨s,hs⟩ := channelGarbageCollect_safe
    (s := { c := e.c, sent := [], freed := false }) hsafe _
  rw [hs]
  exact nofun

def sends (i addr : Nat) (type : UInt8) (payload : Bytes) : MasterEvent :=
  .read i addr (.got (encode 4 (payload.length + 2))) (.got (0 :: type :: payload))

def leaves (i : Nat) : List MasterEvent := [.read i 0 (.got []) .again,.pre i,.collect i false]

def opensSession : List MasterEvent :=
  [.accept 100 7 0 0,sends 0 200 msgChannelOpen (framed (cstr "session") ++
    encode 4 5 ++ encode 4 1000 ++ encode 4 100)]

def confirmation : MasterEvent :=
  .upstream 1 msgChannelOpenConfirmation (encode 4 9 ++ encode 4 1000 ++
    encode 4 100)

def plainCompat : Compat := ⟨false,false⟩

lemma confirmedAt_of_all {m : Master} (i : Nat)
    (h : ∀ o ∈ m.channels, o.all fun f => f.c.haveRemoteId || f.c.type ≠ .muxProxy) :
    m.ConfirmedAt i := by
  intro e _ _ j f hf hp _
  have hall := h _ (mem_channels hf)
  simpa [hp] using hall

/-- The server confirms the channel, and then the client leaves. -/
theorem masterRun_collectable_confirmed :
    ∃ os m' e, run (step plainCompat) ⟨[],[],0⟩ (opensSession ++ confirmation :: leaves 0) =
        .ok (os,m') ∧ m'.get 1 = some e ∧ ∀ detaches stop,
        channelGarbageCollect plainCompat detaches { c := e.c, sent := [], freed := false } ≠
          .error stop := by
  obtain ⟨os,m',e,hrun,he,ho⟩ : ∃ os m' e, run (step _) ⟨[],[],0⟩
      (opensSession ++ confirmation :: leaves 0) = .ok (os,m') ∧ m'.get 1 = some e ∧
      e.origin = .proxied 0 5 := ⟨_,_,_,rfl,rfl,rfl⟩
  refine ⟨os,m',e,hrun,he,masterRun_collectable (initial_empty [] 0) ?_ hrun he ho⟩
  refine .cons trivial rfl (.cons trivial rfl (.cons trivial rfl (.cons trivial rfl
    (.cons trivial rfl ⟨?_,fun _ _ _ => trivial⟩))))
  exact fun e s _ _ _ => confirmedAt_of_all 0 (by decide)

/-- A client that leaves before the server has confirmed its channel. -/
theorem masterRun_collect_fatal :
    ∃ os m' e, run (step plainCompat) ⟨[],[],0⟩ (opensSession ++ leaves 0) = .ok (os,m') ∧
      m'.get 1 = some e ∧ e.origin = .proxied 0 5 ∧
      channelGarbageCollect plainCompat false { c := e.c, sent := [], freed := false } =
        .error .fatal :=
  ⟨_,_,_,rfl,rfl,rfl,rfl⟩

end PkixSsh.Channels
