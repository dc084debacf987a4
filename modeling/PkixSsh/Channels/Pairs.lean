import PkixSsh.Channels.Receipt
import PkixSsh.Channels.Unopened

/-!
# The ends of a channel, from its opening to its end

The states of the two records of one channel and of the messages between them; one step of a side
keeps them.
-/

namespace PkixSsh.Channels

open Sshbuf List Option Wire

/-- A channel in a table. `tag` is not in the source: it tells the channels of one slot apart, and
both records of a channel have the same. -/
structure Entry where
  side : Side
  remoteId : Nat
  tag : Nat

/-- A message under way: the number of its channel at the receiver and, in messages that open one,
at the sender. -/
structure Frame where
  recipient : Nat
  sender : Nat
  msg : Msg
  tag : Nat

namespace Entry

/-- What a step leaves in the slot: a channel that was freed leaves it empty. -/
def after (e : Entry) (s : Side) : Option Entry :=
  if s.freed then none else some { e with side := { s with sent := [] } }

def frames (e : Entry) (i : Nat) (ms : List Msg) : List Frame :=
  ms.map fun m => ⟨e.remoteId,i,m,e.tag⟩

end Entry

/-- Everything that belongs to one channel: the slots and records it has, and its messages. -/
structure View where
  left : Option (Nat × Entry)
  right : Option (Nat × Entry)
  toRight : List Frame
  toLeft : List Frame

def View.swap (v : View) : View := ⟨v.right,v.left,v.toLeft,v.toRight⟩

def msgs (fs : List Frame) : List Msg := fs.map Frame.msg

/-- One direction of an open channel, to the slot `j`: the monitor has reached `w` with what was
read, and what is under way takes it on to the state of the sender. A side that is gone has seen
CLOSE. -/
structure Channelled (j : Nat) (s r : Option (Nat × Entry)) (fs : List Frame) (w w' : Wire) :
    Prop where
  recipient : ∀ f ∈ fs, f.recipient = j
  inner : ∀ f ∈ fs, f.msg.Inner
  trace : (msgs fs).foldlM next w = some w'
  sender : ∀ i e, s = some (i,e) → e.remoteId = j ∧ e.side.halves.wire = w'
  noSender : s = none → w'.close = true
  receiver : ∀ i e, r = some (i,e) → i = j ∧ (e.side.c.closeRcvd = true → w.close = true)
  noReceiver : r = none → w.close = true

/-- The channel is open: `j` and `i` are its numbers at the right and at the left. -/
inductive Joined (v : View) : Prop
  | intro {i j : Nat} {w w' u u' : Wire} (htl : ∀ i e, v.left = some (i,e) → Talks e.side)
      (htr : ∀ i e, v.right = some (i,e) → Talks e.side)
      (hlr : Channelled j v.left v.right v.toRight w w')
      (hrl : Channelled i v.right v.left v.toLeft u u')

lemma Joined.swap {v : View} (h : Joined v) : Joined v.swap := by
  obtain ⟨htl,htr,hlr,hrl⟩ := h
  exact ⟨htr,htl,hrl,hlr⟩

/-- What can be left of a channel that was not opened. -/
def Refused (o : Option (Nat × Entry)) : Prop := ∀ i e, o = some (i,e) → e.side.c.type = .zombie

/-- The states of a channel whose opener is on the left. -/
inductive Phase (v : View) : Prop
  | unannounced {i : Nat} {e : Entry} (hl : v.left = some (i,e)) (hp : Private e.side)
      (hr : v.right = none) (hlr : v.toRight = []) (hrl : v.toLeft = [])
  | gone (hl : Refused v.left) (hr : Refused v.right) (hlr : v.toRight = []) (hrl : v.toLeft = [])
  | requested {i : Nat} {e : Entry} {f : Frame} {w m : UInt32} (hl : v.left = some (i,e))
      (ho : Opening e.side) (hr : v.right = none) (hlr : v.toRight = [f]) (hrl : v.toLeft = [])
      (hs : f.sender = i) (hm : f.msg = .openRequest w m)
  | pending {i j : Nat} {e e' : Entry} (hl : v.left = some (i,e)) (ho : Opening e.side)
      (hr : v.right = some (j,e')) (hc : Connecting e'.side) (hid : e'.remoteId = i)
      (hlr : v.toRight = []) (hrl : v.toLeft = [])
  | refused {i : Nat} {e : Entry} {f : Frame} (hl : v.left = some (i,e)) (ho : Opening e.side)
      (hr : Refused v.right) (hlr : v.toRight = []) (hrl : v.toLeft = [f]) (hi : f.recipient = i)
      (hm : f.msg = .openFailure)
  | confirmed {i j : Nat} {e e' : Entry} {f : Frame} {fs : List Frame} {window maxpacket : UInt32}
      {w w' : Wire} (hl : v.left = some (i,e)) (ho : Opening e.side) (hr : v.right = some (j,e'))
      (ht : Talks e'.side) (hrcvd : e'.side.c.closeRcvd = false) (hlr : v.toRight = [])
      (hrl : v.toLeft = f :: fs) (hi : f.recipient = i) (hj : f.sender = j)
      (hm : f.msg = .openConfirmation window maxpacket) (hch : Channelled i v.right v.left fs w w')
  | joined (h : Joined v)

/-- A channel may have been opened from either side. -/
def View.Good (v : View) : Prop := Phase v ∨ Phase v.swap

lemma View.Good.swap {v : View} (h : v.Good) : v.swap.Good := h.symm

/-- What a local event and a message of the peer have in common. -/
structure Moves (s s' : Side) : Prop where
  ordered : s'.halves.Ordered
  trace : s'.sent.foldlM next s.halves.wire = some s'.halves.wire
  peered : Peered s'.c.type
  inner : ∀ m ∈ s'.sent, m.Inner
  isLocal : s'.c.isLocal = false
  dead : s'.freed = true → Dead s'.c

section

variable {k : Compat} {s s' : Side} {e : Entry} {i j : Nat} {r : Option (Nat × Entry)}
  {f : Frame} {fs : List Frame} {w w' : Wire}

lemma Stepped.moves (h : Stepped s s') (hs : Talks s) (hsent : s.sent = []) : Moves s s' := by
  refine ⟨h.ordered,?_,h.peered hs.peered,h.inner hs.peered ?_,h.isLocal.trans hs.isLocal,?_⟩
  · refine h.trace _ ?_
    rw [hsent]
    rfl
  · rw [hsent]
    exact nofun
  · intro hf
    refine (h.freed hf).resolve_left fun hfreed => ?_
    rw [hs.freed] at hfreed
    cases hfreed

section

variable {l : List Msg}

lemma Opening.resent (h : Opening s) : Opening { s with sent := l } :=
  ⟨h.type,h.haveRemoteId,h.istate,h.closeRcvd,h.isLocal,h.ordered,h.freed⟩

lemma Connecting.resent (h : Connecting s) : Connecting { s with sent := l } :=
  ⟨h.type,h.istate,h.closeRcvd,h.isLocal,h.ctlChan,h.ordered,h.freed⟩

lemma Private.resent (h : Private s) : Private { s with sent := l } :=
  ⟨h.type,h.haveRemoteId,h.istate,h.closeRcvd,h.isLocal,h.ctlChan,h.inputFilter,h.ordered,h.freed⟩

lemma Talks.resent (h : Talks s) : Talks { s with sent := l } :=
  ⟨h.peered,h.zombie,h.isLocal,h.ordered,h.freed⟩

end

variable {le : LocalEvent}

lemma Talks.moves (h : Talks e.side)
    (hstep : localStep k le { e.side with sent := [] } = .ok s') :
    Moves { e.side with sent := [] } s' ∧ s'.c.closeRcvd = e.side.c.closeRcvd :=
  have hstepped := localStep_stepped (s := { e.side with sent := [] }) h.ordered h.freed hstep
  ⟨hstepped.moves h.resent rfl,hstepped.closeRcvd⟩

lemma receive_type {m : Msg} (hm : m.Inner) (h : receive k m s = .ok s') :
    s'.c.type = s.c.type := by
  have hquiet : Quiet s s' → s'.c.type = s.c.type := fun hq => congrArg Ledger.type hq.ledger
  cases m with
  | openRequest | openConfirmation | openFailure => exact hm.elim
  | request =>
    cases h
    rfl
  | data v =>
    obtain ⟨w,n,b,rfl⟩ := channelInputData_frame h
    rfl
  | extendedData tcode v =>
    obtain ⟨w,b,rfl⟩ := channelInputExtendedData_frame h
    rfl
  | windowAdjust adjust =>
    obtain ⟨-,h⟩ := ite_error_eq_ok.mp h
    cases h
    rfl
  | eof | eow | close => exact hquiet (receive_quiet (by simp) h)

lemma receive_moves {m : Msg} (hs : Talks s) (hsent : s.sent = []) (hm : m.Inner)
    (h : receive k m s = .ok s') : Moves s s' ∧ s'.c.type ≠ .zombie ∧
      (s'.c.closeRcvd = true → s.c.closeRcvd = true ∨ m = .close) := by
  have hz : s'.c.type ≠ .zombie := by
    rw [receive_type hm h]
    exact hs.zombie
  by_cases hclose : m = .close
  · subst hclose
    have horder := chanRcvdOclose_orderly hs.ordered h
    have hheard : Talks (hearClose s) :=
      ⟨hs.peered,hs.zombie,hs.isLocal,
        ⟨hs.ordered.close,hs.ordered.eof,hs.ordered.socks,hs.ordered.larval⟩,hs.freed⟩
    have hmoves := horder.stepped.moves hheard hsent
    exact ⟨⟨hmoves.ordered,hmoves.trace,hmoves.peered,hmoves.inner,hmoves.isLocal,hmoves.dead⟩,hz,
      fun _ => .inr rfl⟩
  · have horder := receive_orderly hs.ordered hclose h
    refine ⟨horder.stepped.moves hs hsent,hz,fun hr => .inl ?_⟩
    rw [← horder.closeRcvd]
    exact hr

lemma Moves.closed (h : Moves s s') (hz : s'.c.type ≠ .zombie) (hf : s'.freed = true) :
    s'.c.closeSent = true ∧ s'.c.closeRcvd = true := by
  rcases h.dead hf with hzombie | hlocal | hclosed
  · exact absurd hzombie hz
  · rw [h.isLocal] at hlocal
    cases hlocal
  · exact hclosed

lemma Entry.after_eq_some {p : Nat × Entry} (h : (e.after s').map (Prod.mk i) = some p) :
    p = (i,{ e with side := { s' with sent := [] } }) ∧ s'.freed = false := by
  unfold Entry.after at h
  split at h
  · cases h
  · next hf =>
    cases h
    exact ⟨rfl,Bool.eq_false_iff.mpr hf⟩

lemma Entry.after_eq_none (h : (e.after s').map (Prod.mk i) = none) : s'.freed = true := by
  unfold Entry.after at h
  split at h
  · next hf => exact hf
  · cases h

lemma refused_after (hz : s'.c.type = .zombie) : Refused ((e.after s').map (Prod.mk i)) := by
  intro i' e' he
  obtain ⟨hp,-⟩ := Entry.after_eq_some he
  cases hp
  exact hz

lemma Moves.talks (h : Moves s s') (hz : s'.c.type ≠ .zombie) :
    ∀ i' e', (e.after s').map (Prod.mk i) = some (i',e') → Talks e'.side := by
  intro i' e' he
  obtain ⟨hp,hf⟩ := Entry.after_eq_some he
  cases hp
  exact ⟨h.peered,hz,h.isLocal,h.ordered,hf⟩

lemma Channelled.sends (h : Channelled j (some (i,e)) r fs w w')
    (hm : Moves { e.side with sent := [] } s') (hz : s'.c.type ≠ .zombie) :
    Channelled j ((e.after s').map (Prod.mk i)) r (fs ++ e.frames i s'.sent) w s'.halves.wire := by
  obtain ⟨hid,hwire⟩ := h.sender i e rfl
  refine ⟨?_,?_,?_,?_,?_,h.receiver,h.noReceiver⟩
  · intro f hf
    rcases mem_append.mp hf with hf | hf
    · exact h.recipient f hf
    · obtain ⟨m,-,rfl⟩ := List.mem_map.mp hf
      exact hid
  · intro f hf
    rcases mem_append.mp hf with hf | hf
    · exact h.inner f hf
    · obtain ⟨m,hm',rfl⟩ := List.mem_map.mp hf
      exact hm.inner m hm'
  · have hsent : msgs (e.frames i s'.sent) = s'.sent := by
      simp [msgs,Entry.frames,Function.comp_def]
    have htrace := h.trace
    rw [← hwire] at htrace
    rw [msgs,map_append,foldlM_append]
    change ((msgs fs).foldlM next w >>= fun b =>
      (msgs _).foldlM next b) = _
    rw [htrace,hsent]
    exact hm.trace
  · intro i' e' he
    obtain ⟨hp,-⟩ := Entry.after_eq_some he
    cases hp
    exact ⟨hid,rfl⟩
  · exact fun hnone => (hm.closed hz (Entry.after_eq_none hnone)).1

lemma Channelled.receives (h : Channelled j r (some (i,e)) fs w w')
    (hm : Moves { e.side with sent := [] } s') (hz : s'.c.type ≠ .zombie)
    (hr : s'.c.closeRcvd = true → e.side.c.closeRcvd = true) :
    Channelled j r ((e.after s').map (Prod.mk i)) fs w w' := by
  obtain ⟨hi,hrcvd⟩ := h.receiver i e rfl
  refine ⟨h.recipient,h.inner,h.trace,h.sender,h.noSender,?_,?_⟩
  · intro i' e' he
    obtain ⟨hp,-⟩ := Entry.after_eq_some he
    cases hp
    exact ⟨hi,fun hc => hrcvd (hr hc)⟩
  · exact fun hnone => hrcvd (hr (hm.closed hz (Entry.after_eq_none hnone)).2)

lemma channelled_start {e' : Entry} (hid : e.remoteId = j) (hr : r = some (j,e'))
    (hrcvd : e'.side.c.closeRcvd = false) :
    Channelled j (some (i,e)) r [] e.side.halves.wire e.side.halves.wire := by
  refine ⟨nofun,nofun,rfl,?_,nofun,?_,?_⟩
  · intro i' e'' he
    cases he
    exact ⟨hid,rfl⟩
  · intro i' e'' he
    cases hr.symm.trans he
    refine ⟨rfl,fun hc => ?_⟩
    rw [hrcvd] at hc
    cases hc
  · intro h
    rw [hr] at h
    cases h

lemma Channelled.renew {e' : Entry} (h : Channelled j r (some (i,e)) fs w w')
    (hr : e'.side.c.closeRcvd = false) : Channelled j r (some (i,e')) fs w w' := by
  refine ⟨h.recipient,h.inner,h.trace,h.sender,h.noSender,?_,nofun⟩
  intro i' e'' he
  cases he
  refine ⟨(h.receiver i e rfl).1,fun hc => ?_⟩
  rw [hr] at hc
  cases hc

lemma Channelled.uncons (h : Channelled j r (some (i,e)) (f :: fs) w w') :
    ∃ w1, w.next f.msg = some w1 ∧ (msgs fs).foldlM next w1 = some w' :=
  bind_eq_some_iff.mp ((foldlM_cons ..).symm.trans h.trace)

lemma Channelled.hears (h : Channelled j r (some (i,e)) (f :: fs) w w')
    (hm : Moves { e.side with sent := [] } s') (hz : s'.c.type ≠ .zombie)
    (hr : s'.c.closeRcvd = true → e.side.c.closeRcvd = true ∨ f.msg = .close) :
    ∃ w1, Channelled j r ((e.after s').map (Prod.mk i)) fs w1 w' := by
  obtain ⟨hi,hrcvd⟩ := h.receiver i e rfl
  obtain ⟨w1,hw1,htrace⟩ := h.uncons
  have hclose : s'.c.closeRcvd = true → w1.close = true := by
    intro hc
    rcases hr hc with hbefore | hnow
    · exact (close_of_next (hrcvd hbefore) hw1).1
    · rw [hnow] at hw1
      simp only [Wire.next,ite_none_left_eq_some,Option.some.injEq] at hw1
      rw [← hw1.2]
  refine ⟨w1,fun f' hf' => h.recipient f' (mem_cons_of_mem f hf'),
    fun f' hf' => h.inner f' (mem_cons_of_mem f hf'),htrace,h.sender,h.noSender,?_,?_⟩
  · intro i' e' he
    obtain ⟨hp,-⟩ := Entry.after_eq_some he
    cases hp
    exact ⟨hi,hclose⟩
  · exact fun hnone => hclose (hm.closed hz (Entry.after_eq_none hnone)).2

end

namespace View

variable {k : Compat} {v : View} {s' : Side} {e : Entry} {i : Nat} {f : Frame} {fs : List Frame}

def acts (v : View) (i : Nat) (e : Entry) (s' : Side) : View :=
  { v with left := (e.after s').map (Prod.mk i), toRight := v.toRight ++ e.frames i s'.sent }

lemma after_of_freed (hf : s'.freed = false) :
    (e.after s').map (Prod.mk i) = some (i,{ e with side := { s' with sent := [] } }) := by
  rw [Entry.after,if_neg (by simp [hf])]
  rfl

lemma acts_silent (hsent : s'.sent = []) : (v.acts i e s').toRight = v.toRight := by
  simp [acts,Entry.frames,hsent]

lemma Phase_zombie (h : (v.acts i e s').toRight = []) (hrl : v.toLeft = [])
    (hz : s'.c.type = .zombie) (hr : Refused v.right) : Phase (v.acts i e s') :=
  .gone (refused_after hz) hr h hrl

lemma joined_acts (h : Joined v) (hl : v.left = some (i,e))
    (hstep : localStep k le { e.side with sent := [] } = .ok s')
    (hz : Talks e.side → s'.c.type ≠ .zombie) : Joined (v.acts i e s') := by
  obtain ⟨htl,htr,hlr,hrl⟩ := h
  have ht := htl i e hl
  obtain ⟨hmoves,hrcvd⟩ := ht.moves hstep
  rw [hl] at hlr hrl
  exact ⟨hmoves.talks (hz ht),htr,hlr.sends hmoves (hz ht),
    hrl.receives hmoves (hz ht) hrcvd.symm.trans⟩

lemma Phase.opener (h : Phase v) (hl : v.left = some (i,e))
    (hstep : localStep k le { e.side with sent := [] } = .ok s')
    (hz : Talks e.side → s'.c.type ≠ .zombie) : Phase (v.acts i e s') := by
  cases h with
  | unannounced hleft hp hr hlr hrl =>
    rw [hl] at hleft
    cases hleft
    rcases hp.resent.step rfl hstep with ⟨hp',hsent⟩ | ⟨hzombie,hsent⟩ | ⟨ho,w,m,hsent⟩
    · exact .unannounced (after_of_freed hp'.freed)
        hp'.resent hr ((acts_silent hsent).trans hlr) hrl
    · refine Phase_zombie ((acts_silent hsent).trans hlr) hrl hzombie fun i' e' he => ?_
      cases hr.symm.trans he
    · refine .requested (f := ⟨e.remoteId,i,.openRequest w m,e.tag⟩) (after_of_freed ho.freed)
        ho.resent hr ?_ hrl rfl rfl
      simp [acts,Entry.frames,hsent,hlr]
  | gone hleft hright hlr hrl =>
    obtain ⟨hzombie,hsent⟩ := zombie_step (s := { e.side with sent := [] }) (hleft i e hl) rfl hstep
    exact Phase_zombie ((acts_silent hsent).trans hlr) hrl hzombie hright
  | requested hleft ho hr hlr hrl hs hm =>
    rw [hl] at hleft
    cases hleft
    obtain ⟨ho',hsent⟩ := ho.resent.step rfl hstep
    exact .requested (after_of_freed ho'.freed) ho'.resent hr ((acts_silent hsent).trans hlr)
      hrl hs hm
  | pending hleft ho hr hc hid hlr hrl =>
    rw [hl] at hleft
    cases hleft
    obtain ⟨ho',hsent⟩ := ho.resent.step rfl hstep
    exact .pending (after_of_freed ho'.freed) ho'.resent hr hc hid
      ((acts_silent hsent).trans hlr) hrl
  | refused hleft ho hr hlr hrl hi hm =>
    rw [hl] at hleft
    cases hleft
    obtain ⟨ho',hsent⟩ := ho.resent.step rfl hstep
    exact .refused (after_of_freed ho'.freed) ho'.resent hr ((acts_silent hsent).trans hlr)
      hrl hi hm
  | confirmed hleft ho hr ht hrcvd hlr hrl hi hj hm hch =>
    rw [hl] at hleft hch
    cases hleft
    obtain ⟨ho',hsent⟩ := ho.resent.step rfl hstep
    have hafter := after_of_freed (i := i) (e := e) ho'.freed
    have hch : Channelled _ _ (some (i,{ e with side := { s' with sent := [] } })) _ _ _ :=
      hch.renew ho'.closeRcvd
    rw [← hafter] at hch
    exact .confirmed hafter ho'.resent hr ht hrcvd ((acts_silent hsent).trans hlr) hrl hi hj hm hch
  | joined h => exact .joined (joined_acts h hl hstep hz)

lemma Phase.acceptor (h : Phase v.swap) (hl : v.left = some (i,e))
    (hstep : localStep k le { e.side with sent := [] } = .ok s')
    (hz : Talks e.side → s'.c.type ≠ .zombie) : Phase (v.acts i e s').swap := by
  cases h with
  | unannounced hright hp hleft hrl hlr =>
    rw [show v.swap.right = some (i,e) from hl] at hleft
    cases hleft
  | gone hright hleft hrl hlr =>
    obtain ⟨hzombie,hsent⟩ := zombie_step (s := { e.side with sent := [] }) (hleft i e hl) rfl hstep
    exact .gone hright (refused_after hzombie) hrl ((acts_silent hsent).trans hlr)
  | requested hright ho hleft hrl hlr hs hm =>
    rw [show v.swap.right = some (i,e) from hl] at hleft
    cases hleft
  | pending hright ho hleft hc hid hrl hlr =>
    rw [show v.swap.right = some (i,e) from hl] at hleft
    cases hleft
    have hlr : v.toRight = [] := hlr
    rcases hc.resent.step rfl hstep with
      ⟨hc',hsent⟩ | ⟨ht,hrcvd,w,m,hsent⟩ | ⟨hzombie,hf,hsent⟩
    · exact .pending hright ho (after_of_freed hc'.freed) hc'.resent hid hrl
        ((acts_silent hsent).trans hlr)
    · have hafter := after_of_freed (i := i) (e := e) ht.freed
      have hstart : Channelled _ _ _ [] _ _ :=
        channelled_start (e := { e with side := { s' with sent := [] } }) (i := i) hid hright
          ho.closeRcvd
      rw [← hafter] at hstart
      refine .confirmed (f := ⟨e.remoteId,i,.openConfirmation w m,e.tag⟩) hright ho hafter ht.resent
        hrcvd hrl ?_ hid rfl rfl hstart
      simp [acts,swap,Entry.frames,hsent,hlr]
    · refine .refused (f := ⟨e.remoteId,i,.openFailure,e.tag⟩) hright ho (refused_after hzombie) hrl
        ?_ hid rfl
      simp [acts,swap,Entry.frames,hsent,hlr]
  | refused hright ho hleft hrl hlr hi hm =>
    obtain ⟨hzombie,hsent⟩ := zombie_step (s := { e.side with sent := [] }) (hleft i e hl) rfl hstep
    exact .refused hright ho (refused_after hzombie) hrl ((acts_silent hsent).trans hlr) hi hm
  | confirmed hright ho hleft ht hrcvd hrl hlr hi hj hm hch =>
    have hch : Channelled _ v.left _ _ _ _ := hch
    rw [show v.swap.right = some (i,e) from hl] at hleft
    cases hleft
    rw [hl] at hch
    obtain ⟨hmoves,hsame⟩ := ht.moves hstep
    have hrcvd' : s'.c.closeRcvd = false := hsame.trans hrcvd
    have hf : s'.freed = false := by
      by_contra hf
      have := (hmoves.closed (hz ht) (by simpa using hf)).2
      rw [hrcvd'] at this
      cases this
    refine .confirmed hright ho (after_of_freed hf)
      ⟨hmoves.peered,hz ht,hmoves.isLocal,hmoves.ordered,hf⟩ hrcvd' hrl ?_ hi hj hm
      (hch.sends hmoves (hz ht))
    change v.toRight ++ _ = _
    rw [show v.toRight = _ from hlr]
    rfl
  | joined h => exact .joined (joined_acts h.swap hl hstep hz).swap

variable (h : v.Good)

include h

lemma Good.acts (hl : v.left = some (i,e))
    (hstep : localStep k le { e.side with sent := [] } = .ok s')
    (hz : Talks e.side → s'.c.type ≠ .zombie) : (v.acts i e s').Good := by
  rcases h with h | h
  · exact .inl (Phase.opener h hl hstep hz)
  · exact .inr (Phase.acceptor h hl hstep hz)

/-- What the next message to the left side belongs to. -/
inductive Incoming (v : View) (f : Frame) (fs : List Frame) : Prop
  | inner (hin : f.msg.Inner) (h : Joined v)
  | openFailure {e : Entry} (hm : f.msg = .openFailure) (hl : v.left = some (f.recipient,e))
      (ho : Opening e.side) (hr : Refused v.right) (hlr : v.toRight = []) (hfs : fs = [])
  | openConfirmation {e e' : Entry} {window maxpacket : UInt32} {w w' : Wire}
      (hm : f.msg = .openConfirmation window maxpacket) (hl : v.left = some (f.recipient,e))
      (ho : Opening e.side) (hr : v.right = some (f.sender,e')) (ht : Talks e'.side)
      (hrcvd : e'.side.c.closeRcvd = false) (hlr : v.toRight = [])
      (hch : Channelled f.recipient v.right v.left fs w w')
  | openRequest {e : Entry} {window maxpacket : UInt32} (hm : f.msg = .openRequest window maxpacket)
      (hr : v.right = some (f.sender,e)) (ho : Opening e.side) (hl : v.left = none)
      (hlr : v.toRight = []) (hfs : fs = [])

variable (hrl : v.toLeft = f :: fs)

include hrl

lemma Good.incoming : Incoming v f fs := by
  have hjoined : Joined v → Incoming v f fs := by
    rintro ⟨htl,htr,hlr,hch⟩
    exact .inner (hch.inner f (hrl ▸ mem_cons_self)) ⟨htl,htr,hlr,hch⟩
  rcases h with h | h
  · cases h with
    | unannounced _ _ _ _ hnil | gone _ _ _ hnil | requested _ _ _ _ hnil
    | pending _ _ _ _ _ _ hnil =>
      cases hnil.symm.trans hrl
    | refused hl ho hr hlr hone hi hm =>
      cases hone.symm.trans hrl
      cases hi
      exact .openFailure hm hl ho hr hlr rfl
    | confirmed hl ho hr ht hrcvd hlr hmore hi hj hm hch =>
      cases hmore.symm.trans hrl
      cases hi
      cases hj
      exact .openConfirmation hm hl ho hr ht hrcvd hlr hch
    | joined h => exact hjoined h
  · cases h with
    | unannounced _ _ _ hnil | gone _ _ hnil | pending _ _ _ _ _ hnil | refused _ _ _ hnil
    | confirmed _ _ _ _ _ hnil =>
      cases hnil.symm.trans hrl
    | requested hr ho hl hone hlr hs hm =>
      cases hone.symm.trans hrl
      cases hs
      exact .openRequest hm hr ho hl hlr rfl
    | joined h => exact hjoined h.swap

lemma Good.joined (hin : f.msg.Inner) : Joined v := by
  cases h.incoming hrl with
  | inner _ h => exact h
  | openFailure hm | openConfirmation hm | openRequest hm =>
    rw [hm] at hin
    exact hin.elim

/-- Behind CLOSE only requests are under way, so any other message finds its channel. -/
lemma Good.found (hin : f.msg.Inner)
    (hreq : ∀ r, f.msg ≠ .request r) : ∃ e, v.left = some (f.recipient,e) ∧ Talks e.side := by
  obtain ⟨htl,-,-,hch⟩ := h.joined hrl hin
  rw [hrl] at hch
  cases hl : v.left with
  | none =>
    have hclose := hch.noReceiver hl
    obtain ⟨w1,hw1,-⟩ := bind_eq_some_iff.mp ((foldlM_cons ..).symm.trans hch.trace)
    obtain ⟨-,hdata,heof,heow,hadj,hcl⟩ := close_of_next hclose hw1
    generalize f.msg = m at hin hreq hdata heof heow hadj hcl
    cases m with
    | openRequest | openConfirmation | openFailure => exact hin.elim
    | data | extendedData => exact absurd trivial hdata
    | eof => exact absurd rfl heof
    | eow => exact absurd rfl heow
    | windowAdjust n => exact absurd rfl (hadj n)
    | request r => exact absurd rfl (hreq r)
    | close => exact absurd rfl hcl
  | some p =>
    obtain ⟨i,e⟩ := p
    have hi := (hch.receiver i e hl).1
    have hf := hch.recipient f mem_cons_self
    rw [hi,← hf]
    exact ⟨e,rfl,htl i e hl⟩

lemma Good.drops (hin : f.msg.Inner) :
    View.Good { v with toLeft := fs } := by
  obtain ⟨htl,htr,hlr,hch⟩ := h.joined hrl hin
  rw [hrl] at hch
  obtain ⟨w1,hw1,htrace⟩ := bind_eq_some_iff.mp ((foldlM_cons ..).symm.trans hch.trace)
  refine .inl (.joined ⟨htl,htr,hlr,fun f' hf' => hch.recipient f' (mem_cons_of_mem f hf'),
    fun f' hf' => hch.inner f' (mem_cons_of_mem f hf'),htrace,hch.sender,hch.noSender,?_,?_⟩)
  · intro i e hl
    obtain ⟨hi,hrcvd⟩ := hch.receiver i e hl
    exact ⟨hi,fun hc => (close_of_next (hrcvd hc) hw1).1⟩
  · exact fun hnone => (close_of_next (hch.noReceiver hnone) hw1).1

lemma Good.hears (hin : f.msg.Inner)
    (hl : v.left = some (i,e)) (hstep : receive k f.msg { e.side with sent := [] } = .ok s') :
    (View.acts { v with toLeft := fs } i e s').Good := by
  obtain ⟨htl,htr,hlr,hch⟩ := h.joined hrl hin
  have ht := htl i e hl
  obtain ⟨hmoves,hz,hr⟩ := receive_moves (s := { e.side with sent := [] })
    ⟨ht.peered,ht.zombie,ht.isLocal,ht.ordered,ht.freed⟩ rfl hin hstep
  rw [hl] at hlr hch
  rw [hrl] at hch
  obtain ⟨w1,hch1⟩ := hch.hears hmoves hz hr
  exact .inl (.joined ⟨hmoves.talks hz,htr,hlr.sends hmoves hz,hch1⟩)

lemma Good.openFailure (hm : f.msg = .openFailure) :
    ∃ e, v.left = some (f.recipient,e) ∧ Opening e.side ∧
      ∀ s', receive k .openFailure { e.side with sent := [] } = .ok s' →
        (View.acts { v with toLeft := fs } f.recipient e s').Good := by
  cases h.incoming hrl with
  | inner hin =>
    rw [hm] at hin
    exact hin.elim
  | openConfirmation hc | openRequest hc => cases hm.symm.trans hc
  | openFailure _ hl ho hr hlr hfs =>
    refine ⟨_,hl,ho,fun s' hstep => .inl ?_⟩
    rw [receive,channelInputOpenFailure,if_neg (not_not.mpr ho.type)] at hstep
    cases hstep
    exact Phase_zombie ((acts_silent rfl).trans hlr) hfs rfl hr

/-- The OPEN was confirmed: the number at the other side comes with the answer. -/
lemma Good.openConfirmation {window maxpacket : UInt32}
    (hm : f.msg = .openConfirmation window maxpacket) :
    ∃ e, v.left = some (f.recipient,e) ∧ Opening e.side ∧
      ∀ s', receive k (.openConfirmation window maxpacket) { e.side with sent := [] } = .ok s' →
        (View.acts { v with toLeft := fs } f.recipient { e with remoteId := f.sender }
          s').Good := by
  cases h.incoming hrl with
  | inner hin =>
    rw [hm] at hin
    exact hin.elim
  | openFailure hc | openRequest hc => cases hm.symm.trans hc
  | @openConfirmation e e' _ _ w w' _ hl ho hr ht hrcvd hlr hch =>
    refine ⟨e,hl,ho,fun s' hstep => .inl (.joined ?_)⟩
    obtain ⟨ht',hrcvd',hsent⟩ := ho.resent.confirmed rfl hstep
    have hafter := after_of_freed (i := f.recipient) (e := { e with remoteId := f.sender })
      ht'.freed
    have hstart := hlr ▸
      channelled_start (e := { e with remoteId := f.sender, side := { s' with sent := [] } })
        (i := f.recipient) rfl hr hrcvd
    rw [hl] at hch
    have hback : Channelled _ _
        (some (f.recipient,{ e with remoteId := f.sender, side := { s' with sent := [] } }))
          fs w w' :=
      hch.renew hrcvd'
    rw [← hafter] at hstart hback
    refine ⟨?_,?_,acts_silent hsent ▸ hstart,hback⟩
    · intro i' e'' he
      obtain ⟨hp,-⟩ := Entry.after_eq_some he
      cases hp
      exact ht'.resent
    · intro i' e'' he
      cases hr.symm.trans he
      exact ht

/-- An OPEN is answered at once with a failure, at once with a confirmation, or later. -/
lemma Good.openRequest {window maxpacket : UInt32}
    (hm : f.msg = .openRequest window maxpacket) : v.left = none ∧
    View.Good { v with toLeft := fs, toRight := v.toRight ++ [⟨f.sender,0,.openFailure,f.tag⟩] } ∧
    ∀ j e, e.remoteId = f.sender →
      (Connecting e.side → View.Good { v with left := some (j,e), toLeft := fs }) ∧
      (Talks e.side → e.side.c.closeRcvd = false → ∀ w m, View.Good { v with
        left := some (j,e), toLeft := fs
        toRight := v.toRight ++ [⟨f.sender,j,.openConfirmation w m,f.tag⟩] }) := by
  cases h.incoming hrl with
  | inner hin =>
    rw [hm] at hin
    exact hin.elim
  | openFailure hc | openConfirmation hc => cases hm.symm.trans hc
  | openRequest _ hr ho hl hlr hfs =>
    subst hfs
    refine ⟨hl,.inr ?_,fun j e hid => ⟨fun hc => .inr ?_,fun ht hrcvd w m => .inr ?_⟩⟩
    · refine .refused (f := ⟨f.sender,0,.openFailure,f.tag⟩) hr ho (fun i e he => ?_) rfl ?_ rfl rfl
      · cases hl.symm.trans he
      · simp [View.swap,hlr]
    · exact .pending hr ho rfl hc hid rfl hlr
    · have hstart := channelled_start (i := j) hid hr ho.closeRcvd
      refine .confirmed (f := ⟨f.sender,j,.openConfirmation w m,f.tag⟩)
        hr ho rfl ht hrcvd rfl ?_ rfl
        rfl rfl hstart
      simp [View.swap,hlr]

omit hrl

lemma Good.listener (hl : v.left = some (i,e)) (ht : Listens e.side.c.type) :
    v.right = none ∧ v.toRight = [] ∧ v.toLeft = [] := by
  have hno : ∀ t, Listens t → t ≠ .zombie ∧ t ≠ .opening ∧ t ≠ .connecting ∧ ¬ Peered t := by
    intro t
    cases t <;> decide
  obtain ⟨hz,ho,hc,hp⟩ := hno _ ht
  rcases h with h | h
  · cases h with
    | unannounced _ _ hr hlr hrl => exact ⟨hr,hlr,hrl⟩
    | gone hleft => exact absurd (hleft i e hl) hz
    | requested hleft hopen | pending hleft hopen | refused hleft hopen | confirmed hleft hopen =>
      cases hl.symm.trans hleft
      exact absurd hopen.type ho
    | joined h =>
      obtain ⟨htl,-,-,-⟩ := h
      exact absurd (htl i e hl).peered hp
  · cases h with
    | unannounced _ _ hleft | requested _ _ hleft => cases hl.symm.trans hleft
    | gone _ hleft | refused _ _ hleft => exact absurd (hleft i e hl) hz
    | pending _ _ hleft hconn =>
      cases hl.symm.trans hleft
      exact absurd hconn.type hc
    | confirmed _ _ hleft htalk =>
      cases hl.symm.trans hleft
      exact absurd htalk.peered hp
    | joined h =>
      obtain ⟨-,htr,-,-⟩ := h
      exact absurd (htr i e hl).peered hp

end View

end PkixSsh.Channels
