import PkixSsh.Channels.Handlers

/-!
# The order of the messages of a channel

A monitor refuses data behind EOF and anything but a request behind CLOSE. Its state are the flags
EOF_SENT and CLOSE_SENT.
-/

namespace PkixSsh.Channels

open Sshbuf List Side

/-- What the monitor remembers of the messages so far. -/
structure Wire where
  eof : Bool
  close : Bool

def Wire.next (w : Wire) : Msg → Option Wire
  | .data _ | .extendedData _ _ => if w.eof ∨ w.close then none else some w
  | .eof => if w.eof ∨ w.close then none else some { w with eof := true }
  | .eow | .windowAdjust _ => if w.close then none else some w
  | .close => if w.close then none else some { w with close := true }
  | .openRequest _ _ | .openConfirmation _ _ | .openFailure | .request _ => some w

/-- The states of the two halves of a channel, with what their transitions depend on. -/
structure Halves where
  type : ChannelType
  istate : InputState
  ostate : OutputState
  closeSent : Bool
  closeRcvd : Bool
  eofSent : Bool
  eofRcvd : Bool
  isLocal : Bool
  detachUser : Bool
  detachClose : Bool
  freed : Bool

def Side.halves (s : Side) : Halves :=
  ⟨s.c.type,s.c.istate,s.c.ostate,s.c.closeSent,s.c.closeRcvd,s.c.eofSent,s.c.eofRcvd,s.c.isLocal,
    s.c.detachUser,s.c.detachClose,s.freed⟩

namespace Halves

def wire (h : Halves) : Wire := ⟨h.eofSent,h.closeSent⟩

/-- A CLOSE was sent only with both halves closed, an EOF only with the input closed. A reverse
SOCKS channel ends only after the EOF of the peer, and a larval session only when it is freed. -/
structure Ordered (h : Halves) : Prop where
  close : h.closeSent → h.istate = .closed ∧ h.ostate = .closed
  eof : h.eofSent → h.istate = .closed
  socks : h.type = .rdynamicOpen → h.istate = .waitDrain ∨ h.eofSent ∨ h.ostate = .closed →
    h.eofRcvd
  larval : h.type = .larval → ¬ h.freed → h.detachUser ∧ ¬ h.detachClose ∧ ¬ h.closeSent

namespace Ordered

variable {h : Halves} (ho : h.Ordered)

include ho

lemma wire_of_istate (hi : h.istate ≠ .closed) : h.wire = ⟨false,false⟩ := by
  have he : ¬ h.eofSent := fun he => hi (ho.eof he)
  have hc : ¬ h.closeSent := fun hc => hi (ho.close hc).1
  simp [wire,he,hc]

lemma not_closeSent (hn : h.ostate ≠ .closed) : h.closeSent = false := by
  by_contra hc
  exact hn (ho.close (by simpa using hc)).2

lemma setIstate {i : InputState} (hi : h.istate = .closed → i = .closed)
    (hr : h.type = .rdynamicOpen → i = .waitDrain → h.eofRcvd) :
    ({ h with istate := i }).Ordered :=
  ⟨fun hc => ⟨hi (ho.close hc).1,(ho.close hc).2⟩,fun he => hi (ho.eof he),
    fun ht hor => hor.elim (hr ht) fun hor => ho.socks ht (.inr hor),ho.larval⟩

lemma setOstate {o : OutputState} (hi : h.ostate = .closed → o = .closed)
    (hr : h.type = .rdynamicOpen → o = .closed → h.eofRcvd) :
    ({ h with ostate := o }).Ordered :=
  ⟨fun hc => ⟨(ho.close hc).1,hi (ho.close hc).2⟩,ho.eof,fun ht hor => by
    rcases hor with hw | he | hc
    · exact ho.socks ht (.inl hw)
    · exact ho.socks ht (.inr (.inl he))
    · exact hr ht hc,ho.larval⟩

/-- A channel that is neither larval nor waits for a SOCKS request needs only the first two. -/
lemma setType {t : ChannelType} (hr : t ≠ .rdynamicOpen) (hl : t ≠ .larval) :
    ({ h with type := t }).Ordered :=
  ⟨ho.close,ho.eof,fun ht => absurd ht hr,fun ht => absurd ht hl⟩

end Ordered

end Halves

/-- A type for which the first two conditions are enough. -/
def Plain (t : ChannelType) : Prop := t ≠ .rdynamicOpen ∧ t ≠ .larval

instance (t : ChannelType) : Decidable (Plain t) := inferInstanceAs (Decidable (_ ∧ _))

def Peered (t : ChannelType) : Prop :=
  t = .opened ∨ t = .larval ∨ t = .x11Open ∨ t = .rdynamicOpen ∨ t = .rdynamicFinish ∨
    t = .abandoned ∨ t = .zombie

instance (t : ChannelType) : Decidable (Peered t) := inferInstanceAs (Decidable (_ ∨ _))

/-- A message that does not belong to the opening of a channel. -/
def Msg.Inner : Msg → Prop
  | .openRequest _ _ | .openConfirmation _ _ | .openFailure => False
  | _ => True

/-- A step whose messages the monitor accepts, and that neither hears a CLOSE nor frees the
channel. -/
structure Orderly (s s' : Side) : Prop where
  ordered : s'.halves.Ordered
  trace : ∀ w, s.sent.foldlM Wire.next w = some s.halves.wire →
    s'.sent.foldlM Wire.next w = some s'.halves.wire
  plain : Plain s.c.type → Plain s'.c.type
  peered : Peered s.c.type → Peered s'.c.type
  inner : Peered s.c.type → (∀ m ∈ s.sent, m.Inner) → ∀ m ∈ s'.sent, m.Inner
  closeRcvd : s'.c.closeRcvd = s.c.closeRcvd
  isLocal : s'.c.isLocal = s.c.isLocal
  freed : s'.freed = s.freed

namespace Orderly

variable {s s' s'' : Side}

lemma refl (hs : s.halves.Ordered) : Orderly s s :=
  ⟨hs,fun _ => id,id,id,fun _ => id,rfl,rfl,rfl⟩

lemma trans (h : Orderly s s') (h' : Orderly s' s'') : Orderly s s'' :=
  ⟨h'.ordered,fun w hw => h'.trace w (h.trace w hw),h'.plain ∘ h.plain,h'.peered ∘ h.peered,
    fun hp hm => h'.inner (h.peered hp) (h.inner hp hm),h'.closeRcvd.trans h.closeRcvd,
    h'.isLocal.trans h.isLocal,h'.freed.trans h.freed⟩

lemma silent (ho : s'.halves.Ordered) (hw : s'.halves.wire = s.halves.wire)
    (hsent : s'.sent = s.sent) (hp : Plain s.c.type → Plain s'.c.type)
    (hq : Peered s.c.type → Peered s'.c.type) (hr : s'.c.closeRcvd = s.c.closeRcvd)
    (hl : s'.c.isLocal = s.c.isLocal) (hf : s'.freed = s.freed) : Orderly s s' :=
  ⟨ho,fun w ht => by rw [hsent,hw]; exact ht,hp,hq,fun _ => by rw [hsent]; exact id,hr,hl,hf⟩

lemma quiet {v : Halves} (hh : s'.halves = v) (hsent : s'.sent = s.sent) (ho : v.Ordered)
    (hw : v.wire = s.halves.wire) (ht : v.type = s.c.type) (hr : v.closeRcvd = s.c.closeRcvd)
    (hl : v.isLocal = s.c.isLocal) (hf : v.freed = s.freed) : Orderly s s' := by
  subst hh
  have ht : s'.c.type = s.c.type := ht
  exact silent ho hw hsent (by rw [ht]; exact id) (by rw [ht]; exact id) hr hl hf

lemma same (hs : s.halves.Ordered) (hh : s'.halves = s.halves) (hsent : s'.sent = s.sent) :
    Orderly s s' :=
  quiet hh hsent hs rfl rfl rfl rfl rfl

lemma retype {t : ChannelType} (hs : s.halves.Ordered) (ht : Plain t)
    (hq : Peered s.c.type → Peered t) (hh : s'.halves = { s.halves with type := t })
    (hsent : s'.sent = s.sent) : Orderly s s' := by
  have htype : s'.c.type = t := congrArg Halves.type hh
  refine silent (hh ▸ hs.setType ht.1 ht.2) ?_ hsent (fun _ => ?_) ?_ (congrArg Halves.closeRcvd hh)
    (congrArg Halves.isLocal hh) (congrArg Halves.freed hh)
  · rw [hh]
    rfl
  · rw [htype]
    exact ht
  · rw [htype]
    exact hq

lemma detach {user close : Bool} (hs : s.halves.Ordered) (ht : s.c.type ≠ .larval)
    (hh : s'.halves = { s.halves with detachUser := user, detachClose := close })
    (hsent : s'.sent = s.sent) : Orderly s s' :=
  quiet hh hsent ⟨hs.close,hs.eof,hs.socks,fun h => absurd h ht⟩ rfl rfl rfl rfl rfl

lemma sends {m : Msg} (ho : s'.halves.Ordered) (hsent : s'.sent = s.sent ++ [m])
    (hm : s.halves.wire.next m = some s'.halves.wire) (hin : m.Inner) (ht : s'.c.type = s.c.type)
    (hr : s'.c.closeRcvd = s.c.closeRcvd) (hl : s'.c.isLocal = s.c.isLocal)
    (hf : s'.freed = s.freed) : Orderly s s' := by
  refine ⟨ho,fun w ht => ?_,by rw [ht]; exact id,by rw [ht]; exact id,fun _ hall => ?_,hr,hl,hf⟩
  · rw [hsent,foldlM_append,ht]
    simp [hm]
  · rw [hsent]
    exact forall_mem_append.mpr ⟨hall,forall_mem_singleton.mpr hin⟩

variable (hs : s.halves.Ordered)

include hs

lemma push {m : Msg}
    (hm : s.halves.wire.next m = some s.halves.wire) (hin : m.Inner) : Orderly s (s.push m) :=
  sends hs rfl hm hin rfl rfl rfl rfl

lemma send {m : Msg}
    (hm : s.halves.wire.next m = some s.halves.wire) (hin : m.Inner) (h : s.send m = .ok s') :
    Orderly s s' := by
  obtain rfl := send_ok h
  exact push hs hm hin

lemma callIf {p : Prop} [Decidable p] {f : Side → Except Stop Side}
    (hf : ∀ {s'}, p → f s = .ok s' → Orderly s s') (h : s.callIf p f = .ok s') : Orderly s s' := by
  unfold Side.callIf at h
  split at h
  · next hp => exact hf hp h
  · cases h
    exact refl hs

variable {f : Channel → Channel}

lemma onIf {p : Channel → Prop} [DecidablePred p]
    (hf : p s.c → Orderly s (s.on f)) : Orderly s (s.on fun c => if p c then f c else c) := by
  by_cases hp : p s.c
  · have he : (s.on fun c => if p c then f c else c) = s.on f := by
      simp only [on,if_pos hp]
    rw [he]
    exact hf hp
  · have he : (s.on fun c => if p c then f c else c) = s := by
      simp only [on,if_neg hp]
    rw [he]
    exact refl hs

end Orderly

/-- Its type and that it has no number of the peer stay as they are. -/
def Kept (c c' : Channel) : Prop := c'.type = c.type ∧ c'.haveRemoteId = c.haveRemoteId

lemma Kept.refl (c : Channel) : Kept c c := ⟨rfl,rfl⟩

lemma Kept.trans {c c' c'' : Channel} (h : Kept c c') (h' : Kept c' c'') : Kept c c'' :=
  ⟨h'.1.trans h.1,h'.2.trans h.2⟩

lemma chanShutdownRead_kept (c : Channel) : Kept c (chanShutdownRead c) := by
  unfold chanShutdownRead
  split
  · exact .refl c
  · split <;> exact ⟨rfl,rfl⟩

lemma chanShutdownWrite_kept (c : Channel) : Kept c (chanShutdownWrite c) := by
  unfold chanShutdownWrite
  dsimp only
  split
  · exact ⟨rfl,rfl⟩
  · split <;> exact ⟨rfl,rfl⟩

lemma chanReadFailed_kept (c : Channel) : Kept c (chanReadFailed c) := by
  unfold chanReadFailed
  split
  · exact chanShutdownRead_kept c
  · exact .refl c

@[simp] lemma halves_chanShutdownRead (s : Side) : (s.on chanShutdownRead).halves = s.halves := by
  unfold on chanShutdownRead
  split
  · rfl
  · split <;> rfl

@[simp] lemma halves_chanShutdownExtendedRead (s : Side) :
    (s.on chanShutdownExtendedRead).halves = s.halves := by
  unfold on chanShutdownExtendedRead
  split
  · rfl
  · split <;> rfl

@[simp] lemma halves_chanShutdownWrite (s : Side) :
    (s.on chanShutdownWrite).halves = s.halves := by
  unfold on chanShutdownWrite
  dsimp only
  split
  · rfl
  · split <;> rfl

section

variable {k : Compat} {s s' : Side} (hs : s.halves.Ordered)

include hs

lemma orderly_istate {i : InputState}
    (hf : (s.on f).halves = s.halves) (hi : s.c.istate = .closed → i = .closed)
    (hr : s.c.type = .rdynamicOpen → i = .waitDrain → s.c.eofRcvd) :
    Orderly s (s.on fun c => { f c with istate := i }) :=
  .quiet (by rw [← hf]; rfl) rfl
    (hs.setIstate hi hr) rfl rfl rfl rfl rfl

lemma orderly_ostate {o : OutputState}
    (hf : (s.on f).halves = s.halves) (hi : s.c.ostate = .closed → o = .closed)
    (hr : s.c.type = .rdynamicOpen → o = .closed → s.c.eofRcvd) :
    Orderly s (s.on fun c => { f c with ostate := o }) :=
  .quiet (by rw [← hf]; rfl) rfl
    (hs.setOstate hi hr) rfl rfl rfl rfl rfl

lemma chanReadFailed_orderly (ht : s.c.type ≠ .rdynamicOpen) :
    Orderly s (s.on chanReadFailed) := by
  cases hi : s.c.istate with
  | opened =>
    have he : s.on chanReadFailed =
        s.on fun c => { chanShutdownRead c with istate := .waitDrain } := by
      simp only [on,chanReadFailed,hi]
    rw [he]
    refine orderly_istate hs (halves_chanShutdownRead s) ?_ fun h => absurd h ht
    rw [hi]
    rintro ⟨⟩
  | waitDrain | waitOclose | closed =>
    refine .same hs ?_ rfl
    simp only [on,chanReadFailed,hi]

lemma chanRcvdEow_orderly : Orderly s (s.on chanRcvdEow) := by
  cases hi : s.c.istate with
  | opened =>
    have he : s.on chanRcvdEow = s.on fun c => { chanShutdownRead c with istate := .closed } := by
      simp only [on,chanRcvdEow,hi]
    rw [he]
    exact orderly_istate hs (halves_chanShutdownRead s) (fun _ => rfl) (by simp)
  | waitDrain | waitOclose | closed =>
    refine .same hs ?_ rfl
    simp only [on,chanRcvdEow,hi]

lemma chanObufEmpty_orderly
    (hr : s.c.type = .rdynamicOpen → s.c.eofRcvd) : Orderly s (s.on chanObufEmpty) := by
  by_cases hout : s.c.output = []
  · cases hi : s.c.ostate with
    | waitDrain =>
      have he : s.on chanObufEmpty =
          s.on fun c => { chanShutdownWrite c with ostate := .closed } := by
        simp only [on,chanObufEmpty,hi,hout,ne_eq,not_true_eq_false,if_false]
      rw [he]
      exact orderly_ostate hs (halves_chanShutdownWrite s) (fun _ => rfl) fun ht _ => hr ht
    | opened | waitIeof | closed =>
      refine .same hs ?_ rfl
      simp only [on,chanObufEmpty,hi,hout,ne_eq,not_true_eq_false,if_false]
  · refine .same hs ?_ rfl
    simp only [on,chanObufEmpty,ne_eq,hout,not_false_eq_true,if_true]

lemma chanStartDrain_orderly : Orderly s (s.on chanStartDrain) := by
  by_cases ho : s.c.ostate = .opened
  · have he : s.on chanStartDrain = s.on fun c => { id c with ostate := .waitDrain } := by
      simp only [on,chanStartDrain,ho,if_true,id]
    rw [he]
    refine orderly_ostate hs rfl ?_ (by simp)
    rw [ho]
    rintro ⟨⟩
  · refine .same hs ?_ rfl
    simp only [on,chanStartDrain,ho,if_false]

omit hs

lemma eofRcvd_chanObufEmpty (c : Channel) : (chanObufEmpty c).eofRcvd = c.eofRcvd := by
  have hshut : (chanShutdownWrite c).eofRcvd = c.eofRcvd :=
    congrArg Halves.eofRcvd (halves_chanShutdownWrite ⟨c,[],false⟩)
  unfold chanObufEmpty
  split
  · rfl
  · split
    · exact hshut
    · rfl

lemma eofRcvd_chanRcvdIeof (s : Side) : (s.on chanRcvdIeof).c.eofRcvd = true := by
  have hdrain : (chanStartDrain { s.c with eofRcvd := true }).eofRcvd = true := by
    unfold chanStartDrain
    split <;> rfl
  unfold on chanRcvdIeof
  dsimp only
  split
  · exact (eofRcvd_chanObufEmpty _).trans hdrain
  · exact hdrain

lemma chanRcvdIeof_orderly (hs : s.halves.Ordered) : Orderly s (s.on chanRcvdIeof) := by
  have hrcvd : Orderly s (s.on fun c => { c with eofRcvd := true }) :=
    .silent ⟨hs.close,hs.eof,fun _ _ => rfl,hs.larval⟩ rfl rfl id id rfl rfl rfl
  have hdrain := hrcvd.trans (chanStartDrain_orderly hrcvd.ordered)
  have heof : (chanStartDrain { s.c with eofRcvd := true }).eofRcvd = true := by
    unfold chanStartDrain
    split <;> rfl
  have hempty := Orderly.onIf
    (p := fun c => c.ostate = .waitDrain ∧ c.output = [] ∧ ¬ channelEfdOutputActive c)
    hdrain.ordered fun _ => chanObufEmpty_orderly hdrain.ordered fun _ => heof
  exact hdrain.trans hempty

lemma orderly_eof (hs : s.halves.Ordered) (hi : s.c.istate = .waitDrain)
    (hh : s'.halves = { s.halves with eofSent := true, istate := .closed })
    (hsent : s'.sent = s.sent ++ [.eof]) : Orderly s s' := by
  have hwire := hs.wire_of_istate (by rw [show s.halves.istate = _ from hi]; decide)
  have hnc : s.halves.closeSent = false := congrArg Wire.close hwire
  refine .sends ?_ hsent ?_ trivial (congrArg Halves.type hh)
    (congrArg Halves.closeRcvd hh) (congrArg Halves.isLocal hh) (congrArg Halves.freed hh)
  · rw [hh]
    refine ⟨fun hc => ?_,fun _ => rfl,fun ht _ => hs.socks ht (.inl hi),hs.larval⟩
    rw [show s.halves.closeSent = true from hc] at hnc
    cases hnc
  · rw [hh,hwire]
    simp [Wire.next,Halves.wire,hnc]

lemma drained_orderly {p : Prop} [Decidable p]
    (hf : ∀ t : Side, (t.on f).halves = t.halves) (hs : s.halves.Ordered)
    (hi : s.c.istate = .waitDrain) (h : (do
      let t ← s.callIf p chanSendEof2
      return t.on fun c => { f c with istate := .closed }) = .ok s') : Orderly s s' := by
  obtain ⟨s1,hs1,h⟩ := bind_eq_ok.mp h
  cases h
  unfold callIf at hs1
  split at hs1
  · unfold chanSendEof2 at hs1
    rw [hi] at hs1
    obtain ⟨s2,hs2,hs1⟩ := bind_eq_ok.mp hs1
    cases hs1
    obtain rfl := send_ok hs2
    refine orderly_eof hs hi ?_ rfl
    have := hf ((s.push .eof).on fun c => { c with eofSent := true })
    rw [show ∀ t : Side, (t.on _).halves =
      { (t.on f).halves with istate := .closed } from fun _ => rfl,this]
    rfl
  · cases hs1
    exact orderly_istate hs (hf s) (fun _ => rfl) nofun

lemma chanIbufEmpty_orderly (hs : s.halves.Ordered) (h : chanIbufEmpty s = .ok s') :
    Orderly s s' := by
  unfold chanIbufEmpty at h
  split at h
  · cases h
    exact .refl hs
  split at h
  · next hi => exact drained_orderly (fun _ => rfl) hs hi h
  · cases h
    exact .refl hs

/-- `CHAN_CLOSE_RCVD`, which `chan_rcvd_oclose` sets first. -/
def hearClose (s : Side) : Side := s.on fun c => { c with closeRcvd := c.closeRcvd || !c.isLocal }

lemma chanRcvdOclose_orderly (hs : s.halves.Ordered) (h : chanRcvdOclose s = .ok s') :
    Orderly (hearClose s) s' := by
  have hheard : (hearClose s).halves.Ordered := ⟨hs.close,hs.eof,hs.socks,hs.larval⟩
  change (if (hearClose s).c.type = .larval then _ else _) = _ at h
  split at h
  · next ht =>
    cases h
    refine .silent ⟨fun _ => ⟨rfl,rfl⟩,fun _ => rfl,fun hr => ?_,hheard.larval⟩ rfl rfl id id
      rfl rfl rfl
    rw [show (hearClose s).c.type = .rdynamicOpen from hr] at ht
    cases ht
  · have hdrain := chanStartDrain_orderly hheard
    refine hdrain.trans ?_
    split at h
    · cases h
      refine orderly_istate hdrain.ordered ?_ (fun _ => rfl) nofun
      exact (halves_chanShutdownExtendedRead _).trans (halves_chanShutdownRead _)
    · next hi => exact drained_orderly halves_chanShutdownExtendedRead hdrain.ordered hi h
    · cases h
      exact .refl hdrain.ordered

lemma chanSendEow2_orderly (hs : s.halves.Ordered) (h : chanSendEow2 k s = .ok s') :
    Orderly s s' ∧ s'.c = s.c := by
  unfold chanSendEow2 at h
  split at h
  · cases h
    exact ⟨.refl hs,rfl⟩
  next ho =>
  split at h
  · cases h
    exact ⟨.refl hs,rfl⟩
  · obtain rfl := send_ok h
    refine ⟨.push hs ?_ trivial,rfl⟩
    simp [Wire.next,Halves.wire,hs.not_closeSent ho]

lemma chanWriteFailed_orderly (hs : s.halves.Ordered) (ht : s.c.type ≠ .rdynamicOpen)
    (h : chanWriteFailed k s = .ok s') : Orderly s s' := by
  have hshut : Orderly s _ := .same hs (halves_chanShutdownWrite s) rfl
  have htype : (s.on _).c.type = s.c.type := congrArg Halves.type (halves_chanShutdownWrite s)
  have hrest : (do
        let t ← (s.on chanShutdownWrite).callIf ((s.on chanShutdownWrite).c.ctype = "session")
          (chanSendEow2 k)
        return t.on fun c => { c with ostate := .closed }) = Except.ok s' → Orderly s s' := by
    intro h
    obtain ⟨s1,hs1,h⟩ := bind_eq_ok.mp h
    cases h
    have heow : Orderly (s.on chanShutdownWrite) s1 ∧ s1.c = (s.on chanShutdownWrite).c := by
      unfold callIf at hs1
      split at hs1
      · exact chanSendEow2_orderly hshut.ordered hs1
      · cases hs1
        exact ⟨.refl hshut.ordered,rfl⟩
    refine (hshut.trans heow.1).trans (orderly_ostate heow.1.ordered rfl (fun _ => rfl) ?_)
    intro hr
    rw [heow.2,htype] at hr
    exact absurd hr ht
  unfold chanWriteFailed at h
  split at h
  · exact hrest h
  · exact hrest h
  · cases h
    exact .refl hs

/-- Both halves are closed, and nothing but the CLOSE messages is missing. -/
structure Settled (k : Compat) (c : Channel) : Prop where
  zombie : c.type ≠ .zombie
  istate : c.istate = .closed
  ostate : c.ostate = .closed
  exteof : ¬ (k.bugExteof ∧ c.extendedUsage = .write ∧ c.efd ≠ none ∧ c.extended ≠ [])
  notLocal : ¬ c.isLocal

/-- Where it is not settled, `chan_is_dead` does nothing; it may be a zombie or a local channel. -/
lemma chanIsDead_unsettled (h : ¬ Settled k s.c) :
    ∃ dead, (dead = true → s.c.type = .zombie ∨ s.c.isLocal = true) ∧ ∀ doSend,
      chanIsDead k doSend s = .ok (dead,s) ∧
      chanIsDead k doSend (s.on channelCancelCleanup) = .ok (dead,s.on channelCancelCleanup) := by
  by_cases hz : s.c.type = .zombie
  · exact ⟨true,fun _ => .inl hz,fun _ => ⟨if_pos hz,if_pos hz⟩⟩
  by_cases hc : s.c.istate ≠ .closed ∨ s.c.ostate ≠ .closed
  · refine ⟨false,nofun,fun _ => ?_⟩
    exact ⟨(if_neg hz).trans (if_pos hc),(if_neg hz).trans (if_pos hc)⟩
  by_cases he : k.bugExteof ∧ s.c.extendedUsage = .write ∧ s.c.efd ≠ none ∧ s.c.extended ≠ []
  · refine ⟨false,nofun,fun _ => ⟨?_,?_⟩⟩
    · exact (if_neg hz).trans ((if_neg hc).trans (if_pos he))
    · exact (if_neg hz).trans ((if_neg hc).trans (if_pos he))
  by_cases hl : s.c.isLocal = true
  · refine ⟨true,fun _ => .inr hl,fun _ => ⟨?_,?_⟩⟩
    · exact (if_neg hz).trans ((if_neg hc).trans ((if_neg he).trans (if_pos hl)))
    · exact (if_neg hz).trans ((if_neg hc).trans ((if_neg he).trans (if_pos hl)))
  · exact absurd ⟨hz,not_not.mp (not_or.mp hc).1,not_not.mp (not_or.mp hc).2,he,hl⟩ h

lemma chanIsDead_settled {doSend dead : Bool} (hset : Settled k s.c)
    (h : chanIsDead k doSend s = .ok (dead,s')) :
    (s.c.closeSent = true ∧ s' = s ∧ dead = s.c.closeRcvd) ∨
      (s.c.closeSent = false ∧ doSend = false ∧ s' = s ∧ dead = s.c.closeRcvd) ∨
      (s.c.closeSent = false ∧ doSend = true ∧ dead = s.c.closeRcvd ∧
        s' = (s.push .close).on fun c => { c with closeSent := true }) := by
  have hclosed : ¬ (s.c.istate ≠ .closed ∨ s.c.ostate ≠ .closed) := by
    simp [hset.istate,hset.ostate]
  rw [chanIsDead,if_neg hset.zombie,if_neg hclosed,if_neg hset.exteof,if_neg hset.notLocal] at h
  cases hsent : s.c.closeSent with
  | true =>
    rw [if_neg (by simp [hsent])] at h
    obtain ⟨s1,hs1,h⟩ := bind_eq_ok.mp h
    rw [callIf,if_neg (by simp [hsent])] at hs1
    cases hs1
    cases h
    exact .inl ⟨rfl,rfl,by rw [hsent,Bool.true_and]⟩
  | false =>
    refine .inr ?_
    cases doSend with
    | false =>
      refine .inl ⟨rfl,rfl,?_⟩
      cases hrcvd : s.c.closeRcvd with
      | true =>
        rw [if_pos ⟨by simp [hsent],by simp,hrcvd⟩] at h
        cases h
        exact ⟨rfl,rfl⟩
      | false =>
        rw [if_neg (by simp [hrcvd])] at h
        obtain ⟨s1,hs1,h⟩ := bind_eq_ok.mp h
        rw [callIf,if_neg (by simp)] at hs1
        cases hs1
        cases h
        exact ⟨rfl,by rw [hsent,Bool.false_and]⟩
    | true =>
      refine .inr ⟨rfl,rfl,?_⟩
      rw [if_neg (by simp)] at h
      obtain ⟨s1,hs1,h⟩ := bind_eq_ok.mp h
      rw [callIf,if_pos (by simp [hsent]),chanSendClose2,
        if_neg (by simp [hset.istate,hset.ostate]),if_neg (by simp [hsent])] at hs1
      obtain ⟨s2,hs2,hs1⟩ := bind_eq_ok.mp hs1
      cases hs1
      cases h
      obtain rfl := send_ok hs2
      exact ⟨rfl,rfl⟩

lemma orderly_close (hs : s.halves.Ordered) (hi : s.c.istate = .closed)
    (ho : s.c.ostate = .closed)
    (hnc : s.c.closeSent = false) (hl : s.c.type ≠ .larval) :
    Orderly s ((s.push .close).on fun c => { c with closeSent := true }) := by
  refine .sends ⟨fun _ => ⟨hi,ho⟩,hs.eof,hs.socks,fun ht _ => absurd ht hl⟩ rfl ?_ trivial
    rfl rfl rfl rfl
  simp [Wire.next,Halves.wire,halves,on,push,hnc]

/-- A channel that may be freed: both CLOSE messages were exchanged, if there is a peer at all. -/
def Dead (c : Channel) : Prop :=
  c.type = .zombie ∨ c.isLocal = true ∨ (c.closeSent = true ∧ c.closeRcvd = true)

lemma chanIsDead_orderly {doSend dead : Bool} (hs : s.halves.Ordered) (ht : s.c.type ≠ .larval)
    (h : chanIsDead k doSend s = .ok (dead,s')) : Orderly s s' ∧ s'.c.type = s.c.type := by
  by_cases hset : Settled k s.c
  · rcases chanIsDead_settled hset h with ⟨-,rfl,-⟩ | ⟨-,-,rfl,-⟩ | ⟨hnc,-,-,rfl⟩
    · exact ⟨.refl hs,rfl⟩
    · exact ⟨.refl hs,rfl⟩
    · exact ⟨orderly_close hs hset.istate hset.ostate hnc ht,rfl⟩
  · obtain ⟨dead',-,hdead⟩ := chanIsDead_unsettled hset
    rw [(hdead _).1] at h
    cases h
    exact ⟨.refl hs,rfl⟩

lemma chanIsDead_dead (h : chanIsDead k true s = .ok (true,s')) : Dead s'.c := by
  by_cases hset : Settled k s.c
  · rcases chanIsDead_settled hset h with ⟨hc,rfl,hr⟩ | ⟨-,hno,-⟩ | ⟨-,-,hr,rfl⟩
    · exact .inr (.inr ⟨hc,hr.symm⟩)
    · cases hno
    · exact .inr (.inr ⟨rfl,hr.symm⟩)
  · obtain ⟨dead,hd,hdead⟩ := chanIsDead_unsettled hset
    cases h.symm.trans (hdead true).1
    rcases hd rfl with hz | hl
    · exact .inl hz
    · exact .inr (.inl hl)

/-- An orderly step that may free the channel when it is dead. -/
structure Stepped (s s' : Side) : Prop where
  ordered : s'.halves.Ordered
  trace : ∀ w, s.sent.foldlM Wire.next w = some s.halves.wire →
    s'.sent.foldlM Wire.next w = some s'.halves.wire
  peered : Peered s.c.type → Peered s'.c.type
  inner : Peered s.c.type → (∀ m ∈ s.sent, m.Inner) → ∀ m ∈ s'.sent, m.Inner
  closeRcvd : s'.c.closeRcvd = s.c.closeRcvd
  isLocal : s'.c.isLocal = s.c.isLocal
  freed : s'.freed = true → s.freed = true ∨ Dead s'.c

lemma Orderly.stepped (h : Orderly s s') : Stepped s s' :=
  ⟨h.ordered,h.trace,h.peered,h.inner,h.closeRcvd,h.isLocal,fun hf => .inl (h.freed.symm.trans hf)⟩

lemma Orderly.andThen {s'' : Side} (h : Orderly s s') (h' : Stepped s' s'') : Stepped s s'' :=
  ⟨h'.ordered,fun w hw => h'.trace w (h.trace w hw),h'.peered ∘ h.peered,
    fun hp hm => h'.inner (h.peered hp) (h.inner hp hm),h'.closeRcvd.trans h.closeRcvd,
    h'.isLocal.trans h.isLocal,fun hf => by rw [← h.freed]; exact h'.freed hf⟩

lemma stepped_free (hs : s.halves.Ordered) (hd : Dead s.c) : Stepped s { s with freed := true } :=
  ⟨⟨hs.close,hs.eof,hs.socks,fun _ hf => absurd rfl hf⟩,fun _ => id,id,fun _ => id,rfl,rfl,
    fun _ => .inr hd⟩

lemma channelReap_stepped (hs : s.halves.Ordered) (ht : s.c.type ≠ .larval)
    (h : channelReap k s = .ok s') : Stepped s s' := by
  obtain ⟨⟨dead,s1⟩,hs1,h⟩ := bind_eq_ok.mp h
  obtain ⟨hdead,-⟩ := chanIsDead_orderly hs ht hs1
  cases h
  cases dead
  · exact hdead.stepped
  · exact hdead.andThen (stepped_free hdead.ordered (chanIsDead_dead hs1))

lemma channelReap_larval {s1 : Side} (hs : s.halves.Ordered) (hnc : s.c.closeSent = false)
    (hdead : chanIsDead k false s = .ok (true,s1))
    (h : channelReap k (s.on channelCancelCleanup) = .ok s') : Stepped s s' := by
  obtain ⟨⟨dead,s2⟩,hs2,h⟩ := bind_eq_ok.mp h
  by_cases hset : Settled k s.c
  · have hset' : Settled k (s.on channelCancelCleanup).c :=
      ⟨hset.zombie,hset.istate,hset.ostate,hset.exteof,hset.notLocal⟩
    have hrcvd : s.c.closeRcvd = true := by
      rcases chanIsDead_settled hset hdead with ⟨-,-,hr⟩ | ⟨-,-,-,hr⟩ | ⟨-,hno,-⟩
      · exact hr.symm
      · exact hr.symm
      · cases hno
    rcases chanIsDead_settled hset' hs2 with ⟨hc,-⟩ | ⟨-,hno,-⟩ | ⟨-,-,hd,rfl⟩
    · rw [show s.c.closeSent = true from hc] at hnc
      cases hnc
    · cases hno
    · rw [show dead = true from hd.trans hrcvd] at h
      cases h
      refine ⟨⟨fun _ => ⟨hset.istate,hset.ostate⟩,hs.eof,hs.socks,fun _ hf => absurd rfl hf⟩,
        fun w hw => ?_,id,fun _ hall => ?_,rfl,rfl,fun _ => .inr (.inr (.inr ⟨rfl,hrcvd⟩))⟩
      · change (s.sent ++ [Msg.close]).foldlM _ w = _
        rw [foldlM_append,hw]
        simp [Wire.next,Halves.wire,halves,on,push,channelCancelCleanup,hnc]
      · exact forall_mem_append.mpr ⟨hall,forall_mem_singleton.mpr trivial⟩
  · obtain ⟨d,hdd,hd⟩ := chanIsDead_unsettled hset
    have hdead := hdead.symm.trans (hd false).1
    have hs2 := hs2.symm.trans (hd true).2
    cases hdead
    cases hs2
    cases h
    refine ⟨⟨hs.close,hs.eof,hs.socks,fun _ hf => absurd rfl hf⟩,fun _ => id,id,fun _ => id,
      rfl,rfl,?_⟩
    exact fun _ => .inr ((hdd rfl).imp_right .inl)

lemma chanIsDead_looks {dead : Bool} (h : chanIsDead k false s = .ok (dead,s')) : s' = s := by
  by_cases hset : Settled k s.c
  · rcases chanIsDead_settled hset h with ⟨-,he,-⟩ | ⟨-,-,he,-⟩ | ⟨-,hno,-⟩
    · exact he
    · exact he
    · cases hno
  · obtain ⟨d,-,hd⟩ := chanIsDead_unsettled hset
    cases h.symm.trans (hd false).1
    rfl

lemma channelGarbageCollect_stepped {detaches : Bool} (hs : s.halves.Ordered)
    (hf : s.freed = false) (h : channelGarbageCollect k detaches s = .ok s') : Stepped s s' := by
  unfold channelGarbageCollect at h
  by_cases ht : s.c.type = .larval
  · obtain ⟨hu,hd,hnc⟩ := hs.larval ht (by simp [halves,hf])
    have hd : s.c.detachClose = false := Bool.eq_false_iff.mpr hd
    have hnc : s.c.closeSent = false := Bool.eq_false_iff.mpr hnc
    rw [if_pos (show s.c.detachUser = true from hu),hd] at h
    obtain ⟨⟨dead,s1⟩,hs1,hrest⟩ := bind_eq_ok.mp h
    have hlooks := chanIsDead_looks hs1
    rw [hlooks] at hs1 hrest
    dsimp only at hrest
    split at hrest
    · cases hrest
      exact (Orderly.refl hs).stepped
    next hdead =>
    split at hrest
    · cases hrest
      exact (Orderly.refl hs).stepped
    · rw [show dead = true from not_not.mp hdead] at hs1
      exact channelReap_larval hs hnc hs1 hrest
  · split at h
    · obtain ⟨⟨dead,s1⟩,hs1,h⟩ := bind_eq_ok.mp h
      obtain ⟨hdead,htype⟩ := chanIsDead_orderly hs ht hs1
      have ht1 : s1.c.type ≠ .larval := by
        rw [htype]
        exact ht
      dsimp only at h
      split at h
      · cases h
        exact hdead.stepped
      split at h
      · cases h
        exact hdead.stepped
      · have hcancel : Orderly s1 (s1.on channelCancelCleanup) := .detach hdead.ordered ht1 rfl rfl
        exact (hdead.trans hcancel).andThen (channelReap_stepped hcancel.ordered ht1 h)
    · exact channelReap_stepped hs ht h

end

end PkixSsh.Channels
