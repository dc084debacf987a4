import PkixSsh.Lib.Slots
import PkixSsh.Channels.Pairs

/-!
# Two ends with any number of channels

Slots are used again as soon as they are free, and a message names the slot of the receiver. A
message of an open channel finds that channel.
-/

namespace PkixSsh.Channels

open Sshbuf Machine List Option

abbrev Table := List (Option Entry)

def channelsMaxChannels : Nat := 16 * 1024

def Public (t : ChannelType) : Prop :=
  t = .x11Open ∨ t = .larval ∨ t = .connecting ∨ t = .dynamic ∨ t = .rdynamicOpen ∨
    t = .rdynamicFinish ∨ t = .opening ∨ t = .opened ∨ t = .abandoned ∨ t = .muxProxy

instance (t : ChannelType) : Decidable (Public t) := inferInstanceAs (Decidable (_ ∨ _))

namespace Table

def channelById (t : Table) (i : Nat) : Option Entry := t[i]?.join

def channelLookup (t : Table) (i : Nat) : Option Entry :=
  (t.channelById i).filter fun e => Public e.side.c.type

def channelNew (e : Entry) (t : Table) : Except Stop (Nat × Table) :=
  let found := t.findIdx Option.isNone
  if found < t.length then .ok (found,t.set found (some e))
  else if t.length > channelsMaxChannels then .error .fatal
  else .ok (found,(t ++ List.replicate 10 none).set found (some e))

def Puts (t : Table) (i : Nat) (o : Option Entry) (t' : Table) : Prop :=
  ∀ j, t'.channelById j = if j = i then o else t.channelById j

variable {t : Table} {i : Nat}

lemma lt_of_channelById {e : Entry} (h : t.channelById i = some e) :
    i < t.length := Slots.lt_length_of_get h

lemma puts_set {o : Option Entry} (hi : i < t.length) :
    t.Puts i o (t.set i o) := Slots.get_set o hi

lemma channelNew_spec {t' : Table} {e : Entry} (h : t.channelNew e = .ok (i,t')) :
    t.channelById i = none ∧ t.Puts i (some e) t' := by
  have hins : Slots.insert channelsMaxChannels 10 e t = some (i,t') := by
    unfold channelNew at h
    unfold Slots.insert
    dsimp only at h ⊢
    split at h
    · next hlt =>
      cases h
      rw [if_pos hlt]
    next hge =>
    split at h
    · cases h
    · next hmost =>
      cases h
      rw [if_neg hge,if_neg hmost]
  exact Slots.insert_spec (by decide) hins

end Table

/-- What is not the same at the two ends: the compatibility flags, and whether it is the server. -/
structure Program where
  compat : Compat
  server : Bool

/-- Two ends with their tables and links; `fresh` is the next tag. -/
structure World where
  left : Table
  right : Table
  toRight : List Frame
  toLeft : List Frame
  fresh : Nat

/-- What a new channel of this side's own is given. -/
structure NewChannel where
  ctype : String
  rfd : Option Nat
  wfd : Option Nat
  efd : Option Nat
  window : UInt32
  maxpack : UInt32
  extusage : ExtendedUsage
  forceDrain : Bool
  datagram : Bool
  ctlChan : Option Nat
  detachUser : Bool
  detachClose : Bool
  inputFilter : Option EscapeFilter

/-- The types a channel has that was made for an OPEN of the peer. -/
inductive Admitted
  | larval | connecting | opened | x11Open | rdynamicOpen

def Admitted.type : Admitted → ChannelType
  | .larval => .larval
  | .connecting => .connecting
  | .opened => .opened
  | .x11Open => .x11Open
  | .rdynamicOpen => .rdynamicOpen

/-- The channel that the handlers of an OPEN make; that of a session has a callback. -/
structure Admission where
  type : Admitted
  ctype : String
  rfd : Option Nat
  wfd : Option Nat
  efd : Option Nat
  window : UInt32
  maxpack : UInt32
  extusage : ExtendedUsage
  forceDrain : Bool
  datagram : Bool

inductive TableEvent
  | handle (i : Nat) (e : LocalEvent)
  | listen (type : { t : ChannelType // t = .dynamic ∨ Listens t }) (ctype : String)
      (rfd wfd : Option Nat) (window maxpack : UInt32)
  | opens (a : NewChannel)
  | release (i : Nat)
  | arrive (answer : Option Admission)

inductive WorldEvent
  | left (e : TableEvent)
  | right (e : TableEvent)

def NewChannel.side (a : NewChannel) : Side :=
  { c := { channelNew a.ctype .opening a.rfd a.wfd a.efd a.window a.maxpack a.extusage with
           forceDrain := a.forceDrain, datagram := a.datagram, ctlChan := a.ctlChan
           detachUser := a.detachUser, detachClose := a.detachClose, inputFilter := a.inputFilter }
    sent := [], freed := false }

def Admission.side (a : Admission) (window maxpacket : UInt32) : Side :=
  { c := { channelNew a.ctype a.type.type a.rfd a.wfd a.efd a.window a.maxpack a.extusage with
           forceDrain := a.forceDrain, datagram := a.datagram
           detachUser := a.type.type = .larval
           haveRemoteId := true, remoteWindow := window, remoteMaxpacket := maxpacket }
    sent := [], freed := false }

/-- A listener or a connection that waits for a SOCKS request; a client of the multiplexer is
`CHAN_LOCAL`. -/
def listenerSide (type : ChannelType) (ctype : String) (rfd wfd : Option Nat)
    (window maxpack : UInt32) : Side :=
  { c := { channelNew ctype type rfd wfd none window maxpack .ignore with
           isLocal := type = .muxClient }
    sent := [], freed := false }

namespace World

def swap (w : World) : World := ⟨w.right,w.left,w.toLeft,w.toRight,w.fresh⟩

/-- Channel `i` of the left end has done a step. -/
def put (w : World) (i : Nat) (e : Entry) (s : Side) : World :=
  { w with left := w.left.set i (e.after s), toRight := w.toRight ++ e.frames i s.sent }

def inputChannelOpen (w : World) (f : Frame) (window maxpacket : UInt32) :
    Option Admission → Except Stop World
  | none => .ok { w with toRight := w.toRight ++ [⟨f.sender,0,.openFailure,f.tag⟩] }
  | some a => do
    let (i,left) ← w.left.channelNew ⟨a.side window maxpacket,f.sender,f.tag⟩
    if a.type.type = .connecting then return { w with left }
    return { w with
      left, toRight := w.toRight ++ [⟨f.sender,i,.openConfirmation a.window a.maxpack,f.tag⟩] }

/-- A message to channel `f.recipient`, which was found; the number at the other end comes with
the confirmation. -/
def hear (k : Compat) (w : World) (f : Frame) (e : Entry) : Except Stop World := do
  let s ← Channels.receive k f.msg { e.side with sent := [] }
  match f.msg with
  | .openConfirmation _ _ => return w.put f.recipient { e with remoteId := f.sender } s
  | _ => return w.put f.recipient e s

/-- A message taken from the link. For an unknown channel the server disconnects on a request, and
the client does not. -/
def input (p : Program) (w : World) (f : Frame) (answer : Option Admission) : Except Stop World :=
  match f.msg with
  | .openRequest window maxpacket => w.inputChannelOpen f window maxpacket answer
  | .request _ =>
    if w.left.channelLookup f.recipient = none ∧ p.server then .error .disconnect else .ok w
  | m =>
    match w.left.channelLookup f.recipient with
    | some e => w.hear p.compat f e
    | none =>
      match m with
      | .windowAdjust _ => .ok w
      | .eow => if p.server then .error .disconnect else .ok w
      | _ => .error .disconnect

def stepLeft (p : Program) (w : World) : TableEvent → Except Stop World
  | .handle i le =>
    match w.left.channelById i with
    | none => .ok w
    | some e => do
      let s ← localStep p.compat le { e.side with sent := [] }
      return w.put i e s
  | .listen type ctype rfd wfd window maxpack => do
    let (_,left) ← w.left.channelNew ⟨listenerSide type ctype rfd wfd window maxpack,0,w.fresh⟩
    return { w with left, fresh := w.fresh + 1 }
  | .opens a => do
    let (i,left) ← w.left.channelNew ⟨a.side,0,w.fresh⟩
    return { w with
      left, fresh := w.fresh + 1
      toRight := w.toRight ++ [⟨0,i,.openRequest a.window a.maxpack,w.fresh⟩] }
  | .release i =>
    match w.left.channelById i with
    | some e => if Listens e.side.c.type then .ok { w with left := w.left.set i none } else .ok w
    | none => .ok w
  | .arrive answer =>
    match w.toLeft with
    | [] => .ok w
    | f :: rest => input p { w with toLeft := rest } f answer

def step (pl pr : Program) (w : World) : WorldEvent → Except Stop World
  | .left e => w.stepLeft pl e
  | .right e => do
    let w ← w.swap.stepLeft pr e
    return w.swap

def initial : World := ⟨List.replicate 10 none,List.replicate 10 none,[],[],0⟩

end World

def worldStep (pl pr : Program) (w : World) (e : WorldEvent) : Except Stop (Unit × World) := do
  let w ← w.step pl pr e
  return ((),w)

/-- The records and messages that have the tag `t`. -/
structure IsView (w : World) (t : Nat) (v : View) : Prop where
  left : ∀ i e, v.left = some (i,e) ↔ w.left.channelById i = some e ∧ e.tag = t
  right : ∀ i e, v.right = some (i,e) ↔ w.right.channelById i = some e ∧ e.tag = t
  toRight : v.toRight = w.toRight.filter (·.tag = t)
  toLeft : v.toLeft = w.toLeft.filter (·.tag = t)

variable {w : World}

lemma IsView.swap {t : Nat} {v : View} (h : IsView w t v) : IsView w.swap t v.swap :=
  ⟨h.right,h.left,h.toLeft,h.toRight⟩

def View.none : View := ⟨.none,.none,[],[]⟩

/-- Every tag is one channel in one of its states, and tags to come are not used. -/
def World.Good (w : World) : Prop :=
  ∀ t, ∃ v, IsView w t v ∧ v.Good ∧ (w.fresh ≤ t → v = .none)

namespace World

variable {p pl pr : Program} {w w' : World} {v : View} {t i : Nat} {e : Entry} {s : Side}
  {f : Frame}

lemma Good.swap (h : w.Good) : w.swap.Good := by
  intro t
  obtain ⟨v,hv,hg,hf⟩ := h t
  refine ⟨v.swap,hv.swap,hg.swap,fun ht => ?_⟩
  rw [hf ht]
  rfl

lemma good_initial : initial.Good := by
  intro t
  have hnone : ∀ i e, (none) = some (i,e) ↔
      Table.channelById (List.replicate 10 none) i = some e ∧ e.tag = t := by
    intro i e
    have hslot : Table.channelById (List.replicate 10 none) i = none := by
      rw [Table.channelById,List.getElem?_replicate]
      split <;> rfl
    rw [hslot]
    simp
  refine ⟨.none,⟨hnone,hnone,rfl,rfl⟩,.inl (.gone ?_ ?_ rfl rfl),fun _ => rfl⟩
  · exact fun i e he => (by cases he)
  · exact fun i e he => (by cases he)

/-- A step that touches one slot of the left end and the messages of one tag leaves the other
channels as they are. -/
structure Local (w w' : World) (t i : Nat) (o : Option Entry) (sent heard : List Frame) : Prop where
  left : w.left.Puts i o w'.left
  old : ∀ e, w.left.channelById i = some e → e.tag = t
  new : ∀ e, o = some e → e.tag = t
  right : w'.right = w.right
  toRight : w'.toRight = w.toRight ++ sent
  toLeft : w.toLeft = heard ++ w'.toLeft
  sentTag : ∀ f ∈ sent, f.tag = t
  heardTag : ∀ f ∈ heard, f.tag = t
  fresh : w.fresh ≤ w'.fresh

section

variable {o : Option Entry} {sent heard : List Frame}

lemma filter_tag_self {fs : List Frame} (h : ∀ f ∈ fs, f.tag = t) : fs.filter (·.tag = t) = fs :=
  filter_eq_self.mpr fun f hf => decide_eq_true (h f hf)

lemma filter_tag_ne {fs : List Frame} {u : Nat} (h : ∀ f ∈ fs, f.tag = t) (hu : u ≠ t) :
    fs.filter (·.tag = u) = [] := by
  refine filter_eq_nil_iff.mpr fun f hf => ?_
  rw [h f hf]
  simpa using Ne.symm hu

variable (h : Local w w' t i o sent heard)

include h

lemma Local.other {u : Nat} (hu : u ≠ t) (hv : IsView w u v) :
    IsView w' u v := by
  refine ⟨fun j e => ?_,fun j e => ?_,?_,?_⟩
  · rw [hv.left,h.left j]
    by_cases hj : j = i
    · rw [if_pos hj,hj]
      constructor
      · rintro ⟨he,ht⟩
        exact absurd (ht.symm.trans (h.old e he)) hu
      · rintro ⟨he,ht⟩
        exact absurd (ht.symm.trans (h.new e he)) hu
    · rw [if_neg hj]
  · rw [hv.right,h.right]
  · rw [hv.toRight,h.toRight,filter_append,filter_tag_ne h.sentTag hu,append_nil]
  · rw [hv.toLeft,h.toLeft,filter_append,filter_tag_ne h.heardTag hu,nil_append]

lemma Local.this (hv : IsView w t v)
    (hslot : v.left = none ∨ ∃ e, v.left = some (i,e)) : ∃ rest, v.toLeft = heard ++ rest ∧
      IsView w' t ⟨o.map (Prod.mk i),v.right,v.toRight ++ sent,rest⟩ := by
  refine ⟨w'.toLeft.filter _,?_,⟨fun j e => ?_,fun j e => ?_,?_,rfl⟩⟩
  · rw [hv.toLeft,h.toLeft,filter_append,filter_tag_self h.heardTag]
  · rw [h.left j]
    by_cases hj : j = i
    · rw [if_pos hj,hj]
      constructor
      · intro he
        obtain ⟨e',he',heq⟩ := map_eq_some_iff.mp he
        cases heq
        exact ⟨he',h.new e he'⟩
      · rintro ⟨he,-⟩
        rw [he]
        rfl
    · rw [if_neg hj]
      constructor
      · intro he
        obtain ⟨e',-,heq⟩ := map_eq_some_iff.mp he
        cases heq
        exact absurd rfl hj
      · intro he
        have hleft := (hv.left j e).mpr he
        rcases hslot with hnone | ⟨e',hsome⟩
        · rw [hnone] at hleft
          cases hleft
        · rw [hsome] at hleft
          cases hleft
          exact absurd rfl hj
  · rw [h.right]
    exact hv.right j e
  · rw [hv.toRight,h.toRight,filter_append,filter_tag_self h.sentTag]

lemma Local.good (hw : w.Good) (ht : t < w'.fresh)
    (hthis : ∀ v rest, IsView w t v → v.Good → (w.fresh ≤ t → v = .none) →
      v.toLeft = heard ++ rest →
      (v.left = none ∨ ∃ e, v.left = some (i,e)) ∧
        View.Good ⟨o.map (Prod.mk i),v.right,v.toRight ++ sent,rest⟩) : w'.Good := by
  intro u
  obtain ⟨v,hv,hg,hf⟩ := hw u
  by_cases hu : u = t
  · subst hu
    have hheard : v.toLeft = heard ++ w'.toLeft.filter (·.tag = u) := by
      rw [hv.toLeft,h.toLeft,filter_append,filter_tag_self h.heardTag]
    obtain ⟨hslot,-⟩ := hthis v _ hv hg hf hheard
    obtain ⟨rest,hrest,hv'⟩ := h.this hv hslot
    exact ⟨_,hv',(hthis v rest hv hg hf hrest).2,fun hle => absurd ht (not_lt.mpr hle)⟩
  · exact ⟨v,h.other hu hv,hg,fun hle => hf (le_trans h.fresh hle)⟩

end

lemma Good.tag_lt (hw : w.Good) (h : w.left.channelById i = some e) : e.tag < w.fresh := by
  by_contra hge
  obtain ⟨v,hv,-,hf⟩ := hw e.tag
  have hleft := (hv.left i e).mpr ⟨h,rfl⟩
  rw [hf (not_lt.mp hge)] at hleft
  cases hleft

variable {rest : List Frame}

lemma Good.frame_lt (hw : w.Good) (h : w.toLeft = f :: rest) : f.tag < w.fresh := by
  by_contra hge
  obtain ⟨v,hv,-,hf⟩ := hw f.tag
  have hleft := hv.toLeft
  rw [hf (not_lt.mp hge),h,filter_cons,if_pos (by simp)] at hleft
  cases hleft

lemma slot_of_view (hv : IsView w e.tag v) (h : w.left.channelById i = some e) :
    v.left = some (i,e) := (hv.left i e).mpr ⟨h,rfl⟩

lemma local_put {heard : List Frame} (w0 : World) (h : w.left.channelById i = some e)
    (ht : e.tag = t) (hl : w0.left = w.left) (hr : w0.right = w.right)
    (hlr : w0.toRight = w.toRight)
    (hrl : w.toLeft = heard ++ w0.toLeft) (hh : ∀ f ∈ heard, f.tag = t) (hf : w0.fresh = w.fresh)
    {e' : Entry} (he' : e'.tag = t) :
    Local w (w0.put i e' s) t i (e'.after s) (e'.frames i s.sent) heard := by
  refine ⟨?_,fun e1 he1 => ?_,fun e1 he1 => ?_,hr,?_,hrl,fun f hf => ?_,hh,hf.ge⟩
  · change w.left.Puts i _ (w0.left.set i _)
    rw [hl]
    exact Table.puts_set (Table.lt_of_channelById h)
  · cases h.symm.trans he1
    exact ht
  · unfold Entry.after at he1
    split at he1
    · cases he1
    · cases he1
      exact he'
  · change w0.toRight ++ _ = _
    rw [hlr]
  · obtain ⟨m,-,rfl⟩ := List.mem_map.mp hf
    exact he'

lemma local_new {sent heard : List Frame} {left : Table} {w0 : World}
    (h : w.left.channelNew e = .ok (i,left)) (ht : e.tag = t) (hl : w0.left = left)
    (hr : w0.right = w.right) (hlr : w0.toRight = w.toRight ++ sent)
    (hrl : w.toLeft = heard ++ w0.toLeft) (hs : ∀ f ∈ sent, f.tag = t) (hh : ∀ f ∈ heard, f.tag = t)
    (hf : w.fresh ≤ w0.fresh) : Local w w0 t i (some e) sent heard := by
  obtain ⟨hnone,hputs⟩ := Table.channelNew_spec h
  refine ⟨hl ▸ hputs,fun e1 he1 => ?_,fun e1 he1 => ?_,hr,hlr,hrl,hs,hh,hf⟩
  · cases hnone.symm.trans he1
  · cases he1
    exact ht

/-- An event that does not mark an open channel dead. -/
def StaysOpen (k : Compat) (t : Table) : TableEvent → Prop
  | .handle i le => ∀ e ∈ t.channelById i,
      ∀ s ∈ (localStep k le { e.side with sent := [] }).toOption,
        Peered e.side.c.type → e.side.c.type ≠ .zombie → s.c.type ≠ .zombie
  | _ => True

lemma handle_good {le : LocalEvent} {k : Compat} (hw : w.Good) (h : w.left.channelById i = some e)
    (hz : Talks e.side → s.c.type ≠ .zombie)
    (hstep : localStep k le { e.side with sent := [] } = .ok s) : (w.put i e s).Good := by
  have hlocal : Local w (w.put i e s) e.tag i _ _ [] :=
    local_put w h rfl rfl rfl rfl rfl (fun f hf => (by cases hf)) rfl rfl
  refine hlocal.good hw (hw.tag_lt h) fun v rest hv hg _ hrest => ?_
  have hleft := slot_of_view hv h
  refine ⟨.inr ⟨e,hleft⟩,?_⟩
  have hrest : v.toLeft = rest := hrest
  rw [← hrest]
  exact hg.acts hleft hstep hz

lemma private_listenerSide {type : ChannelType} (ht : type = .dynamic ∨ Listens type)
    (ctype : String) (rfd wfd : Option Nat) (window maxpack : UInt32) :
    Private (listenerSide type ctype rfd wfd window maxpack) := by
  have hno : ∀ t, t = .dynamic ∨ Listens t → t ≠ .rdynamicOpen ∧ t ≠ .larval := by
    intro t
    cases t <;> decide
  refine ⟨ht,rfl,nofun,rfl,fun hd => ?_,rfl,rfl,⟨nofun,
    nofun,?_,?_⟩,rfl⟩
  · subst hd
    rfl
  · exact fun h => absurd h (hno type ht).1
  · exact fun h => absurd h (hno type ht).2

/-- A new channel gets a tag of its own. -/
lemma Good.channelNew {sent : List Frame} {left : Table} (hw : w.Good)
    (hnew : w.left.channelNew e = .ok (i,left)) (he : e.tag = w.fresh)
    (hs : ∀ f ∈ sent, f.tag = w.fresh) (hgood : View.Good ⟨some (i,e),none,sent,[]⟩) :
    World.Good { w with left, fresh := w.fresh + 1, toRight := w.toRight ++ sent } := by
  have hlocal : Local w { w with left, fresh := w.fresh + 1, toRight := w.toRight ++ sent }
      _ i _ sent [] :=
    local_new hnew he rfl rfl rfl rfl hs nofun (Nat.le_succ _)
  refine hlocal.good hw (Nat.lt_succ_self _) fun v rest _ _ hf hrest => ?_
  have hv := hf le_rfl
  subst hv
  cases hrest
  exact ⟨.inl rfl,hgood⟩

lemma listen_good {type : { t : ChannelType // t = .dynamic ∨ Listens t }} {ctype : String}
    {rfd wfd : Option Nat} {window maxpack : UInt32} (hw : w.Good)
    (h : w.stepLeft p (.listen type ctype rfd wfd window maxpack) = .ok w') : w'.Good := by
  obtain ⟨⟨i,left⟩,hnew,h⟩ := bind_eq_ok.mp h
  cases h
  rw [← append_nil w.toRight]
  exact hw.channelNew hnew rfl nofun
    (.inl (.unannounced rfl (private_listenerSide type.2 ctype rfd wfd _ _) rfl rfl rfl))

lemma opening_side (a : NewChannel) : Opening a.side :=
  ⟨rfl,rfl,nofun,rfl,rfl,⟨nofun,nofun,nofun,nofun⟩,rfl⟩

lemma opens_good {a : NewChannel} (hw : w.Good) (h : w.stepLeft p (.opens a) = .ok w') :
    w'.Good := by
  obtain ⟨⟨i,left⟩,hnew,h⟩ := bind_eq_ok.mp h
  cases h
  exact hw.channelNew hnew rfl (forall_mem_singleton.mpr rfl)
    (.inl (.requested rfl (opening_side a) rfl rfl rfl rfl rfl))

lemma release_good (hw : w.Good) (h : w.left.channelById i = some e)
    (ht : Listens e.side.c.type) : World.Good { w with left := w.left.set i none } := by
  have hlocal : Local w { w with left := w.left.set i none } e.tag i none [] [] := by
    refine ⟨Table.puts_set (Table.lt_of_channelById h),fun e1 he1 => ?_,
      fun e1 he1 => (by cases he1),
      rfl,(append_nil _).symm,rfl,fun f hf => (by cases hf),fun f hf => (by cases hf),le_rfl⟩
    cases h.symm.trans he1
    rfl
  refine hlocal.good hw (hw.tag_lt h) fun v rest hv hg _ hrest => ?_
  have hleft := slot_of_view hv h
  obtain ⟨hr,hlr,hrl⟩ := hg.listener hleft ht
  refine ⟨.inr ⟨e,hleft⟩,.inl (.gone (fun i' e' he => (by cases he)) (fun i' e' he => ?_) ?_ ?_)⟩
  · cases hr.symm.trans he
  · rw [hlr]
    rfl
  · exact hrest.symm.trans hrl

lemma toLeft_view (hv : IsView w f.tag v) (h : w.toLeft = f :: rest) :
    v.toLeft = f :: rest.filter (·.tag = f.tag) := by
  rw [hv.toLeft,h,filter_cons,if_pos (by simp)]

lemma public_of_talks (h : Talks s) : Public s.c.type := by
  have hall : ∀ t, Peered t → t ≠ .zombie → Public t := by
    intro t
    cases t <;> decide
  exact hall _ h.peered h.zombie

lemma channelLookup_of_public {t : Table} (h : t.channelById i = some e)
    (hp : Public e.side.c.type) : t.channelLookup i = some e := by
  rw [Table.channelLookup,h,filter_some,if_pos (decide_eq_true hp)]

lemma channelById_of_lookup {t : Table} (h : t.channelLookup i = some e) :
    t.channelById i = some e := by
  obtain ⟨h,-⟩ := filter_eq_some_iff.mp h
  exact h

lemma Good.finds (hw : w.Good) (h : w.toLeft = f :: rest) (hin : f.msg.Inner)
    (hreq : ∀ r, f.msg ≠ .request r) :
    ∃ e, w.left.channelLookup f.recipient = some e ∧ e.tag = f.tag := by
  obtain ⟨v,hv,hg,-⟩ := hw f.tag
  obtain ⟨e,hleft,htalk⟩ := hg.found (toLeft_view hv h) hin hreq
  obtain ⟨hslot,htag⟩ := (hv.left _ e).mp hleft
  exact ⟨e,channelLookup_of_public hslot (public_of_talks htalk),htag⟩

lemma answer_good {sent : List Frame} (hw : w.Good) (h : w.toLeft = f :: rest)
    (hs : ∀ g ∈ sent, g.tag = f.tag)
    (hthis : ∀ (v : View) r, v.Good → v.toLeft = f :: r →
      View.Good { v with toRight := v.toRight ++ sent, toLeft := r })
    : World.Good { w with toLeft := rest, toRight := w.toRight ++ sent } := by
  intro u
  obtain ⟨v,hv,hg,hf⟩ := hw u
  by_cases hu : u = f.tag
  · subst hu
    refine ⟨⟨v.left,v.right,v.toRight ++ sent,rest.filter _⟩,
      ⟨hv.left,hv.right,?_,rfl⟩,hthis v _ hg (toLeft_view hv h),
      fun hle => absurd (hw.frame_lt h) (not_lt.mpr hle)⟩
    rw [hv.toRight,filter_append,filter_tag_self hs]
  · refine ⟨v,⟨hv.left,hv.right,?_,?_⟩,hg,hf⟩
    · rw [hv.toRight,filter_append,filter_tag_ne hs hu,append_nil]
    · rw [hv.toLeft,h,filter_cons,if_neg (by simpa using Ne.symm hu)]

lemma side_admission (a : Admission) (window maxpacket : UInt32) :
    (a.type.type = .connecting → Connecting (a.side window maxpacket)) ∧
      (a.type.type ≠ .connecting → Talks (a.side window maxpacket)) ∧
      (a.side window maxpacket).c.closeRcvd = false := by
  have hord : (a.side window maxpacket).halves.Ordered := by
    refine ⟨nofun,nofun,fun _ h => ?_,fun h _ => ?_⟩
    · rcases h with h | h | h
      · cases h
      · cases h
      · cases h
    · exact ⟨decide_eq_true h,nofun,nofun⟩
  refine ⟨fun ht => ⟨ht,nofun,rfl,rfl,rfl,hord,rfl⟩,fun ht => ⟨?_,?_,rfl,hord,rfl⟩,rfl⟩
  · change Peered a.type.type
    cases hty : a.type with
    | connecting => exact absurd (by rw [hty]; rfl) ht
    | larval | opened | x11Open | rdynamicOpen => decide
  · change a.type.type ≠ .zombie
    cases a.type <;> decide

lemma inputChannelOpen_good {window maxpacket : UInt32} {answer : Option Admission} (hw : w.Good)
    (h : w.toLeft = f :: rest) (hm : f.msg = .openRequest window maxpacket)
    (hstep : inputChannelOpen { w with toLeft := rest } f window maxpacket answer = .ok w') :
    w'.Good := by
  have hheard : ∀ g ∈ [f], g.tag = f.tag := forall_mem_singleton.mpr rfl
  cases answer with
  | none =>
    cases hstep
    have hsent : ∀ g ∈ [(⟨f.sender,0,.openFailure,f.tag⟩ : Frame)], g.tag = f.tag :=
      forall_mem_singleton.mpr rfl
    have hgood := answer_good hw h hsent fun v r hg hr => (hg.openRequest hr hm).2.1
    exact hgood
  | some a =>
    obtain ⟨⟨i,left⟩,hnew,hstep⟩ := bind_eq_ok.mp hstep
    obtain ⟨hconn,htalk,hrcvd⟩ := side_admission a window maxpacket
    dsimp only at hstep
    split at hstep
    · next ht =>
      cases hstep
      have hlocal : Local w { w with left, toLeft := rest } f.tag i _ [] [f] :=
        local_new hnew rfl rfl rfl (append_nil _).symm h nofun hheard le_rfl
      refine hlocal.good hw (hw.frame_lt h) fun v r hv hg _ hr => ?_
      obtain ⟨hleft,-,hopens⟩ := hg.openRequest hr hm
      refine ⟨.inl hleft,?_⟩
      rw [append_nil]
      exact (hopens i _ rfl).1 (hconn ht)
    · next ht =>
      cases hstep
      have hlocal : Local w { w with
          left, toLeft := rest
          toRight := w.toRight ++ [⟨f.sender,i,.openConfirmation a.window a.maxpack,f.tag⟩] }
          f.tag i _ _ [f] :=
        local_new hnew rfl rfl rfl rfl h (forall_mem_singleton.mpr rfl) hheard le_rfl
      refine hlocal.good hw (hw.frame_lt h) fun v r hv hg _ hr => ?_
      obtain ⟨hleft,-,hopens⟩ := hg.openRequest hr hm
      exact ⟨.inl hleft,(hopens i _ rfl).2 (htalk ht) hrcvd _ _⟩

/-- Channel `f.recipient` takes the message if that is what the message is for. -/
lemma Good.heard {e' : Entry} (hw : w.Good) (h : w.toLeft = f :: rest)
    (hslot : w.left.channelById f.recipient = some e) (htag : e'.tag = e.tag)
    (hthis : ∀ (v : View) r, v.Good → v.toLeft = f :: r → ∃ e1, v.left = some (f.recipient,e1) ∧
      (e1 = e → (View.acts { v with toLeft := r } f.recipient e' s).Good)) :
    World.Good (World.put { w with toLeft := rest } f.recipient e' s) := by
  obtain ⟨v,hv,hg,-⟩ := hw f.tag
  obtain ⟨e1,hleft,-⟩ := hthis v _ hg (toLeft_view hv h)
  obtain ⟨hslot',htag1⟩ := (hv.left _ e1).mp hleft
  cases hslot.symm.trans hslot'
  have hlocal : Local w (World.put _ _ e' s) f.tag _ _ _ [f] :=
    local_put { w with toLeft := rest } hslot htag1 rfl rfl rfl h (forall_mem_singleton.mpr rfl) rfl
      (htag.trans htag1)
  refine hlocal.good hw (hw.frame_lt h) fun v r hv hg _ hr => ?_
  have hleft : v.left = some _ := (hv.left _ e).mpr ⟨hslot,htag1⟩
  obtain ⟨e2,hleft',hgood⟩ := hthis v r hg hr
  cases hleft.symm.trans hleft'
  exact ⟨.inr ⟨e,hleft⟩,hgood rfl⟩

lemma hear_good {k : Compat} (hw : w.Good) (h : w.toLeft = f :: rest)
    (hreq : ∀ r, f.msg ≠ .request r) (hopen : ∀ a b, f.msg ≠ .openRequest a b)
    (he : w.left.channelLookup f.recipient = some e)
    (hstep : World.hear k { w with toLeft := rest } f e = .ok w') : w'.Good := by
  obtain ⟨s,hs,hstep⟩ := bind_eq_ok.mp hstep
  have hslot := channelById_of_lookup he
  by_cases hin : f.msg.Inner
  · have hw' : World.put { w with toLeft := rest } f.recipient e s = w' := by
      split at hstep
      · next hm =>
        rw [hm] at hin
        exact hin.elim
      · cases hstep
        rfl
    rw [← hw']
    refine hw.heard h hslot rfl fun v r hg hr => ?_
    obtain ⟨e1,hleft,-⟩ := hg.found hr hin hreq
    exact ⟨e1,hleft,fun he => hg.hears hr hin (he ▸ hleft) hs⟩
  · cases hm : f.msg with
    | openRequest a b => exact absurd hm (hopen a b)
    | openFailure =>
      rw [hm] at hstep hs
      cases hstep
      refine hw.heard h hslot rfl fun v r hg hr => ?_
      obtain ⟨e1,hleft,-,hgood⟩ := hg.openFailure hr hm
      refine ⟨e1,hleft,?_⟩
      rintro rfl
      exact hgood s hs
    | openConfirmation window maxpacket =>
      rw [hm] at hstep hs
      cases hstep
      refine hw.heard h hslot rfl fun v r hg hr => ?_
      obtain ⟨e1,hleft,-,hgood⟩ := hg.openConfirmation hr hm
      refine ⟨e1,hleft,?_⟩
      rintro rfl
      exact hgood s hs
    | _ => rw [hm] at hin; exact absurd trivial hin

lemma input_good {answer : Option Admission} (hw : w.Good) (h : w.toLeft = f :: rest)
    (hstep : World.input p { w with toLeft := rest } f answer = .ok w') : w'.Good := by
  have hskip : f.msg.Inner → World.Good { w with toLeft := rest } := by
    intro hin
    have hnil : ∀ g ∈ ([] : List Frame), g.tag = f.tag := nofun
    have hgood := answer_good hw h hnil fun v r hg hr => by
      rw [append_nil]
      exact hg.drops hr hin
    rw [append_nil] at hgood
    exact hgood
  unfold World.input at hstep
  split at hstep
  · next hm => exact inputChannelOpen_good hw h hm hstep
  · next hm =>
    split at hstep
    · cases hstep
    · cases hstep
      exact hskip (by rw [hm]; trivial)
  · next hopen hreq =>
    split at hstep
    · next he => exact hear_good hw h hreq hopen he hstep
    · cases hm : f.msg with
      | windowAdjust n =>
        rw [hm] at hstep
        cases hstep
        exact hskip (by rw [hm]; trivial)
      | eow =>
        rw [hm] at hstep
        dsimp only at hstep
        split at hstep
        · cases hstep
        · cases hstep
          exact hskip (by rw [hm]; trivial)
      | _ =>
        rw [hm] at hstep
        cases hstep

lemma stepLeft_good {te : TableEvent} (hw : w.Good) (hopen : StaysOpen p.compat w.left te)
    (h : w.stepLeft p te = .ok w') : w'.Good := by
  cases te with
  | handle i le =>
    rw [stepLeft] at h
    split at h
    · cases h
      exact hw
    · next e he =>
      obtain ⟨s,hs,h⟩ := bind_eq_ok.mp h
      cases h
      have hopt : s ∈ (localStep p.compat le { e.side with sent := [] }).toOption := by
        rw [hs]
        rfl
      exact handle_good hw he (fun ht => hopen e he s hopt ht.peered ht.zombie) hs
  | listen type ctype rfd wfd window maxpack => exact listen_good hw h
  | opens a => exact opens_good hw h
  | release i =>
    rw [stepLeft] at h
    split at h
    · next e he =>
      split at h
      · next ht =>
        cases h
        exact release_good hw he ht
      · cases h
        exact hw
    · cases h
      exact hw
  | arrive answer =>
    rw [stepLeft] at h
    split at h
    · cases h
      exact hw
    · next f rest hlink => exact input_good hw hlink h

end World

/-- Events of either end that do not mark an open channel dead. -/
def KeepsOpen (pl pr : Program) (w : World) : WorldEvent → Prop
  | .left e => World.StaysOpen pl.compat w.left e
  | .right e => World.StaysOpen pr.compat w.right e

lemma worldStep_good {pl pr : Program} {w' : World} {e : WorldEvent} {o : Unit} (hw : w.Good)
    (he : KeepsOpen pl pr w e) (h : worldStep pl pr w e = .ok (o,w')) : w'.Good := by
  obtain ⟨w1,hw1,h⟩ := bind_eq_ok.mp h
  cases h
  cases e with
  | left e => exact World.stepLeft_good hw he hw1
  | right e =>
    obtain ⟨w2,hw2,hw1⟩ := bind_eq_ok.mp hw1
    cases hw1
    exact (World.stepLeft_good hw.swap he hw2).swap

/-- DATA, EXTENDED_DATA, EOF or CLOSE that arrives next finds the channel that it was sent for. -/
def Delivers (t : Table) (link : List Frame) : Prop :=
  ∀ f rest, link = f :: rest → f.msg.carriesData ∨ f.msg = .eof ∨ f.msg = .close →
    ∃ e, t.channelLookup f.recipient = some e ∧ e.tag = f.tag

lemma World.Good.delivers (hw : w.Good) : Delivers w.left w.toLeft := by
  intro f rest hlink hm
  refine hw.finds hlink ?_ fun r hr => ?_
  · rcases hm with hm | hm | hm
    · generalize f.msg = m at hm
      cases m with
      | data | extendedData => trivial
      | _ => exact hm.elim
    · rw [hm]
      trivial
    · rw [hm]
      trivial
  · rw [hr] at hm
    rcases hm with hm | hm | hm
    · exact hm
    · cases hm
    · cases hm

/-- However two ends open, use and close channels and reuse slots, no data, EOF or CLOSE arrives for
another channel than its own. -/
theorem worldRun_delivers {pl pr : Program} {w : World} {es : List WorldEvent} {os : List Unit}
    (hg : Guarded (worldStep pl pr) (KeepsOpen pl pr) .initial es)
    (hrun : run (worldStep pl pr) .initial es = .ok (os,w)) :
    Delivers w.left w.toLeft ∧ Delivers w.right w.toRight := by
  have hw : w.Good :=
    run_invariant (fun _ _ _ _ hw he hok => worldStep_good hw he hok) World.good_initial hg hrun
  exact ⟨hw.delivers,hw.swap.delivers⟩

def forwarding : List WorldEvent :=
  [.left (.opens ⟨"direct-tcpip",some 5,some 5,none,16,8,.ignore,false,false,none,false,
    false,none⟩),
    .right (.arrive (some ⟨.connecting,"direct-tcpip",some 6,some 6,none,16,8,.ignore,false,
      false⟩)),
    .right (.handle 0 (.post { Io.idle with wset := true, connect := .connected })),
    .left (.arrive none),.left (.handle 0 (.post { Io.idle with rset := true, rfd := .got [7] })),
    .left (.handle 0 .poll)]

theorem worldRun_delivers_data :
    ∃ w, run (worldStep ⟨⟨true,false⟩,false⟩ ⟨⟨true,false⟩,true⟩) .initial forwarding =
      .ok ([(),(),(),(),(),()],w) ∧ w.toRight.map Frame.msg = [.data [7]] ∧
      Delivers w.left w.toLeft ∧ Delivers w.right w.toRight := by
  obtain ⟨w,hrun,hdata⟩ : ∃ w, run (worldStep _ _) .initial forwarding =
      .ok _ ∧ w.toRight.map Frame.msg = [.data [7]] := ⟨_,rfl,rfl⟩
  refine ⟨w,hrun,hdata,worldRun_delivers ?_ hrun⟩
  refine .cons trivial rfl (.cons trivial rfl (.cons ?_ rfl (.cons trivial rfl (.cons ?_ rfl
    (.cons ?_ rfl trivial)))))
  all_goals
    unfold KeepsOpen World.StaysOpen
    decide +kernel

end PkixSsh.Channels
