import PkixSsh.Channels.MuxClients

/-!
# Clients of the multiplexer and each other's channels

A client changes its own channels only, unless it closes a channel by a number of the server that
belongs to another.
-/

namespace PkixSsh.Channels

open Sshbuf Machine Option Master BigEndian

/-- Channels have different addresses, and a proxy channel points to the client that it was opened
for. -/
structure Linked (m : Master) : Prop where
  formed : m.AllFormed False
  addr : ∀ i j e f, m.get i = some e → m.get j = some f → e.addr = f.addr → i = j
  client : ∀ j e t n, m.get j = some e → e.c.type = .muxProxy → e.origin = .proxied t n →
    ∃ i d, m.get i = some d ∧ d.c.type = .muxClient ∧ d.origin = .client t ∧ e.muxCtx = some d.addr

def Unlinked (m : Master) (addr : Nat) : Prop :=
  ∀ j e, m.get j = some e → e.c.type = .muxProxy → e.muxCtx ≠ some addr

section

variable {k : Compat} {m m' : Master} {e d : MuxChannel} {i j : Nat}

/-- A step that makes no channel: each is the same one as before, and a client that is one no
longer has no proxy channels left. -/
lemma Linked.follow (hm : Linked m) (hf : m'.AllFormed False)
    (hback : ∀ j e', m'.get j = some e' → ∃ e, m.get j = some e ∧ e'.addr = e.addr ∧
      e'.origin = e.origin ∧ (e'.c.type = .muxProxy → e.c.type = .muxProxy ∧ e'.muxCtx = e.muxCtx))
    (hclient : ∀ i d, m.get i = some d → d.c.type = .muxClient →
      (∃ d', m'.get i = some d' ∧ d'.c.type = .muxClient) ∨ Unlinked m' d.addr) : Linked m' := by
  refine ⟨hf,fun i j e f he hf haddr => ?_,fun j e t n he ht ho => ?_⟩
  · obtain ⟨e0,he0,hae,-⟩ := hback i e he
    obtain ⟨f0,hf0,haf,-⟩ := hback j f hf
    exact hm.addr i j e0 f0 he0 hf0 (hae.symm.trans (haddr.trans haf))
  · obtain ⟨e0,he0,-,hoe,hp⟩ := hback j e he
    obtain ⟨ht0,hctx⟩ := hp ht
    obtain ⟨i,d,hd,htd,hod,hlink⟩ := hm.client j e0 t n he0 ht0 (hoe.symm.trans ho)
    rcases hclient i d hd htd with ⟨d',hd',htd'⟩ | hun
    · obtain ⟨d0,hd0,had,hod',-⟩ := hback i d' hd'
      cases hd.symm.trans hd0
      exact ⟨i,d',hd',htd',hod'.trans hod,by rw [hctx,hlink,had]⟩
    · exact absurd (hctx.trans hlink) (hun j e he ht)

lemma Linked.modify {f : MuxChannel → MuxChannel} (hm : Linked m)
    (hf : (m.modify i f).AllFormed False)
    (hsame : ∀ e, m.get i = some e → (f e).addr = e.addr ∧ (f e).origin = e.origin ∧
      (f e).muxCtx = e.muxCtx ∧ ((f e).c.type = .muxProxy → e.c.type = .muxProxy))
    (hclient : ∀ e, m.get i = some e → e.c.type = .muxClient →
      (f e).c.type = .muxClient ∨ Unlinked (m.modify i f) e.addr) : Linked (m.modify i f) := by
  refine hm.follow hf (fun j e' he' => ?_) fun j d hd ht => ?_
  · by_cases hji : j = i
    · subst hji
      rw [get_modify,if_pos rfl] at he'
      obtain ⟨e,he,rfl⟩ := map_eq_some_iff.mp he'
      obtain ⟨ha,ho,hctx,hp⟩ := hsame e he
      exact ⟨e,he,ha,ho,fun ht => ⟨hp ht,hctx⟩⟩
    · rw [get_modify_of_ne hji] at he'
      exact ⟨e',he',rfl,rfl,fun ht => ⟨ht,rfl⟩⟩
  · by_cases hji : j = i
    · subst hji
      exact (hclient d hd ht).imp_left fun h => ⟨f d,get_modify_self hd f,h⟩
    · exact .inl ⟨d,(get_modify_of_ne hji).trans hd,ht⟩

lemma Linked.channelFree (hm : Linked m) : Linked (m.channelFree i).2 := by
  have hf : (m.channelFree i).2.AllFormed False := hm.formed.channelFree fun h => h.elim
  cases hi : m.get i with
  | none =>
    unfold Master.channelFree
    rw [hi]
    exact hm
  | some c =>
    have hdetach : ∀ e, (detach c.addr e).addr = e.addr ∧
        (detach c.addr e).origin = e.origin ∧ ((detach c.addr e).c.type = .muxProxy →
          e.c.type = .muxProxy ∧ (detach c.addr e).muxCtx = e.muxCtx ∧
            e.muxCtx ≠ some c.addr) ∧
        (e.c.type = .muxClient → detach c.addr e = e) := by
      intro e
      unfold Channels.detach
      split
      · next h => exact ⟨rfl,rfl,nofun,fun ht => absurd (h.1.symm.trans ht) (by decide)⟩
      · next h => exact ⟨rfl,rfl,fun ht => ⟨ht,rfl,fun hctx => h ⟨ht,hctx⟩⟩,fun _ => rfl⟩
    refine hm.follow hf (fun j e' he' => ?_) fun j d hd ht => ?_
    · rw [get_channelFree hi] at he'
      split at he'
      · cases he'
      obtain ⟨e,he,rfl⟩ := map_eq_some_iff.mp he'
      split
      · obtain ⟨ha,ho,hp,-⟩ := hdetach e
        exact ⟨e,he,ha,ho,fun ht => ⟨(hp ht).1,(hp ht).2.1⟩⟩
      · exact ⟨e,he,rfl,rfl,fun ht => ⟨ht,rfl⟩⟩
    · by_cases hji : j = i
      · subst hji
        cases hi.symm.trans hd
        refine .inr fun l e' he' ht' => ?_
        rw [get_channelFree hi] at he'
        split at he'
        · cases he'
        obtain ⟨e,he,rfl⟩ := map_eq_some_iff.mp he'
        obtain ⟨-,-,hp,-⟩ := hdetach e
        rw [(hp ht').2.1]
        exact (hp ht').2.2
      · refine .inl ⟨d,?_,ht⟩
        rw [get_channelFree hi,if_neg hji,hd]
        split
        · exact congrArg some ((hdetach d).2.2.2 ht)
        · rfl

lemma Linked.channelNew (hm : Linked m) (hf : m'.AllFormed False)
    (hproxy : e.c.type = .muxProxy → ∀ t n, e.origin = .proxied t n →
      ∃ i d, m.get i = some d ∧ d.c.type = .muxClient ∧ d.origin = .client t ∧
        e.muxCtx = some d.addr) (h : m.channelNew e = .ok (i,m')) : Linked m' := by
  obtain ⟨hnone,-,hget⟩ := get_channelNew h
  have hold : ∀ {j f}, m.get j = some f → m'.get j = some f := by
    intro j f hf
    have hne : j ≠ i := by
      rintro rfl
      rw [hnone] at hf
      cases hf
    rw [hget,if_neg hne,hf]
  refine ⟨hf,fun a b f g hf hg haddr => ?_,fun j f t n hf ht ho => ?_⟩
  · rw [hget] at hf hg
    split at hf
    · next ha =>
      split at hg
      · next hb => rw [ha,hb]
      · cases hf
        exact absurd haddr.symm (xcalloc_ne hg _)
    · split at hg
      · cases hg
        exact absurd haddr (xcalloc_ne hf _)
      · exact hm.addr a b f g hf hg haddr
  · rw [hget] at hf
    split at hf
    · cases hf
      obtain ⟨i,d,hd,hrest⟩ := hproxy ht t n ho
      exact ⟨i,d,hold hd,hrest⟩
    · obtain ⟨i,d,hd,hrest⟩ := hm.client j f t n hf ht ho
      exact ⟨i,d,hold hd,hrest⟩

variable {addr : Nat} {type : UInt8} {ok : Bool} {outs : List Out} {c : Channel}

lemma Linked.move (hm : Linked m) (h : Move m m') : Linked m' := by
  induction h with
  | same h =>
    refine hm.follow (hm.formed.move (.same h)) (fun j e he => ?_) fun i d hd ht => ?_
    · exact ⟨e,(h j).symm.trans he,rfl,rfl,fun ht => ⟨ht,rfl⟩⟩
    · exact .inl ⟨d,(h i).trans hd,ht⟩
  | modify h =>
    refine hm.modify (hm.formed.move (.modify h)) (fun e he => ?_) fun e he ht => ?_
    · exact ⟨(h e he).addr,(h e he).origin,(h e he).muxCtx,(h e he).proxy⟩
    · exact .inl ((h e he).client ht)
  | free h => exact hm.channelFree
  | new h hf hlink => exact hm.channelNew (hm.formed.move (.new h hf hlink)) hlink h
  | trans _ _ ih ih' => exact ih' (ih hm)

lemma Dies.zombie (h : Dies i addr m m') : ∃ d, m'.get i = some d ∧ d.c.type = .zombie := by
  obtain ⟨hd,-,-,hf,hz,-⟩ := h
  refine ⟨_,get_modify_self hd _,?_⟩
  rw [hf]
  exact hz

lemma Linked.dies (hm : Linked m) (h : Dies i addr m m') (hun : Unlinked m' addr) :
    Linked m' := by
  have hformed := hm.formed.dies h
  obtain ⟨hd,ht,ha,hf,hz,hid⟩ := h
  refine hm.modify hformed (fun e he => ?_) fun e he _ => ?_
  · cases hd.symm.trans he
    rw [hf]
    refine ⟨rfl,rfl,rfl,fun hp => ?_⟩
    rw [hz] at hp
    cases hp
  · cases hd.symm.trans he
    rw [ha]
    exact .inr hun

/-- The condition on a step: no client is marked dead that still has proxy channels. -/
def Abandons (m m' : Master) : Prop :=
  ∃ i d d', m.get i = some d ∧ d.c.type = .muxClient ∧ m'.get i = some d' ∧
    d'.c.type = .zombie ∧ ¬ Unlinked m' d.addr

lemma channelProxyUpstream_delivers (type : UInt8) (payload : Bytes) (hm : Linked m)
    (hj : m.get j = some e) (ht : e.c.type = .muxProxy) :
    ∃ t i d, e.origin = .proxied t e.muxDownstreamId ∧ m.get i = some d ∧
      d.c.type = .muxClient ∧ d.origin = .client t ∧
      channelProxyUpstream m j e type payload = if type ∈ upstreamTypes then
        .ok (upstreamState (m.on i (deliver (upstreamMessage type e.muxDownstreamId payload))) j
          type payload) else .ok ([],m) := by
  obtain ⟨⟨t,ho⟩,-⟩ := (hm.formed j e hj).proxied ht
  obtain ⟨i,d,hd,htd,hod,hctx⟩ := hm.client j e t _ hj ht ho
  refine ⟨t,i,d,ho,hd,htd,hod,?_⟩
  have hderef : m.deref d.addr = some i := by
    obtain ⟨l,hl⟩ := Slots.find?_of_get (p := fun f => f.addr = d.addr) hd (by simp)
    obtain ⟨f,hf,haddr⟩ := Slots.get_of_find? hl
    rw [hm.addr i l d f hd hf (of_decide_eq_true haddr).symm]
    exact hl
  unfold channelProxyUpstream
  rw [hctx]
  dsimp only
  by_cases hmem : type ∈ upstreamTypes
  · rw [if_neg (not_not.mpr hmem),if_pos hmem,hderef]
  · rw [if_pos hmem,if_neg hmem]

variable {ev : MasterEvent}

lemma step_linked (hm : Linked m) (hstay : ¬ Abandons m m')
    (h : m.step k ev = .ok (outs,m')) : Linked m' := by
  cases step_change hm.formed h with
  | move h => exact hm.move h
  | dies hd ht hmove h =>
    refine (hm.move hmove).dies h ?_
    by_contra hlink
    obtain ⟨d',hd',hz⟩ := h.zombie
    exact hstay ⟨_,_,d',hd,ht,hd',hz,hlink⟩
  | freed => exact hm.channelFree

end

def Untouched (owner : Option Nat) (m m' : Master) : Prop :=
  ∀ j e, m.get j = some e → e.origin.owner ≠ owner → m'.get j = some e

/-- The channel that the client in slot `i` closes with the message that it sends now. -/
def closeTarget (m : Master) (d : MuxChannel) (header body : Read) : Option Nat :=
  match muxClientInput header body d.c with
  | .ok (true,c) =>
    match getString c.input with
    | .ok (_ :: type :: cp,_) => if type = msgChannelClose then named m cp else none
    | _ => none
  | _ => none

/-- Nothing is delivered, or the message to the client that had the channel opened, under the
client's own number. -/
def DeliversTo (m m' : Master) (j : Nat) (type : UInt8) (payload : Bytes) : Prop :=
  ∀ i x x', m.get i = some x → m'.get i = some x' → x'.c.output = x.c.output ∨
    ∃ e t n, m.get j = some e ∧ e.origin = .proxied t n ∧ x.origin = .client t ∧
      x'.c = deliver (upstreamMessage type n payload) x.c

section

variable {k : Compat} {m m' : Master} {e d : MuxChannel} {i j : Nat}

lemma named_modify {f : MuxChannel → MuxChannel} (cp : Bytes)
    (hf : ∀ e, m.get i = some e → (f e).c.haveRemoteId = e.c.haveRemoteId ∧
      (f e).remoteId = e.remoteId) : named (m.modify i f) cp = named m cp := by
  unfold named
  split
  · rfl
  · refine Slots.find?_modify fun e he => ?_
    obtain ⟨hid,hr⟩ := hf e he
    rw [hid,hr]

lemma channelPostMuxClientRead_untouched {addr : Nat} {header body : Read} {outs : List Out}
    (hm : Linked m) (hd : m.get i = some d) (ht : d.c.type = .muxClient)
    (hown : ∀ j e, closeTarget m d header body = some j → m.get j = some e →
      e.origin.owner = d.origin.owner)
    (h : channelPostMuxClientRead m addr i d header body = .ok (outs,m')) :
    Untouched d.origin.owner m m' := by
  intro j e he howner
  have hji : j ≠ i := by
    rintro rfl
    cases hd.symm.trans he
    exact howner rfl
  unfold channelPostMuxClientRead at h
  split at h
  · cases h
    exact he
  split at h
  · cases h
    exact he
  obtain ⟨⟨complete,c⟩,hc,h⟩ := bind_eq_ok.mp h
  have hc := orStop_ok hc
  have hkept := muxClientInput_kept hc
  have hput : (m.put i { d with c }).get j = some e := (get_modify_of_ne hji).trans he
  dsimp only at h
  split at h
  · cases h
    exact hput
  next hcomplete =>
  have hcomplete : complete = true := not_not.mp hcomplete
  subst hcomplete
  obtain ⟨⟨ok,outs1,m1⟩,hm1,h⟩ := bind_eq_ok.mp h
  have hdown : m1.get j = some e := by
    unfold channelProxyDownstream at hm1
    split at hm1
    · cases hm1
      exact hput
    next msg input hmsg =>
    have hon : Move m ((m.put i _).on i fun c => { c with input }) :=
      (Move.put hd (.keep ht hkept)).trans (.modify fun _ _ => .of_shape rfl)
    have hj : ((m.put i _).on i fun c => { c with input }).get j = some e :=
      (get_modify_of_ne hji).trans hput
    split at hm1
    · next pad type cp =>
      refine proxyMessage_get (hm.formed.move hon) hj (fun hclose hname => howner ?_) hm1
      refine hown j e ?_ he
      have hread : named (m.put i { d with c }) cp = named m cp := by
        refine named_modify cp fun f hf => ?_
        cases hd.symm.trans hf
        exact ⟨hkept.2,rfl⟩
      have hconsume : named ((m.put i { d with c }).on i fun c => { c with input }) cp =
          named (m.put i { d with c }) cp := by
        refine named_modify cp fun _ _ => ?_
        exact ⟨rfl,rfl⟩
      unfold closeTarget
      rw [hc]
      dsimp only
      rw [hmsg]
      dsimp only
      rw [if_pos hclose,← hread,← hconsume,hname]
    · cases hm1
      exact hj
  cases h
  split
  · exact hdown
  · exact (get_modify_of_ne hji).trans hdown

variable {type : UInt8} {payload : Bytes}

lemma upstreamState_get_of_ne (hj : m.get j = some e) (ht : e.c.type = .muxProxy) (hij : i ≠ j) :
    (upstreamState m j type payload).2.get i = m.get i := by
  unfold upstreamState
  split
  · split
    · exact get_modify_of_ne hij
    · rfl
  split
  · split
    · exact get_channelFree_of_ne hj (by rw [ht]; decide) hij
    · exact get_modify_of_ne hij
  · rfl

lemma upstreamState_output {e' : MuxChannel} (hj : m.get j = some e)
    (he' : (upstreamState m j type payload).2.get j = some e') : e'.c.output = e.c.output := by
  have hsame : m.get j = some e' → e'.c.output = e.c.output := by
    intro h
    cases hj.symm.trans h
    rfl
  unfold upstreamState at he'
  split at he'
  · split at he'
    · cases (get_modify_self hj _).symm.trans he'
      rfl
    · exact hsame he'
  split at he'
  · split at he'
    · rw [get_channelFree hj,if_pos rfl] at he'
      cases he'
    · cases (get_on_self hj _).symm.trans he'
      rfl
  · exact hsame he'

lemma step_upstream_delivers {outs : List Out} (hm : Linked m)
    (h : m.step k (.upstream j type payload) = .ok (outs,m')) : DeliversTo m m' j type payload := by
  have hsame : DeliversTo m m j type payload := by
    intro i x x' hx hx'
    cases hx.symm.trans hx'
    exact .inl rfl
  obtain rfl | ⟨e,he,ht,h⟩ := slot_ok h
  · exact hsame
  obtain ⟨t,i,d,ho,hd,htd,hod,hup⟩ := channelProxyUpstream_delivers type _ hm he ht
  rw [hup] at h
  split at h
  · have hji : j ≠ i := by
      rintro rfl
      cases he.symm.trans hd
      exact absurd (ht.symm.trans htd) (by decide)
    have he' : (m.on i (deliver (upstreamMessage type e.muxDownstreamId payload))).get j =
        some e := (get_modify_of_ne hji).trans he
    intro l x x' hx hx'
    simp only [Except.ok.injEq] at h
    rw [show m' = (outs,m').2 from rfl,← h] at hx'
    by_cases hlj : l = j
    · subst hlj
      cases he.symm.trans hx
      exact .inl (upstreamState_output he' hx')
    rw [upstreamState_get_of_ne he' ht hlj] at hx'
    by_cases hli : l = i
    · subst hli
      cases hd.symm.trans hx
      cases (get_on_self hd _).symm.trans hx'
      exact .inr ⟨e,t,_,he,ho,hod,rfl⟩
    · cases ((get_modify_of_ne hli).symm.trans hx').symm.trans hx
      exact .inl rfl
  · cases h
    exact hsame

end

/-- The conditions on an event: a client closes channels of its own only, and no client is marked
dead that still has proxy channels. -/
def Separate (k : Compat) (m : Master) (ev : MasterEvent) : Prop :=
  (∀ i addr header body d, ev = .read i addr header body → m.get i = some d →
    ∀ j e, closeTarget m d header body = some j → m.get j = some e →
      e.origin.owner = d.origin.owner) ∧
  ∀ outs m', m.step k ev = .ok (outs,m') → ¬ Abandons m m'

/-- What a client sends does not touch the channels of others, and what the server sends reaches the
client that had the channel opened. -/
structure Isolates (k : Compat) (m : Master) (ev : MasterEvent) : Prop where
  downstream : ∀ i addr header body d outs m', ev = .read i addr header body → m.get i = some d →
    m.step k ev = .ok (outs,m') → Untouched d.origin.owner m m'
  upstream : ∀ j type payload outs m', ev = .upstream j type payload →
    m.step k ev = .ok (outs,m') → DeliversTo m m' j type payload
  live : ∀ j type payload, ev = .upstream j type payload → m.step k ev ≠ .error .dangling

variable {m : Master}

lemma Master.Initial.linked (hm : m.Initial) : Linked m := by
  refine ⟨hm.allFormed False,hm.addr,fun j e t n he ht => ?_⟩
  exact absurd (.inr ht) (hm.own j e he).2

lemma Linked.isolates {k : Compat} (hm : Linked m) (hsep : Separate k m ev) :
    Isolates k m ev := by
  refine ⟨fun i addr header body d outs m' hev hd h => ?_,fun j type payload outs m' hev h => ?_,
    fun j type payload hev h => ?_⟩
  · subst hev
    obtain rfl | ⟨d',hd',ht,h⟩ := slot_ok h
    · exact fun j e he _ => he
    · cases hd.symm.trans hd'
      exact channelPostMuxClientRead_untouched hm hd ht (hsep.1 i addr _ body d rfl hd) h
  · subst hev
    exact step_upstream_delivers hm h
  · subst hev
    unfold step at h
    dsimp only at h
    split at h
    · next e he =>
      split at h
      · next ht =>
        obtain ⟨t,i,d,-,-,-,-,hup⟩ := channelProxyUpstream_delivers type _ hm he ht
        rw [hup] at h
        split at h <;> cases h
      · cases h
    · cases h

/-- In every run in which clients close channels of their own only, and none is marked dead with
proxy channels, every step keeps the clients apart. -/
theorem masterRun_isolates {k : Compat} {m m' : Master} {es : List MasterEvent}
    {ev : MasterEvent} {os : List (List Out)} (hm : m.Initial)
    (hg : Guarded (step k) (Separate k) m (es ++ [ev]))
    (hrun : run (step k) m es = .ok (os,m')) : Isolates k m' ev := by
  obtain ⟨hbefore,hlast⟩ := guarded_append.mp hg
  have hlinked : Linked m' := run_invariant
    (fun _ _ _ _ hI hP hok => step_linked hI (hP.2 _ _ hok) hok) hm.linked hbefore hrun
  exact hlinked.isolates (hlast os m' hrun).1

def opensOther : MasterEvent :=
  sends 1 200 msgChannelOpen (framed (cstr "session") ++ encode 4 5 ++
    encode 4 1000 ++ encode 4 100)

def twoClients : List MasterEvent :=
  [.accept 100 7 0 0,.accept 101 8 0 0,opensOther,
    .upstream 2 msgChannelOpenConfirmation (encode 4 9 ++ encode 4 1000 ++
      encode 4 100)]

lemma separate_of_step {k : Compat} {m' : Master} {outs : List Out}
    (hclose : ∀ i addr header body d, ev = .read i addr header body → m.get i = some d → ∀ j e,
      closeTarget m d header body = some j → m.get j = some e → e.origin.owner = d.origin.owner)
    (hstep : m.step k ev = .ok (outs,m'))
    (hz : ∀ o ∈ m'.channels, o.all fun f => f.c.type ≠ .zombie) : Separate k m ev := by
  refine ⟨hclose,fun outs1 m1 hstep1 => ?_⟩
  cases hstep.symm.trans hstep1
  rintro ⟨i,d,d',-,-,hd',hzombie,-⟩
  have hall := hz _ (mem_channels hd')
  simp [hzombie] at hall

/-- The other client opens its session, which does not touch the first one. -/
theorem masterRun_isolates_open : ∃ os m' d outs m'', run (step plainCompat) ⟨[],[],0⟩
        [.accept 100 7 0 0,.accept 101 8 0 0] = .ok (os,m') ∧ m'.get 1 = some d ∧
      m'.step plainCompat opensOther = .ok (outs,m'') ∧ Untouched d.origin.owner m' m'' := by
  have hg : Guarded (step plainCompat) (Separate plainCompat) ⟨[],[],0⟩
      ([.accept 100 7 0 0,.accept 101 8 0 0] ++ [opensOther]) := by
    refine .cons (separate_of_step (fun _ _ _ _ _ h => by cases h) rfl (by decide)) rfl
      (.cons (separate_of_step (fun _ _ _ _ _ h => by cases h) rfl (by decide)) rfl
        ⟨separate_of_step ?_ rfl (by decide +kernel),fun _ _ _ => trivial⟩)
    rintro i addr header body d ⟨⟩ hd j e hj
    cases hd
    cases hj
  refine ⟨_,_,_,_,_,rfl,rfl,rfl,?_⟩
  exact (masterRun_isolates (initial_empty [] 0) hg rfl).downstream _ _ _ _ _ _ _ rfl rfl rfl

/-- The first client closes the session of the other by its number at the server. -/
theorem masterRun_closes_other :
    ∃ os m' d e outs m'' e'', run (step plainCompat) ⟨[],[],0⟩ twoClients = .ok (os,m') ∧
      m'.get 0 = some d ∧ d.origin = .client 0 ∧ m'.get 2 = some e ∧ e.origin = .proxied 1 5 ∧
      e.c.closeSent = false ∧
      m'.step plainCompat (sends 0 300 msgChannelClose (encode 4 9)) =
        .ok (outs,m'') ∧ m''.get 2 = some e'' ∧ e''.c.closeSent = true :=
  ⟨_,_,_,_,_,_,_,rfl,rfl,rfl,rfl,rfl,rfl,rfl,rfl,rfl⟩

end PkixSsh.Channels
