import PkixSsh.Channels.Halves

/-!
# A channel ends once

At most one EOF and one CLOSE are sent, no data behind EOF, and nothing of the open channel behind
CLOSE.
-/

namespace PkixSsh.Channels

open Sshbuf Machine List Option Wire Side Halves

section

variable {k : Compat} {con : Console} {io : Io} {s s' : Side}

/-- Orderly from a channel of a plain type. -/
def Keeps (s s' : Side) : Prop := s.halves.Ordered → Plain s.c.type → Orderly s s'

namespace Keeps

variable {s'' : Side}

lemma trans (h : Keeps s s') (h' : Keeps s' s'') : Keeps s s'' := by
  intro hs hp
  have h1 := h hs hp
  exact h1.trans (h' h1.ordered (h1.plain hp))

lemma same (hh : s'.halves = s.halves) (hsent : s'.sent = s.sent) : Keeps s s' :=
  fun hs _ => .same hs hh hsent

lemma refl (s : Side) : Keeps s s := .same rfl rfl

lemma retype {t : ChannelType} (ht : Plain t) (hq : Peered t)
    (hh : s'.halves = { s.halves with type := t }) (hsent : s'.sent = s.sent) : Keeps s s' :=
  fun hs _ => .retype hs ht (fun _ => hq) hh hsent

lemma callIf {p : Prop} [Decidable p] {f : Side → Except Stop Side}
    (hf : p → f s = .ok s' → Keeps s s') (h : s.callIf p f = .ok s') : Keeps s s' := by
  unfold Side.callIf at h
  split at h
  · next hp => exact hf hp h
  · cases h
    exact refl s

end Keeps

lemma putInput_keeps {v : Bytes} (h : s.putInput v = .ok s') : Keeps s s' := by
  obtain ⟨b,-,h⟩ := bind_eq_ok.mp h
  cases h
  exact .same rfl rfl

lemma putOutput_keeps {v : Bytes} (h : s.putOutput v = .ok s') : Keeps s s' := by
  obtain ⟨b,-,h⟩ := bind_eq_ok.mp h
  cases h
  exact .same rfl rfl

lemma putExtended_keeps {v : Bytes} (h : s.putExtended v = .ok s') : Keeps s s' := by
  obtain ⟨b,-,h⟩ := bind_eq_ok.mp h
  cases h
  exact .same rfl rfl

lemma chanReadFailed_keeps (s : Side) : Keeps s (s.on chanReadFailed) :=
  fun hs hp => chanReadFailed_orderly hs hp.1

lemma chanWriteFailed_keeps (h : chanWriteFailed k s = .ok s') : Keeps s s' :=
  fun hs hp => chanWriteFailed_orderly hs hp.1 h

lemma chanIbufEmpty_keeps (h : chanIbufEmpty s = .ok s') : Keeps s s' :=
  fun hs _ => chanIbufEmpty_orderly hs h

lemma Keeps.afterText {α : Type} {v : Bytes} {r : Side → Except Stop (α × Side)} {a : α}
    (hr : ∀ {t}, r t = .ok (a,s') → Keeps t s') (h : (do
      let t ← s.putExtended v
      r t) = .ok (a,s')) : Keeps s s' := by
  obtain ⟨s1,hs1,h⟩ := bind_eq_ok.mp h
  exact (putExtended_keeps hs1).trans (hr h)

lemma noescape_keeps {esc ch : UInt8} {e : Escaped} (h : noescape esc ch s = .ok (e,s')) :
    Keeps s s' := by
  refine .afterText (fun h => ?_) h
  cases h
  exact .refl _

lemma terminate_keeps {esc : UInt8} {e : Escaped} (h : terminate k esc s = .ok (e,s')) :
    Keeps s s' := by
  refine .afterText (fun {t} h => ?_) h
  split at h
  · obtain ⟨t1,ht1,h⟩ := bind_eq_ok.mp h
    obtain ⟨t2,ht2,h⟩ := bind_eq_ok.mp h
    cases h
    generalize hgone : (t1.on _) = t3 at ht2
    have hcancel : Keeps t1 t3 := by
      subst hgone
      exact fun hs hp => .onIf hs fun _ => .detach hs hp.2 rfl rfl
    have habandon : Keeps t3 (t3.on fun c => { c with type := .abandoned, input := [] }) :=
      .retype (t := .abandoned) (by decide) (by decide) rfl rfl
    exact ((((chanReadFailed_keeps t).trans (chanWriteFailed_keeps ht1)).trans hcancel).trans
      habandon).trans (chanIbufEmpty_keeps ht2)
  · cases h
    exact .refl _

lemma processEscape_keeps {esc ch : UInt8} {e : Escaped}
    (h : processEscape k con esc ch s = .ok (e,s')) : Keeps s s' := by
  unfold processEscape at h
  dsimp only at h
  split at h
  · exact terminate_keeps h
  · split at h
    · exact noescape_keeps h
    · refine .afterText (fun h => ?_) h
      cases h
      exact .same rfl rfl
  · refine .afterText (fun h => ?_) h
    obtain ⟨t1,ht1,h⟩ := bind_eq_ok.mp h
    cases h
    exact fun ht _ => .send (m := .request _) ht rfl trivial ht1
  · cases h
    exact .refl s
  · split at h
    · exact noescape_keeps h
    · refine .afterText (fun h => ?_) h
      cases h
      exact .refl _
  · split at h
    · exact noescape_keeps h
    · refine .afterText (fun h => ?_) h
      cases h
      exact .refl _
  · split at h
    · exact noescape_keeps h
    · refine .afterText (fun h => ?_) h
      split at h
      · obtain ⟨t1,ht1,h⟩ := bind_eq_ok.mp h
        cases h
        exact putInput_keeps ht1
      · cases h
        exact .refl _
  · refine .afterText (fun h => ?_) h
    cases h
    exact .refl _
  · refine .afterText (fun h => ?_) h
    refine .afterText (fun h => ?_) h
    cases h
    exact .refl _
  · split at h
    · exact noescape_keeps h
    · cases h
      exact .refl s
  · obtain ⟨s1,hs1,h⟩ := bind_eq_ok.mp h
    cases h
    exact .callIf (fun _ => putInput_keeps) hs1

lemma processEscapes_keeps {buf : Bytes} {lastWasCr stop : Bool}
    (h : processEscapes k con buf lastWasCr s = .ok (stop,s')) : Keeps s s' := by
  induction buf generalizing s lastWasCr with
  | nil =>
    cases h
    exact .refl _
  | cons ch rest ih =>
    have hput : ∀ {t : Side} {cr : Bool}, (do
        let t ← t.putInput [ch]
        processEscapes k con rest cr t) = .ok (stop,s') → Keeps t s' := by
      intro t cr h
      obtain ⟨t1,ht1,h⟩ := bind_eq_ok.mp h
      exact (putInput_keeps ht1).trans (ih h)
    rw [processEscapes] at h
    split at h
    · cases h
      exact .refl _
    next efc hefc =>
    split at h
    · obtain ⟨⟨e,s1⟩,hs1,h⟩ := bind_eq_ok.mp h
      have hclear : Keeps s
          (s.on fun c => { c with inputFilter := some { efc with escapePending := false } }) :=
        .same rfl rfl
      refine (hclear.trans (processEscape_keeps hs1)).trans ?_
      cases e with
      | next => exact ih h
      | ordinary => exact hput h
      | leave | stop =>
        cases h
        exact .refl _
    split at h
    · have hpend : Keeps s
          (s.on fun c => { c with inputFilter := some { efc with escapePending := true } }) :=
        .same rfl rfl
      exact hpend.trans (ih h)
    · exact hput h

lemma chanMarkDead_orderly (hs : s.halves.Ordered) : Orderly s (s.on chanMarkDead) :=
  .retype (t := .zombie) hs (by decide) (fun _ => by decide) rfl rfl

lemma channelPreOpen_orderly (hs : s.halves.Ordered) (ht : s.c.type ≠ .rdynamicOpen) :
    Orderly s (s.on channelPreOpen) := by
  exact .onIf hs fun _ => chanObufEmpty_orderly hs fun h => absurd h ht

lemma refuse_keeps (h : refuse k s = .ok s') : Keeps s s' := by
  obtain ⟨s1,hs1,h⟩ := bind_eq_ok.mp h
  have hinput : Keeps (s.on chanReadFailed)
      ((s.on _).on fun c => { c with input := [] }) := .same rfl rfl
  have houtput : Keeps s1 (s1.on fun c => { c with output := [] }) := .same rfl rfl
  exact ((((chanReadFailed_keeps s).trans hinput).trans (chanIbufEmpty_keeps hs1)).trans
    houtput).trans (chanWriteFailed_keeps h)

lemma channelPreX11Open_keeps {x : X11} (h : channelPreX11Open k x s = .ok s') : Keeps s s' := by
  unfold channelPreX11Open at h
  split at h
  · next output _ =>
    cases h
    have hopen : Keeps s (s.on fun c => { c with output, type := .opened }) :=
      .retype (t := .opened) (by decide) (by decide) rfl rfl
    exact hopen.trans fun hs _ => channelPreOpen_orderly hs (by simp [on])
  · exact refuse_keeps h
  · cases h
    exact .refl s

/-- A channel that the peer does not know yet may send what belongs to its opening. -/
lemma Orderly.opens {m : Msg} {t : ChannelType} (hs : s.halves.Ordered) (hq : ¬ Peered s.c.type)
    (ht : Plain t) (hm : s.halves.wire.next m = some s.halves.wire)
    (hh : s'.halves = { s.halves with type := t }) (hsent : s'.sent = s.sent ++ [m]) :
    Orderly s s' := by
  have htype : s'.c.type = t := congrArg type hh
  refine ⟨hh ▸ hs.setType ht.1 ht.2,fun w hw => ?_,fun _ => ?_,fun h => absurd h hq,
    fun h => absurd h hq,congrArg Halves.closeRcvd hh,congrArg Halves.isLocal hh,
    congrArg Halves.freed hh⟩
  · rw [hsent,foldlM_append,hw,hh]
    change s.halves.wire.next m >>= _ = _
    rw [hm]
    rfl
  · rw [htype]
    exact ht

lemma channelPreDynamic_orderly (hs : s.halves.Ordered) (ht : s.c.type = .dynamic)
    (h : channelPreDynamic s = .ok s') : Orderly s s' := by
  unfold channelPreDynamic at h
  split at h
  · cases h
    exact .refl hs
  generalize channelDecodeSocks _ _ = r at h
  obtain ⟨authdone,ret,input,reply⟩ := r
  obtain ⟨s1,hs1,h⟩ := bind_eq_ok.mp h
  have hinput : Orderly s (s.on fun c => { c with socks5Authdone := authdone, input }) :=
    .same hs rfl rfl
  have hreply :=
    hinput.trans (putOutput_keeps hs1 hinput.ordered (show Plain s.c.type by rw [ht]; decide))
  refine hreply.trans ?_
  cases ret with
  | bad =>
    cases h
    exact chanMarkDead_orderly hreply.ordered
  | more =>
    cases h
    exact .refl hreply.ordered
  | done =>
    cases h
    have ht1 : s1.c.type = .dynamic := by
      obtain ⟨b,-,hs1⟩ := bind_eq_ok.mp hs1
      cases hs1
      exact ht
    exact .opens (t := .opening) hreply.ordered (by rw [ht1]; decide) (by decide) rfl rfl rfl

lemma rdynamicClose_orderly (hs : s.halves.Ordered) (h : rdynamicClose k s = .ok s') :
    Orderly s s' := by
  have hopen : Orderly s (s.on fun c => { c with type := .opened }) :=
    .retype (t := .opened) hs (by decide) (fun _ => by decide) rfl rfl
  exact hopen.trans (refuse_keeps h hopen.ordered (show Plain .opened by decide))

lemma Halves.Ordered.wire_of_socks {h : Halves} (ho : h.Ordered) (ht : h.type = .rdynamicOpen)
    (hr : ¬ h.eofRcvd) : h.wire = ⟨false,false⟩ := by
  have he : ¬ h.eofSent := fun he => hr (ho.socks ht (.inr (.inl he)))
  have hc : ¬ h.closeSent := fun hc => hr (ho.socks ht (.inr (.inr (ho.close hc).2)))
  simp [wire,he,hc]

lemma orderly_data {v : Bytes} (hs : s.halves.Ordered) (hw : s.halves.wire = ⟨false,false⟩) :
    Orderly s (s.push (.data v)) :=
  .push hs (by rw [hw]; rfl) trivial

lemma channelBeforePrepareSelectRdynamic_orderly {sock : Option Nat} (hs : s.halves.Ordered)
    (ht : s.c.type = .rdynamicOpen) (h : channelBeforePrepareSelectRdynamic k sock s = .ok s') :
    Orderly s s' := by
  unfold channelBeforePrepareSelectRdynamic at h
  split at h
  · have hreset : Orderly s (s.on fun c => { c with output := [] }) := .same hs rfl rfl
    exact hreset.trans (rdynamicClose_orderly hreset.ordered h)
  next hrcvd =>
  split at h
  · cases h
    exact .refl hs
  generalize channelDecodeSocks _ _ = r at h
  obtain ⟨authdone,ret,output,reply⟩ := r
  obtain ⟨s1,hs1,h⟩ := bind_eq_ok.mp h
  have hreply : Orderly s s1 := by
    obtain rfl := putInput_ok hs1
    exact .same hs rfl rfl
  refine hreply.trans ?_
  cases ret with
  | bad => exact rdynamicClose_orderly hreply.ordered h
  | more =>
    have hwire : s1.halves.wire = ⟨false,false⟩ := by
      obtain rfl := putInput_ok hs1
      exact hs.wire_of_socks ht hrcvd
    dsimp only at h
    split at h
    · cases h
      exact (orderly_data hreply.ordered hwire).trans (.same hreply.ordered rfl rfl)
    · cases h
      exact .refl hreply.ordered
  | done =>
    cases sock with
    | none => exact rdynamicClose_orderly hreply.ordered h
    | some fd =>
      cases h
      exact .retype (t := .rdynamicFinish) hreply.ordered (by decide) (fun _ => by decide) rfl rfl

lemma readFail_keeps (s : Side) : Keeps s (s.on readFail) := by
  by_cases ht : s.c.type ≠ .opened
  · have he : s.on readFail = s.on chanMarkDead := by
      simp only [on,readFail,if_pos ht]
    rw [he]
    exact fun hs _ => chanMarkDead_orderly hs
  · have he : s.on readFail = s.on chanReadFailed := by
      simp only [on,readFail,if_neg ht]
    rw [he]
    exact chanReadFailed_keeps s

lemma channelHandleRfd_keeps (h : channelHandleRfd k io s = .ok s') : Keeps s s' := by
  rcases channelHandleRfd_cases h with ⟨b,rfl⟩ | rfl | ⟨buf,stop,t,-,-,ht,rfl⟩
  · exact .same rfl rfl
  · exact readFail_keeps s
  have hesc : Keeps s t := by
    unfold clientSimpleEscapeFilter at ht
    split at ht
    · cases ht
      exact .refl s
    · exact processEscapes_keeps ht
  cases stop
  · exact hesc
  · exact hesc.trans (chanReadFailed_keeps t)

lemma writeFail_keeps (h : writeFail k s = .ok s') : Keeps s s' := by
  unfold writeFail at h
  split at h
  · cases h
    exact fun hs _ => chanMarkDead_orderly hs
  · exact chanWriteFailed_keeps h

lemma channelHandleWfd_keeps (h : channelHandleWfd k io s = .ok s') : Keeps s s' := by
  have hset : ∀ output, Keeps s (s.on fun c => { c with output }) := fun _ => .same rfl rfl
  rcases channelHandleWfd_cases h with rfl | ⟨b,-,rfl⟩ | ⟨-,h⟩ | ⟨-,b,-,rfl | h⟩
  · exact .refl _
  · exact .same rfl rfl
  · exact writeFail_keeps h
  · exact hset b
  · exact (hset b).trans (writeFail_keeps h)

lemma channelHandleEfd_keeps (h : channelHandleEfd io s = .ok s') : Keeps s s' := by
  rcases channelHandleEfd_cases h with rfl | rfl | ⟨-,len,-,rfl⟩ | ⟨-,b,rfl⟩
  · exact .refl _
  all_goals exact .same rfl rfl

lemma channelCheckWindow_keeps (h : channelCheckWindow s = .ok s') : Keeps s s' := by
  unfold channelCheckWindow at h
  split at h
  · next hcond =>
    obtain ⟨-,hopen,-⟩ := hcond
    obtain ⟨s1,hs1,h⟩ := bind_eq_ok.mp h
    cases h
    have hnc : s.c.closeSent = false := Bool.eq_false_iff.mpr (not_or.mp hopen).1
    have hadjust : Keeps s s1 := fun hs _ =>
      .send (m := .windowAdjust _) hs
        (by simp [Wire.next,wire,halves,hnc]) trivial hs1
    exact hadjust.trans (.same rfl rfl)
  · cases h
    exact .refl s

lemma channelPostOpen_keeps (h : channelPostOpen k io s = .ok s') : Keeps s s' := by
  obtain ⟨s1,hs1,h⟩ := bind_eq_ok.mp h
  obtain ⟨s2,hs2,h⟩ := bind_eq_ok.mp h
  obtain ⟨s3,hs3,h⟩ := bind_eq_ok.mp h
  exact (((channelHandleRfd_keeps hs1).trans (channelHandleWfd_keeps hs2)).trans
    (channelHandleEfd_keeps hs3)).trans (channelCheckWindow_keeps h)

lemma channelPostConnecting_orderly (hs : s.halves.Ordered)
    (ht : s.c.type = .connecting ∨ s.c.type = .rdynamicFinish)
    (h : channelPostConnecting k io s = .ok s') : Orderly s s' := by
  unfold channelPostConnecting at h
  split at h
  · cases h
    exact .refl hs
  split at h
  · cases h
  dsimp only at h
  split at h
  · split at h
    · cases h
      exact .retype (t := .opened) hs (by decide) (fun _ => by decide) rfl rfl
    · next hn =>
      cases h
      have hc := ht.resolve_right hn
      exact .opens (t := .opened) hs (by rw [hc]; decide) (by decide) rfl rfl rfl
  · cases h
    exact .same hs rfl rfl
  · split at h
    · exact rdynamicClose_orderly hs h
    · next hn =>
      cases h
      have hc := ht.resolve_right hn
      exact .opens (t := .zombie) hs (by rw [hc]; decide) (by decide) rfl rfl rfl

lemma chanIbufEmpty_closeSent (h : chanIbufEmpty s = .ok s') :
    s'.c.closeSent = s.c.closeSent := by
  unfold chanIbufEmpty at h
  split at h
  · cases h
    rfl
  split at h
  · next hi =>
    obtain ⟨s1,hs1,h⟩ := bind_eq_ok.mp h
    cases h
    unfold callIf at hs1
    split at hs1
    · unfold chanSendEof2 at hs1
      rw [hi] at hs1
      obtain ⟨s2,hs2,hs1⟩ := bind_eq_ok.mp hs1
      cases hs1
      obtain rfl := send_ok hs2
      rfl
    · cases hs1
      rfl
  · cases h
    rfl

variable (hs : s.halves.Ordered)

include hs

lemma channelOutputPollInputOpen_orderly (hi : s.c.istate ≠ .closed)
    (h : channelOutputPollInputOpen s = .ok s') :
    Orderly s s' ∧ s'.c.closeSent = s.c.closeSent := by
  have hwire := hs.wire_of_istate hi
  unfold channelOutputPollInputOpen at h
  split at h
  · split at h
    · exact ⟨chanIbufEmpty_orderly hs h,chanIbufEmpty_closeSent h⟩
    · cases h
      exact ⟨.refl hs,rfl⟩
  split at h
  · cases h
  split at h
  · obtain ⟨⟨pkt,input⟩,-,h⟩ := bind_eq_ok.mp h
    have hset : Orderly s (s.on fun c => { c with input }) := .same hs rfl rfl
    dsimp only at h
    split at h
    · cases h
      exact ⟨hset,rfl⟩
    · cases h
      have hdata := orderly_data (v := pkt) hset.ordered hwire
      exact ⟨(hset.trans hdata).trans (.same hdata.ordered rfl rfl),rfl⟩
  · dsimp only at h
    split at h
    · cases h
      exact ⟨.refl hs,rfl⟩
    · cases h
      exact ⟨(orderly_data hs hwire).trans (.same hs rfl rfl),rfl⟩

lemma channelOutputPollExtendedRead_orderly
    (hwire : s.halves.wire = ⟨false,false⟩) (h : channelOutputPollExtendedRead s = .ok s') :
    Orderly s s' := by
  unfold channelOutputPollExtendedRead at h
  dsimp only at h
  split at h
  · cases h
    exact .refl hs
  · obtain ⟨s1,hs1,h⟩ := bind_eq_ok.mp h
    cases h
    have hsend : Orderly s s1 := .send (m := .extendedData _ _) hs (by rw [hwire]; rfl) trivial hs1
    exact hsend.trans (.same hsend.ordered rfl rfl)

lemma channelOutputPoll_orderly (h : channelOutputPoll s = .ok s') :
    Orderly s s' := by
  unfold channelOutputPoll at h
  split at h
  · cases h
    exact .refl hs
  split at h
  · cases h
    exact .refl hs
  next hnc =>
  obtain ⟨s1,hs1,h⟩ := bind_eq_ok.mp h
  have hinput : Orderly s s1 ∧ s1.c.closeSent = s.c.closeSent := by
    unfold callIf at hs1
    split at hs1
    · next hi =>
      refine channelOutputPollInputOpen_orderly hs ?_ hs1
      rcases hi with hi | hi
      · rw [hi]
        decide
      · rw [hi]
        decide
    · cases hs1
      exact ⟨.refl hs,rfl⟩
  refine hinput.1.trans (.callIf hinput.1.ordered (fun hcond h => ?_) h)
  refine channelOutputPollExtendedRead_orderly hinput.1.ordered ?_ h
  have hc : s1.c.closeSent = false := by
    rw [hinput.2]
    exact Bool.eq_false_iff.mpr (not_or.mp hnc).1
  have he : s1.c.eofSent = false := Bool.eq_false_iff.mpr hcond.1
  simp [wire,halves,hc,he]

lemma channelSetFds_orderly {rfd wfd efd : Option Nat} {extusage : ExtendedUsage} {isTty : Bool}
    {windowMax : UInt32} (hf : s.freed = false)
    (h : channelSetFds rfd wfd efd extusage isTty windowMax s = .ok s') : Orderly s s' := by
  unfold channelSetFds at h
  split at h
  · cases h
  next ht =>
  have hnc := (hs.larval (not_not.mp ht) (by simp [halves,hf])).2.2
  have hopen : Orderly s (s.on fun c =>
      { channelRegisterFds rfd wfd efd extusage isTty c with
        type := .opened, localWindow := windowMax, localWindowMax := windowMax }) :=
    .retype (t := .opened) hs (by decide) (fun _ => by decide) rfl rfl
  refine hopen.trans (.send (m := .windowAdjust _) hopen.ordered ?_ trivial h)
  have hnc' : s.c.closeSent = false := Bool.eq_false_iff.mpr hnc
  simp [Wire.next,wire,halves,on,channelRegisterFds,hnc']

lemma sessionExitMessage_orderly {rtype : String}
    (h : sessionExitMessage k rtype s = .ok s') : Orderly s s' := by
  unfold sessionExitMessage at h
  split at h
  · cases h
    exact .refl hs
  next ht =>
  obtain ⟨s1,hs1,h⟩ := bind_eq_ok.mp h
  have hsend : Keeps s s1 := fun hs _ => .send (m := .request rtype) hs rfl trivial hs1
  have hdetach : Keeps s1 (s1.on fun c => { c with detachUser := true, detachClose := true }) :=
    fun hs hp => .detach hs hp.2 rfl rfl
  exact ((hsend.trans hdetach).trans (.callIf (fun _ => chanWriteFailed_keeps) h)) hs
    (not_not.mp ht ▸ by decide)

omit hs

lemma plain_of_open {t : ChannelType} (hp : Plain t)
    (ht : ¬ (s.c.type ≠ .opened ∧ s.c.type ≠ t)) : Plain s.c.type := by
  rcases or_iff_not_and_not.mpr ht with ht | ht
  · rw [ht]
    decide
  · rw [ht]
    exact hp

variable (hs : s.halves.Ordered)

include hs

lemma muxMasterControlCleanupCb_orderly
    (h : muxMasterControlCleanupCb k s = .ok s') : Orderly s s' := by
  have hctl : Orderly s (s.on fun c => { c with ctlChan := none }) := .same hs rfl rfl
  unfold muxMasterControlCleanupCb at h
  split at h
  · cases h
    exact .refl hs
  dsimp only at h
  split at h
  · cases h
    exact hctl.trans (chanMarkDead_orderly hctl.ordered)
  next ht =>
  generalize hread : ((s.on _).on _) = t at h
  have ht' : Keeps (s.on fun c => { c with ctlChan := none }) t := by
    subst hread
    exact fun hs hp => .onIf hs fun _ => chanReadFailed_keeps _ hs hp
  exact hctl.trans ((ht'.trans (.callIf (fun _ => chanWriteFailed_keeps) h)) hctl.ordered
    (plain_of_open (by decide) ht))

lemma clientStatusConfirm_orderly {logged confirmClose : Bool} {errmsg : Bytes}
    (h : clientStatusConfirm k logged errmsg confirmClose s = .ok s') :
    Orderly s s' := by
  unfold clientStatusConfirm at h
  split at h
  · cases h
    exact .refl hs
  next ht =>
  obtain ⟨s1,hs1,h⟩ := bind_eq_ok.mp h
  have htext : Keeps s s1 := .callIf (fun _ => putExtended_keeps) hs1
  refine (htext.trans (.callIf (fun _ h => ?_) h)) hs (plain_of_open (by decide) ht)
  exact (chanReadFailed_keeps s1).trans (chanWriteFailed_keeps h)

lemma localStep_stepped {e : LocalEvent} (hf : s.freed = false)
    (h : localStep k e s = .ok s') : Stepped s s' := by
  cases e with
  | beforeSelect sock =>
    rw [localStep] at h
    split at h
    · next ht => exact (channelBeforePrepareSelectRdynamic_orderly hs ht h).stepped
    · cases h
      exact (Orderly.refl hs).stepped
  | pre x =>
    rw [localStep] at h
    split at h
    · next ht =>
      cases h
      exact (channelPreOpen_orderly hs (by rw [ht]; decide)).stepped
    · next ht => exact (channelPreX11Open_keeps h hs (by rw [ht]; decide)).stepped
    · next ht => exact (channelPreDynamic_orderly hs ht h).stepped
    · cases h
      exact (Orderly.refl hs).stepped
  | post io =>
    rw [localStep] at h
    split at h
    · next ht => exact (channelPostOpen_keeps h hs (by rw [ht]; decide)).stepped
    · next ht => exact (channelPostOpen_keeps h hs (by rw [ht]; decide)).stepped
    · next ht => exact (channelPostConnecting_orderly hs (.inl ht) h).stepped
    · next ht => exact (channelPostConnecting_orderly hs (.inr ht) h).stepped
    · cases h
      exact (Orderly.refl hs).stepped
  | collect detaches => exact channelGarbageCollect_stepped hs hf h
  | poll => exact (channelOutputPoll_orderly hs h).stepped
  | setFds rfd wfd efd extusage isTty windowMax => exact (channelSetFds_orderly hs hf h).stepped
  | sessionExit rtype => exact (sessionExitMessage_orderly hs h).stepped
  | controlClosed => exact (muxMasterControlCleanupCb_orderly hs h).stepped
  | requestFailed logged errmsg confirmClose => exact (clientStatusConfirm_orderly hs h).stepped

lemma channelInputIeof_orderly (h : channelInputIeof s = .ok s') :
    Orderly s s' := by
  have hrcvd := chanRcvdIeof_orderly hs
  unfold channelInputIeof at h
  dsimp only at h
  split at h
  · next hforce =>
    have hdrain : Orderly (s.on chanRcvdIeof)
        ((s.on chanRcvdIeof).on fun c => { id c with istate := .waitDrain }) := by
      refine orderly_istate hrcvd.ordered rfl ?_ fun _ _ => eofRcvd_chanRcvdIeof s
      rw [hforce.2]
      rintro ⟨⟩
    have hboth := hrcvd.trans hdrain
    split at h
    · exact hboth.trans (chanIbufEmpty_orderly hboth.ordered h)
    · cases h
      exact hboth
  · cases h
    exact hrcvd

lemma receive_orderly {m : Msg} (hm : m ≠ .close)
    (h : receive k m s = .ok s') : Orderly s s' := by
  cases m with
  | openRequest | request =>
    cases h
    exact .refl hs
  | openConfirmation window maxpacket =>
    obtain ⟨-,h⟩ := ite_error_eq_ok.mp h
    cases h
    exact .retype (t := .opened) hs (by decide) (fun _ => by decide) rfl rfl
  | openFailure =>
    obtain ⟨-,h⟩ := ite_error_eq_ok.mp h
    cases h
    exact chanMarkDead_orderly hs
  | data v =>
    obtain ⟨w,n,b,rfl⟩ := channelInputData_frame h
    exact .same hs rfl rfl
  | extendedData tcode v =>
    obtain ⟨w,b,rfl⟩ := channelInputExtendedData_frame h
    exact .same hs rfl rfl
  | windowAdjust adjust =>
    obtain ⟨-,h⟩ := ite_error_eq_ok.mp h
    cases h
    exact .same hs rfl rfl
  | eof => exact channelInputIeof_orderly hs h
  | eow =>
    cases h
    exact chanRcvdEow_orderly hs
  | close => exact absurd rfl hm

lemma act_ordered {e : Event} (h : act k e s = .ok s') :
    s'.halves.Ordered ∧ ∀ w, s.sent.foldlM next w = some s.halves.wire →
      s'.sent.foldlM next w = some s'.halves.wire := by
  cases e with
  | here e =>
    rw [act] at h
    split at h
    · cases h
      exact ⟨hs,fun _ => id⟩
    · next hf =>
      have hstep := localStep_stepped hs (Bool.eq_false_iff.mpr hf) h
      exact ⟨hstep.ordered,hstep.trace⟩
  | peer m =>
    unfold act at h
    dsimp only at h
    split at h
    · split at h
      · cases h
        exact ⟨hs,fun _ => id⟩
      · cases h
    · by_cases hm : m = .close
      · subst hm
        have hclose := chanRcvdOclose_orderly hs h
        exact ⟨hclose.ordered,hclose.trace⟩
      · have hstep := receive_orderly hs hm h
        exact ⟨hstep.ordered,hstep.trace⟩

lemma sideStep_ordered {e : Event} {o : List Msg} (h : sideStep k s e = .ok (o,s')) :
    s'.halves.Ordered ∧ o.foldlM next s.halves.wire = some s'.halves.wire := by
  obtain ⟨s1,hs1,h⟩ := bind_eq_ok.mp h
  cases h
  obtain ⟨hord,htrace⟩ := act_ordered (s := { s with sent := [] }) hs hs1
  exact ⟨hord,htrace _ rfl⟩

end

def Msg.carriesData : Msg → Prop
  | .data _ | .extendedData _ _ => True
  | _ => False

namespace Wire

variable {w w' : Wire} {ms : List Msg}

lemma eof_of_next {m : Msg} (he : w.eof) (h : w.next m = some w') :
    w'.eof ∧ ¬ m.carriesData ∧ m ≠ .eof := by
  cases m with
  | data | extendedData | eof => simp [next,he] at h
  | eow | windowAdjust | close =>
    simp only [next,ite_none_left_eq_some,Option.some.injEq] at h
    obtain ⟨-,rfl⟩ := h
    exact ⟨he,id,by simp⟩
  | openRequest | openConfirmation | openFailure | request =>
    cases h
    exact ⟨he,id,by simp⟩

lemma close_of_next {m : Msg} (hc : w.close) (h : w.next m = some w') :
    w'.close ∧ ¬ m.carriesData ∧ m ≠ .eof ∧ m ≠ .eow ∧ (∀ n, m ≠ .windowAdjust n) ∧ m ≠ .close := by
  cases m with
  | data | extendedData | eof | eow | windowAdjust | close => simp [next,hc] at h
  | openRequest | openConfirmation | openFailure | request =>
    cases h
    exact ⟨hc,id,by simp⟩

lemma silent_of_eof (he : w.eof) (h : ms.foldlM next w = some w') :
    ∀ m ∈ ms, ¬ m.carriesData ∧ m ≠ .eof := by
  induction ms generalizing w with
  | nil => simp
  | cons m ms ih =>
    obtain ⟨w1,hw1,h⟩ := bind_eq_some_iff.mp ((foldlM_cons ..).symm.trans h)
    obtain ⟨he1,hm⟩ := eof_of_next he hw1
    exact forall_mem_cons.mpr ⟨hm,ih he1 h⟩

lemma silent_of_close (hc : w.close) (h : ms.foldlM next w = some w') :
    ∀ m ∈ ms, ¬ m.carriesData ∧ m ≠ .eof ∧ m ≠ .eow ∧ (∀ n, m ≠ .windowAdjust n) ∧ m ≠ .close := by
  induction ms generalizing w with
  | nil => simp
  | cons m ms ih =>
    obtain ⟨w1,hw1,h⟩ := bind_eq_some_iff.mp ((foldlM_cons ..).symm.trans h)
    obtain ⟨hc1,hm⟩ := close_of_next hc hw1
    exact forall_mem_cons.mpr ⟨hm,ih hc1 h⟩

end Wire

/-- At most one EOF and one CLOSE, no data behind the EOF and nothing of the open channel behind the
CLOSE. -/
structure EndsOnce (ms : List Msg) : Prop where
  eof : ms.count .eof ≤ 1
  close : ms.count .close ≤ 1
  afterEof : ∀ pre post, ms = pre ++ .eof :: post → ∀ m ∈ post, ¬ m.carriesData
  afterClose : ∀ pre post, ms = pre ++ .close :: post → ∀ m ∈ post,
    ¬ m.carriesData ∧ m ≠ .eof ∧ m ≠ .eow ∧ ∀ n, m ≠ .windowAdjust n

lemma count_le_one {α : Type*} [DecidableEq α] {a : α} {xs : List α}
    (h : ∀ pre post, xs = pre ++ a :: post → a ∉ post) : xs.count a ≤ 1 := by
  by_cases ha : a ∈ xs
  · obtain ⟨pre,post,rfl,hpre⟩ := eq_append_cons_of_mem ha
    have hpost := h pre post rfl
    rw [count_append,count_cons_self,count_eq_zero.mpr hpre,count_eq_zero.mpr hpost]
  · rw [count_eq_zero.mpr ha]
    exact Nat.zero_le 1

lemma Wire.endsOnce {w w' : Wire} {ms : List Msg} (h : ms.foldlM next w = some w') :
    EndsOnce ms := by
  have hsplit : ∀ {m pre post}, ms = pre ++ m :: post →
      ∃ w1 w2 : Wire, w1.next m = some w2 ∧ post.foldlM next w2 = some w' := by
    rintro m pre post rfl
    rw [foldlM_append] at h
    obtain ⟨w1,-,h⟩ := bind_eq_some_iff.mp h
    obtain ⟨w2,hw2,h⟩ := bind_eq_some_iff.mp ((foldlM_cons ..).symm.trans h)
    exact ⟨w1,w2,hw2,h⟩
  have heof : ∀ pre post, ms = pre ++ .eof :: post → ∀ m ∈ post, ¬ m.carriesData ∧ m ≠ .eof := by
    intro pre post hms
    obtain ⟨w1,w2,hw,hpost⟩ := hsplit hms
    refine silent_of_eof ?_ hpost
    simp only [next,ite_none_left_eq_some,Option.some.injEq] at hw
    rw [← hw.2]
  have hclose : ∀ pre post, ms = pre ++ .close :: post → ∀ m ∈ post, ¬ m.carriesData ∧ m ≠ .eof ∧
      m ≠ .eow ∧ (∀ n, m ≠ .windowAdjust n) ∧ m ≠ .close := by
    intro pre post hms
    obtain ⟨w1,w2,hw,hpost⟩ := hsplit hms
    refine silent_of_close ?_ hpost
    simp only [next,ite_none_left_eq_some,Option.some.injEq] at hw
    rw [← hw.2]
  refine ⟨count_le_one ?_,count_le_one ?_,fun pre post hms m hm => (heof pre post hms m hm).1,?_⟩
  · exact fun pre post hms hm => (heof pre post hms _ hm).2 rfl
  · exact fun pre post hms hm => (hclose pre post hms _ hm).2.2.2.2 rfl
  · intro pre post hms m hm
    obtain ⟨hdata,he,hw,ha,-⟩ := hclose pre post hms m hm
    exact ⟨hdata,he,hw,ha⟩

/-- A channel as `channel_new` leaves it; a larval one is a session that has registered its
callback, and waits for its descriptors. -/
structure Created (s : Side) : Prop where
  istate : s.c.istate = .opened
  ostate : s.c.ostate = .opened
  closeSent : s.c.closeSent = false
  closeRcvd : s.c.closeRcvd = false
  eofSent : s.c.eofSent = false
  eofRcvd : s.c.eofRcvd = false
  larval : s.c.type = .larval → s.c.detachUser ∧ ¬ s.c.detachClose
  freed : s.freed = false

lemma created_channelNew {ctype : String} {type : ChannelType} {rfd wfd efd : Option Nat}
    {window maxpack : UInt32} {extusage : ExtendedUsage} (ht : type ≠ .larval) :
    Created ⟨channelNew ctype type rfd wfd efd window maxpack extusage,[],false⟩ :=
  ⟨rfl,rfl,rfl,rfl,rfl,rfl,fun h => absurd h ht,rfl⟩

lemma Created.ordered {s : Side} (h : Created s) : s.halves.Ordered := by
  refine ⟨fun hc => ?_,fun he => ?_,fun _ hor => ?_,fun ht _ => ?_⟩
  · cases hc.symm.trans h.closeSent
  · cases he.symm.trans h.eofSent
  · rcases hor with hi | he | ho
    · cases hi.symm.trans h.istate
    · cases he.symm.trans h.eofSent
    · cases ho.symm.trans h.ostate
  · obtain ⟨hu,hd⟩ := h.larval ht
    refine ⟨hu,hd,fun hc => ?_⟩
    cases hc.symm.trans h.closeSent

/-- Whatever happens on this side of a channel and whatever the peer sends, the messages this side
sends end the channel once. -/
theorem sideRun_endsOnce {k : Compat} {s s' : Side} {es : List Event} {os : List (List Msg)}
    (hs : Created s) (hrun : run (sideStep k) s es = .ok (os,s')) : EndsOnce os.flatten := by
  have hstep : ∀ s e o s', s.halves.Ordered → True → sideStep k s e = .ok (o,s') →
      s'.halves.Ordered ∧ o.foldlM next _ = some _ :=
    fun _ _ _ _ hs _ hok => sideStep_ordered hs hok
  obtain ⟨-,hos⟩ := run_followed hstep hs.ordered (guarded_true s es) hrun
  exact endsOnce hos

def closing : List Event :=
  [.peer (.openConfirmation 8 4),.peer .eof,
    .here (.post { Io.idle with rset := true, rfd := .got [] }),
    .here .poll,.here (.collect false),.peer .close,.here (.collect false)]

theorem sideRun_endsOnce_closing : (run (sideStep ⟨true,false⟩)
      ⟨channelNew "direct-tcpip" .opening (some 5) (some 5) none 8 4 .ignore,[],false⟩
      closing).toOption.map (fun r => (r.1.flatten,r.2.freed)) = some ([.eof,.close],true) ∧
    EndsOnce [.eof,.close] := by
  have hrun : ∃ os s', run (sideStep ⟨true,false⟩)
      ⟨channelNew "direct-tcpip" .opening (some 5) (some 5) none 8 4 .ignore,[],false⟩
      closing = .ok (os,s') ∧ os.flatten = [.eof,.close] ∧ s'.freed = true := ⟨_,_,rfl,rfl,rfl⟩
  obtain ⟨os,s',hrun,hos,hfreed⟩ := hrun
  refine ⟨by rw [hrun,← hos,← hfreed]; rfl,?_⟩
  rw [← hos]
  exact sideRun_endsOnce (created_channelNew (by decide)) hrun

end PkixSsh.Channels
