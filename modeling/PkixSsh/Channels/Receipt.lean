import PkixSsh.Channels.Steps

/-!
# The accounts when a message comes in

Data that is taken stays in the credit of the peer; data that is dropped changes nothing here.
-/

namespace PkixSsh.Channels

open Sshbuf List Ledger

/-- `n` bytes are taken from the local window; `lost` of them are not buffered. -/
structure Taken (n lost : Nat) (s s' : Side) : Prop where
  sent : s'.sent = s.sent
  window : s'.c.localWindow.toNat + n = s.c.localWindow.toNat
  pool : s'.c.ledger.pool + lost = s.c.ledger.pool
  remoteWindow : s'.c.remoteWindow = s.c.remoteWindow
  remoteMaxpacket : s'.c.remoteMaxpacket = s.c.remoteMaxpacket
  localMaxpacket : s'.c.localMaxpacket = s.c.localMaxpacket
  localWindowMax : s'.c.localWindowMax = s.c.localWindowMax
  datagram : s'.c.datagram = s.c.datagram
  type : s'.c.type = s.c.type
  sound : s'.c.ledger.Sound

def Drops (c : Channel) (data : Bytes) : Prop :=
  ¬ takesData c.type ∨ c.ostate = .opened ∧
    (winLen c data > c.localMaxpacket.toNat ∨ winLen c data > c.localWindow.toNat)

def DropsExtended (c : Channel) (tcode : UInt32) (data : Bytes) : Prop :=
  c.type ≠ .opened ∨ (c.efd = none ∨ c.extendedUsage ≠ .write ∨ tcode ≠ extendedDataStderr) ∨
    data.length > c.localWindow.toNat

section

variable {k : Compat} {s s' : Side} {data : Bytes} {tcode : UInt32}

lemma Taken.of_ledger {n lost : Nat} {f : Channel → Channel} (hs : s.c.ledger.Sound)
    (ht : takesData s.c.type) (hl : (f s.c).ledger = { s.c.ledger with
      localWindow := (f s.c).localWindow, localConsumed := (f s.c).localConsumed
      output := (f s.c).output, extended := (f s.c).extended })
    (hw : (f s.c).localWindow.toNat + n = s.c.localWindow.toNat)
    (hp : (f s.c).ledger.pool + lost = s.c.ledger.pool) : Taken n lost s (s.on f) := by
  have hfield : ∀ {α : Type} (g : Ledger → α), g (f s.c).ledger = g { s.c.ledger with
      localWindow := (f s.c).localWindow, localConsumed := (f s.c).localConsumed
      output := (f s.c).output, extended := (f s.c).extended } := by
    intro α g
    rw [← hl]
  have hbound := hs.bound
  refine ⟨rfl,hw,hp,hfield Ledger.remoteWindow,hfield Ledger.remoteMaxpacket,
    hfield Ledger.localMaxpacket,hfield Ledger.localWindowMax,hfield Ledger.datagram,
    hfield Ledger.type,?_⟩
  change (f s.c).ledger.Sound
  have hb : (f s.c).ledger.pool < 2 ^ 32 := by omega
  rw [hl] at hb ⊢
  refine ⟨hb,hs.socks,fun hlarval => ?_,hs.control⟩
  rw [show s.c.type = .larval from hlarval] at ht
  exact absurd ht (by decide)

lemma length_buffered {b : Bytes} (h : orFatal (if s.c.datagram then putString data s.c.output
      else put data s.c.output) = .ok b) : b.length = s.c.output.length + winLen s.c data := by
  replace h := orFatal_ok.mp h
  unfold winLen
  by_cases hd : s.c.datagram = true
  · rw [if_pos hd] at h ⊢
    obtain ⟨-,rfl⟩ := putString_iff.mp h
    rw [length_append,length_framed]
  · rw [if_neg hd] at h ⊢
    obtain ⟨-,rfl⟩ := put_iff.mp h
    rw [length_append]

lemma channelInputData_spec (hs : s.c.ledger.Sound)
    (hfake : takesData s.c.type → s.c.ostate ≠ .opened → winLen s.c data ≤ s.c.localWindow.toNat)
    (h : channelInputData data s = .ok s') :
    (Drops s.c data ∧ s' = s) ∨ (¬ Drops s.c data ∧ Taken (winLen s.c data) 0 s s') := by
  have hbound := hs.bound
  simp only [pool,Channel.ledger] at hbound
  unfold channelInputData at h
  split at h
  · next ht =>
    cases h
    exact .inl ⟨.inl ht,rfl⟩
  next ht =>
  have ht : takesData _ := not_not.mp ht
  dsimp only at h
  split at h
  · next ho =>
    cases h
    have hle := hfake ht ho
    have hw := toNat_sub_ofNat hle
    have hc := toNat_add_ofNat (a := s.c.localConsumed) (n := winLen s.c data) (by omega)
    refine .inr ⟨fun hd => hd.elim (fun hno => hno ht) fun hopen => ho hopen.1,
      .of_ledger hs ht rfl ?_ ?_⟩
    · dsimp only
      omega
    · simp only [pool,Channel.ledger]
      omega
  next ho =>
  have ho : s.c.ostate = .opened := not_not.mp ho
  split at h
  · next hbig =>
    cases h
    exact .inl ⟨.inr ⟨ho,.inl hbig⟩,rfl⟩
  next hbig =>
  split at h
  · next hmuch =>
    cases h
    exact .inl ⟨.inr ⟨ho,.inr hmuch⟩,rfl⟩
  next hmuch =>
  refine .inr ⟨fun hd => hd.elim (fun hno => hno ht) fun hopen => hopen.2.elim hbig hmuch,?_⟩
  obtain ⟨b,hb,h⟩ := bind_eq_ok.mp h
  cases h
  have hlen : b.length = s.c.output.length + winLen s.c data := length_buffered hb
  have hw := toNat_sub_ofNat (not_lt.mp hmuch)
  refine .of_ledger (f := fun c => { c with
    localWindow := c.localWindow - UInt32.ofNat _, output := b }) hs ht rfl ?_ ?_
  · dsimp only
    omega
  · simp only [pool,Channel.ledger]
    omega

lemma channelInputData_extended (h : channelInputData data s = .ok s') :
    s'.c.extendedUsage = s.c.extendedUsage ∧ s'.c.extended = s.c.extended := by
  unfold channelInputData at h
  dsimp only at h
  iterate 4
    split at h
    · cases h
      exact ⟨rfl,rfl⟩
  obtain ⟨b,-,h⟩ := bind_eq_ok.mp h
  cases h
  exact ⟨rfl,rfl⟩

lemma channelInputExtendedData_spec (hs : s.c.ledger.Sound)
    (h : channelInputExtendedData k tcode data s = .ok s') :
    (DropsExtended s.c tcode data ∧ s' = s) ∨
      (¬ DropsExtended s.c tcode data ∧ ∃ lost, Taken data.length lost s s') := by
  unfold channelInputExtendedData at h
  split at h
  · next ht =>
    cases h
    exact .inl ⟨.inl ht,rfl⟩
  next ht =>
  have ht : s.c.type = .opened := not_not.mp ht
  split at h
  · cases h
  split at h
  · next hbad =>
    cases h
    exact .inl ⟨.inr (.inl hbad),rfl⟩
  next hgood =>
  split at h
  · next hmuch =>
    cases h
    exact .inl ⟨.inr (.inr hmuch),rfl⟩
  next hmuch =>
  have hu : s.c.extendedUsage = .write := not_not.mp (not_or.mp (not_or.mp hgood).2).1
  refine .inr ⟨fun hd => ?_,?_⟩
  · rcases hd with hno | hbad | hbig
    · exact hno ht
    · exact hgood hbad
    · exact hmuch hbig
  have hw := toNat_sub_ofNat (not_lt.mp hmuch)
  have hheld : ∀ b, held _ b = b.length := fun b => if_pos hu
  cases h
  split
  · next b hb =>
    obtain ⟨-,rfl⟩ := put_iff.mp hb
    refine ⟨0,.of_ledger hs (.inl ht) rfl ?_ ?_⟩
    · dsimp only
      omega
    · simp only [pool,Channel.ledger,hheld,length_append]
      omega
  · refine ⟨data.length,.of_ledger hs (.inl ht) rfl ?_ ?_⟩
    · dsimp only
      omega
    · simp only [pool,Channel.ledger]
      omega

lemma channelInputIeof_quiet (h : channelInputIeof s = .ok s') : Quiet s s' := by
  unfold channelInputIeof at h
  refine Quiet.trans (.on (ledger_chanRcvdIeof s.c)) ?_
  dsimp only at h
  split at h
  · refine Quiet.trans (.on (f := fun c => { c with istate := .waitDrain }) rfl) ?_
    split at h
    · exact chanIbufEmpty_quiet h
    · cases h
      exact .refl _
  · cases h
    exact .refl _

lemma receive_quiet {k : Compat} {m : Msg} (hm : m ∈ [.eof,.eow,.close])
    (h : receive k m s = .ok s') : Quiet s s' := by
  simp only [mem_cons,not_mem_nil,or_false] at hm
  rcases hm with rfl | rfl | rfl
  · exact channelInputIeof_quiet h
  · cases h
    exact .on (ledger_chanRcvdEow s.c)
  · exact chanRcvdOclose_quiet h

end

end PkixSsh.Channels
