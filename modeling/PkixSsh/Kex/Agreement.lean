import Mathlib.Data.List.Perm.Basic
import PkixSsh.Kex.Totality

/-!
# What two proposals agree on

The outcome of a negotiation as a function of the two lists. It does not depend on which end
computes it, but for the directions.
-/

namespace PkixSsh.Kex

open Sshbuf X509 Key Match Option

structure Agreement where
  kexalg : Kexalg
  hostkeyAlg : Bytes
  ctos : Newkeys
  stoc : Newkeys

def agree (t : XkalgTable) (c s : ProposalIndex → Bytes) : Option Agreement := do
  let kexalg ← commonKex (c .kexAlgs) (s .kexAlgs)
  let hostkeyAlg ← commonHostkey t (c .serverHostKeyAlgs) (s .serverHostKeyAlgs)
  let ctos ← commonNewkeys c s .encAlgsCtos .macAlgsCtos .compAlgsCtos
  let stoc ← commonNewkeys c s .encAlgsStoc .macAlgsStoc .compAlgsStoc
  return ⟨kexalg,hostkeyAlg,ctos,stoc⟩

namespace Agreement

def weNeed (a : Agreement) : Nat := (a.ctos.weNeeds ++ a.stoc.weNeeds).foldl max 0

def dhNeed (a : Agreement) : Nat := (a.ctos.dhNeeds ++ a.stoc.dhNeeds).foldl max 0

def newkeys (a : Agreement) (server : Bool) (mode : Mode) : Newkeys :=
  if Kex.ctos server mode then a.ctos else a.stoc

structure Installed (a : Agreement) (k : KexState) : Prop where
  name : k.name = some a.kexalg.name
  kexType : k.kexType = a.kexalg.type
  hashAlg : k.hashAlg = a.kexalg.hashAlg
  ecNid : k.ecNid = a.kexalg.ecNid
  hostkeyAlg : k.hostkeyAlg = some a.hostkeyAlg
  newkeys : ∀ mode, k.newkeys mode = some (a.newkeys k.server mode)
  weNeed : k.weNeed = a.weNeed
  dhNeed : k.dhNeed = a.dhNeed

end Agreement

lemma foldl_max_comm (xs ys : List Nat) : (xs ++ ys).foldl max 0 = (ys ++ xs).foldl max 0 :=
  (List.perm_append_comm).foldl_eq 0

section

variable {my peer : ProposalIndex → Bytes} {k : KexState} {s' : Conf} {t : XkalgTable}

def agreement (server : Bool) : Kexalg × Bytes × Newkeys × Newkeys → Agreement
  | (kexalg,hostkeyAlg,i,o) =>
    if server then ⟨kexalg,hostkeyAlg,i,o⟩ else ⟨kexalg,hostkeyAlg,o,i⟩

lemma agree_eq (t : XkalgTable) (server : Bool) (c s : ProposalIndex → Bytes) :
    agree t c s = (choices t server c s).map (agreement server) := by
  unfold agree choices
  simp only [bind_eq_bind,map_bind,Function.comp_def]
  congr 1
  funext x
  congr 1
  funext n
  cases server
  · exact bind_comm ..
  · rfl

lemma installed_install (k : KexState) (x : Kexalg × Bytes × Newkeys × Newkeys) :
    (agreement k.server x).Installed (install k x) := by
  cases hs : k.server
  · refine ⟨rfl,rfl,rfl,rfl,rfl,fun mode => ?_,foldl_max_comm _ _,foldl_max_comm _ _⟩
    simp only [install,hs]
    cases mode <;> rfl
  · refine ⟨rfl,rfl,rfl,rfl,rfl,fun mode => ?_,rfl,rfl⟩
    simp only [install,hs]
    cases mode <;> rfl

lemma negotiate_none (h : negotiate t (present my) ⟨k,present peer⟩ = .ok (none,s')) :
    ∃ a, agree t (clientList k.server my peer) (serverList k.server my peer) = some a ∧
      a.Installed s'.kex ∧ s'.kex.server = k.server := by
  obtain ⟨k1,hk1,hneg⟩ := negotiate_chooses t my peer k
  rw [agree_eq t _]
  cases hc : choices t _ _ _ with
  | none =>
    rw [hc] at hneg
    obtain ⟨e,k2,i,-,hneg⟩ := hneg
    cases hneg.symm.trans h
  | some x =>
    rw [hc] at hneg
    cases hneg.symm.trans h
    refine ⟨_,rfl,?_,hk1⟩
    rw [← hk1]
    exact installed_install k1 x

lemma negotiate_of_agree {a : Agreement}
    (h : agree t (clientList k.server my peer) (serverList k.server my peer) = some a) :
    ∃ k', negotiate t (present my) ⟨k,present peer⟩ = .ok (none,⟨k',present peer⟩) := by
  obtain ⟨k1,-,hneg⟩ := negotiate_chooses t my peer k
  rw [agree_eq t _] at h
  obtain ⟨x,hc,-⟩ := map_eq_some_iff.mp h
  rw [hc] at hneg
  exact ⟨_,hneg⟩

end

lemma out_keeps {ssh ssh' : Ssh} {my peer : Option Proposal} {firstKexFollows : UInt8}
    {r r' : Option SshErr} (h : out ssh my peer firstKexFollows r = .ok (r',ssh')) :
    r' = r ∧ ssh'.kex = ssh.kex := by
  unfold out at h
  split at h
  · obtain ⟨same,-,h⟩ := bind_eq_ok.mp h
    split at h <;> cases h <;> exact ⟨rfl,rfl⟩
  · cases h
    exact ⟨rfl,rfl⟩

lemma out_present (ssh : Ssh) (my peer : ProposalIndex → Bytes) (firstKexFollows : UInt8)
    (r : Option SshErr) :
    ∃ ssh', out ssh (some (present my)) (some (present peer)) firstKexFollows r = .ok (r,ssh') := by
  obtain ⟨r',ssh',h⟩ := (out_ok_iff ssh my (present peer) _ r).mpr fun _ => ⟨rfl,.inl rfl⟩
  obtain ⟨rfl,-⟩ := out_keeps h
  exact ⟨ssh',h⟩

section

variable {t : XkalgTable} {ssh ssh' : Ssh}

/-- Both payloads are read, and their lists have an agreement. -/
structure Agrees (t : XkalgTable) (k : KexState) (a : Agreement) : Prop where
  read : ∃ my peer v firstKexFollows, kexBuf2prop k.my = .ok (present my,v) ∧
    kexBuf2prop k.peer = .ok (present peer,firstKexFollows) ∧
    agree t (clientList k.server my peer) (serverList k.server my peer) = some a

/-- The choice goes well exactly when there is an agreement, which is then taken over. -/
lemma kexChooseConf_none (h : kexChooseConf t ssh = .ok (none,ssh')) :
    ∃ a, Agrees t ssh.kex a ∧ a.Installed ssh'.kex ∧ ssh'.kex.server = ssh.kex.server := by
  unfold kexChooseConf at h
  split at h
  · cases h
  next my v hmy =>
  split at h
  · cases h
  next peer firstKexFollows hpeer =>
  obtain ⟨my,rfl⟩ := kexBuf2prop_ok hmy
  obtain ⟨peer,rfl⟩ := kexBuf2prop_ok hpeer
  obtain ⟨⟨r,s⟩,hs,h⟩ := bind_eq_ok.mp h
  obtain ⟨rfl,hkex⟩ := out_keeps h
  obtain ⟨a,ha,hinst,hserver⟩ := negotiate_none hs
  rw [hkex]
  exact ⟨a,⟨my,peer,v,firstKexFollows,hmy,hpeer,ha⟩,hinst,hserver⟩

lemma kexChooseConf_of_agrees {a : Agreement} (h : Agrees t ssh.kex a) :
    ∃ ssh', kexChooseConf t ssh = .ok (none,ssh') := by
  obtain ⟨my,peer,v,firstKexFollows,hmy,hpeer,ha⟩ := h.read
  obtain ⟨k1,hneg⟩ := negotiate_of_agree ha
  unfold kexChooseConf
  rw [hmy]
  rw [hpeer]
  dsimp only
  rw [hneg]
  exact out_present _ my peer _ none

structure Mirrors (k k' : KexState) : Prop where
  my : k'.my = k.peer
  peer : k'.peer = k.my
  server : k'.server = !k.server

lemma Agrees.mirror {k k' : KexState} {a : Agreement} (h : Agrees t k a) (hm : Mirrors k k') :
    Agrees t k' a := by
  obtain ⟨my,peer,v,firstKexFollows,hmy,hpeer,ha⟩ := h.read
  refine ⟨peer,my,firstKexFollows,v,hm.my ▸ hpeer,hm.peer ▸ hmy,?_⟩
  rw [hm.server]
  cases hs : k.server <;> rw [hs] at ha <;> exact ha

lemma Agrees.unique {k : KexState} {a a' : Agreement} (h : Agrees t k a) (h' : Agrees t k a') :
    a = a' := by
  obtain ⟨my,peer,v,firstKexFollows,hmy,hpeer,ha⟩ := h.read
  obtain ⟨my',peer',v',firstKexFollows',hmy',hpeer',ha'⟩ := h'.read
  have hmys := hmy.symm.trans hmy'
  have hpeers := hpeer.symm.trans hpeer'
  simp only [Except.ok.injEq,Prod.mk.injEq] at hmys hpeers
  rw [← present_inj hmys.1,← present_inj hpeers.1,ha] at ha'
  exact Option.some.inj ha'

end

end PkixSsh.Kex
