import Mathlib.Logic.Function.Basic
import PkixSsh.Sshbuf.Basic

/-!
# Proposals

The ten lists of names of a `SSH2_MSG_KEXINIT` payload. In memory a proposal is an array
of pointers, some of which may be null.
-/

namespace PkixSsh.Kex

open Sshbuf

inductive ProposalIndex where
  | kexAlgs | serverHostKeyAlgs | encAlgsCtos | encAlgsStoc | macAlgsCtos | macAlgsStoc
  | compAlgsCtos | compAlgsStoc | langCtos | langStoc
  deriving DecidableEq

def proposalIndexes : List ProposalIndex :=
  [.kexAlgs,.serverHostKeyAlgs,.encAlgsCtos,.encAlgsStoc,.macAlgsCtos,.macAlgsStoc,
   .compAlgsCtos,.compAlgsStoc,.langCtos,.langStoc]

abbrev Proposal := ProposalIndex → Option Bytes

def present (lists : ProposalIndex → Bytes) : Proposal := fun i => some (lists i)

def kexCookieLen : Nat := 16

def kexProp2buf (lists : ProposalIndex → Bytes) : Except SshErr Bytes := do
  let b ← put (List.replicate kexCookieLen 0) []
  let b ← proposalIndexes.foldlM (fun b i => putString (lists i) b) b
  let b ← putU8 0 b
  putU32 0 b

def getLists : List ProposalIndex → Proposal → Get Proposal
  | [], proposal, b => .ok (proposal,b)
  | i :: rest, proposal, b => do
    let (v,b) ← getCstring b
    getLists rest (Function.update proposal i (some v)) b

def kexBuf2prop (raw : Bytes) : Except SshErr (Proposal × UInt8) := do
  let (_,b) ← get kexCookieLen raw
  let (proposal,b) ← getLists proposalIndexes (fun _ => none) b
  let (v,b) ← getU8 b
  let _ ← getU32 b
  return (proposal,v)

lemma getLists_ok {is : List ProposalIndex} {proposal p : Proposal} {b rest : Bytes}
    (h : getLists is proposal b = .ok (p,rest)) :
    ∀ i, (i ∈ is ∨ (proposal i).isSome) → (p i).isSome := by
  induction is generalizing proposal b with
  | nil =>
    cases h
    intro i hi
    simpa using hi
  | cons j is ih =>
    obtain ⟨⟨v,b'⟩,-,h⟩ := bind_eq_ok.mp h
    intro i hi
    apply ih h i
    by_cases hij : i = j
    · subst hij
      exact .inr (by rw [Function.update_self]; rfl)
    · rw [Function.update_of_ne hij]
      rcases hi with hi | hi
      · rcases List.mem_cons.mp hi with rfl | hi
        · exact absurd rfl hij
        · exact .inl hi
      · exact .inr hi

lemma kexBuf2prop_ok {raw : Bytes} {p : Proposal} {v : UInt8}
    (h : kexBuf2prop raw = .ok (p,v)) : ∃ lists, p = present lists := by
  obtain ⟨⟨_,b⟩,-,h⟩ := bind_eq_ok.mp h
  obtain ⟨⟨q,b'⟩,hq,h⟩ := bind_eq_ok.mp h
  obtain ⟨⟨v',b''⟩,-,h⟩ := bind_eq_ok.mp h
  obtain ⟨_,-,h⟩ := bind_eq_ok.mp h
  cases h
  have hall : ∀ i, (p i).isSome := by
    intro i
    apply getLists_ok hq i
    cases i <;> simp [proposalIndexes]
  refine ⟨fun i => (p i).get (hall i),?_⟩
  funext i
  simp [present]

end PkixSsh.Kex
