import PkixSsh.Auth.Options

/-!
# What merged options permit

All fields of merged options are as restrictive as both sources, but for an expiry time that only
the additional options have.
-/

namespace PkixSsh.Auth

def permissionFlags : List (SshAuthOpt → Int32) :=
  [SshAuthOpt.permitPortForwardingFlag,SshAuthOpt.permitAgentForwardingFlag,
    SshAuthOpt.permitX11ForwardingFlag,SshAuthOpt.permitPtyFlag,SshAuthOpt.permitUserRc]

def SshAuthOpt.Expired (o : SshAuthOpt) (t : Nat) : Prop :=
  o.validBefore ≠ 0 ∧ o.validBefore.toNat ≤ t

/-- Options `m` permit nothing that `o` does not. -/
structure NoMorePermissive (o m : SshAuthOpt) : Prop where
  permissions : ∀ flag ∈ permissionFlags, flag m ≠ 0 → flag o ≠ 0
  forceCommand : ∀ command, o.forceCommand = some command → m.forceCommand = some command
  expiry : ∀ t, o.Expired t → m.Expired t

lemma optflagAnd_ne_zero {a b : Int32} (h : optflagAnd a b ≠ 0) : a ≠ 0 ∧ b ≠ 0 := by
  rw [optflagAnd] at h
  split at h
  · next hab =>
    rw [hab.1,hab.2]
    decide
  · exact absurd rfl h

lemma mergeForceCommand_ok {p a m : Option Bytes} (h : mergeForceCommand p a = .ok m)
    {command : Bytes} (hc : p = some command ∨ a = some command) : m = some command := by
  match p,a with
  | some p,some a =>
    rw [mergeForceCommand] at h
    split at h
    · next heq =>
      cases h
      subst heq
      simpa using hc
    · cases h
  | some p,none =>
    cases h
    simpa using hc
  | none,a =>
    cases h
    simpa using hc

lemma mergeValidBefore_expired {p a : UInt64} {t : Nat} (hp : p ≠ 0)
    (h : p.toNat ≤ t ∨ (a ≠ 0 ∧ a.toNat ≤ t)) :
    mergeValidBefore p a ≠ 0 ∧ (mergeValidBefore p a).toNat ≤ t := by
  rw [mergeValidBefore]
  split
  · next ha =>
    refine ⟨ha.1,?_⟩
    have hlt := UInt64.lt_iff_toNat_lt.mp ha.2
    rcases h with h | h
    · omega
    · exact h.2
  · next ha =>
    refine ⟨hp,?_⟩
    rcases h with h | h
    · exact h
    · have hle : ¬ a < p := fun hlt => ha ⟨h.1,hlt⟩
      rw [UInt64.lt_iff_toNat_lt] at hle
      omega

section

variable {p a m : SshAuthOpt}

lemma sshauthoptMerge_ok (h : sshauthoptMerge p a = .ok m) :
    (∀ flag ∈ permissionFlags, flag m = optflagAnd (flag p) (flag a)) ∧
      mergeForceCommand p.forceCommand a.forceCommand = .ok m.forceCommand ∧
      m.validBefore = mergeValidBefore p.validBefore a.validBefore := by
  unfold sshauthoptMerge at h
  cases hc : mergeForceCommand _ _ with
  | error e =>
    rw [hc] at h
    cases h
  | ok c =>
    rw [hc] at h
    cases h
    simp [permissionFlags]

/-- Merged options permit nothing that one of the sources does not, unless only the additional
options expire. -/
theorem sshauthoptMerge_noMorePermissive_iff (h : sshauthoptMerge p a = .ok m) :
    (NoMorePermissive p m ∧ NoMorePermissive a m) ↔ ¬ (p.validBefore = 0 ∧ a.validBefore ≠ 0) := by
  obtain ⟨hflags,hcommand,hvalid⟩ := sshauthoptMerge_ok h
  constructor
  · rintro ⟨-,ha⟩ ⟨hp,hne⟩
    have hexp := ha.expiry _ ⟨hne,Nat.le_refl _⟩
    rw [SshAuthOpt.Expired,hvalid,hp,mergeValidBefore] at hexp
    have hlt : ¬ (a.validBefore ≠ 0 ∧ a.validBefore < 0) := by
      exact fun hlt => Nat.not_lt_zero _ hlt.2
    rw [if_neg hlt] at hexp
    exact hexp.1 rfl
  · intro hcond
    have hset : ∀ flag ∈ permissionFlags, flag m ≠ 0 → flag p ≠ 0 ∧ flag a ≠ 0 := by
      intro flag hf hm
      rw [hflags flag hf] at hm
      exact optflagAnd_ne_zero hm
    have hexp : ∀ t, p.Expired t ∨ a.Expired t → m.Expired t := by
      intro t ht
      have hp : p.validBefore ≠ 0 := by
        intro hp
        rcases ht with ht | ht
        · exact ht.1 hp
        · exact hcond ⟨hp,ht.1⟩
      rw [SshAuthOpt.Expired,hvalid]
      exact mergeValidBefore_expired hp (ht.imp_left And.right)
    exact ⟨⟨fun flag hf hm => (hset flag hf hm).1,
        fun command hc => mergeForceCommand_ok hcommand (.inl hc),fun t ht => hexp t (.inl ht)⟩,
      ⟨fun flag hf hm => (hset flag hf hm).2,
        fun command hc => mergeForceCommand_ok hcommand (.inr hc),fun t ht => hexp t (.inr ht)⟩⟩

end

/-- Options that expire, merged to options that do not. -/
theorem sshauthoptMerge_keeps_no_expiry :
    ∃ m, sshauthoptMerge sshauthoptNew { sshauthoptNew with validBefore := 5 } = .ok m ∧
      SshAuthOpt.Expired { sshauthoptNew with validBefore := 5 } 5 ∧ ¬ m.Expired 5 := by
  refine ⟨_,rfl,⟨by decide,by decide⟩,fun h => ?_⟩
  exact absurd h.1 (by decide)

theorem sshauthoptMerge_noMorePermissive_example :
    ∃ m, sshauthoptMerge { sshauthoptNew with validBefore := 7 }
        { sshauthoptNewWithKeysDefaults with
          forceCommand := some (cstr "true"), validBefore := 5 } =
          .ok m ∧ NoMorePermissive { sshauthoptNew with validBefore := 7 } m ∧ m.Expired 5 := by
  refine ⟨_,rfl,?_⟩
  have h := (sshauthoptMerge_noMorePermissive_iff
    (p := { sshauthoptNew with validBefore := 7 })
    (a := { sshauthoptNewWithKeysDefaults with
      forceCommand := some (cstr "true"), validBefore := 5 }) rfl).mpr (by decide)
  exact ⟨h.1,h.2.expiry 5 ⟨by decide,by decide⟩⟩

end PkixSsh.Auth
