import PkixSsh.Agent.Exchange

/-!
# Algorithms without X.509 certificate across the agent protocol

The client sends its algorithm as flag bits for a plain RSA key. For all other keys the agent has
the name of the key only.
-/

namespace PkixSsh.Agent

open Key X509 Sshbuf

/-- The algorithms without X.509 certificate that a key can be asked for: the names of its
signatures, for an RSA certificate only those of SHA-1. -/
def PlainAlgorithm (k : SshKey) (alg : Bytes) : Prop :=
  match k.type with
  | .rsa => alg ≠ []
  | .rsaCert => alg = cstr "ssh-rsa" ∨ alg = cstr "ssh-rsa-cert-v01@openssh.com"
  | _ => sshkeySigalgByName alg = some (sshkeySshNamePlain k)

variable {alg data : Bytes} {md : EvpMd} {k : SshKey} {y : Crypto}

lemma rsaHashId_cases (h : rsaHashId alg = some md) :
    (md = .sha1 ∧ (alg = [] ∨ alg = cstr "ssh-rsa" ∨ alg = cstr "ssh-rsa-cert-v01@openssh.com")) ∨
    (md = .sha256 ∧ (alg = cstr "rsa-sha2-256" ∨ alg = cstr "rsa-sha2-256-cert-v01@openssh.com")) ∨
    (md = .sha512 ∧ (alg = cstr "rsa-sha2-512" ∨
      alg = cstr "rsa-sha2-512-cert-v01@openssh.com")) := by
  rw [rsaHashId] at h
  split at h
  · rename_i h0
    cases h
    exact .inl ⟨rfl,.inl h0⟩
  rw [rsaHashIdFromKeyname] at h
  split at h
  · rename_i md' hi
    cases h
    rw [rsaHashIdFromIdent] at hi
    split at hi
    · rename_i h1
      cases hi
      exact .inl ⟨rfl,.inr (.inl h1)⟩
    split at hi
    · rename_i h2
      cases hi
      exact .inr (.inl ⟨rfl,.inl h2⟩)
    split at hi
    · rename_i h3
      cases hi
      exact .inr (.inr ⟨rfl,.inl h3⟩)
    · cases hi
  · split at h
    · rename_i h4
      cases h
      exact .inl ⟨rfl,.inr (.inr h4)⟩
    split at h
    · rename_i h5
      cases h
      exact .inr (.inl ⟨rfl,.inr h5⟩)
    split at h
    · rename_i h6
      cases h
      exact .inr (.inr ⟨rfl,.inr h6⟩)
    · cases h

lemma rsaHashId_rsaCert : rsaHashId (cstr "ssh-rsa-cert-v01@openssh.com") = some .sha1 := by
  decide +kernel

lemma rsaHashId_recode {opaqueEcdsa : Bool} (hk : k.type = .rsa) (h : rsaHashId alg = some md) :
    rsaHashId (agentRecodeAlg (cstr "ssh-rsa") (signFlags opaqueEcdsa k alg)) = some md := by
  rw [signFlags,agentEncodeAlg,hk]
  rcases rsaHashId_cases h with ⟨rfl,rfl | rfl | rfl⟩ | ⟨rfl,rfl | rfl⟩ | ⟨rfl,rfl | rfl⟩ <;>
    cases opaqueEcdsa <;> decide +kernel

lemma sshkeySigalgByName_rsa (h : rsaHashId alg = some md) :
    sshkeySigalgByName alg = some (rsaHashAlgIdent md) ↔ alg ≠ [] := by
  rcases rsaHashId_cases h with ⟨rfl,rfl | rfl | rfl⟩ | ⟨rfl,rfl | rfl⟩ | ⟨rfl,rfl | rfl⟩ <;>
    decide +kernel

lemma sshRsaSign_congr {a b : Bytes} (h : rsaHashId a = rsaHashId b) :
    sshRsaSign y k data a = sshRsaSign y k data b := by
  rw [sshRsaSign,sshRsaSign,h]

lemma sshkeySign_rsa {s : Bytes} (hk : k.type = .rsa ∨ k.type = .rsaCert)
    (h : sshkeySign y k data alg = .ok s) (b : Bytes) :
    sshkeySign y k data b = sshRsaSign y k data b := by
  rw [sshkeySign] at h ⊢
  split at h
  · cases h
  · rename_i hl
    rw [if_neg hl]
    rcases hk with hk | hk
    · rw [hk]
    · rw [hk]

lemma sshkeySign_of_not_rsa (hk : k.type ≠ .rsa ∧ k.type ≠ .rsaCert) (data a b : Bytes) :
    sshkeySign y k data a = sshkeySign y k data b := by
  rw [sshkeySign,sshkeySign]
  cases ht : k.type
  case rsa => exact absurd ht hk.1
  case rsaCert => exact absurd ht hk.2
  all_goals rfl

lemma expectedSigalg_plain {t : XkalgTable} (h : xkalgByName t alg = none) :
    expectedSigalg t alg = sshkeySigalgByName alg := by
  rw [expectedSigalg,h]

lemma sshRsaSign_sha1_named {s : Bytes}
    (h : sshRsaSign y k data (cstr "ssh-rsa-cert-v01@openssh.com") = .ok s) :
    sshkeySigtype s = .ok (rsaHashAlgIdent .sha1) := by
  obtain ⟨md,hmd,hnamed⟩ := sshRsaSign_named h
  cases hmd.symm.trans rsaHashId_rsaCert
  exact hnamed

section

variable {y : Crypto} {t : XkalgTable} {k : SshKey} {data alg own : Bytes}
  (ht : xkalgByName t alg = none) (hl : sshkeySign y k data alg = .ok own)

include ht hl

lemma plainAlgorithm_rsa_iff (hr : k.type = .rsa) (opaqueEcdsa : Bool) :
    (∃ s, sshkeySign y k data (agentRecodeAlg (sshkeySshNameFromTypeNid k.type k.ecdsaNid)
        (signFlags opaqueEcdsa k alg)) = .ok s ∧ xkeyCheckSigalg t alg s = .ok ()) ↔
      PlainAlgorithm k alg := by
  have hname : sshkeySshNameFromTypeNid k.type k.ecdsaNid = cstr "ssh-rsa" := by
    rw [hr]
    rfl
  have hsign := sshkeySign_rsa (.inl hr) hl
  rw [hsign] at hl
  obtain ⟨md,hmd,hnamed⟩ := sshRsaSign_named hl
  have hrec : rsaHashId (agentRecodeAlg _ (signFlags opaqueEcdsa k alg)) =
      some md := rsaHashId_recode hr hmd
  have hsame : sshRsaSign y k data _ = sshRsaSign y k data alg :=
    sshRsaSign_congr (hrec.trans hmd.symm)
  rw [hname,hsign,hsame,hl,PlainAlgorithm,hr]
  simp only [Except.ok.injEq,exists_eq_left']
  rw [xkeyCheckSigalg_iff hnamed,expectedSigalg_plain ht,sshkeySigalgByName_rsa hmd]

lemma plainAlgorithm_rsaCert_iff (hc : k.type = .rsaCert) (opaqueEcdsa : Bool) :
    (∃ s, sshkeySign y k data (agentRecodeAlg (sshkeySshNameFromTypeNid k.type k.ecdsaNid)
        (signFlags opaqueEcdsa k alg)) = .ok s ∧ xkeyCheckSigalg t alg s = .ok ()) ↔
      PlainAlgorithm k alg := by
  have hname : agentRecodeAlg (sshkeySshNameFromTypeNid k.type k.ecdsaNid)
      (signFlags opaqueEcdsa k alg) = cstr "ssh-rsa-cert-v01@openssh.com" := by
    rw [hc]
    rfl
  have hsign := sshkeySign_rsa (.inr hc) hl
  rw [hsign] at hl
  obtain ⟨md,hmd,-⟩ := sshRsaSign_named hl
  rw [hname,hsign,PlainAlgorithm,hc]
  constructor
  · rintro ⟨s,hs,hcheck⟩
    rw [xkeyCheckSigalg_iff (sshRsaSign_sha1_named hs),expectedSigalg_plain ht] at hcheck
    rcases rsaHashId_cases hmd with ⟨rfl,rfl | rfl | rfl⟩ | ⟨rfl,rfl | rfl⟩ | ⟨rfl,rfl | rfl⟩
    · exact absurd hcheck (by decide +kernel)
    · exact .inl rfl
    · exact .inr rfl
    all_goals exact absurd hcheck (by decide +kernel)
  · intro halg
    have hmd' : rsaHashId alg = some .sha1 := by
      rcases halg with rfl | rfl <;> decide +kernel
    have hs : sshRsaSign y k data (cstr "ssh-rsa-cert-v01@openssh.com") = .ok own := by
      rw [← hl]
      exact sshRsaSign_congr (rsaHashId_rsaCert.trans hmd'.symm)
    refine ⟨own,hs,?_⟩
    rw [xkeyCheckSigalg_iff (sshRsaSign_sha1_named hs),expectedSigalg_plain ht]
    rcases halg with rfl | rfl <;> decide +kernel

lemma plainAlgorithm_iff (opaqueEcdsa : Bool) :
    (∃ s, sshkeySign y k data (agentRecodeAlg (sshkeySshNameFromTypeNid k.type k.ecdsaNid)
        (signFlags opaqueEcdsa k alg)) = .ok s ∧ xkeyCheckSigalg t alg s = .ok ()) ↔
      PlainAlgorithm k alg := by
  by_cases hr : k.type = .rsa
  · exact plainAlgorithm_rsa_iff ht hl hr _
  by_cases hc : k.type = .rsaCert
  · exact plainAlgorithm_rsaCert_iff ht hl hc _
  have hplain : sshkeyTypePlain k.type ≠ .rsa := by
    cases ht : k.type <;> simp_all [sshkeyTypePlain]
  have hnamed := sshkeySign_named_of_not_rsa hplain hl
  rw [sshkeySign_of_not_rsa ⟨hr,hc⟩ data _ alg,hl]
  simp only [Except.ok.injEq,exists_eq_left']
  rw [xkeyCheckSigalg_iff hnamed,expectedSigalg_plain ht,PlainAlgorithm]
  split
  · rename_i h
    exact absurd h hr
  · rename_i h
    exact absurd h hc
  · rfl

end

end PkixSsh.Agent
