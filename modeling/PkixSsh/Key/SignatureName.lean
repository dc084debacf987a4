import PkixSsh.Key.Sign

/-!
# The name a signature carries

Every signature begins with a name, which `Xkey_check_sigalg` compares with the one expected for an
algorithm.
-/

namespace PkixSsh.Key

open X509 Sshbuf

def expectedSigalg (t : XkalgTable) (alg : Bytes) : Option Bytes :=
  match xkalgByName t alg with
  | none => sshkeySigalgByName alg
  | some p => some (x509pubalgSigname p)

lemma sigBlob_iff {n v s : Bytes} : sigBlob n v = .ok s ↔
      n.length + v.length + 8 ≤ sshbufSizeMax ∧ s = framed n ++ framed v := by
  rw [sigBlob,bind_eq_ok]
  constructor
  · rintro ⟨b,hb,hs⟩
    obtain ⟨-,rfl⟩ := putString_iff.mp hb
    obtain ⟨hl,rfl⟩ := putString_iff.mp hs
    rw [List.nil_append,length_framed] at hl
    exact ⟨by omega,rfl⟩
  · rintro ⟨hl,rfl⟩
    refine ⟨framed n,putString_iff.mpr ⟨?_,rfl⟩,putString_iff.mpr ⟨?_,rfl⟩⟩
    · rw [List.length_nil]
      omega
    · rw [length_framed]
      omega

lemma sshkeySigtype_sigBlob {n v s : Bytes} (h : sigBlob n v = .ok s) (hn : 0 ∉ n) :
    sshkeySigtype s = .ok n := by
  obtain ⟨hl,rfl⟩ := sigBlob_iff.mp h
  rw [sshkeySigtype,getCstring_framed hn (by omega)]
  rfl

lemma xkeyCheckSigalg_iff {t : XkalgTable} {alg sig n : Bytes} (hn : sshkeySigtype sig = .ok n) :
    xkeyCheckSigalg t alg sig = .ok () ↔ expectedSigalg t alg = some n := by
  rw [xkeyCheckSigalg,expectedSigalg]
  cases xkalgByName t alg with
  | none =>
    simp only [sshkeyCheckSigtype]
    cases sshkeySigalgByName alg with
    | none => simp
    | some e =>
      simp only [hn,ok_bind,Option.some.injEq]
      split <;> simp_all
  | some p =>
    simp only [hn,ok_bind,Option.some.injEq]
    split <;> simp_all

lemma sshkeySshNameFromTypeNid_ok (type : KeyType) (nid : Int) :
    0 ∉ sshkeySshNameFromTypeNid type nid ∧ ¬ cstr "x509v3-" <+: sshkeySshNameFromTypeNid type nid ∧
      (sshkeySshNameFromTypeNid type nid).length ≤ 41 := by
  have hall : ∀ kt ∈ keytypes,
      0 ∉ kt.name ∧ ¬ cstr "x509v3-" <+: kt.name ∧ kt.name.length ≤ 41 := by
    decide +kernel
  rw [sshkeySshNameFromTypeNid]
  split
  · rename_i kt hkt
    exact hall kt (List.mem_of_find?_eq_some hkt)
  · decide +kernel

lemma sshX509Sign_named {y : Crypto} {t : XkalgTable} {q : SshX509KeyAlg} {opaqueEcdsa : Bool}
    {k : SshKey} {data s : Bytes} (hq : q ∈ t.algs)
    (h : sshX509Sign y q opaqueEcdsa k data = .ok s) :
    sshkeySigtype s = .ok (x509pubalgSigname q) := by
  rw [sshX509Sign] at h
  split at h
  · cases h
  split at h
  · cases h
  split at h
  · cases h
  · exact sshkeySigtype_sigBlob h (t.cstrings q hq).2

lemma sshRsaSign_named {y : Crypto} {k : SshKey} {data alg s : Bytes}
    (h : sshRsaSign y k data alg = .ok s) :
    ∃ md, rsaHashId alg = some md ∧ sshkeySigtype s = .ok (rsaHashAlgIdent md) := by
  rw [sshRsaSign] at h
  split at h
  · cases h
  split at h
  · cases h
  · rename_i md hmd
    rw [sshRsaSignHash] at h
    split at h
    · cases h
    split at h
    · cases h
    split at h
    · cases h
    · exact ⟨md,hmd,sshkeySigtype_sigBlob h (by cases md <;> decide)⟩

lemma sshkeySign_named_of_not_rsa {y : Crypto} {k : SshKey} {data alg s : Bytes}
    (hr : sshkeyTypePlain k.type ≠ .rsa) (h : sshkeySign y k data alg = .ok s) :
    sshkeySigtype s = .ok (sshkeySshNamePlain k) := by
  have hnul : 0 ∉ sshkeySshNamePlain k := (sshkeySshNameFromTypeNid_ok _ _).1
  rw [sshkeySign] at h
  split at h
  · cases h
  split at h
  all_goals rename_i ht
  case h_5 | h_6 => exact absurd (by rw [ht]; rfl) hr
  case h_9 => cases h
  case h_1 | h_2 =>
    have hn : sshkeySshNamePlain k = cstr "ssh-dss" := by rw [sshkeySshNamePlain,ht]; rfl
    rw [sshDssSign] at h
    split at h
    · cases h
    split at h
    · cases h
    split at h
    · cases h
    · rw [hn] at hnul ⊢
      exact sshkeySigtype_sigBlob h hnul
  case h_3 | h_4 =>
    rw [sshEcdsaSign] at h
    split at h
    · cases h
    split at h
    · cases h
    split at h
    · cases h
    · obtain ⟨bb,-,h⟩ := bind_eq_ok.mp h
      exact sshkeySigtype_sigBlob h hnul
  case h_7 | h_8 =>
    have hn : sshkeySshNamePlain k = cstr "ssh-ed25519" := by rw [sshkeySshNamePlain,ht]; rfl
    rw [sshEd25519Sign] at h
    split at h
    · cases h
    split at h
    · cases h
    · rw [hn] at hnul ⊢
      exact sshkeySigtype_sigBlob h hnul

end PkixSsh.Key
