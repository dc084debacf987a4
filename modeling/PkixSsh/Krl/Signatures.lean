import PkixSsh.Krl.RoundTrip

/-!
# Signed revocation lists

Signatures come last, each covers the bytes before it, and the keys that signed are checked against
the list.
-/

namespace PkixSsh.Krl

open Key X509 Sshbuf List BigEndian

structure SignatureSection where
  key : Bytes
  sig : Bytes

namespace SignatureSection

def start (s : SignatureSection) : Bytes := sectionSignature :: framed s.key

def bytes (s : SignatureSection) : Bytes := s.start ++ framed s.sig

end SignatureSection

/-- The signature of a section behind `before` verifies under the key of the section. -/
structure Verifies (env : Env) (before : Bytes) (s : SignatureSection) (k : SshKey) : Prop where
  key : ∃ h, env.codec.sshkeyFromBlob s.key = .ok ⟨k,h⟩
  sig : env.sshkeyVerify k s.sig (before ++ s.start) = .ok ()

/-- The signatures behind `body`, each with its key. -/
inductive SignedBy (env : Env) (body : Bytes) : List SignatureSection → List SshKey → Prop
  | nil : SignedBy env body [] []
  | snoc {sigs signers s k} : SignedBy env body sigs signers →
      Verifies env (body ++ sigs.flatMap SignatureSection.bytes) s k →
      (∀ k' ∈ signers, sshkeyEqual env.ssl k' k = false) →
      SignedBy env body (sigs ++ [s]) (signers ++ [k])

section

variable {env : Env} {body : Bytes} {sigs : List SignatureSection} {signers : List SshKey}
  (h : SignedBy env body sigs signers)

include h

lemma SignedBy.keys :
    List.Forall₂ (fun s k => ∃ h, env.codec.sshkeyFromBlob s.key = .ok ⟨k,h⟩) sigs signers := by
  induction h with
  | nil => exact .nil
  | snoc _ hv _ ih => exact rel_append ih (.cons hv.key .nil)

end

/-- What the first pass has read when `copy` is left: sections, and then signatures. -/
structure FirstPass (env : Env) (buf front : Bytes) (st : Bool × List SshKey) (copy : Bytes)
    (sects : List (UInt8 × Bytes)) (sigs : List SignatureSection) : Prop where
  bytes : buf = front ++ sects.flatMap recordBytes ++ sigs.flatMap SignatureSection.bytes ++ copy
  types : ∀ s ∈ sects, s.1 ≠ sectionSignature
  seen : st.1 = false → sigs = []
  signed : SignedBy env (front ++ sects.flatMap recordBytes) sigs st.2

section

variable {env : Env} {buf front copy : Bytes} {signers : List SshKey}
  {sects : List (UInt8 × Bytes)} {sigs : List SignatureSection}

lemma FirstPass.before {st : Bool × List SshKey} {front' : Bytes}
    (h : FirstPass env buf front st (front' ++ copy) sects sigs) :
    buf.take (buf.length - copy.length) =
      front ++ sects.flatMap recordBytes ++ sigs.flatMap SignatureSection.bytes ++ front' := by
  have hall := h.bytes
  rw [← append_assoc] at hall
  rw [hall,length_append,Nat.add_sub_cancel,take_left]

lemma FirstPass.signature {sigSeen : Bool} {s : SignatureSection} {k : SshKey}
    (h : FirstPass env buf front (sigSeen,signers) (s.start ++ (framed s.sig ++ copy))
      sects sigs) (hkey : ∃ h, env.codec.sshkeyFromBlob s.key = .ok ⟨k,h⟩)
    (hsig : env.sshkeyVerify k s.sig
      (buf.take (buf.length - (framed s.sig ++ copy).length)) = .ok ())
    (hno : (signers.any fun k' => sshkeyEqual env.ssl k' k) = false) :
    FirstPass env buf front (true,signers ++ [k]) copy sects (sigs ++ [s]) := by
  rw [h.before] at hsig
  refine ⟨?_,h.types,nofun,.snoc h.signed ⟨hkey,hsig⟩ ?_⟩
  · rw [h.bytes]
    simp [SignatureSection.bytes]
  · intro k' hk'
    rw [List.any_eq_false] at hno
    exact Bool.eq_false_iff.mpr (hno k' hk')

end

end PkixSsh.Krl
