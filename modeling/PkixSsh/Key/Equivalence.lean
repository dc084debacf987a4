import PkixSsh.X509.NameMatching
import PkixSsh.Key.Basic

/-!
# Equality of keys through their forms

Plain keys are compared by their parameters, two X.509 keys by their subjects. That fits together
only on sets of keys where both agree.
-/

namespace PkixSsh.Key

open X509

def x509Keys (S : Set LoadedKey) (type : KeyType) : Set LoadedKey :=
  {a | a ∈ S ∧ sshkeyIsX509 a.1 ∧ a.pub.type = type}

/-- Subjects are compared consistently, and where a key of the set without certificate
shares its parameters with an X.509 key, the subject stands for the parameters. -/
def FormsAgree (ssl : Openssl) (S : Set LoadedKey) : Prop :=
  (∀ type, Equivalence fun a b : x509Keys S type => SubjectEq ssl a.1 b.1) ∧
  ∀ type, ∀ a ∈ x509Keys S type, ∀ b ∈ x509Keys S type, ∀ c ∈ S, ¬ sshkeyIsX509 c.1 →
    c.pub = a.pub → (SubjectEq ssl a b ↔ a.pub = b.pub)

section

variable {ssl : Openssl} {S : Set LoadedKey}

def EqualOn (ssl : Openssl) (S : Set LoadedKey) (a b : S) : Prop :=
  sshkeyEqualPublic ssl a.1.1 b.1.1 = true

lemma equalOn_of_not_x509 {a b : S} (h : ¬ (sshkeyIsX509 a.1.1 ∧ sshkeyIsX509 b.1.1)) :
    EqualOn ssl S a b ↔ a.1.pub = b.1.pub :=
  sshkeyEqualPublic_of_not_x509 ssl a.1 b.1 h

lemma equalOn_of_x509 {a b : S} (ha : sshkeyIsX509 a.1.1) (hb : sshkeyIsX509 b.1.1) :
    EqualOn ssl S a b ↔ a.1.pub.type = b.1.pub.type ∧ SubjectEq ssl a.1 b.1 :=
  sshkeyEqualPublic_of_x509 ssl a.1 b.1 ha hb

lemma formsAgree_of_equivalence (h : Equivalence (EqualOn ssl S)) : FormsAgree ssl S := by
  have hx : ∀ type (a b : x509Keys S type),
      EqualOn ssl S ⟨a.1,a.2.1⟩ ⟨b.1,b.2.1⟩ ↔ SubjectEq ssl a.1 b.1 := by
    rintro type ⟨a,haS,hax,hat⟩ ⟨b,hbS,hbx,hbt⟩
    refine (equalOn_of_x509 hax hbx).trans ?_
    simp [hat,hbt]
  refine ⟨fun type => ⟨fun a => ?_,fun {a b} hab => ?_,fun {a b c} hab hbc => ?_⟩,?_⟩
  · exact (hx type a a).mp (h.refl _)
  · exact (hx type b a).mp (h.symm ((hx type a b).mpr hab))
  · exact (hx type a c).mp (h.trans ((hx type a b).mpr hab) ((hx type b c).mpr hbc))
  · intro type a ha b hb c hc hcx hca
    have hac : EqualOn ssl S ⟨a,ha.1⟩ ⟨c,hc⟩ := (equalOn_of_not_x509 (by simp [hcx])).mpr hca.symm
    have hcb : EqualOn ssl S ⟨c,hc⟩ ⟨b,hb.1⟩ ↔ a.pub = b.pub := by
      rw [equalOn_of_not_x509 (by simp [hcx]),hca]
    constructor
    · intro hab
      exact hcb.mp (h.trans (h.symm hac) ((hx type ⟨a,ha⟩ ⟨b,hb⟩).mpr hab))
    · intro hab
      exact (hx type ⟨a,ha⟩ ⟨b,hb⟩).mp (h.trans hac (hcb.mpr hab))

variable (h : FormsAgree ssl S)

include h

lemma FormsAgree.subjectEq_refl {a : S} (ha : sshkeyIsX509 a.1.1) :
    SubjectEq ssl a.1 a.1 :=
  (h.1 _).refl ⟨a.1,a.2,ha,rfl⟩

lemma FormsAgree.symm {a b : S} (hab : EqualOn ssl S a b) :
    EqualOn ssl S b a := by
  by_cases hx : sshkeyIsX509 a.1.1 ∧ sshkeyIsX509 b.1.1
  · obtain ⟨ht,hs⟩ := (equalOn_of_x509 hx.1 hx.2).mp hab
    refine (equalOn_of_x509 hx.2 hx.1).mpr ⟨ht.symm,?_⟩
    exact (h.1 _).symm (x := ⟨a.1,a.2,hx.1,rfl⟩) (y := ⟨b.1,b.2,hx.2,ht.symm⟩) hs
  · rw [equalOn_of_not_x509 hx] at hab
    exact (equalOn_of_not_x509 (mt And.symm hx)).mpr hab.symm

/-- Between an X.509 key and one without certificate the subject can be followed. -/
lemma FormsAgree.pub_eq {a b c : S} (ha : sshkeyIsX509 a.1.1)
    (hb : sshkeyIsX509 b.1.1) (hc : ¬ sshkeyIsX509 c.1.1) (hab : EqualOn ssl S a b)
    (hca : c.1.pub = a.1.pub) : a.1.pub = b.1.pub := by
  obtain ⟨ht,hs⟩ := (equalOn_of_x509 ha hb).mp hab
  exact (h.2 _ a.1 ⟨a.2,ha,rfl⟩ b.1 ⟨b.2,hb,ht.symm⟩ c.1 c.2 hc hca).mp hs

lemma FormsAgree.trans {a b c : S} (hab : EqualOn ssl S a b)
    (hbc : EqualOn ssl S b c) : EqualOn ssl S a c := by
  by_cases hb : sshkeyIsX509 b.1.1
  · by_cases ha : sshkeyIsX509 a.1.1
    · by_cases hc : sshkeyIsX509 c.1.1
      · obtain ⟨ht,hs⟩ := (equalOn_of_x509 ha hb).mp hab
        obtain ⟨ht',hs'⟩ := (equalOn_of_x509 hb hc).mp hbc
        refine (equalOn_of_x509 ha hc).mpr ⟨ht.trans ht',?_⟩
        exact (h.1 _).trans (x := ⟨a.1,a.2,ha,rfl⟩) (y := ⟨b.1,b.2,hb,ht.symm⟩)
          (z := ⟨c.1,c.2,hc,(ht.trans ht').symm⟩) hs hs'
      · have hcb := (equalOn_of_not_x509 (by simp [hc])).mp hbc
        have hba := h.pub_eq hb ha hc (h.symm hab) hcb.symm
        exact (equalOn_of_not_x509 (by simp [hc])).mpr (hba.symm.trans hcb)
    · have hab' := (equalOn_of_not_x509 (by simp [ha])).mp hab
      refine (equalOn_of_not_x509 (by simp [ha])).mpr ?_
      by_cases hc : sshkeyIsX509 c.1.1
      · exact hab'.trans (h.pub_eq hb hc ha hbc hab')
      · exact hab'.trans ((equalOn_of_not_x509 (by simp [hc])).mp hbc)
  · have hab' := (equalOn_of_not_x509 (by simp [hb])).mp hab
    have hbc' := (equalOn_of_not_x509 (by simp [hb])).mp hbc
    by_cases hx : sshkeyIsX509 a.1.1 ∧ sshkeyIsX509 c.1.1
    · have ht : a.1.pub.type = c.1.pub.type := by rw [hab',hbc']
      refine (equalOn_of_x509 hx.1 hx.2).mpr ⟨ht,?_⟩
      exact (h.2 _ a.1 ⟨a.2,hx.1,rfl⟩ c.1 ⟨c.2,hx.2,ht.symm⟩ b.1 b.2 hb hab'.symm).mpr
        (hab'.trans hbc')
    · exact (equalOn_of_not_x509 hx).mpr (hab'.trans hbc')

end

/-- Equality of keys is an equivalence relation exactly on the sets of keys whose two
comparisons agree. -/
theorem sshkeyEqualPublic_equivalence_iff (ssl : Openssl) (S : Set LoadedKey) :
    Equivalence (EqualOn ssl S) ↔ FormsAgree ssl S := by
  refine ⟨formsAgree_of_equivalence,fun h => ⟨fun a => ?_,h.symm,h.trans⟩⟩
  by_cases ha : sshkeyIsX509 a.1.1
  · exact (equalOn_of_x509 ha ha).mpr ⟨rfl,h.subjectEq_refl ha⟩
  · exact (equalOn_of_not_x509 (by simp [ha])).mpr rfl

def rsaKey (n e : Nat) : SshKey := { sshkeyNew .rsa with rsa := some ⟨n,e⟩ }

lemma rsaKey_loaded : Loaded (rsaKey 3233 17) := by decide

def exampleDer (cn : String) : Bytes := 0x30 :: (cstr cn).length.toUInt8 :: cstr cn

def rsaX509Key (n e : Nat) (cn : String) : SshKey :=
  { rsaKey n e with
    x509Data := some ⟨some ⟨[commonNameEntry .utf8String cn],exampleDer cn⟩,none⟩ }

/-- Two certificates of one key are equal to the key and not to each other. -/
theorem sshkeyEqualPublic_not_trans :
    Loaded (rsaX509Key 3233 17 "alice") ∧ Loaded (rsaKey 3233 17) ∧
    Loaded (rsaX509Key 3233 17 "bob") ∧
    sshkeyEqualPublic asciiOpenssl (rsaX509Key 3233 17 "alice") (rsaKey 3233 17) = true ∧
    sshkeyEqualPublic asciiOpenssl (rsaKey 3233 17) (rsaX509Key 3233 17 "bob") = true ∧
    sshkeyEqualPublic asciiOpenssl (rsaX509Key 3233 17 "alice") (rsaX509Key 3233 17 "bob") =
      false := by
  decide

end PkixSsh.Key
