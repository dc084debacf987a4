import PkixSsh.X509.NameCmp

/-!
# Keys

The structure of `sshkey.h` and the equality of keys. Numbers are natural, a curve is its
identifier, a point its affine coordinates. Private members are left out: no comparison reads them.
-/

namespace PkixSsh.Key

open X509 Option

inductive KeyType where
  | rsa | dsa | ecdsa | ed25519 | rsaCert | dsaCert | ecdsaCert | ed25519Cert
  | xmss | xmssCert | unspec
  deriving DecidableEq

/-- Numeric identifiers of the curves; `nidNone` is the initial value of `ecdsa_nid`. -/
def nidPrime256v1 : Int := 415
def nidSecp384r1 : Int := 715
def nidSecp521r1 : Int := 716
def nidNone : Int := -1

structure Keytype where
  name : Bytes
  shortname : Bytes
  sigalg : Option Bytes
  type : KeyType
  nid : Int
  cert : Bool
  sigonly : Bool

def keytypes : List Keytype :=
  [⟨cstr "ssh-ed25519",cstr "ED25519",none,.ed25519,0,false,false⟩,
   ⟨cstr "ssh-ed25519-cert-v01@openssh.com",cstr "ED25519-CERT",none,.ed25519Cert,0,true,false⟩,
   ⟨cstr "ssh-rsa",cstr "RSA",none,.rsa,0,false,false⟩,
   ⟨cstr "rsa-sha2-256",cstr "RSA",none,.rsa,0,false,true⟩,
   ⟨cstr "rsa-sha2-512",cstr "RSA",none,.rsa,0,false,true⟩,
   ⟨cstr "ssh-dss",cstr "DSA",none,.dsa,0,false,false⟩,
   ⟨cstr "ecdsa-sha2-nistp256",cstr "ECDSA",none,.ecdsa,nidPrime256v1,false,false⟩,
   ⟨cstr "ecdsa-sha2-nistp384",cstr "ECDSA",none,.ecdsa,nidSecp384r1,false,false⟩,
   ⟨cstr "ecdsa-sha2-nistp521",cstr "ECDSA",none,.ecdsa,nidSecp521r1,false,false⟩,
   ⟨cstr "ssh-rsa-cert-v01@openssh.com",cstr "RSA-CERT",none,.rsaCert,0,true,false⟩,
   ⟨cstr "rsa-sha2-256-cert-v01@openssh.com",cstr "RSA-CERT",some (cstr "rsa-sha2-256"),
     .rsaCert,0,true,true⟩,
   ⟨cstr "rsa-sha2-512-cert-v01@openssh.com",cstr "RSA-CERT",some (cstr "rsa-sha2-512"),
     .rsaCert,0,true,true⟩,
   ⟨cstr "ssh-dss-cert-v01@openssh.com",cstr "DSA-CERT",none,.dsaCert,0,true,false⟩,
   ⟨cstr "ecdsa-sha2-nistp256-cert-v01@openssh.com",cstr "ECDSA-CERT",none,
     .ecdsaCert,nidPrime256v1,true,false⟩,
   ⟨cstr "ecdsa-sha2-nistp384-cert-v01@openssh.com",cstr "ECDSA-CERT",none,
     .ecdsaCert,nidSecp384r1,true,false⟩,
   ⟨cstr "ecdsa-sha2-nistp521-cert-v01@openssh.com",cstr "ECDSA-CERT",none,
     .ecdsaCert,nidSecp521r1,true,false⟩]

def sshkeyTypePlain : KeyType → KeyType
  | .rsaCert => .rsa
  | .dsaCert => .dsa
  | .ecdsaCert => .ecdsa
  | .ed25519Cert => .ed25519
  | .xmssCert => .xmss
  | type => type

def sshkeyTypeIsCert (type : KeyType) : Bool :=
  match keytypes.find? (·.type = type) with
  | some kt => kt.cert
  | none => false

structure Rsa where
  n : Nat
  e : Nat
  deriving DecidableEq

structure Dsa where
  p : Nat
  q : Nat
  g : Nat
  pubKey : Nat
  deriving DecidableEq

structure EcKey where
  group : Nat
  pubKey : Option (Nat × Nat)
  deriving DecidableEq

abbrev Ed25519Pk := {pk : Bytes // pk.length = 32}

structure X509Cert where
  subject : X509Name
  der : Bytes
  deriving DecidableEq

structure SshX509 where
  cert : Option X509Cert
  chain : Option (List X509Cert)
  deriving DecidableEq

/-- The part of `struct sshkey_cert` that key comparison reads. -/
structure SshkeyCert where
  certblob : Bytes
  deriving DecidableEq

structure SshKey where
  type : KeyType
  rsa : Option Rsa
  dsa : Option Dsa
  ecdsaNid : Int
  ecdsa : Option EcKey
  ed25519Pk : Option Ed25519Pk
  x509Data : Option SshX509
  cert : Option SshkeyCert
  deriving DecidableEq

/-- `sshkey_new`, before the members of the type are filled in. -/
def sshkeyNew (type : KeyType) : SshKey :=
  ⟨type,none,none,nidNone,none,none,none,none⟩

variable (k : SshKey) (ssl : Openssl) (a b : SshKey)

def sshkeyIsX509 : Bool := k.x509Data.isSome

def sshkeyIsCert : Bool := sshkeyTypeIsCert k.type

def x509keyCheck : Bool :=
  match k.x509Data with
  | some xd => xd.cert.isSome
  | none => false

def subjectName : Option X509Name :=
  k.x509Data.bind fun xd => xd.cert.map fun x => x.subject

def sshX509Equal : Int :=
  if !x509keyCheck a then 1
  else if !x509keyCheck b then -1
  else sshX509NameCmp ssl (subjectName a) (subjectName b)

def certCompare : Option SshkeyCert → Option SshkeyCert → Bool
  | none, none => true
  | some a, some b => a.certblob.length = b.certblob.length && a.certblob = b.certblob
  | _, _ => false

def sshrsaEqualPublic : Option Rsa → Option Rsa → Bool
  | some a, some b => a.e = b.e && a.n = b.n
  | _, _ => false

def sshdsaEqualPublic : Option Dsa → Option Dsa → Bool
  | some a, some b => (a.p = b.p && a.q = b.q && a.g = b.g) && a.pubKey = b.pubKey
  | _, _ => false

def ecdsaEqualPublic : Option EcKey → Option EcKey → Bool
  | some a, some b =>
    match a.pubKey, b.pubKey with
    | some pa, some pb => a.group = b.group && pa = pb
    | _, _ => false
  | _, _ => false

def ed25519EqualPublic : Option Ed25519Pk → Option Ed25519Pk → Bool
  | some a, some b => memcmp 32 a.1 b.1 = 0
  | _, _ => false

def equalMaterial : Bool :=
  match a.type with
  | .rsaCert | .rsa => sshrsaEqualPublic a.rsa b.rsa
  | .dsaCert | .dsa => sshdsaEqualPublic a.dsa b.dsa
  | .ecdsaCert | .ecdsa => ecdsaEqualPublic a.ecdsa b.ecdsa
  | .ed25519 | .ed25519Cert => ed25519EqualPublic a.ed25519Pk b.ed25519Pk
  | _ => false

/-- `sshkey_equal_public`. Two X.509 keys are compared by their subjects. -/
def sshkeyEqualPublic : Bool :=
  if sshkeyTypePlain a.type ≠ sshkeyTypePlain b.type then false
  else if sshkeyIsX509 a ∧ sshkeyIsX509 b then sshX509Equal ssl a b = 0
  else equalMaterial a b

def sshkeyEqual : Bool :=
  if a.type ≠ b.type then false
  else if sshkeyIsCert a && !certCompare a.cert b.cert then false
  else sshkeyEqualPublic ssl a b

def x509keyCopyIdentity (n : SshKey) : SshKey :=
  if sshkeyIsX509 k then { n with x509Data := k.x509Data } else n

/-- `sshkey_from_private`: the public members of the type, the OpenSSH certificate and
the X.509 identity are copied. -/
def sshkeyFromPrivate : Except SshErr SshKey :=
  let n := sshkeyNew k.type
  let copied : Except SshErr SshKey :=
    match k.type with
    | .dsa | .dsaCert => .ok { n with dsa := k.dsa }
    | .ecdsa | .ecdsaCert => .ok { n with ecdsaNid := k.ecdsaNid, ecdsa := k.ecdsa }
    | .rsa | .rsaCert => .ok { n with rsa := k.rsa }
    | .ed25519 | .ed25519Cert => .ok { n with ed25519Pk := k.ed25519Pk }
    | _ => .error .keyTypeUnknown
  copied.map fun n =>
    x509keyCopyIdentity k (if sshkeyIsCert k then { n with cert := k.cert } else n)

inductive PublicKey where
  | rsa (n e : Nat)
  | dsa (p q g pubKey : Nat)
  | ecdsa (group : Nat) (point : Nat × Nat)
  | ed25519 (pk : Ed25519Pk)
  deriving DecidableEq

def ecParameters (c : Option EcKey) : Option (Nat × (Nat × Nat)) :=
  c.bind fun c => c.pubKey.map fun p => (c.group,p)

/-- The parameters held by the member that belongs to a plain type. -/
def publicKeyOfType : KeyType → Option PublicKey
  | .rsa => k.rsa.map fun r => .rsa r.n r.e
  | .dsa => k.dsa.map fun d => .dsa d.p d.q d.g d.pubKey
  | .ecdsa => (ecParameters k.ecdsa).map fun c => .ecdsa c.1 c.2
  | .ed25519 => k.ed25519Pk.map .ed25519
  | _ => none

def publicKey : Option PublicKey := publicKeyOfType k (sshkeyTypePlain k.type)

/-- A key as the decoders return it: the public key is there, and an X.509 key has its
certificate. -/
def Loaded : Prop :=
  (publicKey k).isSome ∧ (sshkeyIsX509 k → x509keyCheck k)

instance (k : SshKey) : Decidable (Loaded k) := inferInstanceAs (Decidable (_ ∧ _))

abbrev LoadedKey := {k : SshKey // Loaded k}

namespace LoadedKey

def pub (k : LoadedKey) : PublicKey := (publicKey k.1).get k.2.1

lemma publicKey_eq (k : LoadedKey) : publicKey k.1 = some k.pub :=
  (some_get k.2.1).symm

end LoadedKey

/-- What a public copy has of the key: all that the comparisons look at. -/
structure Copies (n : SshKey) : Prop where
  type : n.type = k.type
  x509Data : n.x509Data = k.x509Data
  pub : publicKey n = publicKey k
  again : sshkeyFromPrivate n = .ok n
  equal : ∀ ssl a, sshkeyEqual ssl a n = sshkeyEqual ssl a k
  equal_left : ∀ ssl a, sshkeyEqual ssl n a = sshkeyEqual ssl k a

lemma sshkeyFromPrivate_copies {k n : SshKey} (h : sshkeyFromPrivate k = .ok n) :
    Copies k n := by
  rcases k with ⟨type,rsa,dsa,nid,ec,ed,x509,cert⟩
  cases type <;> cases x509 <;>
    simp [sshkeyFromPrivate,x509keyCopyIdentity,sshkeyIsX509,Except.map] at h
  all_goals
    subst h
    refine ⟨rfl,rfl,rfl,rfl,fun ssl a => ?_,fun _ _ => rfl⟩
    refine ite_congr rfl (fun _ => rfl) fun ht => ?_
    simp only [sshkeyEqualPublic,equalMaterial,sshkeyIsCert,not_not.mp ht]
    rfl

lemma sshrsaEqualPublic_iff {a b : Option Rsa} (h : a.isSome) :
    sshrsaEqualPublic a b = true ↔ a = b := by
  cases a with
  | none => simp at h
  | some a =>
    cases b with
    | none => simp [sshrsaEqualPublic]
    | some b =>
      cases a; cases b
      simp [sshrsaEqualPublic,and_comm]

lemma sshdsaEqualPublic_iff {a b : Option Dsa} (h : a.isSome) :
    sshdsaEqualPublic a b = true ↔ a = b := by
  cases a with
  | none => simp at h
  | some a =>
    cases b with
    | none => simp [sshdsaEqualPublic]
    | some b =>
      cases a; cases b
      simp [sshdsaEqualPublic,and_assoc]

lemma ecdsaEqualPublic_iff {a b : Option EcKey} (h : (ecParameters a).isSome) :
    ecdsaEqualPublic a b = true ↔ ecParameters a = ecParameters b := by
  rcases a with _ | ⟨ga,_ | pa⟩
  · simp [ecParameters] at h
  · simp [ecParameters] at h
  · rcases b with _ | ⟨gb,_ | pb⟩
    · simp [ecdsaEqualPublic,ecParameters]
    · simp [ecdsaEqualPublic,ecParameters]
    · simp [ecdsaEqualPublic,ecParameters]

lemma ed25519EqualPublic_iff {a b : Option Ed25519Pk} (h : a.isSome) :
    ed25519EqualPublic a b = true ↔ a = b := by
  cases a with
  | none => simp at h
  | some a =>
    cases b with
    | none => simp [ed25519EqualPublic]
    | some b =>
      have ha : (32) ≤ a.1.length := Nat.le_of_eq a.2.symm
      have hb : (32) ≤ b.1.length := Nat.le_of_eq b.2.symm
      have hta : a.1.take 32 = a.1 := List.take_of_length_le (Nat.le_of_eq a.2)
      have htb : b.1.take 32 = b.1 := List.take_of_length_le (Nat.le_of_eq b.2)
      simp only [ed25519EqualPublic,decide_eq_true_eq,Option.some.injEq]
      rw [memcmp_eq_zero_iff ha hb,hta,htb,Subtype.ext_iff]

lemma equalMaterial_iff {a b : SshKey} (hp : sshkeyTypePlain a.type = sshkeyTypePlain b.type)
    (ha : (publicKey a).isSome) : equalMaterial a b = true ↔ publicKey a = publicKey b := by
  have hrsa : Function.Injective fun r : Rsa => PublicKey.rsa r.n r.e := by
    rintro ⟨_,_⟩ ⟨_,_⟩ h
    simpa using h
  have hdsa : Function.Injective fun d : Dsa => PublicKey.dsa d.p d.q d.g d.pubKey := by
    rintro ⟨_,_,_,_⟩ ⟨_,_,_,_⟩ h
    simpa using h
  have hec : Function.Injective fun c : Nat × (Nat × Nat) => PublicKey.ecdsa c.1 c.2 := by
    rintro ⟨_,_⟩ ⟨_,_⟩ h
    simpa using h
  have hed : Function.Injective PublicKey.ed25519 := fun _ _ h => by simpa using h
  unfold publicKey at ha ⊢
  rw [← hp]
  cases ht : a.type <;>
    simp only [ht,sshkeyTypePlain,publicKeyOfType,isSome_map,equalMaterial] at ha ⊢
  case rsa | rsaCert =>
    rw [(map_injective hrsa).eq_iff]
    exact sshrsaEqualPublic_iff ha
  case dsa | dsaCert =>
    rw [(map_injective hdsa).eq_iff]
    exact sshdsaEqualPublic_iff ha
  case ecdsa | ecdsaCert =>
    rw [(map_injective hec).eq_iff]
    exact ecdsaEqualPublic_iff ha
  case ed25519 | ed25519Cert =>
    rw [(map_injective hed).eq_iff]
    exact ed25519EqualPublic_iff ha
  all_goals simp at ha

def PublicKey.type : PublicKey → KeyType
  | .rsa .. => .rsa
  | .dsa .. => .dsa
  | .ecdsa .. => .ecdsa
  | .ed25519 .. => .ed25519

lemma publicKey_type {k : SshKey} {pk : PublicKey} (h : publicKey k = some pk) :
    sshkeyTypePlain k.type = pk.type := by
  unfold publicKey at h
  generalize sshkeyTypePlain _ = type at h
  cases type <;> simp only [publicKeyOfType,map_eq_some_iff,reduceCtorEq] at h
  all_goals
    obtain ⟨_,_,rfl⟩ := h
    rfl

/-- Away from two X.509 keys, equality of loaded keys is equality of their parameters. -/
lemma sshkeyEqualPublic_of_not_x509 (a b : LoadedKey)
    (h : ¬ (sshkeyIsX509 a.1 ∧ sshkeyIsX509 b.1)) :
    sshkeyEqualPublic ssl a.1 b.1 = true ↔ a.pub = b.pub := by
  have hsome : publicKey a.1 = publicKey b.1 ↔ a.pub = b.pub := by
    rw [a.publicKey_eq,b.publicKey_eq,Option.some.injEq]
  unfold sshkeyEqualPublic
  by_cases ht : sshkeyTypePlain a.1.type = sshkeyTypePlain b.1.type
  · rw [if_neg (not_not.mpr ht),if_neg h,equalMaterial_iff ht a.2.1,hsome]
  · rw [if_pos ht]
    simp only [Bool.false_eq_true,false_iff]
    intro he
    rw [publicKey_type a.publicKey_eq,publicKey_type b.publicKey_eq,he] at ht
    exact ht rfl

/-- Two X.509 keys are equal when they are of one type and the code takes their
subjects for equal. -/
def SubjectEq (a b : LoadedKey) : Prop :=
  sshX509NameCmp ssl (subjectName a.1) (subjectName b.1) = 0

lemma sshkeyEqualPublic_of_x509 (a b : LoadedKey) (ha : sshkeyIsX509 a.1) (hb : sshkeyIsX509 b.1)
    : sshkeyEqualPublic ssl a.1 b.1 = true ↔ a.pub.type = b.pub.type ∧ SubjectEq ssl a b := by
  have hca := a.2.2 ha
  have hcb := b.2.2 hb
  unfold sshkeyEqualPublic
  rw [publicKey_type a.publicKey_eq,publicKey_type b.publicKey_eq]
  by_cases ht : a.pub.type = b.pub.type
  · rw [if_neg (not_not.mpr ht),if_pos ⟨ha,hb⟩]
    simp [sshX509Equal,hca,hcb,ht,SubjectEq]
  · simp [ht]

end PkixSsh.Key
