import PkixSsh.Key.Basic
import PkixSsh.Lib.FirstMatch
import PkixSsh.Sshbuf.Basic

/-!
# X.509 key algorithms

The table of `ssh-xkalg.c`, with twenty slots, filled from the `X509KeyAlgorithm` lines of the
configuration or with the defaults.
-/

namespace PkixSsh.X509

open Key FirstMatch List

/-- The digests of the table. `EVP_dss1` is SHA-1. -/
inductive EvpMd where
  | md5 | sha1 | sha256 | sha384 | sha512
  deriving DecidableEq

def EvpMd.size : EvpMd → Nat
  | .md5 => 16
  | .sha1 => 20
  | .sha256 => 32
  | .sha384 => 48
  | .sha512 => 64

/-- The functions `SignFinal` and `VerifyFinal` of a digest, which are set in pairs. -/
inductive Final where
  | evp | dss1Raw | sshEcdsa
  deriving DecidableEq

structure SshX509Md where
  name : Bytes
  evp : EvpMd
  final : Final
  deriving DecidableEq

structure SshX509KeyAlg where
  name : Bytes
  dgst : SshX509Md
  signame : Option Bytes
  basetype : KeyType
  subtype : Int
  chain : Bool
  deriving DecidableEq

def x509pubalgSigname (p : SshX509KeyAlg) : Bytes := p.signame.getD p.name

/-- The names `ssh_x509key_alg_digest` compares with, in its order. -/
def digests : List SshX509Md :=
  [⟨cstr "rsa-sha1",.sha1,.evp⟩,
   ⟨cstr "rsa-md5",.md5,.evp⟩,
   ⟨cstr "rsa2048-sha256",.sha256,.evp⟩,
   ⟨cstr "ssh-sha256",.sha256,.sshEcdsa⟩,
   ⟨cstr "sha256",.sha256,.evp⟩,
   ⟨cstr "ssh-sha384",.sha384,.sshEcdsa⟩,
   ⟨cstr "sha384",.sha384,.evp⟩,
   ⟨cstr "ssh-sha512",.sha512,.sshEcdsa⟩,
   ⟨cstr "sha512",.sha512,.evp⟩,
   ⟨cstr "dss-asn1",.sha1,.evp⟩,
   ⟨cstr "dss-raw",.sha1,.dss1Raw⟩]

def sshX509keyAlgDigest (dgstname : Bytes) : Option SshX509Md :=
  (digests.find? fun d => d.name.map tolower = dgstname.map tolower).map fun d =>
    { d with name := dgstname }

def sshkeyCurveNameToNid (name : Bytes) : Option Int :=
  if name = cstr "nistp256" then some nidPrime256v1
  else if name = cstr "nistp384" then some nidSecp384r1
  else if name = cstr "nistp521" then some nidSecp521r1
  else none

/-- The answer -1 of `ssh_add_x509key_alg`, and its call of `fatal`. -/
inductive AddFailure where
  | refused | fatal
  deriving DecidableEq

/-- The comparisons of a name with the names known, by their lengths. -/
def xkalgBase (name : Bytes) : Except AddFailure (KeyType × Int × Bool) :=
  if (cstr "x509v3-ecdsa-sha2-").isPrefixOf name then
    match sshkeyCurveNameToNid (name.drop 18) with
    | some nid => .ok (.ecdsa,nid,true)
    | none => .error .fatal
  else if (cstr "x509v3-ssh-rsa").isPrefixOf name then .ok (.rsa,nidNone,true)
  else if name = cstr "x509v3-rsa2048-sha256" then .ok (.rsa,nidNone,true)
  else if (cstr "x509v3-sign-rsa").isPrefixOf name then .ok (.rsa,nidNone,false)
  else if (cstr "x509v3-ssh-dss").isPrefixOf name then .ok (.dsa,nidNone,true)
  else if (cstr "x509v3-sign-dss").isPrefixOf name then .ok (.dsa,nidNone,false)
  else .error .refused

/-- `strchr` for a comma, which is overwritten: what is before it and what is after. -/
def splitComma (s : Bytes) : Option (Bytes × Bytes) :=
  if 44 ∈ s then some (s.takeWhile (· ≠ 44),(s.dropWhile (· ≠ 44)).drop 1) else none

/-- The name, the digest and the signature name of a line. A C string ends at its NUL. -/
def splitLine (data : Bytes) : Option (Bytes × Bytes × Option Bytes) :=
  (splitComma (Sshbuf.untilNul data)).map fun (name,rest) =>
    match splitComma rest with
    | none => (name,rest,none)
    | some (mdname,signame) => (name,mdname,some signame)

def newXkalg (name mdname : Bytes) (signame : Option Bytes) :
    Except AddFailure SshX509KeyAlg :=
  match xkalgBase name with
  | .error e => .error e
  | .ok (basetype,nid,chain) =>
    match sshX509keyAlgDigest mdname with
    | none => .error .refused
    | some dgst => .ok ⟨name,dgst,signame,basetype,nid,chain⟩

variable {name : Bytes}

lemma xkalgBase_named {b : KeyType × Int × Bool}
    (h : xkalgBase name = .ok b) : cstr "x509v3-" <+: name := by
  have hp : ∀ s, cstr "x509v3-" <+: cstr s → (cstr s).isPrefixOf name →
      cstr _ <+: name :=
    fun s hs hn => hs.trans (List.isPrefixOf_iff_prefix.mp hn)
  rw [xkalgBase] at h
  by_cases h1 : (cstr "x509v3-ecdsa-sha2-").isPrefixOf name
  · exact hp _ (by decide) h1
  by_cases h2 : (cstr "x509v3-ssh-rsa").isPrefixOf name
  · exact hp _ (by decide) h2
  by_cases h3 : name = cstr "x509v3-rsa2048-sha256"
  · rw [h3]
    decide
  by_cases h4 : (cstr "x509v3-sign-rsa").isPrefixOf name
  · exact hp _ (by decide) h4
  by_cases h5 : (cstr "x509v3-ssh-dss").isPrefixOf name
  · exact hp _ (by decide) h5
  by_cases h6 : (cstr "x509v3-sign-dss").isPrefixOf name
  · exact hp _ (by decide) h6
  · rw [if_neg h1,if_neg h2,if_neg h3,if_neg h4,if_neg h5,if_neg h6] at h
    cases h

lemma newXkalg_ok {mdname : Bytes} {signame : Option Bytes} {p : SshX509KeyAlg}
    (h : newXkalg name mdname signame = .ok p) :
    xkalgBase p.name = .ok (p.basetype,p.subtype,p.chain) ∧ p.name = name ∧
      x509pubalgSigname p = signame.getD name := by
  rw [newXkalg] at h
  cases hb : xkalgBase name with
  | error e => simp [hb] at h
  | ok b =>
    cases hd : sshX509keyAlgDigest mdname with
    | none => simp [hb,hd] at h
    | some d =>
      simp only [hb,hd,Except.ok.injEq] at h
      rw [← h]
      exact ⟨hb,rfl,rfl⟩

lemma splitComma_some {s a b : Bytes} (h : splitComma s = some (a,b)) :
    (∀ x ∈ a, x ∈ s) ∧ ∀ x ∈ b, x ∈ s := by
  rw [splitComma] at h
  by_cases hc : 44 ∈ s
  · rw [if_pos hc] at h
    obtain ⟨rfl,rfl⟩ := h
    refine ⟨fun x hx => (takeWhile_sublist _).mem hx,fun x hx => ?_⟩
    exact (dropWhile_sublist _).mem ((drop_sublist _ _).mem hx)
  · rw [if_neg hc] at h
    cases h

lemma splitLine_some {data mdname : Bytes} {signame : Option Bytes}
    (h : splitLine data = some (name,mdname,signame)) : 0 ∉ name ∧ 0 ∉ signame.getD name := by
  have hnul : ∀ x ∈ Sshbuf.untilNul data, x ≠ 0 := by
    intro x hx
    simpa using mem_takeWhile_imp hx
  obtain ⟨⟨n,rest⟩,hs,hl⟩ := Option.map_eq_some_iff.mp h
  obtain ⟨hn,hrest⟩ := splitComma_some hs
  have hn0 : 0 ∉ n := fun h0 => hnul 0 (hn 0 h0) rfl
  cases hc : splitComma rest with
  | none =>
    simp only [hc] at hl
    obtain ⟨rfl,-,rfl⟩ := hl
    exact ⟨hn0,hn0⟩
  | some ms =>
    simp only [hc] at hl
    obtain ⟨rfl,-,rfl⟩ := hl
    exact ⟨hn0,fun h0 => hnul 0 (hrest 0 ((splitComma_some hc).2 0 h0)) rfl⟩

/-- The named entries of `x509keyalgs`. Type, curve and format of an entry go by its name,
and the names are C strings. -/
structure XkalgTable where
  algs : List SshX509KeyAlg
  slots : algs.length ≤ 20
  based : ∀ p ∈ algs, xkalgBase p.name = .ok (p.basetype,p.subtype,p.chain)
  cstrings : ∀ p ∈ algs, 0 ∉ p.name ∧ 0 ∉ x509pubalgSigname p

def sshAddX509keyAlg (data : Bytes) (t : XkalgTable) : Except AddFailure XkalgTable :=
  match hl : splitLine data with
  | none => .error .refused
  | some (name,mdname,signame) =>
    if hs : t.algs.length < 20 then
      match hp : newXkalg name mdname signame with
      | .error e => .error e
      | .ok p => .ok
        { algs := t.algs ++ [p]
          slots := by
            rw [length_append,length_singleton]
            exact hs
          based := by
            intro q hq
            rcases mem_append.mp hq with hq | hq
            · exact t.based q hq
            · rw [mem_singleton.mp hq]
              exact (newXkalg_ok hp).1
          cstrings := by
            intro q hq
            rcases mem_append.mp hq with hq | hq
            · exact t.cstrings q hq
            · rw [mem_singleton.mp hq,(newXkalg_ok hp).2.1,(newXkalg_ok hp).2.2]
              exact splitLine_some hl }
    else .error .refused

def emptyXkalg : XkalgTable := ⟨[],by decide,by simp,by simp⟩

def defaultLines : List Bytes :=
  [cstr "x509v3-ecdsa-sha2-nistp256,ssh-sha256,ecdsa-sha2-nistp256",
   cstr "x509v3-ecdsa-sha2-nistp384,ssh-sha384,ecdsa-sha2-nistp384",
   cstr "x509v3-ecdsa-sha2-nistp521,ssh-sha512,ecdsa-sha2-nistp521",
   cstr "x509v3-sign-rsa,rsa-sha1",
   cstr "x509v3-sign-rsa,rsa-md5",
   cstr "x509v3-ssh-rsa,rsa-sha1,ssh-rsa",
   cstr "x509v3-rsa2048-sha256,rsa2048-sha256,rsa2048-sha256",
   cstr "x509v3-sign-dss,dss-asn1",
   cstr "x509v3-sign-dss,dss-raw",
   cstr "x509v3-ssh-dss,dss-raw,ssh-dss"]

variable (t : XkalgTable)

def addDefaultXkalg : Except AddFailure XkalgTable :=
  defaultLines.foldlM (fun t line =>
    match sshAddX509keyAlg line t with
    | .ok t => .ok t
    | .error _ => .error .fatal) t

def fillDefaultXkalg : Except AddFailure XkalgTable :=
  if t.algs = [] then addDefaultXkalg t else .ok t

def sshXkalgNameind (name : Bytes) (loc : Option Nat) :
    Option (Nat × SshX509KeyAlg) :=
  next t.algs (fun p => p.name = name) loc

def sshXkalgTypeind (type : KeyType) (subtype : Int) (loc : Option Nat) :
    Option (Nat × SshX509KeyAlg) :=
  next t.algs (fun p => sshkeyTypePlain type = p.basetype &&
    !(subtype > 0 && subtype ≠ p.subtype)) loc

inductive X509Format where
  | firstMatch | legacy | rfc6187

def sshXkalgTypeformind (type : KeyType) (subtype : Int)
    (frm : X509Format) : Option (Nat × SshX509KeyAlg) :=
  searchUntil (sshXkalgTypeind t type subtype) (fun p =>
    match frm with
    | .firstMatch => true
    | .legacy => !p.chain
    | .rfc6187 => p.chain) 21 none

def sshIsX509signame (signame : Bytes) : Bool :=
  t.algs.any fun p => signame = x509pubalgSigname p

def sshX509keyName (k : SshKey) : Option Bytes :=
  if sshkeyIsX509 k then
    (sshXkalgTypeind t k.type k.ecdsaNid none).map fun p => p.2.name
  else none

/-- The first entry of the name, by which the sources tell an X.509 key algorithm. -/
def xkalgByName (name : Bytes) : Option SshX509KeyAlg :=
  (sshXkalgNameind t name none).map fun p => p.2

lemma xkalgByName_eq (name : Bytes) :
    xkalgByName t name = t.algs.find? fun p => p.name = name :=
  scan_map_snd _ 0 _

lemma searchUntil_table (p found : SshX509KeyAlg → Bool) :
    (searchUntil (next t.algs p) found 21 none).map Prod.snd =
      t.algs.find? fun a => p a && found a := by
  have hs := t.slots
  exact searchUntil_eq _ p found 21 none (by simp only [start]; omega)

lemma XkalgTable.named {p : SshX509KeyAlg} (h : p ∈ t.algs) :
    cstr "x509v3-" <+: p.name :=
  xkalgBase_named (t.based p h)

lemma xkalgByName_some {t : XkalgTable} {p : SshX509KeyAlg}
    (h : xkalgByName t name = some p) : p ∈ t.algs ∧ p.name = name := by
  rw [xkalgByName_eq] at h
  refine ⟨List.mem_of_find?_eq_some h,?_⟩
  simpa using List.find?_some h

lemma xkalgByName_of_not_x509v3
    (h : ¬ cstr "x509v3-" <+: name) : xkalgByName t name = none := by
  cases hn : xkalgByName t name with
  | none => rfl
  | some p =>
    obtain ⟨hp,rfl⟩ := xkalgByName_some hn
    exact absurd (t.named hp) h

def defaultXkalg : XkalgTable where
  algs :=
    [⟨cstr "x509v3-ecdsa-sha2-nistp256",⟨cstr "ssh-sha256",.sha256,.sshEcdsa⟩,
       some (cstr "ecdsa-sha2-nistp256"),.ecdsa,nidPrime256v1,true⟩,
     ⟨cstr "x509v3-ecdsa-sha2-nistp384",⟨cstr "ssh-sha384",.sha384,.sshEcdsa⟩,
       some (cstr "ecdsa-sha2-nistp384"),.ecdsa,nidSecp384r1,true⟩,
     ⟨cstr "x509v3-ecdsa-sha2-nistp521",⟨cstr "ssh-sha512",.sha512,.sshEcdsa⟩,
       some (cstr "ecdsa-sha2-nistp521"),.ecdsa,nidSecp521r1,true⟩,
     ⟨cstr "x509v3-sign-rsa",⟨cstr "rsa-sha1",.sha1,.evp⟩,none,.rsa,nidNone,false⟩,
     ⟨cstr "x509v3-sign-rsa",⟨cstr "rsa-md5",.md5,.evp⟩,none,.rsa,nidNone,false⟩,
     ⟨cstr "x509v3-ssh-rsa",⟨cstr "rsa-sha1",.sha1,.evp⟩,some (cstr "ssh-rsa"),
       .rsa,nidNone,true⟩,
     ⟨cstr "x509v3-rsa2048-sha256",⟨cstr "rsa2048-sha256",.sha256,.evp⟩,
       some (cstr "rsa2048-sha256"),.rsa,nidNone,true⟩,
     ⟨cstr "x509v3-sign-dss",⟨cstr "dss-asn1",.sha1,.evp⟩,none,.dsa,nidNone,false⟩,
     ⟨cstr "x509v3-sign-dss",⟨cstr "dss-raw",.sha1,.dss1Raw⟩,none,.dsa,nidNone,false⟩,
     ⟨cstr "x509v3-ssh-dss",⟨cstr "dss-raw",.sha1,.dss1Raw⟩,some (cstr "ssh-dss"),
       .dsa,nidNone,true⟩]
  slots := by decide
  based := by decide +kernel
  cstrings := by decide +kernel

example :
    (fillDefaultXkalg emptyXkalg).toOption.map (fun t => t.algs) = some defaultXkalg.algs := by
  decide +kernel

end PkixSsh.X509
