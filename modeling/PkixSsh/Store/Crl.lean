import Mathlib.Data.List.Chain
import PkixSsh.X509.NameMatching
import PkixSsh.Key.Blob

/-!
# Certificate revocation lists

The callback of `x509store.c`, from the root to the leaf: the list that a certificate issues is
checked with its key, and the list of its issuer is searched for its serial number.
-/

namespace PkixSsh.Store

open Key X509 Sshbuf List Option

abbrev Asn1Time := Bytes

structure X509Crl where
  issuer : X509Name
  lastUpdate : Asn1Time
  nextUpdate : Option Asn1Time
  revoked : List Int
  deriving DecidableEq

/-- The functions of OpenSSL that the callback calls. `x509GetKeyUsage` has all bits set for
a certificate without the extension; `x509CmpTime` compares with the time of the system if it
is given none; `crlDistributionPoints` tells whether `X509_get_ext_by_NID` finds that
extension. -/
structure StoreSsl where
  x509NameCmp : X509Name → X509Name → Int
  x509GetIssuerName : X509Cert → X509Name
  x509GetSerialNumber : X509Cert → Int
  x509GetKeyUsage : X509Cert → UInt32
  x509GetPubkey : X509Cert → Option EvpPkey
  x509CrlVerify : X509Crl → EvpPkey → Int
  x509CmpTime : Asn1Time → Option Int → Int
  crlDistributionPoints : X509Cert → Bool
  sshX509IsSelfsigned : X509Cert → Bool

/-- A store of revocation lists. Names that compare equal are looked up alike. -/
structure CrlStore (ssl : StoreSsl) where
  getCrlBySubject : X509Name → Option X509Crl
  byName : ∀ a b, ssl.x509NameCmp a b = 0 → getCrlBySubject a = getCrlBySubject b

/-- `X509_V_ERR_*`, as far as the callback sets them. -/
inductive VerifyError where
  | keyusageNoCrlSign | unableToDecodeIssuerPublicKey | crlSignatureFailure
  | errorInCrlLastUpdateField | crlNotYetValid | errorInCrlNextUpdateField | crlHasExpired
  | certRevoked | unableToGetCrl
  deriving DecidableEq

inductive Call where
  | getKeyUsage (issuer : X509Cert) (usage : UInt32)
  | crlVerify (crl : X509Crl) (pkey : EvpPkey) (result : Int)
  | cmpTime (time : Asn1Time) (checkTime : Option Int) (result : Int)
  | findRevoked (crl : X509Crl) (cert : X509Cert) (found : Bool)
  deriving DecidableEq

/-- What a function returns, with the error it sets and the calls it makes. -/
abbrev Checked := Except Stop (Except (Option VerifyError) Unit × List Call)

/-- What the callback works with. `checkTime` is set with `X509_V_FLAG_USE_CHECK_TIME`. -/
structure VerifyEnv where
  ssl : StoreSsl
  x509revoked : Option (CrlStore ssl)
  mandatoryCrl : Bool
  keyAllowSelfissued : Bool
  checkTime : Option Int

def kuCrlSign : UInt32 := 2

section

variable (env : VerifyEnv)

/-- The comparison of a time of the list, which is wrong if the result is 0 or has the sign
that `late` tells. -/
def checkTimeField (time : Asn1Time) (invalid out : VerifyError) (late : Int → Bool) :
    Except (Option VerifyError) Unit × List Call :=
  let k := env.ssl.x509CmpTime time env.checkTime
  (if k = 0 then .error (some invalid) else if late k then .error (some out) else .ok (),
    [.cmpTime time env.checkTime k])

def checkWindow (crl : X509Crl) : Checked :=
  let last := checkTimeField env crl.lastUpdate .errorInCrlLastUpdateField .crlNotYetValid (0 < ·)
  match last.1 with
  | .error e => .ok (.error e,last.2)
  | .ok () =>
    match crl.nextUpdate with
    | none => .error .nullRead
    | some next =>
      let next := checkTimeField env next .errorInCrlNextUpdateField .crlHasExpired (· < 0)
      .ok (next.1,last.2 ++ next.2)

def sshCheckCrl (issuer : X509Cert) (crl : X509Crl) : Checked :=
  let usage := env.ssl.x509GetKeyUsage issuer
  let calls := [Call.getKeyUsage issuer usage]
  if usage &&& kuCrlSign = 0 then .ok (.error (some .keyusageNoCrlSign),calls)
  else
    match env.ssl.x509GetPubkey issuer with
    | none => .ok (.error (some .unableToDecodeIssuerPublicKey),calls)
    | some pkey =>
      let result := env.ssl.x509CrlVerify crl pkey
      let calls := calls ++ [.crlVerify crl pkey result]
      if result ≤ 0 then .ok (.error (some .crlSignatureFailure),calls)
      else do
        let (r,window) ← checkWindow env crl
        return (r,calls ++ window)

def sshIsCertRevoked (crl : X509Crl) (cert : X509Cert) :
    Except (Option VerifyError) Unit × List Call :=
  let found := env.ssl.x509GetSerialNumber cert ∈ crl.revoked
  (if found then .error (some .certRevoked) else .ok (),[.findRevoked crl cert found])

/-- The list that a certificate issues is checked, or it must not be missing. -/
def checkIssued (store : CrlStore env.ssl) (cert : X509Cert) : Checked :=
  match store.getCrlBySubject cert.subject with
  | some crl => sshCheckCrl env cert crl
  | none =>
    if env.mandatoryCrl && env.ssl.crlDistributionPoints cert then
      .ok (.error (some .unableToGetCrl),[])
    else .ok (.ok (),[])

def checkSerial (store : CrlStore env.ssl) (cert : X509Cert) :
    Except (Option VerifyError) Unit × List Call :=
  match store.getCrlBySubject (env.ssl.x509GetIssuerName cert) with
  | some crl => sshIsCertRevoked env crl cert
  | none => (.ok (),[])

def sshX509revokedCb (ok : Bool) (cert : Option X509Cert) : Checked :=
  if !ok then .ok (.error none,[])
  else
    match env.x509revoked, cert with
    | none, _ => .ok (.ok (),[])
    | some _, none => .ok (.error none,[])
    | some store, some cert => do
      let (r,calls) ← checkIssued env store cert
      match r with
      | .error e => return (.error e,calls)
      | .ok () =>
        let (r,found) := checkSerial env store cert
        return (r,calls ++ found)

/-- `ssh_x509store_cb`; `selfSigned` stands for `X509_V_ERR_DEPTH_ZERO_SELF_SIGNED_CERT`. -/
def sshX509storeCb (ok selfSigned : Bool) (cert : Option X509Cert) : Checked :=
  if !ok && selfSigned && env.keyAllowSelfissued && cert.any env.ssl.sshX509IsSelfsigned then
    .ok (.ok (),[])
  else if !ok then .ok (.error none,[])
  else sshX509revokedCb env ok cert

/-- `X509_verify_cert` goes through a valid chain from the root, until a call refuses. -/
def verifyChain : List X509Cert → Checked
  | [] => .ok (.ok (),[])
  | cert :: chain => do
    let (r,calls) ← sshX509storeCb env true false (some cert)
    match r with
    | .error e => return (.error e,calls)
    | .ok () =>
      let (r,later) ← verifyChain chain
      return (r,calls ++ later)

def crlOf (name : X509Name) : Option X509Crl :=
  env.x509revoked.bind fun store => store.getCrlBySubject name

end

section

variable {env : VerifyEnv}

/-- The list is checked with the certificate: the use of its key for lists, the signature, and the
times. -/
structure CheckedBy (env : VerifyEnv) (issuer : X509Cert) (crl : X509Crl) (calls : List Call) :
    Prop where
  usage : ∃ usage, .getKeyUsage issuer usage ∈ calls ∧ usage &&& kuCrlSign ≠ 0
  signature : ∃ pkey result, env.ssl.x509GetPubkey issuer = some pkey ∧
    .crlVerify crl pkey result ∈ calls ∧ 0 < result
  lastUpdate : ∃ k, .cmpTime crl.lastUpdate env.checkTime k ∈ calls ∧ k < 0
  nextUpdate : ∃ next k, crl.nextUpdate = some next ∧ .cmpTime next env.checkTime k ∈ calls ∧ 0 < k

variable {cert issuer : X509Cert} {crl : X509Crl} {calls : List Call}

lemma CheckedBy.mono {calls' : List Call} (h : CheckedBy env issuer crl calls)
    (hsub : calls ⊆ calls') : CheckedBy env issuer crl calls' := by
  obtain ⟨⟨usage,hu,hu'⟩,⟨pkey,result,hp,hr,hr'⟩,⟨k,hk,hk'⟩,⟨next,j,hn,hj,hj'⟩⟩ := h
  exact ⟨⟨usage,hsub hu,hu'⟩,⟨pkey,result,hp,hsub hr,hr'⟩,⟨k,hsub hk,hk'⟩,⟨next,j,hn,hsub hj,hj'⟩⟩

lemma sshX509storeCb_true (cert : Option X509Cert) :
    sshX509storeCb env true false cert = sshX509revokedCb env true cert := by
  rw [sshX509storeCb,if_neg (by simp),if_neg (by simp)]

variable {chain : List X509Cert}

lemma verifyChain_cons {log : List Call} :
    verifyChain env (cert :: chain) = .ok (.ok (),log) ↔
      ∃ calls later, sshX509revokedCb env true (some cert) = .ok (.ok (),calls) ∧
        verifyChain env chain = .ok (.ok (),later) ∧ log = calls ++ later := by
  rw [verifyChain,sshX509storeCb_true]
  constructor
  · intro h
    obtain ⟨⟨r,calls⟩,hcb,h⟩ := bind_eq_ok.mp h
    cases r with
    | error e => cases h
    | ok =>
      obtain ⟨⟨r,later⟩,hlater,h⟩ := bind_eq_ok.mp h
      cases h
      exact ⟨calls,later,hcb,hlater,rfl⟩
  · rintro ⟨calls,later,hcb,hlater,rfl⟩
    rw [hcb]
    rw [hlater]
    rfl

end

/-- A chain from its root: the first certificate is issued by itself, each other one by the
certificate before. -/
def IssuedInOrder (env : VerifyEnv) (chain : List X509Cert) : Prop :=
  (∀ root ∈ chain.head?, env.ssl.x509NameCmp (env.ssl.x509GetIssuerName root) root.subject = 0) ∧
    chain.IsChain fun issuer cert =>
      env.ssl.x509NameCmp (env.ssl.x509GetIssuerName cert) issuer.subject = 0

instance (env : VerifyEnv) (chain : List X509Cert) : Decidable (IssuedInOrder env chain) :=
  inferInstanceAs (Decidable (_ ∧ _))

def commonName (cn : String) : X509Name := [commonNameEntry .utf8String cn]

def exampleCert (cn : String) : X509Cert := ⟨commonName cn,cstr cn⟩

def exampleChain : List X509Cert := [exampleCert "root",exampleCert "leaf"]

def exampleCrl : X509Crl := ⟨commonName "root",[1],some [3],[99]⟩

def exampleStoreSsl (cdp : X509Cert → Bool) : StoreSsl :=
  { x509NameCmp := fun a b => if a = b then 0 else 1
    x509GetIssuerName := fun _ => commonName "root"
    x509GetSerialNumber := fun cert => cert.der.length
    x509GetKeyUsage := fun _ => 6
    x509GetPubkey := fun _ => some .other
    x509CrlVerify := fun _ _ => 1
    x509CmpTime := fun time _ => if time = [1] then -1 else 1
    crlDistributionPoints := cdp
    sshX509IsSelfsigned := fun _ => false }

def exampleVerify (cdp : X509Cert → Bool) : VerifyEnv :=
  { ssl := exampleStoreSsl cdp
    x509revoked := some
      { getCrlBySubject := fun name => if name = commonName "root" then some exampleCrl else none
        byName := by
          intro a b h
          by_cases hab : a = b
          · rw [hab]
          · simp [exampleStoreSsl,hab] at h }
    mandatoryCrl := true
    keyAllowSelfissued := false
    checkTime := none }

def exampleRootCalls : List Call :=
  [.getKeyUsage (exampleCert "root") 6,.crlVerify exampleCrl .other 1,.cmpTime [1] none (-1),
    .cmpTime [3] none 1,.findRevoked exampleCrl (exampleCert "root") false]

section

variable {env : VerifyEnv}

def Accepted (env : VerifyEnv) (chain : List X509Cert) : Prop :=
  ∃ log, verifyChain env chain = .ok (.ok (),log)

lemma accepted_iff_forall : Accepted env chain ↔
      ∀ cert ∈ chain, ∃ calls, sshX509revokedCb env true (some cert) = .ok (.ok (),calls) := by
  induction chain with
  | nil => exact ⟨nofun,fun _ => ⟨[],rfl⟩⟩
  | cons cert chain ih =>
    rw [forall_mem_cons,← ih]
    constructor
    · rintro ⟨log,h⟩
      obtain ⟨calls,later,hcb,hlater,-⟩ := verifyChain_cons.mp h
      exact ⟨⟨calls,hcb⟩,later,hlater⟩
    · rintro ⟨⟨calls,hcb⟩,later,hlater⟩
      exact ⟨calls ++ later,verifyChain_cons.mpr ⟨calls,later,hcb,hlater,rfl⟩⟩

/-- The lists of a store are in order: what a certificate of the chain issues passes
`ssh_check_crl`, and no certificate of the chain is listed. -/
structure ListsInOrder (env : VerifyEnv) (chain : List X509Cert) : Prop where
  store : env.x509revoked.isSome
  pass : ∀ cert ∈ chain, ∀ crl, crlOf env cert.subject = some crl →
    ∃ calls, sshCheckCrl env cert crl = .ok (.ok (),calls)
  unlisted : ∀ cert ∈ chain, ∀ crl, crlOf env (env.ssl.x509GetIssuerName cert) = some crl →
    env.ssl.x509GetSerialNumber cert ∉ crl.revoked

lemma ListsInOrder.accepts_iff (h : ListsInOrder env chain)
    (hm : env.mandatoryCrl = true) {cert : X509Cert} (hcert : cert ∈ chain) :
    (∃ calls, sshX509revokedCb env true (some cert) = .ok (.ok (),calls)) ↔
      (env.ssl.crlDistributionPoints cert → (crlOf env cert.subject).isSome) := by
  obtain ⟨store,hstore⟩ := isSome_iff_exists.mp h.store
  have hof : ∀ name, crlOf env name = store.getCrlBySubject name := by
    intro name
    rw [crlOf,hstore]
    rfl
  have hserial : (checkSerial env store cert).1 = .ok () := by
    rw [checkSerial]
    cases hcrl : store.getCrlBySubject _ with
    | none => rfl
    | some crl => exact if_neg (h.unlisted cert hcert crl ((hof _).trans hcrl))
  simp only [sshX509revokedCb,hstore,hof]
  cases hcrl : store.getCrlBySubject _ with
  | some crl =>
    obtain ⟨calls,hcalls⟩ := h.pass cert hcert crl ((hof _).trans hcrl)
    simp only [checkIssued,hcrl,hcalls,isSome_some,implies_true,iff_true]
    exact ⟨_,by rw [hserial]; rfl⟩
  | none =>
    simp only [checkIssued,hcrl,hm]
    by_cases hcdp : env.ssl.crlDistributionPoints cert = true
    · simp [hcdp]
    · simp only [hcdp,Bool.false_eq_true,false_imp_iff,iff_true]
      exact ⟨_,by rw [hserial]; rfl⟩

/-- With MandatoryCRL a chain is accepted when the certificates with distribution points have lists
under their subjects, not under their issuers. -/
theorem accepted_iff_issued_lists {chain : List X509Cert} (hm : env.mandatoryCrl = true)
    (h : ListsInOrder env chain) :
    (Accepted env chain ↔ ∀ cert ∈ chain, env.ssl.crlDistributionPoints cert →
        (crlOf env (env.ssl.x509GetIssuerName cert)).isSome) ↔
      ((∀ cert ∈ chain, env.ssl.crlDistributionPoints cert → (crlOf env cert.subject).isSome) ↔
        ∀ cert ∈ chain, env.ssl.crlDistributionPoints cert →
          (crlOf env (env.ssl.x509GetIssuerName cert)).isSome) := by
  have haccepted : Accepted env chain ↔ ∀ cert ∈ chain, env.ssl.crlDistributionPoints cert →
      (crlOf env cert.subject).isSome := by
    rw [accepted_iff_forall]
    exact forall₂_congr fun cert hcert => h.accepts_iff hm hcert
  rw [haccepted]

end

lemma listsInOrder_example (cdp : X509Cert → Bool) :
    ListsInOrder (exampleVerify cdp) exampleChain := by
  have hof : ∀ name crl, crlOf (exampleVerify cdp) name = some crl →
      name = commonName "root" ∧ crl = exampleCrl := by
    intro name crl h
    change (if name = commonName _ then some _ else none) = some crl at h
    split_ifs at h with hname
    exact ⟨hname,(Option.some.inj h).symm⟩
  refine ⟨rfl,fun cert hcert crl hcrl => ?_,fun cert hcert crl hcrl => ?_⟩
  · obtain ⟨-,rfl⟩ := hof _ _ hcrl
    have hsign : ¬ (6) &&& kuCrlSign = 0 := by decide
    simp [sshCheckCrl,checkWindow,checkTimeField,exampleVerify,exampleStoreSsl,exampleCrl,hsign]
  · obtain ⟨-,rfl⟩ := hof _ _ hcrl
    change (cert.der.length : Int) ∉ [99]
    simp only [exampleChain,mem_cons,not_mem_nil,or_false] at hcert
    rcases hcert with rfl | rfl
    · decide +kernel
    · decide +kernel

/-- Distribution points in the root only. -/
theorem accepted_iff_issued_lists_root :
    Accepted (exampleVerify fun cert => cert.der = cstr "root") exampleChain := by
  have hroot : ∀ cert ∈ exampleChain, cert.der = cstr "root" →
      cert.subject = commonName "root" := by
    decide +kernel
  refine ((accepted_iff_issued_lists rfl (listsInOrder_example _)).mpr ?_).mpr ?_
  · refine iff_of_true (fun cert hcert hcdp => ?_) fun cert _ _ => rfl
    rw [hroot cert hcert (of_decide_eq_true hcdp)]
    rfl
  · exact fun cert _ _ => rfl

/-- A leaf with distribution points, whose issuer's list is there, is refused, as the leaf
issues no list. -/
theorem accepted_leaf_without_list : IssuedInOrder (exampleVerify fun _ => true) exampleChain ∧
      ListsInOrder (exampleVerify fun _ => true) exampleChain ∧
      (∀ cert ∈ exampleChain, (crlOf (exampleVerify fun _ => true)
        ((exampleVerify fun _ => true).ssl.x509GetIssuerName cert)).isSome) ∧
      ∃ log, verifyChain (exampleVerify fun _ => true) exampleChain =
        .ok (.error (some .unableToGetCrl),log) :=
  ⟨by decide +kernel,listsInOrder_example _,fun _ _ => rfl,exampleRootCalls,by decide +kernel⟩

end PkixSsh.Store
