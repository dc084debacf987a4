import PkixSsh.Key.ReadText
import PkixSsh.Key.Sign
import PkixSsh.Krl.Basic
import PkixSsh.Sshbuf.Codec

/-!
# OpenSSH certificates

`sshkey_certify_custom` writes a certificate, and `sshkey_from_blob` reads it. `HAVE_EVP_SHA256` is
defined.
-/

namespace PkixSsh.Key

open X509 Sshbuf

abbrev CString := Krl.CString

/-- `struct sshkey_cert`. The key ID is set. -/
structure Certificate where
  certblob : Bytes
  type : UInt32
  serial : UInt64
  keyId : CString
  principals : List CString
  validAfter : UInt64
  validBefore : UInt64
  critical : Bytes
  extensions : Bytes
  signatureKey : Option SshKey
  signatureType : Option Bytes
  deriving DecidableEq

/-- A key with its certificate, which stands beside the key here. -/
structure CertKey where
  key : SshKey
  cert : Option Certificate
  bare : key.cert = none
  deriving DecidableEq

def ssh2CertTypeUser : UInt32 := 1
def ssh2CertTypeHost : UInt32 := 2

def sshkeyCertMaxPrincipals : Nat := 256

def sshkeyTypeIsValidCa : KeyType → Bool
  | .rsa | .dsa | .ecdsa | .ed25519 | .xmss => true
  | _ => false

/-- The functions of OpenSSL, the table of X.509 algorithms, and `sshkey_verify` of a signature
over data. -/
structure CertEnv where
  codec : Codec
  xkalgs : XkalgTable
  /-- the group of `EC_KEY_new_by_curve_name` -/
  ecKeyNewByCurveName : Int → Option Nat
  /-- `EC_POINT_oct2point` in a group -/
  ecPointOct2point : Nat → Bytes → Option (Nat × Nat)
  sshkeyVerify : SshKey → Bytes → Bytes → Except SshErr Unit

/-- A read whose every failure is the same to the caller. -/
def orInvalid {α : Type} (x : Except SshErr α) : Except SshErr α :=
  x.mapError fun _ => .invalidFormat

def getBignum2 : Get Nat := fun b => do
  let (d,b) ← getBignum2BytesDirect b
  return (BigEndian.decode d,b)

def sshbufMaxEcpoint : Nat := 528 * 2 / 8 + 1

variable (env : CertEnv)

def pointOfOctets (group : Nat) (d : Bytes) : Except SshErr (Nat × Nat) :=
  if d.length = 0 ∨ d.length > sshbufMaxEcpoint then .error .ecpointTooLarge
  -- `POINT_CONVERSION_UNCOMPRESSED`
  else if d.head? ≠ some 4 then .error .invalidFormat
  else
    match env.ecPointOct2point group d with
    | none => .error .invalidFormat
    | some q => .ok q

def getEc (group : Nat) : Get (Nat × Nat) := fun b => do
  let (d,b) ← getString b
  let q ← pointOfOctets env group d
  return (q,b)

def getRsa : Get SshKey := fun b => do
  let (e,b) ← orInvalid (getBignum2 b)
  let (n,b) ← orInvalid (getBignum2 b)
  -- `sshrsa_check_length`
  if bnNumBits n < 1024 then .error .keyLength
  else .ok ({ sshkeyNew .rsa with rsa := some ⟨n,e⟩ },b)

def getDsa : Get SshKey := fun b => do
  let (p,b) ← orInvalid (getBignum2 b)
  let (q,b) ← orInvalid (getBignum2 b)
  let (g,b) ← orInvalid (getBignum2 b)
  let (pubKey,b) ← orInvalid (getBignum2 b)
  .ok ({ sshkeyNew .dsa with dsa := some ⟨p,q,g,pubKey⟩ },b)

def getEcdsa (nid : Int) : Get SshKey := fun b => do
  let (curve,b) ← orInvalid (getCstring b)
  if nid ≠ (sshkeyCurveNameToNid curve).getD (-1) then .error .ecCurveMismatch
  else
    match env.ecKeyNewByCurveName nid with
    | none => .error .ecCurveInvalid
    | some group => do
      let (q,b) ← orInvalid (getEc env group b)
      if !env.codec.ecValidatePublic ⟨group,some q⟩ then .error .keyInvalidEcValue
      else .ok ({ sshkeyNew .ecdsa with ecdsaNid := nid, ecdsa := some ⟨group,some q⟩ },b)

def getEd25519 : Get SshKey := fun b => do
  let (pk,b) ← getString b
  if h : pk.length = 32 then .ok ({ sshkeyNew .ed25519 with ed25519Pk := some ⟨pk,h⟩ },b)
  else .error .invalidFormat

/-- The cases of the `switch` of `sshkey_from_blob_internal`, behind the nonce of the types of
certificates that fall through to them. -/
def getMaterial (plain : KeyType) (ktype : Bytes) : Get SshKey := fun b =>
  match plain with
  | .rsa => getRsa b
  | .dsa => getDsa b
  | .ecdsa => getEcdsa env (sshkeyEcdsaNidFromName ktype) b
  | .ed25519 => getEd25519 b
  | _ => .error .keyTypeUnknown

/-- `sshkey_from_blob_internal` with what it calls for the certificate. -/
def fromBlobWith (certParse : Bytes → Get Certificate) (allowCert : Bool) (b : Bytes)
    : Except SshErr CertKey := do
  let copy := b
  let (ktype,b) ← orInvalid (getCstring b)
  let type := Kex.sshkeyTypeFromName env.xkalgs ktype
  if !allowCert ∧ sshkeyTypeIsCert type then .error .keyCertInvalidSignKey
  else if sshkeyTypeIsCert type then do
    let (_,b) ← orInvalid (getString b)
    let (key,b) ← getMaterial env (sshkeyTypePlain type) ktype b
    let (cert,b) ← certParse copy b
    if b ≠ [] then .error .invalidFormat
    else .ok ⟨{ key with type := type, cert := none },some cert,rfl⟩
  else do
    let (key,b) ← getMaterial env type ktype b
    if b ≠ [] then .error .invalidFormat
    else .ok ⟨{ key with type := type, cert := none },none,rfl⟩

/-- `sshkey_from_blob_internal` for a key without certificate, which is refused before it is
parsed. -/
def plainFromBlob (b : Bytes) : Except SshErr SshKey :=
  (fromBlobWith env (fun _ _ => .error .internalError) false b).map CertKey.key

/-- The body of a certificate up to the signature, its lists as they stand there. -/
structure CertBody where
  serial : UInt64
  type : UInt32
  keyId : CString
  principals : Bytes
  validAfter : UInt64
  validBefore : UInt64
  critical : Bytes
  extensions : Bytes
  ca : Bytes

def getCertBody : Get CertBody := fun b => do
  let (serial,b) ← getU64 b
  let (type,b) ← getU32 b
  let (keyId,b) ← getCstring b
  let (principals,b) ← getString b
  let (validAfter,b) ← getU64 b
  let (validBefore,b) ← getU64 b
  let (critical,b) ← getString b
  let (extensions,b) ← getString b
  -- reserved
  let (_,b) ← getString b
  let (ca,b) ← getString b
  return ({
    serial := UInt64.ofNat serial
    type := UInt32.ofNat type
    keyId := Krl.strdup keyId
    principals := principals
    validAfter := UInt64.ofNat validAfter
    validBefore := UInt64.ofNat validBefore
    critical := critical
    extensions := extensions
    ca := ca },b)

def getPrincipal (principals : List CString) : Get (List CString) := fun b =>
  if principals.length ≥ sshkeyCertMaxPrincipals then .error .invalidFormat
  else do
    let (principal,b) ← orInvalid (getCstring b)
    return (principals ++ [Krl.strdup principal],b)

/-- One round of the loops that validate critical options and extensions. -/
def skipOption (_ : Unit) : Get Unit := fun b => do
  let (_,b) ← getString b
  let (_,b) ← getString b
  return ((),b)

def certParse (certbuf : Bytes) : Get Certificate := fun b => do
  let certblob ← put certbuf []
  let (body,b) ← orInvalid (getCertBody b)
  let signedLen := certblob.length - b.length
  let (sig,b) ← orInvalid (getString b)
  if body.type ≠ ssh2CertTypeUser ∧ body.type ≠ ssh2CertTypeHost then .error .keyCertUnknownType
  else do
    let principals ← untilEmpty getPrincipal [] body.principals
    let critical ← put body.critical []
    let extensions ← put body.extensions []
    orInvalid (untilEmpty skipOption () body.critical)
    orInvalid (untilEmpty skipOption () body.extensions)
    let signatureKey ← (plainFromBlob env body.ca).mapError fun _ => .keyCertInvalidSignKey
    if !sshkeyTypeIsValidCa signatureKey.type then .error .keyCertInvalidSignKey
    else do
      env.sshkeyVerify signatureKey sig (certblob.take signedLen)
      let signatureType ← sshkeySigtype sig
      return ({
        certblob := certblob
        type := body.type
        serial := body.serial
        keyId := body.keyId
        principals := principals
        validAfter := body.validAfter
        validBefore := body.validBefore
        critical := critical
        extensions := extensions
        signatureKey := some signatureKey
        signatureType := some signatureType },b)

def sshkeyFromBlob (blob : Bytes) : Except SshErr CertKey :=
  if blob.length > sshbufSizeMax then .error .allocFail
  else fromBlobWith env (certParse env) true blob

def putKeyFields (c : Codec) (k : SshKey) (b : Bytes) : Except Stop Bytes :=
  match k.type with
  | .dsaCert =>
    match k.dsa with
    | none => .error .nullRead
    | some dsa =>
      check (putBignum2 dsa.p b >>= putBignum2 dsa.q >>= putBignum2 dsa.g >>=
        putBignum2 dsa.pubKey)
  | .ecdsaCert =>
    match k.ecdsa with
    | none => .error .nullRead
    | some ec => check do
      let b ← putString (sshkeyCurveNidToName k.ecdsaNid) b
      let d ← c.ecPoint ec
      putString d b
  | .rsaCert =>
    match k.rsa with
    | none => .error .nullRead
    | some rsa => check (putBignum2 rsa.e b >>= putBignum2 rsa.n)
  | .ed25519Cert =>
    match k.ed25519Pk with
    | none => .error .nullRead
    | some pk => check (putString pk.1 b)
  | _ => .error (.err .invalidArgument)

def putCertBody (cert : Certificate) (principals ca b : Bytes) : Except SshErr Bytes := do
  let b ← putU64 cert.serial.toNat b
  let b ← putU32 cert.type.toNat b
  let b ← putString cert.keyId.1 b
  let b ← putString principals b
  let b ← putU64 cert.validAfter.toNat b
  let b ← putU64 cert.validBefore.toNat b
  let b ← putString cert.critical b
  let b ← putString cert.extensions b
  -- reserved
  let b ← putString [] b
  putString ca b

/-- The algorithm to sign with: a given one must be that of the certificate if it has one. -/
def certifyAlg (alg signatureType : Option Bytes) (ca : KeyType) : Except SshErr (Option Bytes) :=
  let chosen : Except SshErr (Option Bytes) :=
    match alg, signatureType with
    | none, _ => .ok signatureType
    | some a, some st => if a ≠ st then .error .invalidArgument else .ok (some a)
    | some a, none => .ok (some a)
  chosen.map fun alg => if alg = none ∧ ca = .rsa then some (cstr "rsa-sha2-256") else alg

def certifiedBytes (nonce : Bytes) (k : SshKey) (cert : Certificate) (ca : Bytes)
    : Except Stop Bytes := do
  let b ← check (putString (sshkeySshName env.xkalgs k) [])
  let b ← check (putString nonce b)
  let b ← putKeyFields env.codec k b
  let principals ← check (cert.principals.foldlM (fun b p => putString p.1 b) [])
  check (putCertBody cert principals ca b)

/-- The signature over the bytes and its type, which must be the algorithm. -/
def certifySign (signer : Bytes → Option Bytes → Except SshErr Bytes) (alg : Option Bytes)
    (b : Bytes) : Except SshErr (Bytes × Bytes) := do
  let sig ← signer b alg
  let sigtype ← sshkeySigtype sig
  if alg ≠ none ∧ alg ≠ some sigtype then .error .signAlgUnsupported
  else return (sig,sigtype)

/-- `sshkey_certify_custom` with the bytes of the nonce and the signer of the caller. A call that
fails changes the certificate, too. -/
def sshkeyCertifyCustom (signer : Bytes → Option Bytes → Except SshErr Bytes) (nonce : Bytes)
    (k : CertKey) (ca : SshKey) (alg : Option Bytes) : CertKey × Except Stop Unit :=
  match k.cert with
  | none => (k,.error (.err .invalidArgument))
  | some cert =>
    if !sshkeyIsCert k.key then (k,.error (.err .keyTypeUnknown))
    else if !sshkeyTypeIsValidCa ca.type then (k,.error (.err .keyCertInvalidSignKey))
    else
      match certifyAlg alg cert.signatureType ca.type, toBlobBuf env.codec ca with
      | .error r, _ => (k,.error (.err r))
      | .ok _, .error _ => (k,.error (.err .keyCertInvalidSignKey))
      | .ok alg, .ok caBlob =>
        let signed : Except Stop (Bytes × Bytes × Bytes) := do
          let b ← certifiedBytes env nonce k.key cert caBlob
          let (sig,sigtype) ← check (certifySign signer alg b)
          return (b,sig,sigtype)
        match signed with
        | .error r => ({ k with cert := some { cert with certblob := [] } },.error r)
        | .ok (b,sig,sigtype) =>
          let cert := { cert with signatureType := some (cert.signatureType.getD sigtype) }
          match putString sig b with
          | .error r => ({ k with cert := some { cert with certblob := [] } },.error (.err r))
          | .ok certblob => ({ k with cert := some { cert with certblob := certblob } },.ok ())

end PkixSsh.Key
