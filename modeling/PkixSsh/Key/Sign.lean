import PkixSsh.Key.Blob

/-!
# Signatures

`Xkey_sign`, the check of the algorithm a signature names, and the verification for X.509 keys.
OpenSSL and the Ed25519 code are parameters; a key stands for its key pair.
-/

namespace PkixSsh.Key

open X509 Sshbuf FirstMatch BigEndian

/-- Signature primitives.

`evpSignFinal` and `evpVerifyFinal` run over the digest of the data. DSA and ECDSA
signatures are pairs of numbers with one ASN.1 encoding, read by `d2iSig` and written by
`i2dSig`. -/
structure Crypto where
  evpSignFinal : EvpMd → EvpPkey → Bytes → Option Bytes
  evpVerifyFinal : EvpMd → EvpPkey → Bytes → Bytes → Bool
  d2iSig : Bytes → Option (Nat × Nat)
  i2dSig : Nat × Nat → Option Bytes
  ed25519Sign : Ed25519Pk → Bytes → Option Bytes

def shaDigestLength : Nat := 20

def bnNumBytes (n : Nat) : Nat := (bnNumBits n + 7) / 8

def rawSig (r s : Nat) : Bytes :=
  encode shaDigestLength r ++ encode shaDigestLength s

variable (y : Crypto) (k : SshKey) (data : Bytes) (t : XkalgTable) (alg sig : Bytes)

def dss1RawSignFinal (md : EvpMd) (pkey : EvpPkey) (data : Bytes) : Option Bytes := do
  let buf ← y.evpSignFinal md pkey data
  let (r,s) ← y.d2iSig buf
  if bnNumBytes r > shaDigestLength ∨ bnNumBytes s > shaDigestLength then none
  else some (rawSig r s)

def sshEcdsaSignFinal (md : EvpMd) (pkey : EvpPkey) (data : Bytes) : Option Bytes := do
  let buf ← y.evpSignFinal md pkey data
  let (r,s) ← y.d2iSig buf
  (putBignum2 r [] >>= putBignum2 s).toOption

/-- The member `SignFinal` of a digest. -/
def signFinal (dgst : SshX509Md) (pkey : EvpPkey) (data : Bytes) : Option Bytes :=
  match dgst.final with
  | .evp => y.evpSignFinal dgst.evp pkey data
  | .dss1Raw => dss1RawSignFinal y dgst.evp pkey data
  | .sshEcdsa => sshEcdsaSignFinal y dgst.evp pkey data

def dss1RawVerifyFinal (md : EvpMd) (pkey : EvpPkey) (data sigbuf : Bytes) : Bool :=
  if sigbuf.length ≠ 2 * shaDigestLength then false
  else
    let r := decode (sigbuf.take shaDigestLength)
    let s := decode (sigbuf.drop shaDigestLength)
    match y.i2dSig (r,s) with
    | none => false
    | some buf => y.evpVerifyFinal md pkey data buf

/-- `SSH_ECDSA_VerifyFinal`. What follows the two numbers is not looked at. -/
def sshEcdsaVerifyFinal (pr : Process) (md : EvpMd) (pkey : EvpPkey) (data sigblob : Bytes)
    : Bool :=
  if pr.asn1OpaqueEcdsaSignature then y.evpVerifyFinal md pkey data sigblob
  else
    let numbers : Except SshErr (Nat × Nat) := do
      let (r,buf) ← getBignum2BytesDirect sigblob
      let (s,_) ← getBignum2BytesDirect buf
      return (decode r,decode s)
    match numbers with
    | .error _ => false
    | .ok sig =>
      match y.i2dSig sig with
      | none => false
      | some buf => y.evpVerifyFinal md pkey data buf

def verifyFinal (pr : Process) (dgst : SshX509Md) (pkey : EvpPkey) (data sigblob : Bytes) : Bool :=
  match dgst.final with
  | .evp => y.evpVerifyFinal dgst.evp pkey data sigblob
  | .dss1Raw => dss1RawVerifyFinal y dgst.evp pkey data sigblob
  | .sshEcdsa => sshEcdsaVerifyFinal y pr dgst.evp pkey data sigblob

def sshXkalgDgstCompat (opaqueEcdsa : Bool) (dgst : SshX509Md) : SshX509Md :=
  if opaqueEcdsa && dgst.final = .sshEcdsa then { dgst with final := .evp } else dgst

/-- The private key `ssh_x509_sign` takes: the first member that is there. -/
def privkey : Option EvpPkey :=
  match k.rsa, k.dsa, k.ecdsa with
  | some rsa, _, _ => some (.rsa rsa)
  | none, some dsa, _ => some (.dsa dsa)
  | none, none, some ec => some (.ec ec)
  | none, none, none => none

def sigBlob (name value : Bytes) : Except SshErr Bytes := putString name [] >>= putString value

def sshX509Sign (xkalg : SshX509KeyAlg) (opaqueEcdsa : Bool) (k : SshKey) (data : Bytes)
    : Except SshErr Bytes :=
  match privkey k with
  | none => .error .invalidArgument
  | some pkey =>
    if data.length ≥ 2 ^ 32 then .error .invalidFormat
    else
      match signFinal y (sshXkalgDgstCompat opaqueEcdsa xkalg.dgst) pkey data with
      | none => .error .libcryptoError
      | some sig => sigBlob (x509pubalgSigname xkalg) sig

def sshDssSign : Except SshErr Bytes :=
  match k.dsa with
  | none => .error .invalidArgument
  | some dsa =>
    match (y.evpSignFinal .sha1 (.dsa dsa) data).bind y.d2iSig with
    | none => .error .libcryptoError
    | some (r,s) =>
      if bnNumBytes r > shaDigestLength ∨ bnNumBytes s > shaDigestLength then
        .error .internalError
      else sigBlob (cstr "ssh-dss") (rawSig r s)

def sshkeyEcNidToHashAlg (nid : Int) : Option EvpMd :=
  let kbits := sshkeyCurveNidToBits nid
  if kbits = 0 then none
  else if kbits ≤ 256 then some .sha256
  else if kbits ≤ 384 then some .sha384
  else some .sha512

def sshEcdsaSign : Except SshErr Bytes :=
  match k.ecdsa with
  | none => .error .invalidArgument
  | some ec =>
    match sshkeyEcNidToHashAlg k.ecdsaNid with
    | none => .error .internalError
    | some md =>
      match (y.evpSignFinal md (.ec ec) data).bind y.d2iSig with
      | none => .error .libcryptoError
      | some (r,s) => do
        let bb ← putBignum2 r [] >>= putBignum2 s
        sigBlob (sshkeySshNamePlain k) bb

def rsaHashAlgIdent : EvpMd → Bytes
  | .sha256 => cstr "rsa-sha2-256"
  | .sha512 => cstr "rsa-sha2-512"
  | _ => cstr "ssh-rsa"

def rsaHashIdFromIdent (ident : Bytes) : Option EvpMd :=
  if ident = cstr "ssh-rsa" then some .sha1
  else if ident = cstr "rsa-sha2-256" then some .sha256
  else if ident = cstr "rsa-sha2-512" then some .sha512
  else none

def rsaHashIdFromKeyname : Option EvpMd :=
  match rsaHashIdFromIdent alg with
  | some md => some md
  | none =>
    if alg = cstr "ssh-rsa-cert-v01@openssh.com" then some .sha1
    else if alg = cstr "rsa-sha2-256-cert-v01@openssh.com" then some .sha256
    else if alg = cstr "rsa-sha2-512-cert-v01@openssh.com" then some .sha512
    else none

def rsaHashId (algIdent : Bytes) : Option EvpMd :=
  if algIdent = [] then some .sha1 else rsaHashIdFromKeyname algIdent

def sshRsaMinimumModulusSize : Nat := 1024

/-- `ssh_rsa_sign` with a hash that is known. A short value is moved to the right. -/
def sshRsaSignHash (rsa : Rsa) (hashAlg : EvpMd) (data : Bytes) : Except SshErr Bytes :=
  if bnNumBits rsa.n < sshRsaMinimumModulusSize then .error .keyLength
  else
    match y.evpSignFinal hashAlg (.rsa rsa) data with
    | none => .error .libcryptoError
    | some sig =>
      if sig.length > bnNumBytes rsa.n then .error .internalError
      else sigBlob (rsaHashAlgIdent hashAlg)
        (List.replicate (bnNumBytes rsa.n - sig.length) 0 ++ sig)

def sshRsaSign (algIdent : Bytes) : Except SshErr Bytes :=
  match k.rsa with
  | none => .error .invalidArgument
  | some rsa =>
    match rsaHashId algIdent with
    | none => .error .invalidArgument
    | some hashAlg => sshRsaSignHash y rsa hashAlg data

def sshEd25519Sign : Except SshErr Bytes :=
  match k.ed25519Pk with
  | none => .error .invalidArgument
  | some pk =>
    match y.ed25519Sign pk data with
    | none => .error .invalidArgument
    | some sig => sigBlob (cstr "ssh-ed25519") sig

def sshKeyMaxSignDataSize : Nat := 2 ^ 20

/-- `sshkey_sign`. Only RSA looks at the algorithm. -/
def sshkeySign : Except SshErr Bytes :=
  if data.length > sshKeyMaxSignDataSize then .error .invalidArgument
  else
    match k.type with
    | .dsaCert | .dsa => sshDssSign y k data
    | .ecdsaCert | .ecdsa => sshEcdsaSign y k data
    | .rsaCert | .rsa => sshRsaSign y k data alg
    | .ed25519 | .ed25519Cert => sshEd25519Sign y k data
    | _ => .error .keyTypeUnknown

def xkeySign (opaqueEcdsa : Bool) (k : SshKey) (data : Bytes) : Except SshErr Bytes :=
  match xkalgByName t alg with
  | none => sshkeySign y k data alg
  | some xkalg => sshX509Sign y xkalg opaqueEcdsa k data

def sshkeySigalgByName (name : Bytes) : Option Bytes :=
  (keytypes.find? fun kt => kt.name = name).map fun kt =>
    match kt.sigalg with
    | some sigalg => sigalg
    | none => if kt.cert then sshkeySshNameFromTypeNid (sshkeyTypePlain kt.type) kt.nid
      else kt.name

def sshkeySigtype : Except SshErr Bytes := (getCstring sig).map Prod.fst

def sshkeyCheckSigtype (requestedAlg : Bytes) : Except SshErr Unit :=
  match sshkeySigalgByName requestedAlg with
  | none => .error .invalidArgument
  | some expectedAlg => do
    let sigtype ← sshkeySigtype sig
    if expectedAlg = sigtype then .ok () else .error .signAlgUnsupported

def xkeyCheckSigalg : Except SshErr Unit :=
  match xkalgByName t alg with
  | none => sshkeyCheckSigtype sig alg
  | some p => do
    let sigalg ← sshkeySigtype sig
    if x509pubalgSigname p = sigalg then .ok () else .error .signAlgUnsupported

/-- The part of `ssh_x509_verify` that takes a signature apart. The name is compared as a
C string, up to its first NUL. -/
def parseSignature : Except SshErr Bytes := do
  let buf ← put sig []
  let (sigformat,buf) ← getString buf
  if !sshIsX509signame t (untilNul sigformat) then .error .invalidFormat
  else
    let (sigblob,buf) ← getString buf
    if sigblob.length > 0x7fffffff then .error .signatureInvalid
    else if buf ≠ [] then .error .invalidFormat
    else return sigblob

def sshX509Verify (c : Codec) (y : Crypto) (pr : Process) (alg : Bytes) (k : SshKey)
    (sig data : Bytes) : Except Stop Unit :=
  match xkalgByName pr.xkalgs alg with
  | none => .error (.err .invalidArgument)
  | some _ =>
    match k.x509Data with
    | none => .error .nullRead
    | some xd =>
      match xd.cert.bind c.x509GetPubkey with
      | none => .error (.err .invalidArgument)
      | some pubkey =>
        if data.length > 0x7fffffff then .error (.err .invalidArgument)
        else do
          let sigblob ← check (parseSignature pr.xkalgs sig)
          -- every entry of the name is tried, until one of the digests fits
          match searchUntil (sshXkalgNameind pr.xkalgs alg)
              (fun p => verifyFinal y pr p.dgst pubkey data sigblob) 21 none with
          | some _ => return ()
          | none => .error (.err .signatureInvalid)

/-- `Xkey_verify`. Without an algorithm the name of the key is taken; it is left out for a peer with
`SSH_BUG_SIGTYPE`. -/
def xkeyVerify (c : Codec) (y : Crypto) (pr : Process)
    (sshkeyVerify : SshKey → Bytes → Bytes → Option Bytes → Except SshErr Unit)
    (bugSigtype : Bool) (alg : Option Bytes) (k : SshKey) (sig data : Bytes) :
    Except Stop Unit :=
  let alg := alg.getD (sshkeySshName pr.xkalgs k)
  match xkalgByName pr.xkalgs alg with
  | none =>
    check (sshkeyVerify k sig data (if k.type = .rsaCert && bugSigtype then none else some alg))
  | some _ => sshX509Verify c y pr alg k sig data

end PkixSsh.Key
