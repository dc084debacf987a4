import PkixSsh.Krl.Generate

/-!
# Reading revocation lists

The check of a key and the reader of lists, which verifies the signatures in a first pass. Sections
are read to their end, except for ranges and bitmaps of serials.
-/

namespace PkixSsh.Krl

open Key X509 Sshbuf IntervalList List

inductive DigestAlg where
  | sha1 | sha256

structure CertFields where
  keyId : CString
  serial : UInt64
  signatureKey : SshKey

structure Env where
  ssl : Openssl
  codec : Codec
  sshkeyFingerprintRaw : SshKey → DigestAlg → Except SshErr Bytes
  certFields : SshKey → CertFields
  sshkeyVerify : SshKey → Bytes → Bytes → Except SshErr Unit

/-- `revoked_certs_for_ca_key` that creates no entry. -/
def revokedCertsForCaKey (ssl : Openssl) (krl : SshKrl) (ca : Option SshKey) :
    Option RevokedCerts :=
  krl.revokedCerts.find? fun rc => matchesCa ssl rc.caKey ca

def KeyIdTree.find (t : KeyIdTree) (keyId : CString) : Bool :=
  SortedTree.find keyIdCmp keyId t.keyIds

def SerialTree.find (t : SerialTree) (serial : Nat) : Bool :=
  SortedTree.find serialCmp ⟨serial,serial,Nat.le_refl _⟩ t.ranges

def BlobTree.find {n : Nat} (t : BlobTree n) (blob : Bytes) : Bool :=
  SortedTree.find blobCmp blob t.blobs

section

variable (env : Env)

def isCertRevoked (key : SshKey) (rc : RevokedCerts) : Except SshErr Unit :=
  if rc.revokedKeyIds.find (env.certFields key).keyId then .error .keyRevoked
  else if (env.certFields key).serial = 0 then .ok ()
  else if rc.revokedSerials.find (env.certFields key).serial.toNat then .error .keyRevoked
  else .ok ()

variable (ca : Option SshKey) (krl : SshKrl) (buf : Bytes)

def isKeyRevoked (key : SshKey) : Except SshErr Unit := do
  let sha1 ← env.sshkeyFingerprintRaw key .sha1
  if krl.revokedSha1s.find sha1 then .error .keyRevoked
  let sha256 ← env.sshkeyFingerprintRaw key .sha256
  if krl.revokedSha256s.find sha256 then .error .keyRevoked
  let blob ← plainKeyBlob env.codec key
  if krl.revokedKeys.find blob then .error .keyRevoked
  if !sshkeyIsCert key then .ok ()
  else
    ((revokedCertsForCaKey env.ssl krl (some (env.certFields key).signatureKey)).elim (.ok ())
      (isCertRevoked env key))
    (revokedCertsForCaKey env.ssl krl none).elim (.ok ()) (isCertRevoked env key)

def sshKrlCheckKey (key : SshKey) : Except SshErr Unit := do
  isKeyRevoked env krl key
  if sshkeyIsCert key then isKeyRevoked env krl (env.certFields key).signatureKey else .ok ()

def parseSerialList (subsect : Bytes) : Except SshErr SshKrl :=
  untilEmpty (fun krl subsect => do
    let (serial,subsect) ← getU64 subsect
    let krl ← sshKrlRevokeCertBySerial env.ssl krl ca serial.toUInt64
    return (krl,subsect)) krl subsect

def parseSerialRange : Get SshKrl := fun subsect => do
  let (serialLo,subsect) ← getU64 subsect
  let (serialHi,subsect) ← getU64 subsect
  let krl ← sshKrlRevokeCertBySerialRange env.ssl krl ca serialLo.toUInt64 serialHi.toUInt64
  return (krl,subsect)

def revokeBit (serialLo : UInt64) (bitmap : Bitmap) (krl : SshKrl) (serial : Nat)
    : Except SshErr SshKrl :=
  if serial > 0 ∧ serialLo + serial.toUInt64 = 0 then .error .invalidFormat
  else if !bitmapTestBit bitmap serial then .ok krl
  else sshKrlRevokeCertBySerial env.ssl krl ca (serialLo + serial.toUInt64)

def parseSerialBitmap : Get SshKrl := fun subsect => do
  let (serialLo,subsect) ← getU64 subsect
  let (blob,subsect) ← getBignum2BytesDirect subsect
  match bitmapFromString bitmapNew blob with
  | none => .error .invalidFormat
  | some bitmap =>
    let krl ← (range (bitmapNbits bitmap)).foldlM
      (revokeBit env ca serialLo.toUInt64 bitmap) krl
    return (krl,subsect)

def parseKeyIds (subsect : Bytes) : Except SshErr SshKrl :=
  untilEmpty (fun krl subsect => do
    let (keyId,subsect) ← getCstring subsect
    let krl ← sshKrlRevokeCertByKeyId env.ssl krl ca keyId
    return (krl,subsect)) krl subsect

/-- The `switch` of `parse_revoked_certs`, with what is left of the section. -/
def parseCertSection (type : UInt8) (krl : SshKrl) : Get SshKrl :=
  fun subsect =>
    if type = SerialSection.list.code then (parseSerialList env ca krl subsect).map (·,[])
    else if type = SerialSection.range.code then parseSerialRange env ca krl subsect
    else if type = SerialSection.bitmap.code then parseSerialBitmap env ca krl subsect
    else if type = certKeyId then (parseKeyIds env ca krl subsect).map (·,[])
    else .error .invalidFormat

def parseCertSections : Except SshErr SshKrl :=
  untilEmpty (fun krl buf => do
    let (type,buf) ← getU8 buf
    let (subsect,buf) ← getString buf
    let (krl,subsect) ← parseCertSection env ca type krl subsect
    if subsect.length > 0 then .error .invalidFormat else return (krl,buf)) krl buf

def parseCa (blob : Bytes) : Except SshErr (Option SshKey) :=
  if blob.length ≠ 0 then (env.codec.sshkeyFromBlob blob).map fun k => some k.1 else .ok none

def parseRevokedCerts : Except SshErr SshKrl := do
  let (blob,buf) ← getString buf
  let (_,buf) ← getString buf
  let ca ← parseCa env blob
  parseCertSections env ca krl buf

def blobSection {expectedLen : Nat} (target : BlobTree expectedLen) (sect : Bytes) :
    Except SshErr (BlobTree expectedLen) :=
  untilEmpty (fun target sect => do
    let (rdata,sect) ← getString sect
    if h : expectedLen = 0 ∨ rdata.length = expectedLen then
      return (revokeBlob target rdata h,sect)
    else .error .invalidFormat) target sect

def verifySignatures (copy : Bytes) : Except SshErr (Bool × List SshKey) :=
  untilEmpty (fun (sigSeen,caUsed) copy => do
    let (type,copy) ← getU8 copy
    let (blob,copy) ← getString copy
    if type ≠ sectionSignature then
      if sigSeen then .error .invalidFormat else return ((sigSeen,caUsed),copy)
    else
      match env.codec.sshkeyFromBlob blob, getString copy with
      | .ok key, .ok (sig,rest) =>
        env.sshkeyVerify key.1 sig (buf.take (buf.length - copy.length))
        if caUsed.any fun k => sshkeyEqual env.ssl k key.1 then .error .invalidFormat
        else return ((true,caUsed ++ [key.1]),rest)
      | _, _ => .error .invalidFormat) (false,[]) copy

/-- The `switch` of the second pass. The string behind a signature key is skipped. -/
def parseSection (type : UInt8) (sect : Bytes) : Get SshKrl := fun copy =>
  if type = sectionCertificates then (parseRevokedCerts env krl sect).map (·,copy)
  else if type = sectionExplicitKey then
    (blobSection krl.revokedKeys sect).map fun t => ({ krl with revokedKeys := t },copy)
  else if type = sectionFingerprintSha1 then
    (blobSection krl.revokedSha1s sect).map fun t => ({ krl with revokedSha1s := t },copy)
  else if type = sectionFingerprintSha256 then
    (blobSection krl.revokedSha256s sect).map fun t => ({ krl with revokedSha256s := t },copy)
  else if type = sectionSignature then (getString copy).map fun (_,copy) => (krl,copy)
  else .error .invalidFormat

def parseSections (copy : Bytes) : Except SshErr SshKrl :=
  untilEmpty (fun krl copy => do
    let (type,copy) ← getU8 copy
    let (sect,copy) ← getString copy
    parseSection env krl type sect copy) krl copy

def checkSigners (caUsed signCaKeys : List SshKey) : Except SshErr Unit :=
  let unrevoked := caUsed.filter fun k => (sshKrlCheckKey env krl k).isOk
  if caUsed ≠ [] ∧ unrevoked = [] then .error .keyRevoked
  else if unrevoked ≠ [] ∧ signCaKeys ≠ [] ∧
      !signCaKeys.any fun ca => unrevoked.any fun k => sshkeyEqual env.ssl k ca then
    .error .signatureInvalid
  else .ok ()

def getHeader : Get SshKrl := fun copy => do
  let (formatVersion,copy) ← getU32 copy
  if formatVersion ≠ krlFormatVersion then .error .invalidFormat
  let (krlVersion,copy) ← getU64 copy
  let (generatedDate,copy) ← getU64 copy
  let (flags,copy) ← getU64 copy
  let (_,copy) ← getString copy
  let (comment,copy) ← getCstring copy
  return ({ sshKrlInit with
    krlVersion := krlVersion.toUInt64
    generatedDate := generatedDate.toUInt64
    flags := flags.toUInt64
    comment := some (strdup comment) },copy)

def sshKrlFromBlob (signCaKeys : List SshKey) : Except SshErr SshKrl :=
  if buf.length < krlMagic.length ∨ buf.take krlMagic.length ≠ krlMagic then .error .krlBadMagic
  else do
    let (krl,copy) ← getHeader (buf.drop krlMagic.length)
    let (_,caUsed) ← verifySignatures env buf copy
    let krl ← parseSections env krl copy
    checkSigners env krl caUsed signCaKeys
    return krl

end

end PkixSsh.Krl
