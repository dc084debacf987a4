import PkixSsh.X509.Xkalg

/-!
# Algorithms of the transport

The tables of key exchange methods, ciphers and message authentication codes, as a build
with OpenSSL and zlib has them, and the functions that search them.
-/

namespace PkixSsh.Kex

open X509 Key

inductive SshDigest where
  | md5 | sha1 | sha256 | sha384 | sha512
  deriving DecidableEq

def SshDigest.bytes : SshDigest → Nat
  | .md5 => 16
  | .sha1 => 20
  | .sha256 => 32
  | .sha384 => 48
  | .sha512 => 64

inductive KexExchange where
  | dhGrp1Sha1 | dhGrp14Sha1 | dhGrp14Sha256 | dhGrp16Sha512 | dhGrp18Sha512
  | dhGexSha1 | dhGexSha256 | ecdhSha2 | c25519Sha256 | kemSntrup4591761X25519Sha512
  deriving DecidableEq

structure Kexalg where
  name : Bytes
  type : KexExchange
  ecNid : Int
  hashAlg : SshDigest

def kexalgs : List Kexalg :=
  [⟨cstr "diffie-hellman-group1-sha1",.dhGrp1Sha1,0,.sha1⟩,
   ⟨cstr "diffie-hellman-group14-sha1",.dhGrp14Sha1,0,.sha1⟩,
   ⟨cstr "diffie-hellman-group14-sha256",.dhGrp14Sha256,0,.sha256⟩,
   ⟨cstr "diffie-hellman-group16-sha512",.dhGrp16Sha512,0,.sha512⟩,
   ⟨cstr "diffie-hellman-group18-sha512",.dhGrp18Sha512,0,.sha512⟩,
   ⟨cstr "diffie-hellman-group-exchange-sha1",.dhGexSha1,0,.sha1⟩,
   ⟨cstr "diffie-hellman-group-exchange-sha256",.dhGexSha256,0,.sha256⟩,
   ⟨cstr "ecdh-sha2-nistp256",.ecdhSha2,nidPrime256v1,.sha256⟩,
   ⟨cstr "ecdh-sha2-nistp384",.ecdhSha2,nidSecp384r1,.sha384⟩,
   ⟨cstr "ecdh-sha2-nistp521",.ecdhSha2,nidSecp521r1,.sha512⟩,
   ⟨cstr "curve25519-sha256",.c25519Sha256,0,.sha256⟩,
   ⟨cstr "curve25519-sha256@libssh.org",.c25519Sha256,0,.sha256⟩]

def kexAlgByName (name : Bytes) : Option Kexalg := kexalgs.find? fun k => k.name = name

/-- `struct sshcipher`, with its flags `CFLAG_CBC` and `CFLAG_CHACHAPOLY`. -/
structure Sshcipher where
  name : Bytes
  blockSize : Nat
  keyLen : Nat
  ivLen : Nat
  authLen : Nat
  cbc : Bool
  chachapoly : Bool
  deriving DecidableEq

def ciphers : List Sshcipher :=
  [⟨cstr "3des-cbc",8,24,0,0,true,false⟩,
   ⟨cstr "aes128-cbc",16,16,0,0,true,false⟩,
   ⟨cstr "aes192-cbc",16,24,0,0,true,false⟩,
   ⟨cstr "aes256-cbc",16,32,0,0,true,false⟩,
   ⟨cstr "rijndael-cbc@lysator.liu.se",16,32,0,0,true,false⟩,
   ⟨cstr "aes128-ctr",16,16,0,0,false,false⟩,
   ⟨cstr "aes192-ctr",16,24,0,0,false,false⟩,
   ⟨cstr "aes256-ctr",16,32,0,0,false,false⟩,
   ⟨cstr "aes128-gcm@openssh.com",16,16,12,16,false,false⟩,
   ⟨cstr "aes256-gcm@openssh.com",16,32,12,16,false,false⟩,
   ⟨cstr "chacha20-poly1305@openssh.com",8,64,0,16,false,true⟩,
   ⟨cstr "none",8,0,0,0,false,false⟩]

def cipherByName (name : Bytes) : Option Sshcipher := ciphers.find? fun c => c.name = name

def cipherSeclen (c : Sshcipher) : Nat := if c.name = cstr "3des-cbc" then 14 else c.keyLen

def cipherIvlen (c : Sshcipher) : Nat :=
  if c.ivLen ≠ 0 ∨ c.chachapoly then c.ivLen else c.blockSize

/-- What a message authentication code is made of: a digest, or UMAC with the length of
its key and its tag in bits. -/
inductive MacType where
  | digest (alg : SshDigest)
  | umac (keyLen len : Nat)
  | umac128 (keyLen len : Nat)
  deriving DecidableEq

structure Macalg where
  name : Bytes
  type : MacType
  truncatebits : Nat
  etm : Bool

def macs : List Macalg :=
  [⟨cstr "hmac-sha1",.digest .sha1,0,false⟩,
   ⟨cstr "hmac-sha1-96",.digest .sha1,96,false⟩,
   ⟨cstr "hmac-sha2-256",.digest .sha256,0,false⟩,
   ⟨cstr "hmac-sha2-512",.digest .sha512,0,false⟩,
   ⟨cstr "hmac-md5",.digest .md5,0,false⟩,
   ⟨cstr "hmac-md5-96",.digest .md5,96,false⟩,
   ⟨cstr "umac-64@openssh.com",.umac 128 64,0,false⟩,
   ⟨cstr "umac-128@openssh.com",.umac128 128 128,0,false⟩,
   ⟨cstr "hmac-sha1-etm@openssh.com",.digest .sha1,0,true⟩,
   ⟨cstr "hmac-sha1-96-etm@openssh.com",.digest .sha1,96,true⟩,
   ⟨cstr "hmac-sha2-256-etm@openssh.com",.digest .sha256,0,true⟩,
   ⟨cstr "hmac-sha2-512-etm@openssh.com",.digest .sha512,0,true⟩,
   ⟨cstr "hmac-md5-etm@openssh.com",.digest .md5,0,true⟩,
   ⟨cstr "hmac-md5-96-etm@openssh.com",.digest .md5,96,true⟩,
   ⟨cstr "umac-64-etm@openssh.com",.umac 128 64,0,true⟩,
   ⟨cstr "umac-128-etm@openssh.com",.umac128 128 128,0,true⟩]

def strcaseeq (a b : Bytes) : Bool := a.map tolower = b.map tolower

/-- `sshkey_type_from_name`. Short names are accepted for the plain types only. -/
def sshkeyTypeFromName (t : XkalgTable) (name : Bytes) : KeyType :=
  match xkalgByName t name with
  | some p => p.basetype
  | none =>
    match keytypes.find? fun kt =>
        kt.name = name || (!kt.cert && strcaseeq kt.shortname name) with
    | some kt => kt.type
    | none => .unspec

end PkixSsh.Kex
