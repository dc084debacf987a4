import PkixSsh.Sshbuf.Codec
import PkixSsh.X509.Xkalg

/-!
# Key blobs

The key format of `to_blob_buf`, the DER of a certificate and the certificate list of RFC 6187, and
the functions of `ssh-x509.c` that choose between them.
-/

namespace PkixSsh.Key

open X509 Sshbuf FirstMatch

/-- The key a certificate carries, as `X509_get_pubkey` returns it. -/
inductive EvpPkey where
  | rsa (rsa : Rsa)
  | dsa (dsa : Dsa)
  | ec (ec : EcKey)
  | other
  deriving DecidableEq

/-- The decoders of OpenSSL and the parser of SSH key blobs.

`d2iX509` returns the certificate and what is left of its input. `sshkeyFromBlob` returns
keys with their public key. `ecValidatePublic` tells
whether `sshkey_ec_validate_public` returns 0, and `ecPoint` is the octet string
`sshbuf_put_eckey` writes. -/
structure Codec where
  d2iX509 : Bytes → Option (X509Cert × Bytes)
  x509GetPubkey : X509Cert → Option EvpPkey
  ecdsaKeyToNid : EcKey → Int
  ecValidatePublic : EcKey → Bool
  ecPoint : EcKey → Except SshErr Bytes
  sshkeyFromBlob : Bytes → Except SshErr LoadedKey

/-- What a process knows of X.509 keys: the table of key algorithms and the bits of
`xcompat`. -/
structure Process where
  xkalgs : XkalgTable
  missingKeyIdentifier : Bool
  asn1OpaqueEcdsaSignature : Bool

/-- A call that returns a code, in a function that can also stop in another way. -/
def check {α : Type} (x : Except SshErr α) : Except Stop α := x.mapError .err

variable {α : Type} {c : Codec} {k : SshKey} {blob pkalg : Bytes} {pr : Process}

@[simp] lemma check_ok (a : α) : check (.ok a) = .ok a := rfl

@[simp] lemma check_error (r : SshErr) :
    (check (.error r) : Except Stop α) = .error (.err r) := rfl

@[simp] lemma check_eq_ok {x : Except SshErr α} {a : α} : check x = .ok a ↔ x = .ok a := by
  cases x <;> simp [check,Except.mapError]

def sshkeySshNameFromTypeNid (type : KeyType) (nid : Int) : Bytes :=
  match keytypes.find? fun kt => kt.type = type && (kt.nid = 0 || kt.nid = nid) with
  | some kt => kt.name
  | none => cstr "ssh-unknown"

def sshkeySshName (t : XkalgTable) (k : SshKey) : Bytes :=
  (sshX509keyName t k).getD (sshkeySshNameFromTypeNid k.type k.ecdsaNid)

def sshkeySshNamePlain (k : SshKey) : Bytes :=
  sshkeySshNameFromTypeNid (sshkeyTypePlain k.type) k.ecdsaNid

/-- `sshkey_curve_nid_to_name`, where no name is the empty C string to the caller. -/
def sshkeyCurveNidToName (nid : Int) : Bytes :=
  if nid = nidPrime256v1 then cstr "nistp256"
  else if nid = nidSecp384r1 then cstr "nistp384"
  else if nid = nidSecp521r1 then cstr "nistp521"
  else []

def sshkeyCurveNidToBits (nid : Int) : Nat :=
  if nid = nidPrime256v1 then 256
  else if nid = nidSecp384r1 then 384
  else if nid = nidSecp521r1 then 521
  else 0

def bnNumBits (n : Nat) : Nat := if n = 0 then 0 else n.log2 + 1

def putBignum2 (n : Nat) (buf : Bytes) : Except SshErr Bytes :=
  let len := (bnNumBits n + 7) / 8
  if len > sshbufMaxBignum then .error .invalidArgument
  else putString (bignumBytes (BigEndian.encode len n)) buf

def toBlobBuf (c : Codec) (k : SshKey) : Except SshErr Bytes :=
  if sshkeyIsCert k ∧ k.cert.isNone then .error .expectedCert
  else if sshkeyIsCert k ∧ k.cert.any (·.certblob = []) then .error .keyLacksCertblob
  else
    let typename := sshkeySshNameFromTypeNid k.type k.ecdsaNid
    match k.type with
    | .dsaCert | .ecdsaCert | .rsaCert | .ed25519Cert =>
      match k.cert with
      | some cert => put cert.certblob []
      | none => .error .expectedCert
    | .dsa =>
      match k.dsa with
      | none => .error .invalidArgument
      | some dsa =>
        putString typename [] >>= putBignum2 dsa.p >>= putBignum2 dsa.q >>=
          putBignum2 dsa.g >>= putBignum2 dsa.pubKey
    | .ecdsa =>
      match k.ecdsa with
      | none => .error .invalidArgument
      | some ec => do
        let b ← putString typename [] >>= putString (sshkeyCurveNidToName k.ecdsaNid)
        let d ← c.ecPoint ec
        putString d b
    | .rsa =>
      match k.rsa with
      | none => .error .invalidArgument
      | some rsa => putString typename [] >>= putBignum2 rsa.e >>= putBignum2 rsa.n
    | .ed25519 =>
      match k.ed25519Pk with
      | none => .error .invalidArgument
      | some pk => putString typename [] >>= putString pk.1
    | _ => .error .keyTypeUnknown

def sshkeyPuts (c : Codec) (k : SshKey) (b : Bytes) : Except SshErr Bytes := do
  let d ← toBlobBuf c k
  putString d b

def sshkeyFroms (c : Codec) : Get SshKey := fun b => do
  let (d,b) ← getString b
  let k ← c.sshkeyFromBlob d
  return (k.1,b)

def x509ToKey (c : Codec) (x : X509Cert) : Option SshKey :=
  let key (type : KeyType) : SshKey := { sshkeyNew type with x509Data := some ⟨some x,none⟩ }
  match c.x509GetPubkey x with
  | some (.rsa rsa) => some { key .rsa with rsa := some rsa }
  | some (.dsa dsa) => some { key .dsa with dsa := some dsa }
  | some (.ec ec) =>
    let nid := c.ecdsaKeyToNid ec
    if nid < 0 then none
    else if ec.pubKey.isNone then none
    else if !c.ecValidatePublic ec then none
    else some { key .ecdsa with ecdsaNid := nid, ecdsa := some ec }
  | some .other => none
  | none => none

def x509FromBlob (c : Codec) (blob : Bytes) : Except SshErr X509Cert :=
  if blob = [] then .error .invalidArgument
  else if blob.length > 0x7fffffff then .error .invalidArgument
  else
    match c.d2iX509 blob with
    | none => .error .invalidFormat
    | some (x,rest) => if rest ≠ [] then .error .unexpectedTrailingData else .ok x

def x509keyFromBlob (c : Codec) (blob : Bytes) : Except SshErr SshKey := do
  let x ← x509FromBlob c blob
  match x509ToKey c x with
  | none => .error .allocFail
  | some key => return key

def certOf (k : SshKey) : Option X509Cert := k.x509Data.bind fun xd => xd.cert

def sshX509KeySize (c : Codec) (k : SshKey) : Except Stop Nat :=
  match certOf k with
  | none => .ok 0
  | some x =>
    match c.x509GetPubkey x with
    | none => .ok 0
    | some (.rsa rsa) => .ok (bnNumBits rsa.n)
    | some (.dsa dsa) => .ok (bnNumBits dsa.p)
    | some (.ec ec) => .ok (sshkeyCurveNidToBits (c.ecdsaKeyToNid ec))
    | some .other => .error .fatal

/-- `check_rsa2048_sha256` of an X.509 key. -/
def checkRsa2048Sha256 (c : Codec) (p : SshX509KeyAlg) (k : SshKey) : Except Stop Bool :=
  if k.type ≠ .rsa then .ok true
  else do
    let size ← sshX509KeySize c k
    return !(size < 2048 && p.dgst.evp.size ≥ 32)

def getCerts (c : Codec) : Nat → Get (List X509Cert)
  | 0, b => .ok ([],b)
  | n + 1, b => do
    let (xs,b) ← getString b
    let x ← x509FromBlob c xs
    let (chain,b) ← getCerts c n b
    return (x :: chain,b)

def skipStrings : Nat → Bytes → Except SshErr Bytes
  | 0, b => .ok b
  | n + 1, b => do
    let (_,b) ← getString b
    skipStrings n b

/-- The algorithm identifier at the start of `X509key_from_buf2_common`. -/
def getKeyIdentifier (pr : Process) : Get (Option (Bytes × SshX509KeyAlg)) := fun b =>
  if pr.missingKeyIdentifier then .ok (none,b)
  else
    match getCstring b with
    | .error _ => .error .invalidFormat
    | .ok (pkalg,b) =>
      match searchUntil (sshXkalgNameind pr.xkalgs pkalg) (·.chain) 21 none with
      | none => .error .keyTypeUnknown
      | some (_,xkalg) => .ok (some (pkalg,xkalg),b)

def keyAlgorithm (pr : Process) (key : SshKey) :
    Option (Bytes × SshX509KeyAlg) → Except SshErr (Bytes × SshX509KeyAlg)
  | some (pkalg,xkalg) =>
    if key.type ≠ xkalg.basetype ∨ key.ecdsaNid ≠ xkalg.subtype then .error .keyTypeMismatch
    else .ok (pkalg,xkalg)
  | none =>
    match sshXkalgTypeformind pr.xkalgs key.type key.ecdsaNid .rfc6187 with
    | none => .error .keyTypeUnknown
    | some (_,xkalg) => .ok (xkalg.name,xkalg)

/-- The certificates and OCSP responses of `X509key_from_buf2_common`, behind the first
certificate. -/
def getChain (c : Codec) (nc : Nat) (b : Bytes) : Except SshErr (List X509Cert) := do
  let (chain,b) ← getCerts c (nc - 1) b
  let (no,b) ← getU32 b
  if no > nc then .error .invalidFormat
  else
    let b ← skipStrings no b
    if b ≠ [] then .error .unexpectedTrailingData else return chain

/-- `X509key_from_buf2_common`: the key and the name of its algorithm. -/
def x509keyFromBuf2Common (c : Codec) (pr : Process) (b : Bytes) :
    Except Stop (SshKey × Bytes) := do
  let (named,b) ← check (getKeyIdentifier pr b)
  let (nc,b) ← check (getU32 b)
  if nc > 100 ∨ nc < 1 then .error (.err .invalidFormat)
  else
    let (xs,b) ← check (getString b)
    let x ← check (x509FromBlob c xs)
    match x509ToKey c x with
    | none => .error (.err .invalidFormat)
    | some key =>
      let (pkalg,xkalg) ← check (keyAlgorithm pr key named)
      if !(← checkRsa2048Sha256 c xkalg key) then .error (.err .keyLength)
      else
        let chain ← check (getChain c nc b)
        return ({ key with x509Data := some ⟨some x,some chain⟩ },pkalg)

def x509keyToBuf (k : SshKey) : Except SshErr Bytes :=
  match certOf k with
  | none => .error .invalidFormat
  | some x => put x.der []

def certificates (k : SshKey) : List X509Cert :=
  match k.x509Data with
  | some ⟨some x,chain⟩ => x :: chain.getD []
  | _ => []

def putKeyIdentifier (pr : Process) (name : Bytes) : Except SshErr Bytes :=
  if pr.missingKeyIdentifier then .ok [] else putString name []

/-- `xkey_to_buf2` into an empty buffer. A key without certificate leaves it empty. -/
def xkeyToBuf2 (c : Codec) (pr : Process) (xkalg : SshX509KeyAlg) (k : SshKey) :
    Except Stop Bytes :=
  if !x509keyCheck k then .ok []
  else do
    if !(← checkRsa2048Sha256 c xkalg k) then .error (.err .keyLength)
    else check do
      let b ← putKeyIdentifier pr xkalg.name
      let b ← putU32 (certificates k).length b
      let b ← (certificates k).foldlM (fun b x => putString x.der b) b
      putU32 0 b

def akeyToBlob (c : Codec) (k : SshKey) : Except SshErr Bytes :=
  if !sshkeyIsX509 k then toBlobBuf c k else x509keyToBuf k

def akeyGets (c : Codec) : Get SshKey := fun b => do
  let (blob,b) ← getString b
  match x509keyFromBlob c blob with
  | .ok key => return (key,b)
  | .error .invalidFormat => sshkeyFroms c b
  | .error r => .error r

def xkeyPuts (c : Codec) (pr : Process) (pkalg : Bytes) (k : SshKey) (b : Bytes) :
    Except Stop Bytes :=
  match xkalgByName pr.xkalgs pkalg with
  | none => check (sshkeyPuts c k b)
  | some xkalg =>
    if xkalg.chain then do
      let d ← xkeyToBuf2 c pr xkalg k
      check (putString d b)
    else
      match k.x509Data with
      | none => .error .nullRead
      | some ⟨none,_⟩ => .error .nullRead
      | some ⟨some x,_⟩ => check (putString x.der b)

/-- The formats of `parse_key_from_blob` behind the first. -/
def parseNonLegacy (c : Codec) (pr : Process) (blob : Bytes) : Except Stop (SshKey × Bytes) :=
  match x509keyFromBuf2Common c pr blob with
  | .ok r => .ok r
  | .error (.err _) =>
    match c.sshkeyFromBlob blob with
    | .ok key => .ok (key.1,sshkeySshName pr.xkalgs key.1)
    | .error r => .error (.err r)
  | .error s => .error s

def parseKeyFromBlob (c : Codec) (pr : Process) (blob : Bytes) : Except Stop (SshKey × Bytes) :=
  if blob.length > 1 ∧ blob.head? = some 0x30 then
    match x509keyFromBlob c blob with
    | .ok k =>
      match sshXkalgTypeformind pr.xkalgs k.type k.ecdsaNid .legacy with
      | none => .error (.err .keyTypeUnknown)
      | some (_,p) => .ok (k,p.name)
    | .error .invalidFormat => parseNonLegacy c pr blob
    | .error r => .error (.err r)
  else parseNonLegacy c pr blob

lemma x509ToKey_some {x : X509Cert} (h : x509ToKey c x = some k) :
    k.x509Data = some ⟨some x,none⟩ ∧ Loaded k ∧ sshkeyIsCert k = false ∧
      sshkeyTypePlain k.type = k.type := by
  rw [x509ToKey] at h
  cases hp : c.x509GetPubkey x with
  | none => simp [hp] at h
  | some pkey =>
    cases pkey with
    | rsa rsa =>
      simp only [hp,Option.some.injEq] at h
      subst h
      exact ⟨rfl,⟨rfl,fun _ => rfl⟩,rfl,rfl⟩
    | dsa dsa =>
      simp only [hp,Option.some.injEq] at h
      subst h
      exact ⟨rfl,⟨rfl,fun _ => rfl⟩,rfl,rfl⟩
    | ec ec =>
      simp only [hp] at h
      split at h
      · cases h
      split at h
      · cases h
      split at h
      · cases h
      · rename_i hq _
        simp only [Option.some.injEq] at h
        subst h
        refine ⟨rfl,⟨?_,fun _ => rfl⟩,rfl,rfl⟩
        cases hpub : ec.pubKey with
        | none => simp [hpub] at hq
        | some q => simp [publicKey,publicKeyOfType,sshkeyTypePlain,ecParameters,sshkeyNew,hpub]
    | other => simp [hp] at h

lemma x509FromBlob_der {x : X509Cert} (hne : x.der ≠ []) (hl : x.der.length ≤ sshbufSizeMax)
    (hd : c.d2iX509 x.der = some (x,[])) : x509FromBlob c x.der = .ok x := by
  have hint : ¬ x.der.length > 0x7fffffff := by
    have : sshbufSizeMax ≤ 0x7fffffff := by decide
    omega
  rw [x509FromBlob,if_neg hne,if_neg hint,hd]
  rfl

lemma x509keyFromBlob_ok (h : x509keyFromBlob c blob = .ok k) :
    ∃ x, x509FromBlob c blob = .ok x ∧ x509ToKey c x = some k := by
  obtain ⟨x,hx,h⟩ := bind_eq_ok.mp h
  cases hk : x509ToKey c x with
  | none => simp [hk] at h
  | some k' =>
    simp only [hk,pure_eq_ok,Except.ok.injEq] at h
    exact ⟨x,hx,h ▸ hk⟩

lemma x509keyFromBuf2Common_ok {b : Bytes} (h : x509keyFromBuf2Common c pr b = .ok (k,pkalg)) :
    ∃ named rest xs x key xkalg nc certs chain, getKeyIdentifier pr b = .ok (named,rest) ∧
      x509FromBlob c xs = .ok x ∧ x509ToKey c x = some key ∧
      keyAlgorithm pr key named = .ok (pkalg,xkalg) ∧ getChain c nc certs = .ok chain ∧
      k = { key with x509Data := some ⟨some x,some chain⟩ } := by
  rw [x509keyFromBuf2Common] at h
  obtain ⟨⟨named,b1⟩,hid,h⟩ := bind_eq_ok.mp h
  obtain ⟨⟨nc,b2⟩,-,h⟩ := bind_eq_ok.mp h
  obtain ⟨-,h⟩ := ite_error_eq_ok.mp h
  obtain ⟨⟨xs,b3⟩,-,h⟩ := bind_eq_ok.mp h
  obtain ⟨x,hx,h⟩ := bind_eq_ok.mp h
  cases hk : x509ToKey c x with
  | none => simp [hk] at h
  | some key =>
    simp only [hk] at h
    obtain ⟨⟨pk,xkalg⟩,halg,h⟩ := bind_eq_ok.mp h
    obtain ⟨fits,-,h⟩ := bind_eq_ok.mp h
    obtain ⟨-,h⟩ := ite_error_eq_ok.mp h
    obtain ⟨chain,hchain,h⟩ := bind_eq_ok.mp h
    cases h
    exact ⟨named,b1,xs,x,key,xkalg,nc,b3,chain,check_eq_ok.mp hid,check_eq_ok.mp hx,hk,
      check_eq_ok.mp halg,check_eq_ok.mp hchain,rfl⟩

/-- The three formats of a key. -/
lemma parseKeyFromBlob_ok (h : parseKeyFromBlob c pr blob = .ok (k,pkalg)) :
    (∃ x j p, x509FromBlob c blob = .ok x ∧ x509ToKey c x = some k ∧
        sshXkalgTypeformind pr.xkalgs k.type k.ecdsaNid .legacy = some (j,p) ∧ pkalg = p.name) ∨
      x509keyFromBuf2Common c pr blob = .ok (k,pkalg) ∨
      ∃ key, c.sshkeyFromBlob blob = .ok key ∧ k = key.1 ∧ pkalg = sshkeySshName pr.xkalgs k := by
  have hother : parseNonLegacy c pr blob = .ok (k,pkalg) →
      x509keyFromBuf2Common c pr blob = .ok (k,pkalg) ∨
      ∃ key, c.sshkeyFromBlob blob = .ok key ∧ k = key.1 ∧ pkalg = sshkeySshName pr.xkalgs k := by
    intro h
    rw [parseNonLegacy] at h
    split at h
    · next r hr =>
      cases h
      exact .inl hr
    · split at h
      · next key hkey =>
        cases h
        exact .inr ⟨key,hkey,rfl,rfl⟩
      · cases h
    · cases h
  rw [parseKeyFromBlob] at h
  split at h
  · split at h
    · next hr =>
      split at h
      · cases h
      · next hp =>
        cases h
        obtain ⟨x,hx,hk⟩ := x509keyFromBlob_ok hr
        exact .inl ⟨x,_,_,hx,hk,hp,rfl⟩
    · exact .inr (hother h)
    · cases h
  · exact .inr (hother h)

lemma parseKeyFromBlob_loaded (h : parseKeyFromBlob c pr blob = .ok (k,pkalg)) : Loaded k := by
  rcases parseKeyFromBlob_ok h with ⟨x,_,_,-,hk,-⟩ | hr | ⟨key,-,rfl,-⟩
  · exact (x509ToKey_some hk).2.1
  · obtain ⟨-,-,-,x,key,-,-,-,chain,-,-,hk,-,-,rfl⟩ := x509keyFromBuf2Common_ok hr
    exact ⟨(x509ToKey_some hk).2.1.1,fun _ => rfl⟩
  · exact key.2

lemma writes_putBignum2 (n : Nat) : Writes (putBignum2 n)
    (framed (bignumBytes (BigEndian.encode ((bnNumBits n + 7) / 8) n))) := by
  intro m r h
  rw [putBignum2] at h
  obtain ⟨-,h⟩ := ite_error_eq_ok.mp h
  exact (putString_iff.mp h).2

/-- The blob of a certificate is the one it came with; of another key it starts with the name. -/
lemma toBlobBuf_ok {b : Bytes} (h : toBlobBuf c k = .ok b) :
    (sshkeyIsCert k = true ∧ ∃ cert, k.cert = some cert ∧ cert.certblob ≠ [] ∧
      b = cert.certblob) ∨ sshkeyIsCert k = false ∧
      ∃ fields, b = framed (sshkeySshNameFromTypeNid k.type k.ecdsaNid) ++ fields := by
  obtain ⟨type,rsa,dsa,nid,ec,pk,x,cert⟩ := k
  cases type
  case rsaCert | dsaCert | ecdsaCert | ed25519Cert =>
    cases cert with
    | none => cases h
    | some cert =>
      obtain ⟨-,h⟩ := ite_error_eq_ok.mp h
      obtain ⟨hne,h⟩ := ite_error_eq_ok.mp h
      obtain ⟨-,rfl⟩ := put_iff.mp h
      exact .inl ⟨rfl,cert,rfl,fun hnil => hne ⟨rfl,decide_eq_true hnil⟩,rfl⟩
  case rsa =>
    cases rsa with
    | none => cases h
    | some rsa =>
      have hb := ((writes_putString _).bind (writes_putBignum2 rsa.e)).bind
        (writes_putBignum2 rsa.n) [] b h
      exact .inr ⟨rfl,_,hb⟩
  case dsa =>
    cases dsa with
    | none => cases h
    | some dsa =>
      have hb := ((((writes_putString _).bind (writes_putBignum2 dsa.p)).bind
        (writes_putBignum2 dsa.q)).bind (writes_putBignum2 dsa.g)).bind
        (writes_putBignum2 _) [] b h
      exact .inr ⟨rfl,_,hb⟩
  case ecdsa =>
    cases ec with
    | none => cases h
    | some ec =>
      obtain ⟨b1,h1,h⟩ := bind_eq_ok.mp h
      obtain ⟨d,-,h2⟩ := bind_eq_ok.mp h
      have hb := (writes_putString _).bind (writes_putString _) [] b1 h1
      rw [writes_putString d b1 b h2,hb,List.nil_append,List.append_assoc]
      exact .inr ⟨rfl,_,rfl⟩
  case ed25519 =>
    cases pk with
    | none => cases h
    | some pk => exact .inr ⟨rfl,_,(writes_putString _).bind (writes_putString pk.1) [] b h⟩
  all_goals cases h

lemma toBlobBuf_ne_nil {b : Bytes} (h : toBlobBuf c k = .ok b) : b ≠ [] := by
  rcases toBlobBuf_ok h with ⟨-,cert,-,hne,rfl⟩ | ⟨-,fields,rfl⟩
  · exact hne
  · apply List.ne_nil_of_length_pos
    rw [List.length_append,length_framed]
    omega

end PkixSsh.Key
