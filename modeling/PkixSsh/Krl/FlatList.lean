import PkixSsh.Key.Equivalence
import PkixSsh.Krl.RoundTrip
import PkixSsh.Lib.Lines

/-!
# Flat lists of revoked keys

A revocation list finds a key by its plain blob, and a text with a key on each line by
`sshkey_equal_public`; they differ where two X.509 keys are compared.
-/

namespace PkixSsh.Krl

open Key X509 Sshbuf Lines SortedTree List

/-- The text form of keys. `sshkeyRead` gets what is left of a line, and has no use for the code of
a key that is not listed. -/
structure TextCodec where
  sshkeyFormatText : SshKey → Except SshErr Bytes
  sshkeyRead : Bytes → Except SshErr SshKey
  found : ∀ cp, sshkeyRead cp ≠ .error .keyNotFound

section

variable (env : Env) (rd : TextCodec)

/-- The comparison of `sshkey_in_file` with the key of a line. -/
def listedAs (compare : SshKey → SshKey → Bool) (checkCa : Bool) (key pub : SshKey) : Bool :=
  compare key pub ||
    (checkCa && sshkeyIsCert key && compare (env.certFields key).signatureKey pub)

def keyText (line : Bytes) : Bytes := skipBlanks (untilNul line)

/-- Comments, empty lines, and lines that end here. -/
def skipped (cp : Bytes) : Bool := cp.head?.all fun c => c = 0x23 || c = newline

def searchLines (compare : SshKey → SshKey → Bool) (checkCa : Bool) (key : SshKey) :
    List Bytes → Except SshErr Unit
  | [] => .error .keyNotFound
  | line :: rest =>
    if skipped (keyText line) then searchLines compare checkCa key rest
    else
      match rd.sshkeyRead (keyText line) with
      | .ok pub =>
        if listedAs env compare checkCa key pub then .ok ()
        else searchLines compare checkCa key rest
      | .error .keyLength => searchLines compare checkCa key rest
      | .error r => .error r

def sshkeyInFile (key : SshKey) (file : Bytes) (strictType checkCa : Bool) :
    Except SshErr Unit :=
  searchLines env rd (if strictType then sshkeyEqual env.ssl else sshkeyEqualPublic env.ssl)
    checkCa key (lines file)

def sshKrlFileContainsKey (file : Bytes) (key : SshKey) : Except SshErr Unit := do
  if file.length > sshbufSizeMax then .error .invalidFormat
  let krl ← sshKrlFromBlob env file []
  sshKrlCheckKey env krl key

/-- The file is opened a second time for its lines, which may be those of less than the file. -/
def sshkeyCheckRevoked (key : SshKey) (file : Bytes) (given : Bytes := file) :
    Except SshErr Unit :=
  match sshKrlFileContainsKey env file key with
  | .error .krlBadMagic =>
    match sshkeyInFile env rd key given false true with
    | .ok () => .error .keyRevoked
    | .error .keyNotFound => .ok ()
    | .error r => .error r
  | r => r

end

/-- The plain blob of some parameters, with the number of the curve. -/
def publicBlob (c : Codec) (nid : Int) : PublicKey → Except SshErr Bytes
  | .rsa n e => putString (sshkeySshNameFromTypeNid .rsa nidNone) [] >>= putBignum2 e >>=
      putBignum2 n
  | .dsa p q g pubKey => putString (sshkeySshNameFromTypeNid .dsa nidNone) [] >>=
      putBignum2 p >>= putBignum2 q >>= putBignum2 g >>= putBignum2 pubKey
  | .ecdsa group point => do
    let b ← putString (sshkeySshNameFromTypeNid .ecdsa nid) [] >>=
      putString (sshkeyCurveNidToName nid)
    let d ← c.ecPoint ⟨group,some point⟩
    putString d b
  | .ed25519 pk => putString (sshkeySshNameFromTypeNid .ed25519 nidNone) [] >>= putString pk.1

variable {c : Codec} {k : SshKey}

lemma plainKeyBlob_eq {pub : PublicKey}
    (h : publicKey k = some pub) : plainKeyBlob c k = publicBlob c k.ecdsaNid pub := by
  obtain ⟨type,rsa,dsa,nid,ec,ed,x,cert⟩ := k
  cases type
  case rsa | rsaCert =>
    cases rsa with
    | none => cases h
    | some r =>
      cases h
      cases x <;> rfl
  case dsa | dsaCert =>
    cases dsa with
    | none => cases h
    | some d =>
      cases h
      cases x <;> rfl
  case ecdsa | ecdsaCert =>
    rcases ec with _ | ⟨group,_ | point⟩
    · cases h
    · cases h
    · cases h
      cases x <;> rfl
  case ed25519 | ed25519Cert =>
    cases ed with
    | none => cases h
    | some pk =>
      cases h
      cases x <;> rfl
  all_goals cases h

/-- A key the blob codec handles: it has its public key, the number of its curve and a plain
blob, which is read as a key with the same public key. -/
structure Supported (c : Codec) (k : SshKey) : Prop where
  loaded : Loaded k
  curve : ∀ ec, k.ecdsa = some ec → k.ecdsaNid = c.ecdsaKeyToNid ec
  blob : ∃ b k', plainKeyBlob c k = .ok b ∧ c.sshkeyFromBlob b = .ok k' ∧
    publicKey k'.1 = publicKey k

lemma publicKey_ecdsa {group : Nat} {point : Nat × Nat}
    (h : publicKey k = some (.ecdsa group point)) : k.ecdsa = some ⟨group,some point⟩ := by
  obtain ⟨type,rsa,dsa,nid,ec,ed,x,cert⟩ := k
  cases type
  case rsa | rsaCert => cases rsa <;> cases h
  case dsa | dsaCert => cases dsa <;> cases h
  case ecdsa | ecdsaCert =>
    rcases ec with _ | ⟨group,_ | point⟩
    · cases h
    · cases h
    · cases h
      rfl
  case ed25519 | ed25519Cert => cases ed <;> cases h
  all_goals cases h

lemma Supported.blob_eq_iff {l : SshKey} {b : Bytes} (hk : Supported c k)
    (hl : Supported c l) (hb : plainKeyBlob c k = .ok b) :
    plainKeyBlob c l = .ok b ↔ publicKey k = publicKey l := by
  constructor
  · intro hbl
    obtain ⟨b',k',hb',hfrom,hpub⟩ := hk.blob
    obtain ⟨b'',l',hb'',hfrom',hpub'⟩ := hl.blob
    rw [hb] at hb'
    cases hb'
    rw [hbl] at hb''
    cases hb''
    rw [hfrom] at hfrom'
    cases hfrom'
    exact hpub.symm.trans hpub'
  · intro hpub
    obtain ⟨pub,hk'⟩ := Option.isSome_iff_exists.mp hk.loaded.1
    have hl' : publicKey l = some pub := hpub ▸ hk'
    rw [plainKeyBlob_eq hl',← hb,plainKeyBlob_eq hk']
    cases pub with
    | ecdsa group point =>
      -- the number of the curve goes by the curve
      rw [hk.curve _ (publicKey_ecdsa hk'),hl.curve _ (publicKey_ecdsa hl')]
    | rsa | dsa | ed25519 => rfl

/-- The list revokes the keys of `L` and nothing else. -/
structure ExplicitKeys (c : Codec) (L : List SshKey) (krl : SshKrl) : Prop where
  certs : krl.revokedCerts = []
  sha1s : krl.revokedSha1s = .empty 20
  sha256s : krl.revokedSha256s = .empty 32
  keys : ∀ b, b ∈ krl.revokedKeys.blobs ↔ ∃ l ∈ L, plainKeyBlob c l = .ok b

variable {L : List SshKey} {krl : SshKrl}

lemma ExplicitKeys.step {l : SshKey} {krl' : SshKrl}
    (h : ExplicitKeys c L krl) (hl : sshKrlRevokeKeyExplicit c krl l = .ok krl') :
    ExplicitKeys c (L ++ [l]) krl' := by
  obtain ⟨blob,hblob,hl⟩ := bind_eq_ok.mp hl
  cases hl
  refine ⟨h.certs,h.sha1s,h.sha256s,fun b => ?_⟩
  change b ∈ SortedTree.insert _ blob _ ↔ _
  rw [mem_insert,h.keys b]
  constructor
  · rintro (rfl | ⟨l',hl',hb⟩)
    · exact ⟨l,by simp,hblob⟩
    · exact ⟨l',mem_append_left _ hl',hb⟩
  · rintro ⟨l',hl',hb⟩
    rcases mem_append.mp hl' with hl' | hl'
    · exact .inr ⟨l',hl',hb⟩
    · rw [mem_singleton.mp hl',hblob] at hb
      cases hb
      exact .inl rfl

lemma ExplicitKeys.run {ssl : Openssl} {L' : List SshKey} {krl' : SshKrl}
    (h : ExplicitKeys c L krl)
    (hrun : (L'.map Revocation.keyExplicit).foldlM (revoke ssl c) krl = .ok krl') :
    ExplicitKeys c (L ++ L') krl' := by
  induction L' generalizing L krl with
  | nil =>
    cases hrun
    rw [append_nil]
    exact h
  | cons l L' ih =>
    obtain ⟨krl1,hl,hrun⟩ := bind_eq_ok.mp hrun
    have hnext := ih (h.step hl) hrun
    rwa [append_assoc] at hnext

lemma revokeAll_explicitKeys {ssl : Openssl}
    (h : revokeAll ssl c (L.map .keyExplicit) = .ok krl) : ExplicitKeys c L krl := by
  have hinit : ExplicitKeys c [] sshKrlInit :=
    ⟨rfl,rfl,rfl,fun b => ⟨nofun,fun ⟨l,hl,_⟩ => (by cases hl)⟩⟩
  exact hinit.run h

lemma BlobTree.find_iff {n : Nat} (t : BlobTree n) (b : Bytes) :
    t.find b = true ↔ b ∈ t.blobs := t.sorted.find_iff b

section

variable {env : Env} {L : List SshKey} {krl : SshKrl} {q : SshKey}

def Fingerprinted (env : Env) (q : SshKey) : Prop :=
  ∀ alg, ∃ hash, env.sshkeyFingerprintRaw q alg = .ok hash

lemma isKeyRevoked_explicit (h : ExplicitKeys env.codec L krl)
    (hL : ∀ l ∈ L, Supported env.codec l) (hq : Supported env.codec q) (hf : Fingerprinted env q) :
    isKeyRevoked env krl q =
      if L.any fun l => publicKey q = publicKey l then .error .keyRevoked else .ok () := by
  obtain ⟨sha1,hsha1⟩ := hf .sha1
  obtain ⟨sha256,hsha256⟩ := hf _
  obtain ⟨b,_,hb,-,-⟩ := hq.blob
  have hfind : krl.revokedKeys.find b = L.any fun l => publicKey q = publicKey l := by
    rw [Bool.eq_iff_iff,BlobTree.find_iff,h.keys,List.any_eq_true]
    apply exists_congr
    intro l
    apply and_congr_right
    intro hl
    rw [hq.blob_eq_iff (hL l hl) hb,decide_eq_true_eq]
  have hca : ∀ ca, revokedCertsForCaKey env.ssl krl ca = none := by
    intro ca
    rw [revokedCertsForCaKey,h.certs]
    rfl
  rw [isKeyRevoked,hsha1,h.sha1s,hsha256,h.sha256s,hb,hca,hca]
  simp only [ok_bind,hfind]
  cases L.any _ with
  | true => rfl
  | false => cases sshkeyIsCert q <;> rfl

/-- The keys that are looked for: a key, and the one that signed it as a certificate. -/
def checkedKeys (env : Env) (k : SshKey) : List SshKey :=
  k :: if sshkeyIsCert k then [(env.certFields k).signatureKey] else []

lemma sshKrlCheckKey_explicit (h : ExplicitKeys env.codec L krl)
    (hL : ∀ l ∈ L, Supported env.codec l)
    (hk : ∀ q ∈ checkedKeys env k, Supported env.codec q ∧ Fingerprinted env q) :
    sshKrlCheckKey env krl k =
      if (checkedKeys env k).any fun q => L.any fun l => publicKey q = publicKey l then
        .error .keyRevoked else .ok () := by
  have hown := hk k mem_cons_self
  rw [sshKrlCheckKey,isKeyRevoked_explicit h hL hown.1 hown.2,checkedKeys,any_cons]
  cases L.any _ with
  | true => rfl
  | false =>
    cases hc : sshkeyIsCert k with
    | false => rfl
    | true =>
      have hin : (env.certFields k).signatureKey ∈ checkedKeys env k := by
        rw [checkedKeys,if_pos hc]
        simp
      have hca := hk _ hin
      rw [isKeyRevoked_explicit h hL hca.1 hca.2]
      simp

end

/-- The text form of a key: a line without blanks in front that is read as the key. -/
structure TextOf (rd : TextCodec) (l : SshKey) (t : Bytes) : Prop where
  written : rd.sshkeyFormatText l = .ok t
  start : ∃ c ∈ t.head?, c ≠ 0x20 ∧ c ≠ 0x09 ∧ c ≠ 0x23
  oneLine : newline ∉ t
  cString : 0 ∉ t
  read : rd.sshkeyRead (t ++ [newline]) = .ok l

def flatFile (ts : List Bytes) : Bytes := ts.flatMap fun t => t ++ [newline]

section

variable {env : Env} {rd : TextCodec} {L : List SshKey} {ts : List Bytes} {k : SshKey}

lemma TextOf.line {l : SshKey} {t : Bytes} (h : TextOf rd l t) :
    keyText (t ++ [newline]) = t ++ [newline] ∧ skipped (t ++ [newline]) = false := by
  have hnul : 0 ∉ t ++ [newline] := by
    rw [mem_append]
    rintro (h0 | h0)
    · exact h.cString h0
    · exact absurd h0 (by decide)
  rw [keyText,untilNul_of_not_mem hnul]
  obtain ⟨c,hc,hblank,htab,hcomment⟩ := h.start
  cases t with
  | nil => cases hc
  | cons c' t =>
    cases hc
    have hline : c ≠ newline := fun hc => h.oneLine (hc ▸ mem_cons_self)
    constructor
    · simp [skipBlanks,isBlank,space,tab,hblank,htab]
    · simp [skipped,hcomment,hline]

lemma listedAs_eq (compare : SshKey → SshKey → Bool) (l : SshKey) :
    listedAs env compare true k l = (checkedKeys env k).any fun q => compare q l := by
  rw [listedAs,checkedKeys]
  cases sshkeyIsCert k <;> simp

lemma searchLines_flat (compare : SshKey → SshKey → Bool) (hts : List.Forall₂ (TextOf rd) L ts) :
    searchLines env rd compare true k (ts.map fun t => t ++ [newline]) =
      if L.any fun l => (checkedKeys env k).any fun q => compare q l then .ok ()
      else .error .keyNotFound := by
  induction hts with
  | nil => rfl
  | @cons l t L ts ht hts ih =>
    obtain ⟨hskip,hstart⟩ := ht.line
    rw [map_cons,searchLines,hskip,hstart,if_neg (by decide),ht.read]
    simp only [listedAs_eq,ih]
    by_cases hl : ((checkedKeys env k).any fun q => compare q l) = true
    · rw [if_pos hl,if_pos]
      rw [any_cons,hl,Bool.true_or]
    · have hrest : ((l :: L).any fun l => (checkedKeys env k).any fun q => compare q l) =
          L.any fun l => (checkedKeys env k).any fun q => compare q l := by
        rw [any_cons,Bool.eq_false_of_not_eq_true hl,Bool.false_or]
      rw [if_neg hl,hrest]

variable (hts : List.Forall₂ (TextOf rd) L ts)

include hts

lemma not_mem_line : ∀ t ∈ ts, newline ∉ t := by
  intro t ht
  obtain ⟨l,-,hl⟩ := GreedyMatching.exists_of_forall₂ hts.flip ht
  exact hl.oneLine

lemma sshKrlFromBlob_flat :
    sshKrlFromBlob env (flatFile ts) [] = .error .krlBadMagic := by
  rw [sshKrlFromBlob]
  split
  next => rfl
  next hmagic =>
    exfalso
    rw [not_or,not_not] at hmagic
    have hsplit := take_append_drop krlMagic.length (flatFile ts)
    rw [hmagic.2] at hsplit
    -- the second line of such a file would begin with a NUL
    have hname : newline ∉ cstr "SSHKRL" := by decide +kernel
    have hbytes : krlMagic = cstr "SSHKRL" ++ newline :: [0] := by decide +kernel
    rw [hbytes,append_assoc,cons_append,singleton_append] at hsplit
    have hlines := congrArg lines hsplit
    rw [lines_append hname,lines_cons (by decide),flatFile,lines_flatMap (not_mem_line hts)]
      at hlines
    rcases hts with _ | @⟨_,t,_,ts,_,_ | @⟨l,t',_,_,ht',_⟩⟩
    · cases hlines
    · have hlen := congrArg List.length hlines
      simp at hlen
    · simp only [map_cons,List.cons.injEq] at hlines
      obtain ⟨c,hc,-⟩ := ht'.start
      cases t' with
      | nil => cases hc
      | cons c' t' =>
        have hhead := (List.cons.inj hlines.2.1).1
        exact ht'.cString (hhead ▸ mem_cons_self)

lemma sshkeyCheckRevoked_flat :
    sshkeyCheckRevoked env rd k (flatFile ts) =
      if (flatFile ts).length > sshbufSizeMax then .error .invalidFormat
      else if L.any fun l => (checkedKeys env k).any fun q => sshkeyEqualPublic env.ssl q l then
        .error .keyRevoked else .ok () := by
  have hsearch : sshkeyInFile env rd k (flatFile ts) false true =
      if L.any fun l => (checkedKeys env k).any fun q => sshkeyEqualPublic env.ssl q l then .ok ()
      else .error .keyNotFound := by
    rw [sshkeyInFile,flatFile,lines_flatMap (not_mem_line hts)]
    exact searchLines_flat _ hts
  rw [sshkeyCheckRevoked,sshKrlFileContainsKey,sshKrlFromBlob_flat hts]
  split_ifs with hlong hlist
  · rfl
  · rw [hsearch,if_pos hlist]
    rfl
  · rw [hsearch,if_neg hlist]
    rfl

omit hts

lemma sshkeyCheckRevoked_explicit {y : Crypto} {now : UInt64} {b : Bytes}
    (hrev : revokeAll env.ssl env.codec (L.map .keyExplicit) = .ok krl)
    (hb : sshKrlToBlob env.codec y now krl [] = .ok b) (hL : ∀ l ∈ L, Supported env.codec l)
    (hk : ∀ q ∈ checkedKeys env k, Supported env.codec q ∧ Fingerprinted env q) :
    sshkeyCheckRevoked env rd k b =
      if (checkedKeys env k).any fun q => L.any fun l => publicKey q = publicKey l then
        .error .keyRevoked else .ok () := by
  have h := revokeAll_explicitKeys hrev
  obtain ⟨-,-,-,hlen⟩ := sshKrlToBlob_ok hb
  have hinv : ∀ rc ∈ krl.revokedCerts, ∀ k ∈ rc.caKey, Inverted env.codec k := by
    rw [h.certs]
    exact fun rc hrc => (by cases hrc)
  have hfits : krl.BitmapsFit := by
    rw [SshKrl.BitmapsFit,h.certs]
    exact fun rc hrc => (by cases hrc)
  obtain ⟨krl',hread,hsame⟩ : ∃ krl', sshKrlFromBlob env b [] = .ok krl' ∧
      ExplicitKeys _ L krl' :=
    ⟨_,sshKrlFromBlob_of_fits (revokeAll_inv hrev) hinv hb hfits,h.certs,h.sha1s,h.sha256s,h.keys⟩
  rw [sshkeyCheckRevoked,sshKrlFileContainsKey,if_neg (Nat.not_lt.mpr hlen),hread,ok_bind,
    sshKrlCheckKey_explicit hsame hL hk]
  split_ifs <;> rfl

end

/-- Of the listed keys with the public key, one is compared by it; or those compared by subjects
have one with the subject just when they have one with the public key. -/
def SubjectsAgree (ssl : Openssl) (qs L : List SshKey) : Prop :=
  (∃ q ∈ qs, ∃ l ∈ L, ¬ (sshkeyIsX509 q ∧ sshkeyIsX509 l) ∧ publicKey q = publicKey l) ∨
    ((∃ q ∈ qs, ∃ l ∈ L, (sshkeyIsX509 q ∧ sshkeyIsX509 l) ∧
        sshkeyTypePlain q.type = sshkeyTypePlain l.type ∧ sshX509Equal ssl q l = 0) ↔
      ∃ q ∈ qs, ∃ l ∈ L, (sshkeyIsX509 q ∧ sshkeyIsX509 l) ∧ publicKey q = publicKey l)

lemma Supported.equalPublic_iff {q l : SshKey} (hq : Supported c q)
    (hl : Supported c l) (ssl : Openssl) : sshkeyEqualPublic ssl q l = true ↔
      (¬ (sshkeyIsX509 q ∧ sshkeyIsX509 l) ∧ publicKey q = publicKey l) ∨
        ((sshkeyIsX509 q ∧ sshkeyIsX509 l) ∧
          sshkeyTypePlain q.type = sshkeyTypePlain l.type ∧ sshX509Equal ssl q l = 0) := by
  by_cases hx : sshkeyIsX509 q ∧ sshkeyIsX509 l
  · simp only [hx,sshkeyEqualPublic]
    by_cases ht : sshkeyTypePlain q.type = sshkeyTypePlain l.type
    · simp [ht]
    · simp [ht]
  · have hpub := sshkeyEqualPublic_of_not_x509 ssl ⟨q,hq.loaded⟩ ⟨l,hl.loaded⟩ hx
    rw [hpub,← Option.some.injEq,← LoadedKey.publicKey_eq,← LoadedKey.publicKey_eq]
    simp [hx]

lemma or_iff_or_left {p q r : Prop} : (p ∨ q ↔ p ∨ r) ↔ p ∨ (q ↔ r) := by
  by_cases hp : p
  · simp [hp]
  · simp [hp]

lemma exists_pair_or {qs : List SshKey} {P A B : SshKey → SshKey → Prop}
    (h : ∀ q ∈ qs, ∀ l ∈ L, P q l ↔ A q l ∨ B q l) : (∃ q ∈ qs, ∃ l ∈ L, P q l) ↔
      (∃ q ∈ qs, ∃ l ∈ L, A q l) ∨ ∃ q ∈ qs, ∃ l ∈ L, B q l := by
  simp only [← exists_or,← and_or_left]
  exact exists_congr fun q => and_congr_right fun hq => exists_congr fun l =>
    and_congr_right fun hl => h q hq l hl

/-- A text with the keys of `L` and a revocation list of them agree exactly when the subjects agree
with the public keys; a text too long to be loaded when no listed key has the public key. -/
theorem sshkeyCheckRevoked_agree_iff {env : Env} {rd : TextCodec} {y : Crypto} {now : UInt64}
    {L : List SshKey} {ts : List Bytes} {k : SshKey} {krl : SshKrl} {b : Bytes}
    (hts : List.Forall₂ (TextOf rd) L ts)
    (hrev : revokeAll env.ssl env.codec (L.map .keyExplicit) = .ok krl)
    (hb : sshKrlToBlob env.codec y now krl [] = .ok b) (hL : ∀ l ∈ L, Supported env.codec l)
    (hk : ∀ q ∈ checkedKeys env k, Supported env.codec q ∧ Fingerprinted env q) :
    (sshkeyCheckRevoked env rd k (flatFile ts) = .error .keyRevoked ↔
        sshkeyCheckRevoked env rd k b = .error .keyRevoked) ↔
      if (flatFile ts).length ≤ sshbufSizeMax then SubjectsAgree env.ssl (checkedKeys env k) L
      else ∀ q ∈ checkedKeys env k, ∀ l ∈ L, publicKey q ≠ publicKey l := by
  have hrevoked : ∀ P, ((if P then .error .keyRevoked else .ok () : Except SshErr Unit) =
      .error .keyRevoked) ↔ P = true := by
    intro P
    cases P <;> simp
  rw [sshkeyCheckRevoked_flat hts,sshkeyCheckRevoked_explicit hrev hb hL hk,hrevoked]
  by_cases hlen : (flatFile ts).length ≤ sshbufSizeMax
  · have hcompare : (∃ l ∈ L, ∃ q ∈ checkedKeys env k, sshkeyEqualPublic env.ssl q l = true) ↔
        ∃ q ∈ checkedKeys env k, ∃ l ∈ L, sshkeyEqualPublic _ q l = true :=
      ⟨fun ⟨l,hl,q,hq,h⟩ => ⟨q,hq,l,hl,h⟩,fun ⟨q,hq,l,hl,h⟩ => ⟨l,hl,q,hq,h⟩⟩
    have hpublic (x p : Prop) : p ↔ ¬ x ∧ p ∨ x ∧ p := by
      by_cases hx : x <;> simp [hx]
    rw [if_neg (Nat.not_lt.mpr hlen),if_pos hlen,hrevoked,SubjectsAgree]
    simp only [List.any_eq_true,decide_eq_true_eq]
    rw [hcompare,exists_pair_or fun q hq l hl => (hk q hq).1.equalPublic_iff (hL l hl) _,
      exists_pair_or fun q _ l _ =>
        hpublic _ (publicKey q = publicKey l)]
    exact or_iff_or_left
  · rw [if_pos (Nat.not_le.mp hlen),if_neg hlen]
    simp

def exampleRsaBlob (n : Bytes) : Bytes :=
  framed (cstr "ssh-rsa") ++ framed [17] ++ framed n

def exampleListEnv : Env :=
  { exampleEnv with
    codec :=
      { exampleEcCodec with
        sshkeyFromBlob := fun b =>
          if b = exampleRsaBlob [0x0c,0xa1] then .ok ⟨rsaKey 3233 17,rsaKey_loaded⟩
          else if b = exampleRsaBlob [0x0c,0x37] then .ok ⟨rsaKey 3127 17,by decide⟩
          else .error .keyTypeUnknown }
    sshkeyFingerprintRaw := fun _ alg =>
      match alg with
      | .sha1 => .ok (List.replicate 20 0)
      | .sha256 => .ok (List.replicate 32 0) }

def exampleLine : Bytes := cstr "x509v3-sign-rsa MAVhbGljZQ=="

def exampleText : TextCodec where
  sshkeyFormatText l :=
    if l = rsaX509Key 3233 17 "alice" then .ok exampleLine else .error .invalidArgument
  sshkeyRead cp :=
    if cp = exampleLine ++ [newline] then .ok (rsaX509Key 3233 17 "alice")
    else .error .invalidFormat
  found cp := by
    split <;> rintro ⟨⟩

lemma exampleText_line :
    List.Forall₂ (TextOf exampleText) [rsaX509Key 3233 17 "alice"] [exampleLine] := by
  refine .cons ⟨?_,?_,?_,?_,?_⟩ .nil
  · decide +kernel
  · exact ⟨0x78,by decide +kernel,by decide⟩
  · decide +kernel
  · decide +kernel
  · decide +kernel

lemma exampleListEnv_supported
    (h : k = rsaX509Key 3233 17 "alice" ∨ k = rsaX509Key 3127 17 "alice" ∨ k = rsaKey 3233 17) :
    Supported exampleListEnv.codec k ∧ Fingerprinted exampleListEnv k := by
  refine ⟨?_,fun alg => by cases alg <;> exact ⟨_,rfl⟩⟩
  rcases h with rfl | rfl | rfl
  · exact ⟨by decide,nofun,exampleRsaBlob [0x0c,0xa1],
      ⟨rsaKey 3233 17,rsaKey_loaded⟩,by decide +kernel,by decide +kernel,rfl⟩
  · exact ⟨by decide,nofun,exampleRsaBlob [0x0c,0x37],
      ⟨rsaKey 3127 17,by decide⟩,by decide +kernel,by decide +kernel,rfl⟩
  · exact ⟨by decide,nofun,exampleRsaBlob [0x0c,0xa1],
      ⟨rsaKey 3233 17,rsaKey_loaded⟩,by decide +kernel,by decide +kernel,rfl⟩

def exampleList : Except SshErr Bytes := do
  let krl ← revokeAll exampleListEnv.ssl exampleListEnv.codec
    ([rsaX509Key 3233 17 "alice"].map .keyExplicit)
  sshKrlToBlob exampleListEnv.codec exampleCrypto 5 krl []

/-- The plain key of the certificate is revoked in both. -/
theorem sshkeyCheckRevoked_agree_plain : ∃ b, exampleList = .ok b ∧
      (sshkeyCheckRevoked exampleListEnv exampleText (rsaKey 3233 17) (flatFile [exampleLine]) =
          .error .keyRevoked ↔
        sshkeyCheckRevoked exampleListEnv exampleText (rsaKey 3233 17) b = .error .keyRevoked) := by
  have hlist : exampleList.isOk = true := by decide +kernel
  obtain ⟨b,hok⟩ := exists_ok hlist
  obtain ⟨krl,hrev,hblob⟩ := bind_eq_ok.mp hok
  refine ⟨b,hok,(sshkeyCheckRevoked_agree_iff exampleText_line hrev hblob ?_ ?_).mpr ?_⟩
  · intro l hl
    exact (exampleListEnv_supported (.inl (mem_singleton.mp hl))).1
  · intro q hq
    exact exampleListEnv_supported (.inr (.inr (mem_singleton.mp hq)))
  · rw [if_pos (by decide +kernel)]
    exact .inl ⟨_,mem_cons_self,_,mem_cons_self,by decide,rfl⟩

/-- Another key with a certificate for the same subject is revoked by the text only. -/
theorem sshkeyCheckRevoked_disagree :
    sshkeyCheckRevoked exampleListEnv exampleText (rsaX509Key 3127 17 "alice")
        (flatFile [exampleLine]) = .error .keyRevoked ∧ ∃ b, exampleList = .ok b ∧
        sshkeyCheckRevoked exampleListEnv exampleText (rsaX509Key 3127 17 "alice") b = .ok () := by
  refine ⟨by decide +kernel,?_⟩
  have hlist : (exampleList.toOption.any fun b => decide (sshkeyCheckRevoked exampleListEnv
      exampleText (rsaX509Key 3127 17 "alice") b = .ok ())) = true := by decide +kernel
  cases he : exampleList with
  | error e =>
    rw [he] at hlist
    cases hlist
  | ok b =>
    rw [he] at hlist
    exact ⟨b,rfl,of_decide_eq_true hlist⟩

/-- A revocation file. A read error or a failed allocation of `getline` is taken for its end, and
`given` is what the lines before it hold. -/
structure RevokedFile where
  content : Bytes
  given : Bytes
  start : given <+: content

section

variable (env : Env) (rd : TextCodec)

/-- `auth_key_is_revoked`, with the fingerprint of the key and the revocation file, which is read
if it can be opened. -/
def authKeyIsRevoked (fp : Option Bytes) (revokedKeysFile : Option (Option RevokedFile))
    (key : SshKey) : Nat :=
  match revokedKeysFile with
  | none => 0
  | some file =>
    match fp,file.map fun f => sshkeyCheckRevoked env rd key f.content f.given with
    | some _,some (.ok ()) => 0
    | _,_ => 1

/-- A line that is blank, a comment, a key that is too short, or another key. -/
def Passes (key : SshKey) (line : Bytes) : Prop :=
  skipped (keyText line) ∨ rd.sshkeyRead (keyText line) = .error .keyLength ∨
    ∃ pub, rd.sshkeyRead (keyText line) = .ok pub ∧ ¬ sshkeyEqualPublic env.ssl key pub ∧
      (sshkeyIsCert key → ¬ sshkeyEqualPublic env.ssl (env.certFields key).signatureKey pub)

end

section

variable {env : Env} {rd : TextCodec} {key : SshKey}

lemma searchLines_notFound {ls : List Bytes} :
    searchLines env rd (sshkeyEqualPublic env.ssl) true key ls = .error .keyNotFound ↔
      ∀ line ∈ ls, Passes env rd key line := by
  induction ls with
  | nil => simp [searchLines]
  | cons line ls ih =>
    rw [searchLines,forall_mem_cons,← ih,Passes]
    split
    · next hblank => simp [hblank]
    · next hblank =>
      split
      · next pub hpub =>
        have hother : listedAs env (sshkeyEqualPublic env.ssl) true key pub = false ↔
            ¬ sshkeyEqualPublic env.ssl key pub ∧ (sshkeyIsCert key →
              ¬ sshkeyEqualPublic env.ssl (env.certFields key).signatureKey pub) := by
          simp [listedAs]
        simp only [hblank,hpub,reduceCtorEq,Except.ok.injEq,exists_eq_left',← hother,false_or]
        cases listedAs env _ true key pub <;> simp
      · next hshort => simp [hshort]
      · next r hlength hr =>
        have hfound : r ≠ .keyNotFound := fun h => rd.found _ (h ▸ hr)
        have hlength : r ≠ .keyLength := hlength
        simp [hblank,hr,hlength,hfound]

/-- For a text file, 0 means that the lines before a read error pass. -/
lemma authKeyIsRevoked_eq_zero {fp : Option Bytes} {f : RevokedFile}
    (hfile : sshKrlFileContainsKey env f.content key = .error .krlBadMagic) :
    authKeyIsRevoked env rd fp (some (some f)) key = 0 ↔
      fp.isSome ∧ ∀ line ∈ lines f.given, Passes env rd key line := by
  rw [← searchLines_notFound]
  cases fp with
  | none => simp [authKeyIsRevoked]
  | some fp =>
    simp only [authKeyIsRevoked,sshkeyCheckRevoked,hfile,sshkeyInFile,Option.map_some]
    cases hs : searchLines env rd (sshkeyEqualPublic _) true key _ with
    | ok => simp [hs]
    | error r => cases r <;> simp [hs]

/-- The text of the line is no key, and every other text a key that is too short. -/
def unreadable (text : Bytes) : TextCodec where
  sshkeyFormatText _ := .error .invalidArgument
  sshkeyRead cp := .error (if cp = text then .invalidFormat else .keyLength)
  found cp := by
    split <;> rintro ⟨⟩

/-- However keys are read, a text file fails closed if `getline` gives the text of each line that
is not blank or a comment, and only then. -/
theorem authKeyIsRevoked_closed_iff (file : Option RevokedFile)
    (hfile : ∀ f ∈ file, sshKrlFileContainsKey env f.content key = .error .krlBadMagic) :
    (∀ rd fp, authKeyIsRevoked env rd fp (some file) key = 0 →
        ∃ f ∈ file, ∀ line ∈ lines f.content, Passes env rd key line) ↔
      ∀ f ∈ file, ∀ line ∈ lines f.content,
        skipped (keyText line) ∨ ∃ line' ∈ lines f.given, keyText line' = keyText line := by
  cases file with
  | none => simp [authKeyIsRevoked]
  | some f =>
    have hzero {rd fp} := @authKeyIsRevoked_eq_zero env rd key fp f (hfile f rfl)
    simp only [hzero,Option.mem_some_iff,exists_eq_left',forall_eq']
    constructor
    · intro h line hline
      by_contra hnot
      obtain ⟨hskipped,hlost⟩ := not_or.mp hnot
      -- the line that is not given is the only one that cannot be read
      have hpass := h (unreadable (keyText line)) (some []) ⟨rfl,fun line' hline' => .inr (.inl ?_)⟩
        line hline
      · simp [Passes,unreadable,hskipped] at hpass
      · exact congrArg _ (if_neg fun heq => hlost ⟨line',hline',heq⟩)
    · rintro hgiven rd fp ⟨-,hpass⟩ line hline
      rcases hgiven line hline with hskipped | ⟨line',hline',heq⟩
      · exact .inl hskipped
      · have := hpass line' hline'
        rwa [Passes,heq] at this

end

def failedFile : RevokedFile := ⟨flatFile [exampleLine],[],List.nil_prefix⟩

def wholeFile : RevokedFile := { failedFile with given := failedFile.content, start := prefix_rfl }

/-- The file that is read to its end fails closed; it passes another key than the one listed. -/
theorem authKeyIsRevoked_closed_whole :
    authKeyIsRevoked exampleListEnv exampleText (some []) (some (some wholeFile))
      (rsaKey 3127 17) = 0 ∧
    ∀ rd fp, authKeyIsRevoked exampleListEnv rd fp (some (some wholeFile)) (rsaKey 3127 17) = 0 →
      ∃ f ∈ some wholeFile,
        ∀ line ∈ lines f.content, Passes exampleListEnv rd (rsaKey 3127 17) line := by
  refine ⟨by decide +kernel,(authKeyIsRevoked_closed_iff _ ?_).mpr ?_⟩
  · rintro f ⟨⟩
    decide +kernel
  · rintro f ⟨⟩ line hline
    exact .inr ⟨line,hline,rfl⟩

/-- After the read error the key passes, and the file lists it. -/
theorem authKeyIsRevoked_failed :
    sshKrlFileContainsKey exampleListEnv failedFile.content (rsaX509Key 3233 17 "alice") =
      .error .krlBadMagic ∧
    authKeyIsRevoked exampleListEnv exampleText (some []) (some (some failedFile))
      (rsaX509Key 3233 17 "alice") = 0 ∧
    ∃ line ∈ lines failedFile.content, ∃ pub, exampleText.sshkeyRead (keyText line) = .ok pub ∧
      sshkeyEqualPublic exampleListEnv.ssl (rsaX509Key 3233 17 "alice") pub = true ∧
      ¬ Passes exampleListEnv exampleText (rsaX509Key 3233 17 "alice") line := by
  have hread : exampleText.sshkeyRead (keyText (exampleLine ++ [newline])) =
    .ok (rsaX509Key 3233 17 "alice") := by decide +kernel
  have hequal : sshkeyEqualPublic exampleListEnv.ssl (rsaX509Key 3233 17 "alice")
    (rsaX509Key 3233 17 "alice") = true := by decide +kernel
  refine ⟨by decide +kernel,by decide +kernel,exampleLine ++ [newline],by decide +kernel,_,hread,
    hequal,?_⟩
  rintro (hskipped | hshort | ⟨pub,hpub,hother,-⟩)
  · exact absurd hskipped (by decide +kernel)
  · rw [hread] at hshort
    cases hshort
  · rw [hread] at hpub
    cases hpub
    exact hother hequal

end PkixSsh.Krl
