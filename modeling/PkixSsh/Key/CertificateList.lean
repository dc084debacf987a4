import Mathlib.Data.List.Find
import PkixSsh.Key.SignatureShape

/-!
# Certificate lists

The key format of RFC 6187: what `X509key_from_buf2_common` makes of the bytes of `xkey_to_buf2`.
-/

namespace PkixSsh.Key

open X509 Sshbuf FirstMatch List BigEndian Prod Except

def x509keyFromBlob2 (c : Codec) (pr : Process) (pkalg blob : Bytes) : Except Stop SshKey :=
  if blob.length > sshbufSizeMax then .error (.err .allocFail)
  else do
    let (key,xpkalg) ← x509keyFromBuf2Common c pr blob
    if pkalg ≠ xpkalg then .error (.err .keyTypeMismatch) else return key

variable {c : Codec} {p q : SshX509KeyAlg} {k : SshKey} {x : X509Cert} {t : XkalgTable}
  {pr : Process} {b name : Bytes} {base : KeyType} {sub : Int} {chain : List X509Cert}
  {r : SshKey × Bytes}

lemma checkRsa2048Sha256_congr {k' : SshKey} (ht : k.type = k'.type) (hc : certOf k = certOf k') :
    checkRsa2048Sha256 c q k = checkRsa2048Sha256 c q k' := by
  rw [checkRsa2048Sha256,checkRsa2048Sha256,sshX509KeySize,sshX509KeySize,ht,hc]

lemma certificates_of_cert (h : certOf k = some x) :
    x509keyCheck k = true ∧ ∃ chain, certificates k = x :: chain := by
  rcases hd : k.x509Data with _ | ⟨_ | x',chain⟩
  · simp [certOf,hd] at h
  · simp [certOf,hd] at h
  · simp only [certOf,hd,Option.bind_some,Option.some.injEq] at h
    subst h
    exact ⟨by simp [x509keyCheck,hd],chain.getD [],by simp [certificates,hd]⟩

lemma basetype_eq {t' : XkalgTable} (hp : p ∈ t.algs) (hq : q ∈ t'.algs) (hn : q.name = p.name) :
    q.basetype = p.basetype ∧ q.subtype = p.subtype := by
  have hb := t'.based q hq
  rw [hn,t.based p hp,ok.injEq,mk.injEq,mk.injEq] at hb
  exact ⟨hb.1.symm,hb.2.1.symm⟩

def buf2Bytes (missing : Bool) (name : Bytes) (certs : List X509Cert) : Bytes :=
  (if missing then [] else framed name) ++ (encode 4 certs.length ++
    ((certs.flatMap fun x => framed x.der) ++ encode 4 0))

lemma xkeyToBuf2_iff (hx : x509keyCheck k = true) : xkeyToBuf2 c pr p k = .ok b ↔
      checkRsa2048Sha256 c p k = .ok true ∧ b.length ≤ sshbufSizeMax ∧
        b = buf2Bytes pr.missingKeyIdentifier p.name (certificates k) := by
  rw [xkeyToBuf2,if_neg (by simp [hx]),bind_eq_ok]
  constructor
  · rintro ⟨fits,hfits,h⟩
    cases fits with
    | false => simp at h
    | true =>
      simp only [Bool.not_true,Bool.false_eq_true,if_false,check_eq_ok] at h
      obtain ⟨b1,h1,h⟩ := bind_eq_ok.mp h
      obtain ⟨b2,h2,h⟩ := bind_eq_ok.mp h
      obtain ⟨b3,h3,h⟩ := bind_eq_ok.mp h
      have hb1 : b1 = if pr.missingKeyIdentifier then [] else framed p.name := by
        rw [putKeyIdentifier] at h1
        split at h1
        · cases h1
          simp [*]
        · rw [(putString_iff.mp h1).2]
          simp [*]
      obtain ⟨hl2,rfl⟩ := put_iff.mp h2
      rw [foldlM_putString_iff (by rw [length_append]; exact hl2)] at h3
      obtain ⟨hl3,rfl⟩ := h3
      obtain ⟨hl,rfl⟩ := put_iff.mp h
      refine ⟨hfits,?_,?_⟩
      · rw [length_append]
        exact hl
      · rw [buf2Bytes,← hb1]
        simp only [append_assoc]
  · rintro ⟨hfits,hl,rfl⟩
    refine ⟨true,hfits,?_⟩
    simp only [Bool.not_true,Bool.false_eq_true,if_false,check_eq_ok]
    have hlen := hl
    simp only [buf2Bytes,length_append,length_encode] at hlen
    refine bind_eq_ok.mpr ⟨if pr.missingKeyIdentifier then [] else framed p.name,?_,
      bind_eq_ok.mpr ⟨_,put_iff.mpr ⟨?_,rfl⟩,bind_eq_ok.mpr ⟨_,
        (foldlM_putString_iff ?_).mpr ⟨?_,rfl⟩,put_iff.mpr ⟨?_,?_⟩⟩⟩⟩
    · rw [putKeyIdentifier]
      split
      · rfl
      · rename_i hm
        rw [if_neg hm,length_framed] at hlen
        exact putString_iff.mpr ⟨by rw [length_nil]; omega,rfl⟩
    · rw [length_encode]
      omega
    · rw [length_append,length_encode]
      omega
    · simp only [length_append,length_encode]
      omega
    · simp only [length_append,length_encode]
      omega
    · simp only [buf2Bytes,append_assoc]

lemma getCerts_flatMap {xs : List X509Cert}
    (hx : ∀ x ∈ xs, x.der ≠ [] ∧ c.d2iX509 x.der = some (x,[])) (rest : Bytes)
    (hl : (xs.flatMap fun x => framed x.der).length ≤ sshbufSizeMax - 4) :
    getCerts c xs.length ((xs.flatMap fun x => framed x.der) ++ rest) = .ok (xs,rest) := by
  induction xs with
  | nil => rfl
  | cons x xs ih =>
    rw [flatMap_cons,length_append,length_framed] at hl
    obtain ⟨hne,hd⟩ := hx x (by simp)
    have hfrom := x509FromBlob_der hne (by omega) hd
    have hrec := ih (fun x hmem => hx x (mem_cons_of_mem _ hmem)) (by omega)
    rw [length_cons,getCerts,flatMap_cons,append_assoc,getString_framed (by omega)]
    simp [hfrom,hrec]

lemma searchChain_eq (hb : xkalgBase name = .ok (base,sub,true)) :
    (searchUntil (sshXkalgNameind t name) (·.chain) 21 none).map snd = xkalgByName t name := by
  have hs := searchUntil_table t (fun p => p.name = name) (·.chain)
  rw [xkalgByName_eq]
  refine hs.trans (List.find?_congr fun p hp => ?_)
  by_cases hn : p.name = name
  · have hbase := t.based p hp
    rw [hn,hb,ok.injEq,mk.injEq,mk.injEq] at hbase
    simp [← hbase.2.2]
  · simp [hn]

lemma getKeyIdentifier_named (hm : pr.missingKeyIdentifier = false)
    (hb : xkalgBase name = .ok (base,sub,true)) (hnul : 0 ∉ name)
    (hl : name.length ≤ sshbufSizeMax - 4) (rest : Bytes) :
    getKeyIdentifier pr (framed name ++ rest) = match xkalgByName pr.xkalgs name with
      | none => .error .keyTypeUnknown
      | some q => .ok (some (name,q),rest) := by
  rw [getKeyIdentifier,if_neg (by simp [hm]),getCstring_framed hnul hl,← searchChain_eq hb]
  cases hs : searchUntil _ _ 21 none with
  | none => simp [hs]
  | some q => simp [hs]

lemma length_le_flatMap (xs : List X509Cert) :
    xs.length ≤ (xs.flatMap fun x => framed x.der).length := by
  induction xs with
  | nil => simp
  | cons x xs ih =>
    rw [flatMap_cons,length_append,length_framed,length_cons]
    omega

lemma getChain_flatMap (hx : ∀ x ∈ chain, x.der ≠ [] ∧ c.d2iX509 x.der = some (x,[]))
    (hl : (chain.flatMap fun x => framed x.der).length ≤ sshbufSizeMax - 4) :
    getChain c (chain.length + 1)
      ((chain.flatMap fun x => framed x.der) ++ encode 4 0) = .ok chain := by
  have hzero : getU32 (encode 4 0) = .ok (0,[]) := by decide
  rw [getChain,Nat.add_sub_cancel,getCerts_flatMap hx _ hl]
  simp [hzero,skipStrings]

/-- Behind its start a list is read as the key of the first certificate and an algorithm,
if it is short enough and the key fits the algorithm. -/
lemma x509keyFromBuf2Common_list {named : Option (Bytes × SshX509KeyAlg)}
    (hid : getKeyIdentifier pr b = .ok (named,buf2Bytes true name (x :: chain)))
    (hl : (buf2Bytes true name (x :: chain)).length ≤ sshbufSizeMax)
    (hx : ∀ z ∈ x :: chain, z.der ≠ [] ∧ c.d2iX509 z.der = some (z,[]))
    (hk : x509ToKey c x = some k) : x509keyFromBuf2Common c pr b = .ok r ↔
      chain.length + 1 ≤ 100 ∧ ∃ alg, keyAlgorithm pr k named = .ok alg ∧
        checkRsa2048Sha256 c alg.2 k = .ok true ∧
        r = ({ k with x509Data := some ⟨some x,some chain⟩ },alg.1) := by
  have hbytes : buf2Bytes true name (x :: chain) =
      encode 4 (chain.length + 1) ++ (framed x.der ++
        ((chain.flatMap fun x => framed x.der) ++ encode 4 0)) := by
    simp [buf2Bytes]
  rw [hbytes] at hid hl
  simp only [length_append,length_framed] at hl
  have hmax : sshbufSizeMax < 256 ^ 4 := by decide
  have hcount := length_le_flatMap chain
  have hfrom := x509FromBlob_der (hx x (by simp)).1 (by omega) (hx x (by simp)).2
  have hchain := getChain_flatMap (fun z hz => hx z (mem_cons_of_mem _ hz))
    (show (chain.flatMap _).length ≤ sshbufSizeMax - 4 by omega)
  rw [x509keyFromBuf2Common,hid]
  simp only [check_ok,ok_bind,getU32,getUint_encode (show chain.length + 1 < 256 ^ 4 by omega),
    getString_framed (show x.der.length ≤ sshbufSizeMax - 4 by omega),hfrom,hk,hchain]
  by_cases hn : chain.length + 1 ≤ 100
  · rw [if_neg (by omega)]
    cases keyAlgorithm pr k named with
    | error e => simp
    | ok alg =>
      simp only [check_ok,ok_bind,ok.injEq,exists_eq_left',hn]
      cases hrsa : checkRsa2048Sha256 c alg.2 k with
      | error s => simp
      | ok fits =>
        cases fits with
        | false => simp
        | true =>
          simp only [ok_bind,Bool.not_true,Bool.false_eq_true,if_false,pure_eq_ok,ok.injEq,true_and]
          exact eq_comm
  · rw [if_pos (by omega)]
    simp [hn]

lemma keyAlgorithm_named {alg : Bytes × SshX509KeyAlg} :
    keyAlgorithm pr k (some (name,q)) = .ok alg ↔
      (k.type = q.basetype ∧ k.ecdsaNid = q.subtype) ∧ alg = (name,q) := by
  rw [keyAlgorithm]
  by_cases hfit : k.type = q.basetype ∧ k.ecdsaNid = q.subtype
  · rw [if_neg (by rw [← not_and_or]; exact not_not.mpr hfit),ok.injEq]
    exact ⟨fun h => ⟨hfit,h.symm⟩,fun h => h.2.symm⟩
  · rw [if_pos (by rw [← not_and_or]; exact hfit)]
    exact ⟨nofun,fun h => absurd h.1 hfit⟩

/-- What is read of a list with an identifier: the key of the first certificate and the
name, if the process has the algorithm and the key fits it. -/
lemma x509keyFromBuf2Common_named (hm : pr.missingKeyIdentifier = false)
    (hb : xkalgBase name = .ok (base,sub,true)) (hnul : 0 ∉ name)
    (hl : (buf2Bytes false name (x :: chain)).length ≤ sshbufSizeMax)
    (hx : ∀ z ∈ x :: chain, z.der ≠ [] ∧ c.d2iX509 z.der = some (z,[]))
    (hk : x509ToKey c x = some k) :
    x509keyFromBuf2Common c pr (buf2Bytes false name (x :: chain)) = .ok r ↔
      ∃ q, xkalgByName pr.xkalgs name = some q ∧ chain.length + 1 ≤ 100 ∧
        k.type = q.basetype ∧ k.ecdsaNid = q.subtype ∧ checkRsa2048Sha256 c q k = .ok true ∧
        r = ({ k with x509Data := some ⟨some x,some chain⟩ },name) := by
  have hbytes : buf2Bytes false name (x :: chain) = framed name ++ buf2Bytes true name _ := rfl
  rw [hbytes] at hl ⊢
  rw [length_append,length_framed] at hl
  have hid := getKeyIdentifier_named hm hb hnul (show name.length ≤ sshbufSizeMax - 4 by omega)
    (buf2Bytes true name (x :: chain))
  cases hq : xkalgByName _ name with
  | none =>
    rw [hq] at hid
    simp [x509keyFromBuf2Common,hid]
  | some q =>
    rw [hq] at hid
    rw [x509keyFromBuf2Common_list hid (by omega) hx hk]
    simp only [keyAlgorithm_named,Option.some.injEq,exists_eq_left']
    constructor
    · rintro ⟨hn,alg,⟨⟨ht,hs⟩,rfl⟩,hrsa,hr⟩
      exact ⟨hn,ht,hs,hrsa,hr⟩
    · rintro ⟨hn,ht,hs,hrsa,hr⟩
      exact ⟨hn,(name,q),⟨⟨ht,hs⟩,rfl⟩,hrsa,hr⟩

/-- What is read of a list without identifier: the key of the first certificate and the
first algorithm for certificate lists with its type. -/
lemma x509keyFromBuf2Common_missing (hm : pr.missingKeyIdentifier = true)
    (hl : (buf2Bytes true name (x :: chain)).length ≤ sshbufSizeMax)
    (hx : ∀ z ∈ x :: chain, z.der ≠ [] ∧ c.d2iX509 z.der = some (z,[]))
    (hk : x509ToKey c x = some k) :
    x509keyFromBuf2Common c pr (buf2Bytes true name (x :: chain)) = .ok r ↔ chain.length + 1 ≤ 100 ∧
        ∃ q, (sshXkalgTypeformind pr.xkalgs k.type k.ecdsaNid .rfc6187).map snd = some q ∧
          checkRsa2048Sha256 c q k = .ok true ∧
          r = ({ k with x509Data := some ⟨some x,some chain⟩ },q.name) := by
  rw [x509keyFromBuf2Common_list (if_pos hm) hl hx hk,keyAlgorithm]
  cases sshXkalgTypeformind _ _ _ _ with
  | none => simp
  | some jq => simp

lemma x509keyFromBlob2_iff {pkalg : Bytes} (hl : b.length ≤ sshbufSizeMax) :
    x509keyFromBlob2 c pr pkalg b = .ok k ↔ x509keyFromBuf2Common c pr b = .ok (k,pkalg) := by
  rw [x509keyFromBlob2,if_neg (by omega)]
  cases x509keyFromBuf2Common c pr b with
  | error s => simp
  | ok r =>
    obtain ⟨key,xpkalg⟩ := r
    rw [ok_bind,ok.injEq,mk.injEq]
    dsimp only
    by_cases hn : pkalg = xpkalg
    · rw [if_neg (not_not.mpr hn),pure_eq_ok,ok.injEq]
      exact ⟨fun h => ⟨h,hn.symm⟩,fun h => h.1⟩
    · rw [if_pos hn]
      exact ⟨nofun,fun h => absurd h.2.symm hn⟩

/-- The key is the one of its certificate, as `x509_to_key` finds it there. -/
def OfCertificate (c : Codec) (k : SshKey) : Prop :=
  ∃ x key, certOf k = some x ∧ x509ToKey c x = some key ∧ key.type = k.type ∧
    key.ecdsaNid = k.ecdsaNid

/-- The algorithm is the one that a list of the key is read for: the key fits it, or, without
identifier, it is the first for certificate lists with the type of the key. -/
def ReadFor (pr : Process) (p : SshX509KeyAlg) (k : SshKey) : Prop :=
  if pr.missingKeyIdentifier then
    (sshXkalgTypeformind pr.xkalgs k.type k.ecdsaNid .rfc6187).map snd = some p
  else k.type = p.basetype ∧ k.ecdsaNid = p.subtype

instance (pr : Process) (p : SshX509KeyAlg) (k : SshKey) : Decidable (ReadFor pr p k) := by
  rw [ReadFor]
  infer_instance

lemma firstOfType_eq {type : KeyType} (hp : xkalgByName t p.name = some p)
    (hq : (sshXkalgTypeformind t type sub .rfc6187).map snd = some q) (hn : q.name = p.name) :
    q = p := by
  rw [sshXkalgTypeformind] at hq
  have hf := (searchUntil_table t _ _).symm.trans hq
  obtain ⟨hpm,-⟩ := xkalgByName_some hp
  have hqm := List.mem_of_find?_eq_some hf
  have hbase := t.based q hqm
  rw [hn,t.based p hpm,ok.injEq,mk.injEq,mk.injEq] at hbase
  rw [xkalgByName_eq] at hp
  refine first_eq_of_both hf hp ?_ (by simpa using hn)
  have hmatch := List.find?_some hf
  rw [hbase.1,hbase.2.1,hbase.2.2]
  exact hmatch

/-- The list of `xkey_to_buf2` is read by `X509key_from_blob2` as the same certificates exactly when
there are at most 100 and the algorithm is the one the list is read for. -/
theorem x509keyFromBlob2_xkeyToBuf2_iff {c : Codec} {pr : Process} {p : SshX509KeyAlg}
    {k : SshKey} {b : Bytes} (hp : xkalgByName pr.xkalgs p.name = some p) (hc : p.chain = true)
    (hkey : OfCertificate c k)
    (hder : ∀ x ∈ certificates k, x.der ≠ [] ∧ c.d2iX509 x.der = some (x,[]))
    (hb : xkeyToBuf2 c pr p k = .ok b) :
    (∃ k', x509keyFromBlob2 c pr p.name b = .ok k' ∧ certificates k' = certificates k) ↔
      (certificates k).length ≤ 100 ∧ ReadFor pr p k := by
  obtain ⟨x,key,hx,hxk,htype,hnid⟩ := hkey
  obtain ⟨hcheck,chain,hcerts⟩ := certificates_of_cert hx
  obtain ⟨hpm,-⟩ := xkalgByName_some hp
  have hbase := pr.xkalgs.based p hpm
  rw [hc] at hbase
  obtain ⟨hrsa,hl,rfl⟩ := (xkeyToBuf2_iff hcheck).mp hb
  have hcert : certOf key = certOf k := by
    rw [hx,certOf,(x509ToKey_some hxk).1]
    rfl
  rw [← checkRsa2048Sha256_congr htype hcert] at hrsa
  rw [hcerts] at hl hder ⊢
  simp only [x509keyFromBlob2_iff hl]
  cases hm : pr.missingKeyIdentifier with
  | false =>
    rw [hm] at hl
    have hsame : ∀ k', x509keyFromBuf2Common c pr (buf2Bytes false p.name (x :: chain)) =
        .ok (k',p.name) ↔ chain.length + 1 ≤ 100 ∧ (key.type = p.basetype ∧
          key.ecdsaNid = p.subtype) ∧ k' = { key with x509Data := some ⟨some x,some chain⟩ } := by
      intro k'
      rw [x509keyFromBuf2Common_named hm hbase (pr.xkalgs.cstrings p hpm).1 hl hder hxk]
      simp only [hp,Option.some.injEq,exists_eq_left',hrsa,true_and,mk.injEq,and_true,and_assoc]
    rw [ReadFor,hm,← htype,← hnid]
    simp only [hsame]
    constructor
    · rintro ⟨k',⟨hn,hfit,-⟩,-⟩
      exact ⟨hn,hfit⟩
    · rintro ⟨hn,hfit⟩
      exact ⟨_,⟨hn,hfit,rfl⟩,rfl⟩
  | true =>
    rw [hm] at hl
    rw [ReadFor,if_pos hm,← htype,← hnid]
    constructor
    · rintro ⟨k',hr,-⟩
      obtain ⟨hn,q,hq,-,hr⟩ := (x509keyFromBuf2Common_missing hm hl hder hxk).mp hr
      have hname : q.name = p.name := (congrArg snd hr).symm
      exact ⟨hn,firstOfType_eq hp hq hname ▸ hq⟩
    · rintro ⟨hn,hq⟩
      refine ⟨_,(x509keyFromBuf2Common_missing hm hl hder hxk).mpr ⟨hn,p,hq,hrsa,rfl⟩,rfl⟩

def exampleChainKey (n : Nat) : SshKey :=
  { exampleEcKey with x509Data := some ⟨some ⟨[],[0x30,0]⟩,some (List.replicate n ⟨[],[0x30,0]⟩)⟩ }

lemma exampleChainKey_ofCertificate (n : Nat) :
    OfCertificate exampleEcCodec (exampleChainKey n) :=
  ⟨⟨[],[0x30,0]⟩,exampleEcKey,rfl,rfl,rfl,rfl⟩

lemma exampleChainKey_decodes (n : Nat) : ∀ x ∈ certificates (exampleChainKey n),
      x.der ≠ [] ∧ exampleEcCodec.d2iX509 x.der = some (x,[]) := by
  intro x hx
  have hsame : x = ⟨[],[0x30,0]⟩ := by
    rcases mem_cons.mp hx with rfl | hx
    · rfl
    · exact eq_of_mem_replicate hx
  subst hsame
  exact ⟨by decide,rfl⟩

/-- A chain of 99 certificates comes back. -/
theorem x509keyFromBlob2_chain_99 :
    ∃ b k', xkeyToBuf2 exampleEcCodec defaultProcess exampleEcAlg (exampleChainKey 99) = .ok b ∧
      x509keyFromBlob2 exampleEcCodec defaultProcess exampleEcAlg.name b = .ok k' ∧
      certificates k' = certificates (exampleChainKey 99) := by
  have hb : xkeyToBuf2 exampleEcCodec defaultProcess exampleEcAlg (exampleChainKey 99) =
      .ok (buf2Bytes false exampleEcAlg.name (certificates (exampleChainKey 99))) := by
    decide +kernel
  obtain ⟨k',hk',hcerts⟩ := (x509keyFromBlob2_xkeyToBuf2_iff (by decide +kernel) rfl
    (exampleChainKey_ofCertificate 99) (exampleChainKey_decodes 99) hb).mpr
    ⟨by decide,by decide +kernel⟩
  exact ⟨_,k',hb,hk',hcerts⟩

/-- A chain of 100 certificates is written and refused. -/
theorem x509keyFromBlob2_chain_100 : OfCertificate exampleEcCodec (exampleChainKey 100) ∧
      xkalgByName defaultProcess.xkalgs exampleEcAlg.name = some exampleEcAlg ∧
      (∀ x ∈ certificates (exampleChainKey 100),
        x.der ≠ [] ∧ exampleEcCodec.d2iX509 x.der = some (x,[])) ∧
      ∃ b, xkeyToBuf2 exampleEcCodec defaultProcess exampleEcAlg (exampleChainKey 100) = .ok b ∧
        x509keyFromBlob2 exampleEcCodec defaultProcess exampleEcAlg.name b =
          .error (.err .invalidFormat) := by
  refine ⟨exampleChainKey_ofCertificate 100,by decide +kernel,exampleChainKey_decodes 100,
    buf2Bytes false exampleEcAlg.name (certificates (exampleChainKey 100)),?_,?_⟩
  · decide +kernel
  · decide +kernel

end PkixSsh.Key
