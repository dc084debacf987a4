import Mathlib.Data.List.Find
import PkixSsh.Agent.Signing
import PkixSsh.Key.CertificateList
import PkixSsh.Key.SignatureName

/-!
# How the agent reads a sign request

The key blob of a request has one of three formats, and the agent tries its decoders in an order of
its own.
-/

namespace PkixSsh.Agent

open Key X509 Sshbuf FirstMatch List BigEndian

/-- The blob of an OpenSSH certificate begins with the name of its type. -/
def CertNamed (k : SshKey) : Prop :=
  ∀ cert, k.cert = some cert →
    ∃ rest, cert.certblob = framed (sshkeySshNameFromTypeNid k.type k.ecdsaNid) ++ rest

lemma toBlobBuf_named {c : Codec} {k : SshKey} {b : Bytes} (hc : CertNamed k)
    (h : toBlobBuf c k = .ok b) :
    ∃ rest, b = framed (sshkeySshNameFromTypeNid k.type k.ecdsaNid) ++ rest := by
  rcases toBlobBuf_ok h with ⟨-,cert,hcert,-,rfl⟩ | ⟨-,hfields⟩
  · exact hc cert hcert
  · exact hfields

variable {pr : Process}

lemma getKeyIdentifier_of_not_x509v3 {name rest : Bytes}
    (hm : pr.missingKeyIdentifier = false) (hnul : 0 ∉ name)
    (hx : ¬ cstr "x509v3-" <+: name) (hl : name.length ≤ sshbufSizeMax - 4) :
    getKeyIdentifier pr (framed name ++ rest) = .error .keyTypeUnknown := by
  rw [getKeyIdentifier,if_neg (by simp [hm]),getCstring_framed hnul hl]
  have hs := searchUntil_table pr.xkalgs (fun p => p.name = name) (·.chain)
  have hnone : (pr.xkalgs.algs.find? fun p => decide (p.name = name) && p.chain) = none := by
    apply List.find?_eq_none.mpr
    intro p hp hpn
    simp only [Bool.and_eq_true,decide_eq_true_eq] at hpn
    exact hx (hpn.1 ▸ pr.xkalgs.named hp)
  rw [hnone,Option.map_eq_none_iff] at hs
  change searchUntil (sshXkalgNameind _ name) _ 21 none = none at hs
  simp [hs]

lemma sshkeyFromPrivate_name (t : XkalgTable) (k : LoadedKey) :
    ∃ n, sshkeyFromPrivate { k.1 with x509Data := none } = .ok n ∧
      sshkeySshName t n = sshkeySshNameFromTypeNid k.1.type k.1.ecdsaNid := by
  obtain ⟨k,hpub,-⟩ := k
  rw [publicKey] at hpub
  cases ht : k.type
  case xmss | xmssCert | unspec => simp [ht,sshkeyTypePlain,publicKeyOfType] at hpub
  all_goals
    simp only [ht]
    exact ⟨_,rfl,rfl⟩

lemma encode_head_ne {n : Nat} {rest : Bytes} (hn : n ≤ sshbufSizeMax) :
    (encode 4 n ++ rest).head? ≠ some 0x30 := by
  obtain ⟨b,t,hb,hle⟩ := encode_four_head hn
  rw [hb]
  intro h
  cases h
  exact absurd hle (by decide)

lemma parseKeyFromBlob_named {c : Codec} {name rest : Bytes}
    (hm : pr.missingKeyIdentifier = false) (hnul : 0 ∉ name) (hx : ¬ cstr "x509v3-" <+: name)
    (hl : name.length ≤ sshbufSizeMax - 4) : parseKeyFromBlob c pr (framed name ++ rest) =
      match c.sshkeyFromBlob (framed name ++ rest) with
      | .ok key => .ok (key.1,sshkeySshName pr.xkalgs key.1)
      | .error r => .error (.err r) := by
  have hbuf : x509keyFromBuf2Common c pr (framed name ++ rest) =
      .error (.err .keyTypeUnknown) := by
    rw [x509keyFromBuf2Common,getKeyIdentifier_of_not_x509v3 hm hnul hx hl]
    rfl
  have hhead : (framed name ++ rest).head? ≠ some 0x30 := by
    rw [framed,append_assoc]
    exact encode_head_ne (by omega)
  rw [parseKeyFromBlob,if_neg fun h => hhead h.2]
  unfold parseNonLegacy
  cases hd : c.sshkeyFromBlob _ <;> simp only [hbuf]

lemma parseKeyFromBlob_plain {c : Codec} {k : LoadedKey} {b : Bytes}
    (hm : pr.missingKeyIdentifier = false) (hd : Decodes c k) (hc : CertNamed k.1)
    (hb : toBlobBuf c k.1 = .ok b) :
    ∃ key, parseKeyFromBlob c pr b = .ok (key,sshkeySshNameFromTypeNid k.1.type k.1.ecdsaNid) := by
  obtain ⟨hnul,hx,hnl⟩ := sshkeySshNameFromTypeNid_ok _ _
  have hblob := (hd.blob b hb).2
  obtain ⟨n,hn,hname⟩ := sshkeyFromPrivate_name _ k
  obtain ⟨rest,rfl⟩ := toBlobBuf_named hc hb
  have hmax : 45 ≤ sshbufSizeMax := by decide
  rw [parseKeyFromBlob_named hm hnul hx (by omega)]
  rw [hn] at hblob
  split
  · next key hf =>
    rw [hf] at hblob
    cases hblob
    exact ⟨_,by rw [hname]⟩
  · next e hf =>
    rw [hf] at hblob
    cases hblob

lemma parseKeyFromBlob_der {c : Codec} {x : X509Cert} {k : SshKey}
    (hhead : x.der.head? = some 0x30) (hlong : 1 < x.der.length)
    (hl : x.der.length ≤ sshbufSizeMax) (hd : c.d2iX509 x.der = some (x,[]))
    (hk : x509ToKey c x = some k) : parseKeyFromBlob c pr x.der =
      match sshXkalgTypeformind pr.xkalgs k.type k.ecdsaNid .legacy with
      | none => .error (.err .keyTypeUnknown)
      | some (_,p) => .ok (k,p.name) := by
  have hx : x509FromBlob c x.der = .ok x := x509FromBlob_der (ne_nil_of_length_pos (by omega)) hl hd
  have hkey : x509keyFromBlob c x.der = .ok k := by
    simp [x509keyFromBlob,hx,hk]
  cases ht : sshXkalgTypeformind _ _ _ _ with
  | none => simp [parseKeyFromBlob,hlong,hhead,hkey,ht]
  | some jp => simp [parseKeyFromBlob,hlong,hhead,hkey,ht]

/-- Without the identifier the count of certificates is taken for the length of a name, and the
length of the first one for its first bytes. -/
lemma getKeyIdentifier_missing {name : Bytes} {x : X509Cert}
    {chain : List X509Cert} (hm : pr.missingKeyIdentifier = false)
    (hl : (buf2Bytes true name (x :: chain)).length ≤ sshbufSizeMax) :
    ∃ e, getKeyIdentifier pr (buf2Bytes true name (x :: chain)) = .error e := by
  have hbytes : buf2Bytes true name (x :: chain) = encode 4 (chain.length + 1) ++
      (encode 4 x.der.length ++ (x.der ++
        ((chain.flatMap fun x => framed x.der) ++ encode 4 0))) := by
    simp [buf2Bytes,framed]
  rw [hbytes] at hl ⊢
  simp only [length_append] at hl
  rw [getKeyIdentifier,if_neg (by simp [hm])]
  cases hg : getCstring _ with
  | error e => exact ⟨_,rfl⟩
  | ok pb =>
    obtain ⟨pkalg,b⟩ := pb
    cases hs : searchUntil (sshXkalgNameind pr.xkalgs pkalg) (·.chain) 21 none with
    | none => exact ⟨.keyTypeUnknown,by simp [hs]⟩
    | some jq =>
      obtain ⟨d,hd,-,hpk⟩ := getCstring_iff.mp hg
      obtain ⟨-,hd⟩ := getString_ok hd
      -- the name begins with the letter x
      have hfind := searchUntil_table pr.xkalgs (fun p => p.name = pkalg) (·.chain)
      change (searchUntil (sshXkalgNameind _ pkalg) _ 21 none).map _ = _ at hfind
      rw [hs] at hfind
      have hn := List.find?_some hfind.symm
      simp only [Bool.and_eq_true,decide_eq_true_eq] at hn
      obtain ⟨t,ht⟩ := pr.xkalgs.named (List.mem_of_find?_eq_some hfind.symm)
      rw [hn.1,hpk] at ht
      -- and with the first byte of a length
      rw [framed,append_assoc] at hd
      obtain ⟨-,hd⟩ := append_inj hd (by simp)
      obtain ⟨a,rest,ha,hle⟩ := encode_four_head (show x.der.length ≤ sshbufSizeMax by omega)
      rw [ha] at hd
      cases d with
      | nil =>
        have := congrArg List.length ht
        simp [untilNul,cstr] at this
      | cons e d =>
        simp only [cons_append,List.cons.injEq] at hd
        obtain ⟨rfl,-⟩ := hd
        have hhead : (untilNul (a :: d)).head? = some 0x78 := by
          rw [← ht]
          rfl
        rw [untilNul,takeWhile_cons] at hhead
        split at hhead
        · cases hhead
          exact absurd hle (by decide)
        · cases hhead

lemma buf2Bytes_head {missing : Bool} {name : Bytes} {certs : List X509Cert}
    (hl : (buf2Bytes missing name certs).length ≤ sshbufSizeMax) :
    (buf2Bytes missing name certs).head? ≠ some 0x30 := by
  have hcount := length_le_flatMap certs
  cases missing with
  | true =>
    simp only [buf2Bytes,length_append] at hl ⊢
    exact encode_head_ne (by omega)
  | false =>
    simp only [buf2Bytes,Bool.false_eq_true,if_false,length_append,length_framed] at hl ⊢
    rw [framed,append_assoc]
    exact encode_head_ne (by omega)

lemma parseKeyFromBlob_list {c : Codec} {b : Bytes} {r : SshKey × Bytes}
    (hhead : b.head? ≠ some 0x30) (hno : ∃ e, c.sshkeyFromBlob b = .error e) :
    parseKeyFromBlob c pr b = .ok r ↔ x509keyFromBuf2Common c pr b = .ok r := by
  obtain ⟨e,he⟩ := hno
  rw [parseKeyFromBlob,if_neg fun h => hhead h.2,parseNonLegacy]
  cases x509keyFromBuf2Common c pr b with
  | ok r' => rfl
  | error s =>
    cases s with
    | err r' => simp [he]
    | fatal => simp
    | nullRead => simp

end PkixSsh.Agent
