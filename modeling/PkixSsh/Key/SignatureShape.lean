import PkixSsh.Key.Sign

/-!
# The shape of accepted X.509 signatures

The two strings of an accepted signature are exact. The name may be that of any algorithm, and the
numbers of an ECDSA signature may be followed by anything.
-/

namespace PkixSsh.Key

open X509 Sshbuf FirstMatch List

/-- An ECDSA algorithm in the format of RFC 6187: each of its entries is, and the process
does not talk to a peer with opaque ASN.1 signatures. -/
def Rfc6187Ecdsa (pr : Process) (alg : Bytes) : Prop :=
  pr.asn1OpaqueEcdsaSignature = false ∧
    ∀ q ∈ pr.xkalgs.algs, q.name = alg → q.dgst.final = .sshEcdsa

/-- The encoding a signature of the algorithm should have. -/
def SignatureShape (pr : Process) (alg : Bytes) (p : SshX509KeyAlg) (sig : Bytes) : Prop :=
  ∃ name value, sig = framed name ++ framed value ∧ name = x509pubalgSigname p ∧
    (Rfc6187Ecdsa pr alg →
      ∃ r s, Mpint r ∧ Mpint s ∧ value = framed r ++ framed s)

/-- The forms that pass although they are not the shape: a name with a NUL in it, a name that the
table registers for another algorithm, and bytes behind the numbers of an ECDSA signature. -/
def Misread (pr : Process) (alg : Bytes) (p : SshX509KeyAlg) (sig : Bytes) : Prop :=
  ∃ name value, sig = framed name ++ framed value ∧ (0 ∈ name ∨
    (∃ q ∈ pr.xkalgs.algs, name = x509pubalgSigname q ∧
      x509pubalgSigname q ≠ x509pubalgSigname p) ∨
    (Rfc6187Ecdsa pr alg ∧ ∃ r s rest, Mpint r ∧ Mpint s ∧ rest ≠ [] ∧
      value = framed r ++ (framed s ++ rest)))

lemma parseSignature_ok {t : XkalgTable} {sig value : Bytes}
    (h : parseSignature t sig = .ok value) :
    ∃ name, name.length + value.length + 8 ≤ sshbufSizeMax ∧
      sig = framed name ++ framed value ∧
      ∃ q ∈ t.algs, untilNul name = x509pubalgSigname q := by
  rw [parseSignature] at h
  obtain ⟨buf,hput,h⟩ := bind_eq_ok.mp h
  obtain ⟨hlen,hbuf⟩ := put_iff.mp hput
  rw [hbuf,nil_append] at h
  obtain ⟨⟨name,rest⟩,hname,h⟩ := bind_eq_ok.mp h
  obtain ⟨-,hsig⟩ := getString_ok hname
  simp only at h
  split at h
  · cases h
  next hsigname =>
  obtain ⟨⟨v,rest'⟩,hv,h⟩ := bind_eq_ok.mp h
  have hrest := (getString_ok hv).2
  simp only at h
  split at h
  · cases h
  split at h
  · cases h
  · rename_i hnil
    cases h
    rw [hrest,not_not.mp hnil,append_nil] at hsig
    refine ⟨name,?_,hsig,?_⟩
    · rw [hsig] at hlen
      simp only [length_append,length_framed] at hlen
      omega
    · simpa [sshIsX509signame] using hsigname

lemma sshX509Verify_ok {c : Codec} {y : Crypto} {pr : Process} {alg : Bytes} {k : SshKey}
    {sig data : Bytes} (h : sshX509Verify c y pr alg k sig data = .ok ()) :
    ∃ value pubkey, parseSignature pr.xkalgs sig = .ok value ∧
      ∃ q ∈ pr.xkalgs.algs, q.name = alg ∧ verifyFinal y pr q.dgst pubkey data value = true := by
  rw [sshX509Verify] at h
  split at h
  · cases h
  split at h
  · cases h
  split at h
  · cases h
  rename_i pubkey _
  split at h
  · cases h
  obtain ⟨value,hv,h⟩ := bind_eq_ok.mp h
  rw [check_eq_ok] at hv
  refine ⟨value,pubkey,hv,?_⟩
  have hs := searchUntil_table pr.xkalgs (fun p => p.name = alg)
    (fun p => verifyFinal y pr p.dgst pubkey data value)
  split at h
  · rename_i q hq
    change searchUntil (next _ _) _ 21 none = _ at hq
    rw [hq] at hs
    have hmem := List.mem_of_find?_eq_some hs.symm
    have hp := List.find?_some hs.symm
    simp only [Bool.and_eq_true,decide_eq_true_eq] at hp
    exact ⟨q.2,hmem,hp.1,hp.2⟩
  · cases h

lemma sshEcdsaVerifyFinal_numbers {y : Crypto} {pr : Process} {md : EvpMd} {pkey : EvpPkey}
    {data value : Bytes} (ho : pr.asn1OpaqueEcdsaSignature = false)
    (h : sshEcdsaVerifyFinal y pr md pkey data value = true) :
    ∃ r s rest, Mpint r ∧ Mpint s ∧ value = framed r ++ (framed s ++ rest) := by
  rw [sshEcdsaVerifyFinal,if_neg (by simp [ho])] at h
  dsimp only at h
  split at h
  · cases h
  next hnumbers =>
  obtain ⟨⟨_,buf⟩,hr,hnumbers⟩ := bind_eq_ok.mp hnumbers
  obtain ⟨⟨_,rest⟩,hs,-⟩ := bind_eq_ok.mp hnumbers
  obtain ⟨r,hgr,hmr,-⟩ := getBignum2BytesDirect_iff.mp hr
  obtain ⟨s,hgs,hms,-⟩ := getBignum2BytesDirect_iff.mp hs
  obtain ⟨-,rfl⟩ := getString_ok hgr
  obtain ⟨-,rfl⟩ := getString_ok hgs
  exact ⟨r,s,rest,hmr,hms,rfl⟩

lemma numbers_end {r s r' s' rest : Bytes}
    (hl : (framed r ++ framed s).length ≤ sshbufSizeMax - 4)
    (h : framed r ++ framed s = framed r' ++ (framed s' ++ rest)) :
    rest = [] := by
  have hlen := congrArg List.length h
  simp only [length_append,length_framed] at hl hlen
  obtain ⟨-,h⟩ := framed_append_inj (by omega) (by omega) h
  rw [← append_nil (framed s)] at h
  exact (framed_append_inj (by omega) (by omega) h).2.symm

lemma signature_inj {name value n v : Bytes} (hl : name.length + value.length + 8 ≤ sshbufSizeMax)
    (h : framed name ++ framed value = framed n ++ framed v) :
    name = n ∧ value = v := by
  have hlen := congrArg List.length h
  simp only [length_append,length_framed] at hlen
  obtain ⟨hn,hv⟩ := framed_append_inj (by omega) (by omega) h
  exact ⟨hn,framed_inj (by omega) (by omega) hv⟩

/-- An accepted signature has the shape unless it is one of the forms that are misread. -/
theorem xkeyVerify_shape_iff (c : Codec) (y : Crypto) (pr : Process)
    (sshkeyVerify : SshKey → Bytes → Bytes → Option Bytes → Except SshErr Unit)
    (bugSigtype : Bool) (ctxAlg : Option Bytes) (k : SshKey) (sig data alg : Bytes)
    (p : SshX509KeyAlg) (halg : alg = ctxAlg.getD (sshkeySshName pr.xkalgs k))
    (hp : xkalgByName pr.xkalgs alg = some p)
    (h : xkeyVerify c y pr sshkeyVerify bugSigtype ctxAlg k sig data = .ok ()) :
    SignatureShape pr alg p sig ↔ ¬ Misread pr alg p sig := by
  simp only [xkeyVerify,← halg,hp] at h
  obtain ⟨value,pubkey,hparse,q,hq,hqn,hver⟩ := sshX509Verify_ok h
  obtain ⟨name,hlen,rfl,q',hq',hname⟩ := parseSignature_ok hparse
  constructor
  · rintro ⟨n,v,he,hn,hec⟩ ⟨n',v',he',hmis⟩
    obtain ⟨rfl,rfl⟩ := signature_inj hlen he
    obtain ⟨rfl,rfl⟩ := signature_inj hlen he'
    rcases hmis with hnul | ⟨r,-,hr,hne⟩ | ⟨hrfc,r,s,rest,-,-,hrest,hv⟩
    · rw [hn] at hnul
      exact (pr.xkalgs.cstrings p (xkalgByName_some hp).1).2 hnul
    · exact hne (hr.symm.trans hn)
    · obtain ⟨r',s',-,-,rfl⟩ := hec hrfc
      exact hrest (numbers_end (by omega) hv)
  · intro hno
    have hnul : 0 ∉ name := fun hnul => hno ⟨name,value,rfl,.inl hnul⟩
    rw [untilNul_of_not_mem hnul] at hname
    have hsame : x509pubalgSigname q' = x509pubalgSigname p :=
      not_not.mp fun hne => hno ⟨name,value,rfl,.inr (.inl ⟨q',hq',hname,hne⟩)⟩
    refine ⟨name,value,rfl,hname.trans hsame,fun hrfc => ?_⟩
    rw [verifyFinal,hrfc.2 q hq hqn] at hver
    obtain ⟨r,s,rest,hr,hs,hv⟩ := sshEcdsaVerifyFinal_numbers hrfc.1 hver
    have hrest : rest = [] :=
      not_not.mp fun hne => hno ⟨name,value,rfl,.inr (.inr ⟨hrfc,r,s,rest,hr,hs,hne,hv⟩)⟩
    rw [hrest,append_nil] at hv
    exact ⟨r,s,hr,hs,hv⟩

def exampleCrypto : Crypto where
  evpSignFinal _ _ _ := some [0x30,1,2]
  evpVerifyFinal _ _ _ sig := sig = [0x30,1,2]
  d2iSig sig := if sig = [0x30,1,2] then some (1,2) else none
  i2dSig sig := some [0x30,sig.1.toUInt8,sig.2.toUInt8]
  ed25519Sign _ _ := none

def exampleEcCodec : Codec where
  d2iX509 blob := if blob = [0x30,0] then some (⟨[],[0x30,0]⟩,[]) else none
  x509GetPubkey _ := some (.ec ⟨1,some (2,3)⟩)
  ecdsaKeyToNid _ := nidPrime256v1
  ecValidatePublic _ := true
  ecPoint _ := .ok [4,2,3]
  sshkeyFromBlob _ := .error .invalidFormat

def exampleEcKey : SshKey :=
  { sshkeyNew .ecdsa with
    ecdsaNid := nidPrime256v1
    ecdsa := some ⟨1,some (2,3)⟩
    x509Data := some ⟨some ⟨[],[0x30,0]⟩,none⟩ }

def defaultProcess : Process := ⟨defaultXkalg,false,false⟩

def exampleEcAlg : SshX509KeyAlg :=
  ⟨cstr "x509v3-ecdsa-sha2-nistp256",⟨cstr "ssh-sha256",.sha256,.sshEcdsa⟩,
    some (cstr "ecdsa-sha2-nistp256"),.ecdsa,nidPrime256v1,true⟩

def exampleVerify (name value : Bytes) : Except Stop Unit :=
  xkeyVerify exampleEcCodec exampleCrypto defaultProcess (fun _ _ _ _ => .error .invalidArgument)
    false (some exampleEcAlg.name) exampleEcKey (framed name ++ framed value) []

/-- Accepted under the name of an RSA algorithm, and with a byte behind the numbers. -/
theorem xkeyVerify_other_shape :
    exampleVerify (cstr "ssh-rsa") (framed [1] ++ framed [2]) = .ok () ∧
    ¬ SignatureShape defaultProcess exampleEcAlg.name exampleEcAlg
      (framed (cstr "ssh-rsa") ++ framed (framed [1] ++ framed [2])) ∧
    exampleVerify (cstr "ecdsa-sha2-nistp256")
      (framed [1] ++ framed [2] ++ [7]) = .ok () ∧
    ¬ SignatureShape defaultProcess exampleEcAlg.name exampleEcAlg
      (framed (cstr "ecdsa-sha2-nistp256") ++
        framed (framed [1] ++ framed [2] ++ [7])) := by
  refine ⟨by rfl,?_,by rfl,?_⟩
  · rintro ⟨name,value,he,rfl,-⟩
    exact absurd (signature_inj (by decide) he).1 (by decide)
  · rintro ⟨name,value,he,rfl,hec⟩
    obtain ⟨r,s,-,-,hv⟩ := hec ⟨rfl,by decide +kernel⟩
    rw [← (signature_inj (by decide) he).2] at hv
    have hmax := congrArg List.length hv
    have hend : ([7] : Bytes) = [] := numbers_end (by rw [← hmax]; decide) hv.symm
    cases hend

/-- The shape of the signature the key makes. -/
theorem xkeyVerify_shape_example : SignatureShape defaultProcess exampleEcAlg.name exampleEcAlg
      (framed (cstr "ecdsa-sha2-nistp256") ++
        framed (framed [1] ++ framed [2])) := by
  refine (xkeyVerify_shape_iff exampleEcCodec exampleCrypto _
    (fun _ _ _ _ => .error .invalidArgument) false (some _) exampleEcKey _ []
    _ _ rfl (by decide +kernel) (by rfl)).mpr ?_
  rintro ⟨name,value,he,hmis⟩
  obtain ⟨rfl,rfl⟩ := signature_inj (by decide) he
  rcases hmis with hnul | ⟨q,-,hq,hne⟩ | ⟨-,r,s,rest,-,-,hrest,hv⟩
  · exact absurd hnul (by decide)
  · exact hne hq.symm
  · exact hrest (numbers_end (by decide) hv)

end PkixSsh.Key
