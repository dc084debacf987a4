import PkixSsh.Key.Blob
import PkixSsh.Key.Equivalence
import PkixSsh.X509.KeptValues

/-!
# X.509 keys by their subject

In `known_hosts` an X.509 key can stand as the name of its algorithm and its subject.
`Xkey_write_subject` writes such a line and `X509key_from_subject` reads it.
-/

namespace PkixSsh.Key

open X509 Sshbuf List Option

section

variable (lib : NameLib) (t : XkalgTable)

def writtenName (pkalg : Option Bytes) (k : SshKey) : Bytes := pkalg.getD (sshkeySshName t k)

def xkeyWriteSubject (pkalg : Option Bytes) (k : SshKey) : Option Bytes :=
  (subjectName k).map fun name =>
    writtenName t pkalg k ++ cstr " Subject:" ++ sshX509NamePrint lib name

def sshX509SupportPlainType (type : KeyType) : Bool :=
  type = .rsa || type = .ecdsa || type = .dsa

/-- `x509key_from_subject`. The new certificate has a subject only, and no encoding. -/
def keyFromSubject (basetype : KeyType) (cp : Bytes) : Except Stop (Option SshKey) :=
  match (x509keyFindSubject cp).bind (x509keyStr2X509NAME lib) with
  | none => .ok none
  | some name =>
    -- `ssh_x509_set_cert`
    if !sshX509SupportPlainType (sshkeyTypePlain basetype) then .error .fatal
    else .ok (some { sshkeyNew .unspec with
      type := basetype, x509Data := some ⟨some ⟨name,[]⟩,none⟩ })

def x509keyFromSubject (pkalg cp : Bytes) : Except Stop (Option SshKey) :=
  match xkalgByName t pkalg with
  | none => .ok none
  | some p => keyFromSubject lib p.basetype cp

/-- The line that is written for a key, read behind the name of the algorithm, gives a key with an
equal subject. -/
def ReadsBack (pkalg : Option Bytes) (k : SshKey) : Prop :=
  ∃ rest key, xkeyWriteSubject lib t pkalg k = some (writtenName t pkalg k ++ 32 :: rest) ∧
    x509keyFromSubject lib t (writtenName t pkalg k) rest = .ok (some key) ∧
    sshX509NameCmp lib.ssl (subjectName k) (subjectName key) = 0

/-- The values are neither quoted nor cut, apart from those compared loosely, and the name made of
what is kept of them is accepted and equal to the name. -/
def Survives (name : X509Name) : Prop :=
  (∀ e ∈ name, isLoose lib.ssl e = false → Plain (entryText lib e)) ∧
    ∃ kept, rebuilt lib name = some kept ∧ sshX509NameCmp lib.ssl (some name) (some kept) = 0

end

section

variable {lib : NameLib} {t : XkalgTable}

lemma basetype_cases {p : SshX509KeyAlg} (h : p ∈ t.algs) :
    p.basetype = .rsa ∨ p.basetype = .dsa ∨ p.basetype = .ecdsa := by
  have hb := t.based p h
  generalize p.basetype = type at hb ⊢
  generalize p.subtype = subtype at hb
  generalize p.chain = chain at hb
  unfold xkalgBase at hb
  split_ifs at hb
  · split at hb
    · cases hb
      decide
    · cases hb
  all_goals cases hb
  all_goals decide

lemma sshX509SupportPlainType_basetype {p : SshX509KeyAlg} (h : p ∈ t.algs) :
    sshX509SupportPlainType (sshkeyTypePlain p.basetype) = true := by
  rcases basetype_cases h with hb | hb | hb <;> rw [hb] <;> rfl

lemma x509keyFindSubject_print (hd : lib.Documented) {name : X509Name} (hne : name ≠ []) :
    x509keyFindSubject (cstr "Subject:" ++ sshX509NamePrint lib name) =
      some (sshX509NamePrint lib name) := by
  obtain ⟨c,s,hcs,hsp,hsep⟩ := sshX509NamePrint_head hd hne
  rw [hcs]
  have hskip : (cstr "Subject:" ++ c :: s).dropWhile isspace = cstr "Subject:" ++ c :: s := by
    rfl
  have hfind : (subjectKeywords.find? fun q =>
      ((cstr "Subject:" ++ c :: s).take q.length).map tolower = q) = some (cstr "subject") := by
    rw [subjectKeywords,List.find?_cons_of_pos]
    have htake : (cstr "Subject:" ++ c :: s).take (cstr "subject").length = cstr "Subject" := by
      rw [take_append_of_le_length (by decide +kernel)]
      decide +kernel
    rw [htake]
    decide +kernel
  have hdrop : ((cstr "Subject:" ++ c :: s).drop (cstr "subject").length).dropWhile isspace =
      58 :: c :: s := by
    rfl
  have hcolon : skipBehind (cstr ":=") (58 :: c :: s) = some (c :: s) := by
    rw [skipBehind,if_pos (by decide +kernel),dropWhile_cons_of_neg (by simp [hsp])]
  have hslash : skipBehind (cstr "/,") (c :: s) = some (c :: s) := by
    have hchars : cstr "/," = [slash,comma] := by decide +kernel
    rw [skipBehind,hchars]
    simp only [isSeparator,Bool.or_eq_false_iff,decide_eq_false_iff_not] at hsep
    simp [hsep.1,hsep.2]
  simp only [x509keyFindSubject,hskip,hfind,hdrop,hcolon]
  exact hslash

lemma x509keyFromSubject_eq_some {pkalg cp : Bytes} {key : SshKey} :
    x509keyFromSubject lib t pkalg cp = .ok (some key) ↔ ∃ p name, xkalgByName t pkalg = some p ∧
        (x509keyFindSubject cp).bind (x509keyStr2X509NAME lib) = some name ∧
        key = { sshkeyNew .unspec with
          type := p.basetype, x509Data := some ⟨some ⟨name,[]⟩,none⟩ } := by
  unfold x509keyFromSubject
  cases hp : xkalgByName t pkalg with
  | none => simp
  | some p =>
    have hsup := sshX509SupportPlainType_basetype (xkalgByName_some hp).1
    unfold keyFromSubject
    cases (x509keyFindSubject cp).bind _ with
    | none => simp
    | some name =>
      simp only [hsup,Bool.not_true,Bool.false_eq_true,if_false,Except.ok.injEq,some.injEq]
      constructor
      · rintro rfl
        exact ⟨p,name,rfl,rfl,rfl⟩
      · rintro ⟨_,_,rfl,rfl,rfl⟩
        rfl

/-- The subjects that are read back equal. -/
theorem readsBack_iff_survives (hd : lib.Documented) (t : XkalgTable) (pkalg : Option Bytes)
    {k : SshKey} {name : X509Name} (hk : subjectName k = some name) (hne : name ≠ [])
    (hp : PrintableName lib name) : ReadsBack lib t pkalg k ↔
      (xkalgByName t (writtenName t pkalg k)).isSome ∧ Survives lib name := by
  have hline : ∀ rest, xkeyWriteSubject lib t pkalg k =
      some (writtenName t pkalg k ++ 32 :: rest) ↔
        rest = cstr "Subject:" ++ sshX509NamePrint lib name := by
    intro rest
    have hbytes : cstr " Subject:" = 32 :: cstr "Subject:" := by decide +kernel
    rw [xkeyWriteSubject,hk,map_some,some.injEq,hbytes,append_assoc,
      append_cancel_left_eq,cons_append,List.cons.injEq]
    exact ⟨fun h => h.2.symm,fun h => ⟨rfl,h.symm⟩⟩
  have hname : ∀ b, (x509keyFindSubject (cstr "Subject:" ++ sshX509NamePrint lib name)).bind
      (x509keyStr2X509NAME lib) = some b ∧ b.length = name.length ↔ rebuilt lib name = some b := by
    intro b
    rw [x509keyFindSubject_print hd hne]
    exact x509keyStr2X509NAME_print_iff hd hne hp b
  constructor
  · rintro ⟨rest,key,hwrite,hread,hcmp⟩
    rw [(hline rest).mp hwrite] at hread
    obtain ⟨p,b,halg,hb,rfl⟩ := x509keyFromSubject_eq_some.mp hread
    rw [hk] at hcmp
    -- an equal name has the same length
    have hlen := ((sshX509NameCmp_eq_zero_iff _ name b).mp hcmp).1
    have hkept := (hname b).mp ⟨hb,hlen.symm⟩
    exact ⟨by rw [halg]; rfl,plain_of_sshX509NameCmp hd hp hkept hcmp,b,hkept,hcmp⟩
  · rintro ⟨halg,_,b,hkept,hcmp⟩
    obtain ⟨p,halg⟩ := isSome_iff_exists.mp halg
    obtain ⟨hb,_⟩ := (hname b).mpr hkept
    refine ⟨_,_,(hline _).mpr rfl,x509keyFromSubject_eq_some.mpr ⟨p,b,halg,hb,rfl⟩,?_⟩
    rw [hk]
    exact hcmp

end

/-- A library that knows common names and e-mail addresses. The dotted form stands for that of any
other object. -/
def asciiNameLib : NameLib where
  ssl := asciiOpenssl
  fieldName o :=
    if o = oidEmailAddress then cstr "emailAddress"
    else if o = oidCommonName then cstr "CN" else cstr "1.1"
  txt2nid s :=
    if s = cstr "emailAddress" then nidEmailAddress
    else if s = cstr "CN" || s = cstr "commonName" then 13 else nidUndef
  utf8Getc s :=
    (s.toByteArray.utf8DecodeChar? 0).map fun c => (c.toNat,(String.utf8EncodeChar c).length)
  utf8Putc n := String.utf8EncodeChar (Char.ofNat n)
  utf8Putc_ne_nil _ := String.utf8EncodeChar_ne_nil
  addEntryByNid nid _ buf :=
    if nid = nidEmailAddress then
      if buf.all isAscii && 0 < buf.length && buf.length ≤ 128 then
        some ⟨oidEmailAddress,.ia5String,buf⟩
      else none
    else if nid = 13 then
      if 0 < buf.length && buf.length ≤ 64 then some ⟨oidCommonName,.utf8String,buf⟩ else none
    else none
  dump _ := cstr "#"

lemma asciiNameLib_added {nid : Nat} {utf8 : Bool} {buf : Bytes} {e : NameEntry}
    (h : asciiNameLib.addEntryByNid nid utf8 buf = some e) :
    nid = nidEmailAddress ∧ e = ⟨oidEmailAddress,.ia5String,buf⟩ ∧ buf.all isAscii = true ∨
      nid = 13 ∧ e = ⟨oidCommonName,.utf8String,buf⟩ := by
  simp only [asciiNameLib] at h
  split_ifs at h with h1 h2 h3 h4
  · rw [Bool.and_eq_true,Bool.and_eq_true] at h2
    exact .inl ⟨h1,(some.inj h).symm,h2.1.1⟩
  · exact .inr ⟨h3,(some.inj h).symm⟩

lemma asciiOpenssl_text {v : Asn1String} {text : Bytes}
    (h : sshAsn1StringToUTF8 asciiOpenssl v = some text) : text = v.data ∧ isWide v = false := by
  rcases v with ⟨tag,data⟩
  cases tag <;> simp [sshAsn1StringToUTF8,asciiOpenssl,isWide] at h ⊢ <;> exact h.symm

lemma asciiNameLib_documented : asciiNameLib.Documented where
  fieldName_ne_nil o := by
    simp only [asciiNameLib]
    split_ifs <;> decide +kernel
  fieldName_chars o := by
    simp only [asciiNameLib]
    split_ifs <;> decide +kernel
  known o ho := by
    by_cases h1 : o = oidEmailAddress
    · subst h1
      decide +kernel
    · by_cases h2 : o = oidCommonName
      · subst h2
        decide +kernel
      · simp [asciiNameLib,asciiOpenssl,h1,h2,nidUndef] at ho
  unknown o ho := by
    by_cases h1 : o = oidEmailAddress
    · subst h1
      exact absurd ho (by decide +kernel)
    · by_cases h2 : o = oidCommonName
      · subst h2
        exact absurd ho (by decide +kernel)
      · simp only [asciiNameLib,if_neg h1,if_neg h2]
        decide +kernel
  getc c rest _ := by
    have h := ByteArray.utf8DecodeChar?_utf8EncodeChar_append (c := c) (b := rest.toByteArray)
    simp only [asciiNameLib]
    rw [toByteArray_append,h]
    rfl
  putc c := by simp [asciiNameLib]
  added nid buf e _ h := by
    rcases asciiNameLib_added h with ⟨rfl,rfl,_⟩ | ⟨rfl,rfl⟩
    · exact ⟨rfl,rfl,fun _ => rfl⟩
    · exact ⟨rfl,rfl,fun _ => rfl⟩
  directory nid utf8 utf8' buf buf' e e' h h' hdir := by
    rcases asciiNameLib_added h with ⟨rfl,_,_⟩ | ⟨_,rfl⟩
    · rcases asciiNameLib_added h' with ⟨_,_,hall⟩ | ⟨hn,_⟩
      · exact List.all_eq_true.mp hall
      · exact absurd hn (by decide)
    · simp [sshIsDirectoryString] at hdir
  narrow v text _ h := by rw [(asciiOpenssl_text h).1]
  wide v text hw h := by
    rw [(asciiOpenssl_text h).2] at hw
    exact absurd hw (by simp)

lemma printableName_commonName (cn : String) (h : ∀ c ∈ cstr cn, 32 ≤ c.toNat ∧ c.toNat < 127) :
    PrintableName asciiNameLib [commonNameEntry .utf8String cn] := by
  intro e he
  rw [mem_singleton.mp he]
  exact ⟨cstr cn,rfl,.of_ascii h⟩

/-- Quotation marks, backslashes and equals signs survive. -/
theorem readsBack_escaped :
    ReadsBack asciiNameLib defaultXkalg none (rsaX509Key 3233 17 "a \"b\" =c\\d") :=
  (readsBack_iff_survives asciiNameLib_documented _ none rfl (by simp)
    (printableName_commonName _ (by decide +kernel))).mpr
      ⟨by decide +kernel,by decide +kernel,[commonNameEntry .utf8String "a \"b\" =c\\d"],
        by decide +kernel,by decide +kernel⟩

lemma not_readsBack {k : SshKey} (rest : Bytes)
    (hw : xkeyWriteSubject asciiNameLib defaultXkalg none k =
      some (writtenName defaultXkalg none k ++ 32 :: rest))
    (hr : ∀ key, x509keyFromSubject asciiNameLib defaultXkalg (writtenName defaultXkalg none k)
      rest = .ok (some key) → sshX509NameCmp asciiOpenssl (subjectName k) (subjectName key) ≠ 0) :
    ¬ ReadsBack asciiNameLib defaultXkalg none k := by
  rintro ⟨rest',key,hw',hread,hcmp⟩
  rw [hw,some.injEq,append_cancel_left_eq,List.cons.injEq] at hw'
  rw [← hw'.2] at hread
  exact hr key hread hcmp

/-- A comma cuts the value in spite of the quotes, and other quotes become part of the value. -/
theorem not_readsBack_quoted :
    (∀ cn ∈ ["Acme, Inc","a+b"], PrintableName asciiNameLib [commonNameEntry .utf8String cn]) ∧
    xkeyWriteSubject asciiNameLib defaultXkalg none (rsaX509Key 3233 17 "Acme, Inc") =
      some (cstr "x509v3-sign-rsa Subject:CN=\"Acme, Inc\"") ∧
    x509keyFromSubject asciiNameLib defaultXkalg (cstr "x509v3-sign-rsa")
      (cstr "Subject:CN=\"Acme, Inc\"") = .ok none ∧
    ¬ ReadsBack asciiNameLib defaultXkalg none (rsaX509Key 3233 17 "Acme, Inc") ∧
    ¬ ReadsBack asciiNameLib defaultXkalg none (rsaX509Key 3233 17 "a+b") := by
  have hcomma : x509keyFromSubject asciiNameLib defaultXkalg (cstr "x509v3-sign-rsa")
      (cstr "Subject:CN=\"Acme, Inc\"") = .ok none := by decide +kernel
  have hplus : x509keyFromSubject asciiNameLib defaultXkalg (cstr "x509v3-sign-rsa")
      (cstr "Subject:CN=\"a+b\"") = .ok (some { sshkeyNew .unspec with
        type := .rsa,
        x509Data := some ⟨some ⟨[commonNameEntry .utf8String "\"a+b\""],[]⟩,none⟩ }) := by
    decide +kernel
  refine ⟨?_,by decide +kernel,hcomma,?_,?_⟩
  · intro cn hcn
    simp only [mem_cons,not_mem_nil,or_false] at hcn
    rcases hcn with rfl | rfl
    · exact printableName_commonName _ (by decide +kernel)
    · exact printableName_commonName _ (by decide +kernel)
  · refine not_readsBack (cstr "Subject:CN=\"Acme, Inc\"") (by decide +kernel) ?_
    intro key hkey
    have hname : writtenName defaultXkalg none (rsaX509Key 3233 17 "Acme, Inc") =
        cstr "x509v3-sign-rsa" := by decide +kernel
    rw [hname,hcomma] at hkey
    simp at hkey
  · refine not_readsBack (cstr "Subject:CN=\"a+b\"") (by decide +kernel) ?_
    intro key hkey
    have hname : writtenName defaultXkalg none (rsaX509Key 3233 17 "a+b") =
        cstr "x509v3-sign-rsa" := by decide +kernel
    rw [hname,hplus,Except.ok.injEq,some.injEq] at hkey
    rw [← hkey]
    decide +kernel

end PkixSsh.Key
