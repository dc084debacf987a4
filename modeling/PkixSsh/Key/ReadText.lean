import PkixSsh.Kex.Algorithms
import PkixSsh.Key.Subject

/-!
# Keys in text form

`sshkey_read_pkalg`. A pointer is the number of bytes from the start of the string, and the memory
goes on behind its NUL.
-/

namespace PkixSsh.Key

open X509 Sshbuf List

def blanks : Bytes := cstr " \t"

def strlen (m : Bytes) : Nat := (untilNul m).length

def strcspn (m reject : Bytes) : Nat := ((untilNul m).takeWhile (· ∉ reject)).length

def strspn (m accept : Bytes) : Nat := ((untilNul m).takeWhile (· ∈ accept)).length

lemma untilNul_memory {s : Bytes} (hs : 0 ∉ s) (behind : Bytes) :
    untilNul (s ++ 0 :: behind) = s := by
  rw [untilNul,takeWhile_append_of_pos]
  · simp
  · intro c hc
    exact decide_eq_true fun h => hs (h ▸ hc)

lemma drop_length_takeWhile (p : UInt8 → Bool) (s t : Bytes) :
    (s ++ t).drop (s.takeWhile p).length = s.dropWhile p ++ t :=
  calc (s ++ t).drop _
      = (s.takeWhile p ++ (s.dropWhile p ++ t)).drop _ := by
        rw [← append_assoc,takeWhile_append_dropWhile]
    _ = s.dropWhile p ++ t := drop_left

section

variable {s : Bytes} (hs : 0 ∉ s) (behind set : Bytes)

include hs

lemma drop_strcspn : (s ++ 0 :: behind).drop (strcspn (s ++ 0 :: behind) set) =
    s.dropWhile (· ∉ set) ++ 0 :: behind := by
  rw [strcspn,untilNul_memory hs,drop_length_takeWhile]

lemma drop_strspn : (s ++ 0 :: behind).drop (strspn (s ++ 0 :: behind) set) =
    s.dropWhile (· ∈ set) ++ 0 :: behind := by
  rw [strspn,untilNul_memory hs,drop_length_takeWhile]

end

def keyTypeIsEcdsaVariant (type : KeyType) : Bool := type = .ecdsa || type = .ecdsaCert

/-- `sshkey_ecdsa_nid_from_name`. It calls itself for what is behind "x509v3-", which does not
start so again. -/
def sshkeyEcdsaNidFromName (name : Bytes) : Int :=
  let name := if (cstr "x509v3-ecdsa-").isPrefixOf name then name.drop 7 else name
  match keytypes.find? fun kt => keyTypeIsEcdsaVariant kt.type && kt.name = name with
  | some kt => kt.nid
  | none => -1

def sshkeyTypesFromName (t : XkalgTable) (name : Bytes) : KeyType × Int :=
  let type := Kex.sshkeyTypeFromName t name
  (type,if keyTypeIsEcdsaVariant type then sshkeyEcdsaNidFromName name else -1)

/-- The functions of other files; `b64tod` is `sshbuf_b64tod` into an empty buffer. -/
structure ReadEnv where
  codec : Codec
  lib : NameLib
  process : Process
  b64tod : Bytes → Except SshErr Bytes

def readableType : KeyType → Bool
  | .unspec | .rsa | .dsa | .ecdsa | .ed25519 => true
  | .dsaCert | .ecdsaCert | .rsaCert | .ed25519Cert => true
  | .xmss | .xmssCert => false

/-- The key and the values of `cp` and `space` at the label `noblob`. The jump for a subject
leaves `space` at the length of the name. -/
def keyAtNoblob (env : ReadEnv) (pkname : Bytes) (type : KeyType) (curveNid : Int) (m : Bytes)
    (cp space : Nat) : Except Stop (SshKey × Nat × Nat) := do
  match ← x509keyFromSubject env.lib env.process.xkalgs pkname (untilNul (m.drop cp)) with
  | some k => return (k,cp + strlen (m.drop cp),space)
  | none =>
    let space := strcspn (m.drop cp) blanks
    let blob ← check (env.b64tod ((m.drop cp).take space))
    let (k,_) ← parseKeyFromBlob env.codec env.process blob
    if k.type ≠ type then throw (.err .keyTypeMismatch)
    if sshkeyTypePlain type = .ecdsa ∧ curveNid ≠ k.ecdsaNid then throw (.err .ecCurveMismatch)
    return (k,cp,space)

/-- The key that is read, with the type its name has, the pointer behind it, and the name. -/
structure ReadText where
  key : SshKey
  type : KeyType
  cp : Nat
  pkname : Bytes

/-- `sshkey_read_pkalg` until it fills in the key of the caller, whose type is `want`. -/
def readText (env : ReadEnv) (want : KeyType) (m : Bytes) : Except Stop ReadText := do
  if !readableType want then throw (.err .invalidArgument)
  let space := strcspn m blanks
  if space = strlen m then throw (.err .invalidFormat)
  if space < 1 ∨ space ≥ 64 then throw (.err .invalidFormat)
  let pkname := m.take space
  let (type,curveNid) := sshkeyTypesFromName env.process.xkalgs pkname
  if type = .unspec then throw (.err .invalidFormat)
  if want ≠ .unspec ∧ want ≠ type then throw (.err .keyTypeMismatch)
  let cp := space
  let cp := cp + strspn (m.drop cp) blanks
  if strlen (m.drop cp) = 0 then throw (.err .invalidFormat)
  let (k,cp,space) ← keyAtNoblob env pkname type curveNid m cp space
  let cp := cp + space
  let cp := cp + strspn (m.drop cp) blanks
  return ⟨k,type,cp,pkname⟩

def x509keyMoveIdentity (k ret : SshKey) : SshKey :=
  if x509keyCheck k then { ret with x509Data := k.x509Data } else ret

def moveMaterial (ret k : SshKey) : Option SshKey :=
  match sshkeyTypePlain ret.type with
  | .rsa => some { ret with rsa := k.rsa }
  | .dsa => some { ret with dsa := k.dsa }
  | .ecdsa => some { ret with ecdsa := k.ecdsa, ecdsaNid := k.ecdsaNid }
  | .ed25519 => some { ret with ed25519Pk := k.ed25519Pk }
  | _ => none

/-- Fill in `ret` from the key that was read. A failure leaves what was filled in before it. -/
def fillKey (ret : SshKey) (type : KeyType) (k : SshKey) : SshKey × Except Stop Unit :=
  let ret := { ret with type := type }
  if sshkeyIsCert ret ∧ !sshkeyIsCert k then (ret,.error (.err .expectedCert))
  else
    let ret := if sshkeyIsCert ret then { ret with cert := k.cert } else ret
    match moveMaterial ret k with
    | none => (ret,.error (.err .internalError))
    | some ret => (if sshkeyIsX509 k then x509keyMoveIdentity k ret else ret,.ok ())

/-- The key of the caller afterwards, and the updated pointer with the name of the algorithm. -/
def sshkeyReadPkalg (env : ReadEnv) (ret : SshKey) (m : Bytes) :
    SshKey × Except Stop (Nat × Bytes) :=
  match readText env ret.type m with
  | .error r => (ret,.error r)
  | .ok t =>
    match fillKey ret t.type t.key with
    | (ret,.error r) => (ret,.error r)
    | (ret,.ok ()) => (ret,.ok (t.cp,t.pkname))

def behindWord (s : Bytes) : Bytes := s.dropWhile (· ∉ blanks)

/-- The text behind the name of the algorithm and the blanks after it. -/
def keyPart (s : Bytes) : Bytes := (behindWord s).dropWhile (· ∈ blanks)

/-- The algorithm is one of X.509 keys, and a subject stands in the place of the blob. -/
def SubjectForm (env : ReadEnv) (s : Bytes) : Prop :=
  (xkalgByName env.process.xkalgs (s.takeWhile (· ∉ blanks))).isSome ∧
    ((x509keyFindSubject (keyPart s)).bind (x509keyStr2X509NAME env.lib)).isSome

instance (env : ReadEnv) (s : Bytes) : Decidable (SubjectForm env s) :=
  inferInstanceAs (Decidable (_ ∧ _))

/-- Where the key ends: a blob with the word, a subject with the text. -/
def keyEnd (env : ReadEnv) (s : Bytes) : Nat :=
  if SubjectForm env s then s.length else s.length - (behindWord (keyPart s)).length

/-- A pointer into the text or to its NUL, with nothing but blanks between the end of the key and
it, and no blank at it. -/
structure AtComment (s : Bytes) (keyEnd cp : Nat) : Prop where
  inside : cp ≤ s.length
  behind : keyEnd ≤ cp
  blank : ∀ i, keyEnd ≤ i → i < cp → ∃ c ∈ blanks, s[i]? = some c
  first : ∀ c, s[cp]? = some c → c ∉ blanks

section

variable {env : ReadEnv} {s behind : Bytes}

lemma not_mem_dropWhile (p : UInt8 → Bool) (hs : 0 ∉ s) : 0 ∉ s.dropWhile p :=
  fun h => hs ((dropWhile_sublist p).mem h)

lemma atComment_skip {p tail : Bytes} (h : s = p ++ tail) :
    AtComment s p.length (p.length + (tail.takeWhile (· ∈ blanks)).length) := by
  have htail := takeWhile_append_dropWhile (p := (· ∈ blanks)) (l := tail)
  generalize hgap : tail.takeWhile _ = gap at htail ⊢
  generalize hrest : tail.dropWhile _ = rest at htail
  have hall : ∀ c ∈ gap, c ∈ blanks := by
    intro c hc
    rw [← hgap] at hc
    simpa using mem_takeWhile_imp hc
  have hfirst := List.head?_dropWhile_not (fun c => decide (c ∈ blanks)) tail
  rw [hrest] at hfirst
  subst h htail
  refine ⟨by simp,by omega,?_,?_⟩
  · intro i hi hlt
    have hmem : i - p.length < gap.length := by omega
    refine ⟨gap[i - p.length],hall _ (getElem_mem hmem),?_⟩
    rw [List.getElem?_append_right hi,List.getElem?_append_left hmem,List.getElem?_eq_getElem hmem]
  · intro c hc
    rw [← append_assoc,← length_append,List.getElem?_append_right (Nat.le_refl _),
      Nat.sub_self,← List.head?_eq_getElem?] at hc
    rw [hc] at hfirst
    exact of_decide_eq_false hfirst

lemma subjectForm_iff {k : SshKey}
    (h : x509keyFromSubject env.lib env.process.xkalgs (s.takeWhile (· ∉ blanks)) (keyPart s) =
      .ok (some k)) : SubjectForm env s := by
  obtain ⟨p,name,hp,hname,_⟩ := x509keyFromSubject_eq_some.mp h
  exact ⟨by rw [hp]; rfl,by rw [hname]; rfl⟩

lemma not_subjectForm
    (h : x509keyFromSubject env.lib env.process.xkalgs (s.takeWhile (· ∉ blanks)) (keyPart s) =
      .ok none) : ¬ SubjectForm env s := by
  rintro ⟨halg,hsubject⟩
  obtain ⟨p,hp⟩ := Option.isSome_iff_exists.mp halg
  obtain ⟨name,hname⟩ := Option.isSome_iff_exists.mp hsubject
  rw [x509keyFromSubject_eq_some.mpr ⟨p,name,hp,hname,rfl⟩] at h
  cases h

lemma take_strcspn (hs : 0 ∉ s) :
    (s ++ 0 :: behind).take (strcspn (s ++ 0 :: behind) blanks) = s.takeWhile (· ∉ blanks) := by
  rw [strcspn,untilNul_memory hs]
  calc (s ++ 0 :: behind).take _
      = (s.takeWhile _ ++ (s.dropWhile _ ++ 0 :: behind)).take
          _ := by
        rw [← append_assoc,takeWhile_append_dropWhile]
    _ = s.takeWhile _ := take_left

lemma split_of_drop {n : Nat} {tail : Bytes}
    (h : (s ++ 0 :: behind).drop n = tail ++ 0 :: behind) :
    s = s.take n ++ tail ∧ n + tail.length = s.length := by
  have hlen := congrArg List.length h
  simp only [length_drop,length_append,length_cons] at hlen
  have hn : n + tail.length = s.length := by omega
  refine ⟨?_,hn⟩
  rw [drop_append_of_le_length (by omega)] at h
  rw [← append_cancel_right h,take_append_drop]

lemma atComment_of_drop {n : Nat} {tail : Bytes} (ht : 0 ∉ tail)
    (h : (s ++ 0 :: behind).drop n = tail ++ 0 :: behind) :
    AtComment s (s.length - tail.length) (n + strspn ((s ++ 0 :: behind).drop n) blanks) := by
  obtain ⟨hsplit,hlen⟩ := split_of_drop h
  have hn : (s.take n).length = n := length_take_of_le (by omega)
  have hat := atComment_skip hsplit
  rw [hn] at hat
  rw [h,strspn,untilNul_memory ht,← hlen,Nat.add_sub_cancel]
  exact hat

lemma drop_keyPart (hs : 0 ∉ s) (behind : Bytes) :
    (s ++ 0 :: behind).drop (strcspn (s ++ 0 :: behind) blanks +
      strspn ((s ++ 0 :: behind).drop (strcspn (s ++ 0 :: behind) blanks)) blanks) =
      keyPart s ++ 0 :: behind := by
  rw [← drop_drop,drop_strcspn hs,drop_strspn (not_mem_dropWhile _ hs)]
  rfl

lemma keyAtNoblob_ok {pkname m : Bytes} {type : KeyType} {curveNid : Int}
    {cp space cp' space' : Nat}
    {k : SshKey} (h : keyAtNoblob env pkname type curveNid m cp space = .ok (k,cp',space')) :
    (x509keyFromSubject env.lib env.process.xkalgs pkname (untilNul (m.drop cp)) = .ok (some k) ∧
      cp' = cp + strlen (m.drop cp) ∧ space' = space) ∨
    (x509keyFromSubject env.lib env.process.xkalgs pkname (untilNul (m.drop cp)) = .ok none ∧
      cp' = cp ∧ space' = strcspn (m.drop cp) blanks) := by
  obtain ⟨found,hfound,h⟩ := bind_eq_ok.mp h
  cases found with
  | some k' =>
    cases h
    exact .inl ⟨hfound,rfl,rfl⟩
  | none =>
    obtain ⟨blob,_,h⟩ := bind_eq_ok.mp h
    obtain ⟨⟨k',name⟩,_,h⟩ := bind_eq_ok.mp h
    obtain ⟨-,h⟩ := ite_error_eq_ok.mp h
    obtain ⟨-,h⟩ := ite_error_eq_ok.mp h
    cases h
    exact .inr ⟨hfound,rfl,rfl⟩

lemma readText_cp {want : KeyType} {r : ReadText} (hs : 0 ∉ s)
    (h : readText env want (s ++ 0 :: behind) = .ok r) : (SubjectForm env s ∧ s.length < r.cp) ∨
      (¬ SubjectForm env s ∧ AtComment s (s.length - (behindWord (keyPart s)).length) r.cp) := by
  have hpart : 0 ∉ keyPart s := not_mem_dropWhile _ (not_mem_dropWhile _ hs)
  rw [readText] at h
  -- the checks in front of the key: of the wanted type, of the word for the type, of the type
  -- itself and of the text behind it
  obtain ⟨-,h⟩ := ite_error_eq_ok.mp h
  obtain ⟨-,h⟩ := ite_error_eq_ok.mp h
  obtain ⟨hspace,h⟩ := ite_error_eq_ok.mp h
  obtain ⟨-,h⟩ := ite_error_eq_ok.mp h
  obtain ⟨-,h⟩ := ite_error_eq_ok.mp h
  obtain ⟨-,h⟩ := ite_error_eq_ok.mp h
  obtain ⟨⟨k,cp',space'⟩,hk,h⟩ := bind_eq_ok.mp h
  cases h
  have hdrop := drop_keyPart hs behind
  generalize hcp : strcspn _ _ + strspn _ _ = cp at hk hdrop
  have hk := keyAtNoblob_ok hk
  rw [take_strcspn hs,hdrop,untilNul_memory hpart] at hk
  obtain ⟨_,hlen⟩ := split_of_drop hdrop
  rcases hk with ⟨hfound,rfl,rfl⟩ | ⟨hfound,rfl,rfl⟩
  · left
    refine ⟨subjectForm_iff hfound,?_⟩
    -- the length of the name is added to the end of the text
    have hend : strlen (keyPart s ++ 0 :: behind) = (keyPart s).length := by
      rw [strlen,untilNul_memory hpart]
    dsimp only
    omega
  · right
    refine ⟨not_subjectForm hfound,?_⟩
    have htail : (s ++ 0 :: behind).drop (cp' + strcspn (keyPart s ++ 0 :: behind) blanks) =
        behindWord (keyPart s) ++ 0 :: behind := by
      rw [← drop_drop,hdrop]
      exact drop_strcspn hpart _ _
    exact atComment_of_drop (not_mem_dropWhile _ hpart) htail

/-- A pointer that `sshkey_read_pkalg` returns is at the comment, unless the key is given by its
subject. -/
theorem sshkeyReadPkalg_atComment_iff {ret : SshKey} {cp : Nat} {pkalg : Bytes} (hs : 0 ∉ s)
    (h : (sshkeyReadPkalg env ret (s ++ 0 :: behind)).2 = .ok (cp,pkalg)) :
    AtComment s (keyEnd env s) cp ↔ ¬ SubjectForm env s := by
  rw [sshkeyReadPkalg] at h
  split at h
  · cases h
  rename_i t ht
  have hcp : t.cp = cp := by
    split at h
    · cases h
    · cases h
      rfl
  rcases readText_cp hs ht with ⟨hsubject,hlt⟩ | ⟨hsubject,hat⟩
  · constructor
    · intro hat
      exact absurd hat.inside (by omega)
    · intro hno
      exact absurd hsubject hno
  · rw [hcp] at hat
    rw [keyEnd,if_neg hsubject]
    exact ⟨fun _ => hsubject,fun _ => hat⟩

end

def exampleEd25519 : SshKey :=
  { sshkeyNew .ed25519 with
    ed25519Pk := some ⟨(List.range 32).map fun i => (i + 1).toUInt8,by decide⟩ }

def exampleEd25519Base64 : Bytes :=
  cstr "AAAAC3NzaC1lZDI1NTE5AAAAIAECAwQFBgcICQoLDA0ODxAREhMUFRYXGBkaGxwdHh8g"

def exampleEd25519Blob : Bytes :=
  framed (cstr "ssh-ed25519") ++ framed ((List.range 32).map fun i => (i + 1).toUInt8)

def exampleReadEnv : ReadEnv where
  codec :=
    { d2iX509 := fun _ => none
      x509GetPubkey := fun _ => none
      ecdsaKeyToNid := fun _ => -1
      ecValidatePublic := fun _ => false
      ecPoint := fun _ => .error .invalidArgument
      sshkeyFromBlob := fun b =>
        if b = exampleEd25519Blob then .ok ⟨exampleEd25519,by decide⟩
        else .error .invalidFormat }
  lib := asciiNameLib
  process := ⟨defaultXkalg,false,false⟩
  b64tod b := if b = exampleEd25519Base64 then .ok exampleEd25519Blob else .error .invalidFormat

/-- A line with a blob. -/
theorem sshkeyReadPkalg_atComment_blob : (sshkeyReadPkalg exampleReadEnv (sshkeyNew .unspec)
      ((cstr "ssh-ed25519 " ++ exampleEd25519Base64 ++ cstr " \t alice@host") ++
        0 :: cstr "left-over memory")).2 = .ok (83,cstr "ssh-ed25519") ∧
    AtComment (cstr "ssh-ed25519 " ++ exampleEd25519Base64 ++ cstr " \t alice@host") 80 83 := by
  refine (and_iff_left_of_imp fun hread => ?_).mpr (by decide +kernel)
  have hend : keyEnd exampleReadEnv
      (cstr "ssh-ed25519 " ++ exampleEd25519Base64 ++ cstr " \t alice@host") = 80 := by
    decide +kernel
  have hat := (sshkeyReadPkalg_atComment_iff (by decide +kernel) hread).mpr (by decide +kernel)
  rw [hend] at hat
  exact hat

/-- A line with a subject: the pointer is set behind the NUL, by the length of the name. -/
theorem sshkeyReadPkalg_subject : (sshkeyReadPkalg exampleReadEnv (sshkeyNew .unspec)
      (cstr "x509v3-sign-rsa Subject:CN=alice" ++ 0 :: cstr "left-over memory")).2 =
        .ok (47,cstr "x509v3-sign-rsa") ∧ (cstr "x509v3-sign-rsa Subject:CN=alice").length = 32 ∧
    ¬ AtComment (cstr "x509v3-sign-rsa Subject:CN=alice")
      (keyEnd exampleReadEnv (cstr "x509v3-sign-rsa Subject:CN=alice")) 47 := by
  have hlen : (cstr "x509v3-sign-rsa Subject:CN=alice").length = 32 := by decide +kernel
  refine ⟨by decide +kernel,hlen,fun hat => ?_⟩
  exact absurd hat.inside (by omega)

end PkixSsh.Key
