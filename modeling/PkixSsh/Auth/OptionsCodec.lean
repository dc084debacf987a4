import Mathlib.Tactic.Common
import PkixSsh.Auth.Options
import PkixSsh.Sshbuf.Codec

/-!
# Key options between the monitor and the child

`sshauthopt_serialise` and `sshauthopt_deserialise`. The integers are written narrower than they
are; all other fields come back as they were.
-/

namespace PkixSsh.Auth

open Sshbuf List

def serialiseArray (a : List Bytes) (m : Bytes) : Except SshErr Bytes := do
  if a.length > intMax then throw .internalError
  let b ← a.foldlM (fun b s => putString s b) []
  let m ← putU32 a.length m
  putString b m

def deserialiseStrings : Nat → Get (List Bytes)
  | 0, b => .ok ([],b)
  | n + 1, b => do
    let (s,b) ← getCstring b
    let (a,b) ← deserialiseStrings n b
    return (s :: a,b)

/-- `deserialise_array`. What is left in the string of the array is not looked at. -/
def deserialiseArray : Get (List Bytes) := fun m => do
  let (tmp,m) ← getU32 m
  let (b,m) ← getString m
  if tmp > intMax then throw .invalidFormat
  let (a,_) ← deserialiseStrings tmp b
  return (a,m)

def serialiseNullableString (s : Option Bytes) (m : Bytes) : Except SshErr Bytes := do
  let m ← putU8 (if s = none then 1 else 0) m
  putString (s.getD []) m

def deserialiseNullableString : Get (Option Bytes) := fun m => do
  let (flag,m) ← getU8 m
  let (s,m) ← getCstring m
  return (if flag ≠ 0 then none else some s,m)

def flagByte (f : Int32) : UInt8 := f.toUInt32.toUInt8

def byteFlag (b : UInt8) : Int32 := b.toUInt32.toInt32

def sshauthoptSerialise (opts : SshAuthOpt) (untrusted : Bool) (m : Bytes) :
    Except SshErr Bytes := do
  let m ← putU8 (flagByte opts.permitPortForwardingFlag) m
  let m ← putU8 (flagByte opts.permitAgentForwardingFlag) m
  let m ← putU8 (flagByte opts.permitX11ForwardingFlag) m
  let m ← putU8 (flagByte opts.permitPtyFlag) m
  let m ← putU8 (flagByte opts.permitUserRc) m
  let m ← putU8 (flagByte opts.restricted) m
  let m ← putU8 (flagByte opts.certAuthority) m
  let m ← putU64 opts.validBefore.toNat m
  let m ← putU8 (if opts.forceTunDevice = -1 then 1 else 0) m
  let m ← putU32 (if opts.forceTunDevice < 0 then 0 else opts.forceTunDevice.toUInt32.toNat) m
  let m ← serialiseNullableString
    (if untrusted then some (cstr "yes") else opts.certPrincipals) m
  let m ← serialiseNullableString (if untrusted then some (cstr "true") else opts.forceCommand) m
  let m ← serialiseNullableString (if untrusted then none else opts.requiredFromHostCert) m
  let m ← serialiseNullableString (if untrusted then none else opts.requiredFromHostKeys) m
  let m ← serialiseArray (if untrusted then [] else opts.env) m
  let m ← serialiseArray (if untrusted then [] else opts.permitopen) m
  serialiseArray (if untrusted then [] else opts.permitlisten) m

def sshauthoptDeserialise : Get SshAuthOpt := fun m => do
  let (permitPortForwardingFlag,m) ← getU8 m
  let (permitAgentForwardingFlag,m) ← getU8 m
  let (permitX11ForwardingFlag,m) ← getU8 m
  let (permitPtyFlag,m) ← getU8 m
  let (permitUserRc,m) ← getU8 m
  let (restricted,m) ← getU8 m
  let (certAuthority,m) ← getU8 m
  let (validBefore,m) ← getU64 m
  let (f,m) ← getU8 m
  let (tmp,m) ← getU32 m
  let (certPrincipals,m) ← deserialiseNullableString m
  let (forceCommand,m) ← deserialiseNullableString m
  let (requiredFromHostCert,m) ← deserialiseNullableString m
  let (requiredFromHostKeys,m) ← deserialiseNullableString m
  let (env,m) ← deserialiseArray m
  let (permitopen,m) ← deserialiseArray m
  let (permitlisten,m) ← deserialiseArray m
  return ({
    permitPortForwardingFlag := byteFlag permitPortForwardingFlag
    permitAgentForwardingFlag := byteFlag permitAgentForwardingFlag
    permitX11ForwardingFlag := byteFlag permitX11ForwardingFlag
    permitPtyFlag := byteFlag permitPtyFlag
    permitUserRc := byteFlag permitUserRc
    restricted := byteFlag restricted
    validBefore := UInt64.ofNat validBefore
    certAuthority := byteFlag certAuthority
    certPrincipals := certPrincipals
    forceTunDevice := if f ≠ 0 then -1 else (UInt32.ofNat tmp).toInt32
    forceCommand := forceCommand
    env := env
    permitopen := permitopen
    permitlisten := permitlisten
    requiredFromHostCert := requiredFromHostCert
    requiredFromHostKeys := requiredFromHostKeys },m)

lemma deserialiseStrings_flatMap {a : List Bytes} (h0 : ∀ s ∈ a, 0 ∉ s)
    (hl : ∀ s ∈ a, s.length ≤ sshbufSizeMax - 4) (rest : Bytes) :
    deserialiseStrings a.length (a.flatMap framed ++ rest) = .ok (a,rest) := by
  induction a with
  | nil => rfl
  | cons s a ih =>
    have hs := getCstring_framed (h0 s mem_cons_self) (hl s mem_cons_self)
    have ih := ih (fun t ht => h0 t (mem_cons_of_mem s ht))
      (fun t ht => hl t (mem_cons_of_mem s ht))
    rw [flatMap_cons,length_cons,deserialiseStrings,append_assoc,hs,ok_bind]
    dsimp only
    rw [ih]
    rfl

lemma length_le_flatMap_framed {a : List Bytes} {s : Bytes} (hs : s ∈ a) :
    s.length + 4 ≤ (a.flatMap framed).length := by
  rw [← length_framed]
  exact (sublist_flatten_of_mem (List.mem_map_of_mem hs)).length_le

lemma serialiseArray_readsBack {a : List Bytes} (h0 : ∀ s ∈ a, 0 ∉ s) :
    ReadsBack (serialiseArray a) deserialiseArray a := by
  intro m r h
  rw [serialiseArray] at h
  by_cases hn : a.length > intMax
  · rw [if_pos hn] at h
    cases h
  rw [if_neg hn] at h
  obtain ⟨b,hb,h⟩ := bind_eq_ok.mp h
  -- the strings are written to a buffer of their own, which bounds each of them
  obtain ⟨hmax,rfl⟩ := (foldlM_putString_iff (Nat.zero_le _)).mp hb
  have hl : ∀ s ∈ a, s.length ≤ sshbufSizeMax - 4 := by
    intro s hs
    have := length_le_flatMap_framed hs
    have hmax : (a.flatMap framed).length ≤ sshbufSizeMax := hmax
    omega
  refine ReadsBack.bind (readsBack_putU32 ?_) ?_ m r h
  · have : intMax < 2 ^ 32 := by decide
    omega
  · refine (readsBack_putString _).map ?_
    intro buf
    have := deserialiseStrings_flatMap h0 hl []
    rw [append_nil] at this
    dsimp only
    rw [if_neg hn]
    simp [this]

lemma serialiseNullableString_readsBack {s : Option Bytes} (h0 : ∀ v ∈ s, 0 ∉ v) :
    ReadsBack (serialiseNullableString s) deserialiseNullableString s := by
  refine (readsBack_putU8 _).bind ?_
  cases s with
  | none => exact (readsBack_putCstring (by simp)).map fun buf => rfl
  | some v => exact (readsBack_putCstring (h0 v rfl)).map fun buf => rfl

def tunReadBack (tun : Int32) : Int32 := if tun = -1 then -1 else if tun < 0 then 0 else tun

def SshAuthOpt.readBack (o : SshAuthOpt) : SshAuthOpt :=
  { o with
    permitPortForwardingFlag := byteFlag (flagByte o.permitPortForwardingFlag)
    permitAgentForwardingFlag := byteFlag (flagByte o.permitAgentForwardingFlag)
    permitX11ForwardingFlag := byteFlag (flagByte o.permitX11ForwardingFlag)
    permitPtyFlag := byteFlag (flagByte o.permitPtyFlag)
    permitUserRc := byteFlag (flagByte o.permitUserRc)
    restricted := byteFlag (flagByte o.restricted)
    certAuthority := byteFlag (flagByte o.certAuthority)
    forceTunDevice := tunReadBack o.forceTunDevice }

structure SshAuthOpt.NulFree (o : SshAuthOpt) : Prop where
  strings : ∀ s ∈ [o.certPrincipals,o.forceCommand,o.requiredFromHostCert,
    o.requiredFromHostKeys], ∀ v ∈ s, 0 ∉ v
  arrays : ∀ a ∈ [o.env,o.permitopen,o.permitlisten], ∀ v ∈ a, 0 ∉ v

lemma tun_readBack (t : Int32) : (if (if t = -1 then (1 : UInt8) else 0) ≠ 0 then (-1)
      else (UInt32.ofNat (if t < 0 then 0 else t.toUInt32.toNat)).toInt32) = tunReadBack t := by
  rw [tunReadBack]
  by_cases h : t = -1
  · simp [h]
  · by_cases h' : t < 0
    · simp [h']
    · simp [h']

lemma sshauthoptSerialise_readsBack {o : SshAuthOpt} (h0 : o.NulFree) :
    ReadsBack (sshauthoptSerialise o false) sshauthoptDeserialise o.readBack := by
  have hs {s} (h : s ∈ _) := serialiseNullableString_readsBack (h0.strings s h)
  have ha {a} (h : a ∈ _) := serialiseArray_readsBack (h0.arrays a h)
  iterate 7 refine (readsBack_putU8 _).bind ?_
  refine (readsBack_putU64 (UInt64.toNat_lt _)).bind ?_
  refine (readsBack_putU8 _).bind ?_
  refine (readsBack_putU32 ?_).bind ?_
  · split
    · decide
    · exact UInt32.toNat_lt _
  refine (hs (by simp)).bind ?_
  refine (hs (by simp)).bind ?_
  refine (hs (by simp)).bind ?_
  refine (hs (by simp)).bind ?_
  refine (ha (by simp)).bind ?_
  refine (ha (by simp)).bind ?_
  refine (ha (by simp)).map ?_
  simp [SshAuthOpt.readBack,← tun_readBack]

lemma byteFlag_flagByte_iff (f : Int32) : byteFlag (flagByte f) = f ↔ 0 ≤ f ∧ f ≤ 255 := by
  have hb : (byteFlag (flagByte f)).toInt = f.toInt % 256 := by
    show ((f.toBitVec.setWidth 8).setWidth 32).toInt = f.toBitVec.toInt % 256
    simp only [BitVec.toInt_eq_toNat_cond,BitVec.toNat_setWidth]
    omega
  rw [← Int32.toInt_inj,Int32.le_iff_toInt_le,Int32.le_iff_toInt_le]
  show _ ↔ 0 ≤ f.toInt ∧ f.toInt ≤ 255
  omega

lemma tunReadBack_iff (t : Int32) : tunReadBack t = t ↔ -1 ≤ t := by
  rw [tunReadBack,← Int32.toInt_inj,Int32.le_iff_toInt_le]
  show _ ↔ -1 ≤ t.toInt
  by_cases h : t = -1
  · subst h
    decide
  · rw [if_neg h]
    rw [← Int32.toInt_inj] at h
    have h : t.toInt ≠ -1 := h
    by_cases h' : t < 0
    · rw [if_pos h']
      have h' : t.toInt < 0 := Int32.lt_iff_toInt_lt.mp h'
      show (0) = t.toInt ↔ _
      omega
    · rw [if_neg h']
      have h' : ¬ t.toInt < 0 := fun h => h' (Int32.lt_iff_toInt_lt.mpr h)
      omega

/-- The integers that the written form has room for. -/
structure SshAuthOpt.Writable (o : SshAuthOpt) : Prop where
  flags : ∀ f ∈ [o.permitPortForwardingFlag,o.permitAgentForwardingFlag,
    o.permitX11ForwardingFlag,o.permitPtyFlag,o.permitUserRc,o.restricted,o.certAuthority],
    0 ≤ f ∧ f ≤ 255
  tun : -1 ≤ o.forceTunDevice

lemma SshAuthOpt.readBack_eq_iff (o : SshAuthOpt) : o.readBack = o ↔ o.Writable := by
  have hf : o.readBack = o ↔ (∀ f ∈ [o.permitPortForwardingFlag,o.permitAgentForwardingFlag,
      o.permitX11ForwardingFlag,o.permitPtyFlag,o.permitUserRc,o.restricted,o.certAuthority],
      byteFlag (flagByte f) = f) ∧ tunReadBack o.forceTunDevice = o.forceTunDevice := by
    cases o
    simp [SshAuthOpt.readBack,and_assoc]
  rw [hf,tunReadBack_iff]
  simp only [byteFlag_flagByte_iff]
  exact ⟨fun h => ⟨h.1,h.2⟩,fun h => ⟨h.flags,h.tun⟩⟩

/-- The reader accepts whatever options without NUL were written, and reads all of the bytes. It
returns the same options exactly if the integers have room. -/
theorem sshauthoptSerialise_deserialise {opts : SshAuthOpt} {m r : Bytes} (h0 : opts.NulFree)
    (h : sshauthoptSerialise opts false m = .ok r) :
    ∃ bs opts', r = m ++ bs ∧ sshauthoptDeserialise bs = .ok (opts',[]) ∧
      (opts' = opts ↔ opts.Writable) := by
  obtain ⟨bs,rfl,hbs⟩ := sshauthoptSerialise_readsBack h0 m r h
  refine ⟨bs,opts.readBack,rfl,?_,opts.readBack_eq_iff⟩
  rw [← hbs [],append_nil]

/-- The options of a line `restrict,pty,command="uptime",from="10.0.0.0/8",environment="A=b",`
`permitopen="h:22",permitopen="*:80",tunnel="3"`. -/
def restrictedLine : SshAuthOpt :=
  { sshauthoptNew with
    restricted := 1
    permitPtyFlag := 1
    validBefore := 1893456000
    forceTunDevice := 3
    forceCommand := some (cstr "uptime")
    env := [cstr "A=b"]
    permitopen := [cstr "h:22",cstr "*:80"]
    requiredFromHostKeys := some (cstr "10.0.0.0/8") }

lemma restrictedLine_nulFree : restrictedLine.NulFree := ⟨by decide +kernel,by decide +kernel⟩

lemma restrictedLine_writable : restrictedLine.Writable :=
  ⟨by simp [restrictedLine,sshauthoptNew],by decide⟩

theorem sshauthoptSerialise_deserialise_line :
    ∃ bs opts', sshauthoptSerialise restrictedLine false [] = .ok bs ∧
      sshauthoptDeserialise bs = .ok (opts',[]) ∧ opts' = restrictedLine := by
  have hok : (sshauthoptSerialise restrictedLine false []).isOk = true := by decide +kernel
  obtain ⟨r,hr⟩ := exists_ok hok
  obtain ⟨bs,opts',rfl,hbs,heq⟩ := sshauthoptSerialise_deserialise restrictedLine_nulFree hr
  exact ⟨_,opts',hr,hbs,heq.mpr restrictedLine_writable⟩

/-- A negative tunnel device other than `-1` is read back as the device zero. -/
theorem sshauthoptDeserialise_negative_tun : ∃ (opts : SshAuthOpt) (bs : Bytes), opts.NulFree ∧
      (∀ a ∈ [opts.env,opts.permitopen,opts.permitlisten], a.length ≤ intMax) ∧
      sshauthoptSerialise opts false [] = .ok bs ∧
      sshauthoptDeserialise bs = .ok ({ opts with forceTunDevice := 0 },[]) ∧
      { opts with forceTunDevice := 0 } ≠ opts := by
  refine ⟨{ sshauthoptNew with forceTunDevice := -2 },
    List.replicate 20 0 ++ [1,0,0,0,0,1,0,0,0,0,1,0,0,0,0,1] ++ List.replicate 28 0,
    ⟨by decide,by decide⟩,by decide,by decide +kernel,by decide +kernel,by decide +kernel⟩

end PkixSsh.Auth
