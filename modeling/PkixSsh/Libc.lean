import Mathlib.Data.List.Basic

/-!
# Bytes, C strings and error codes

The C character and memory functions the sources call, over lists of bytes, and the
error codes of `ssherr.h`. A C string is the list of its bytes without the final NUL.
-/

namespace PkixSsh

open List

abbrev Bytes := List UInt8

instance : LawfulBEq Bytes := inferInstance

def cstr (s : String) : Bytes := s.toList.map fun c => c.toNat.toUInt8

inductive SshErr where
  | internalError | allocFail | messageIncomplete | invalidFormat | bignumIsNegative
  | stringTooLarge | bignumTooLarge | ecpointTooLarge | noBufferSpace | invalidArgument
  | keyBitsMismatch | ecCurveInvalid | keyTypeMismatch | keyTypeUnknown | ecCurveMismatch
  | expectedCert | keyLacksCertblob | keyCertUnknownType | keyCertInvalidSignKey
  | keyInvalidEcValue | signatureInvalid | libcryptoError | unexpectedTrailingData
  | systemError | keyCertInvalid | agentCommunication | agentFailure | dhGexOutOfRange
  | disconnected | macInvalid | noCipherAlgMatch | noMacAlgMatch | noCompressAlgMatch
  | noKexAlgMatch | noHostkeyAlgMatch | noHostkeyLoaded | protocolMismatch | noProtocolVersion
  | needRekey | passphraseTooShort | fileChanged | keyUnknownCipher | keyWrongPassphrase
  | keyBadPermissions | keyCertMismatch | keyNotFound | agentNotPresent | agentNoIdentities
  | bufferReadOnly | krlBadMagic | keyRevoked | connClosed | connTimeout | connCorrupt
  | protocolError | keyLength | numberTooLarge | signAlgUnsupported
  deriving DecidableEq

/-- How a function can end without its result: with a code of `ssherr.h`, by `fatal`, or
by a read through a null pointer. -/
inductive Stop where
  | err (r : SshErr)
  | fatal
  | nullRead
  deriving DecidableEq

def comma : UInt8 := 44

/-- The items `strsep` cuts a list into at its commas. There is always a last one. -/
def splitCommas : Bytes → List Bytes
  | [] => [[]]
  | c :: cs =>
    if c = comma then [] :: splitCommas cs
    else
      match splitCommas cs with
      | [] => [[c]]
      | item :: items => (c :: item) :: items

def space : UInt8 := 32

def tab : UInt8 := 9

def slash : UInt8 := 47

def backslash : UInt8 := 92

def niMaxhost : Nat := 1025

def isBlank (c : UInt8) : Bool := c = space || c = tab

def skipBlanks (cp : Bytes) : Bytes := cp.dropWhile isBlank

def isdigit (c : UInt8) : Bool := 48 ≤ c && c ≤ 57

def isspace (c : UInt8) : Bool := c = 32 || (9 ≤ c && c ≤ 13)

def tolower (c : UInt8) : UInt8 := if 65 ≤ c && c ≤ 90 then c + 32 else c

def byteDiff (a b : UInt8) : Int := (a.toNat : Int) - b.toNat

/-- `memcmp`. The caller's count never exceeds either object. -/
def memcmp : Nat → Bytes → Bytes → Int
  | n + 1, a :: as, b :: bs => if a = b then memcmp n as bs else byteDiff a b
  | _, _, _ => 0

/-- `strcmp`. The end of a string compares as its NUL. -/
def strcmp : Bytes → Bytes → Int
  | [], [] => 0
  | [], b :: _ => byteDiff 0 b
  | a :: _, [] => byteDiff a 0
  | a :: as, b :: bs => if a = b then strcmp as bs else byteDiff a b

/-- `strncasecmp`. A NUL byte met in both strings ends the comparison. -/
def strncasecmp : Nat → Bytes → Bytes → Int
  | n + 1, a :: as, b :: bs =>
    if tolower a = tolower b then if a = 0 then 0 else strncasecmp n as bs
    else byteDiff (tolower a) (tolower b)
  | _, _, _ => 0

@[simp] lemma byteDiff_eq_zero {a b : UInt8} : byteDiff a b = 0 ↔ a = b := by
  rw [byteDiff,← UInt8.toNat_inj]
  omega

lemma tolower_eq_zero {c : UInt8} : tolower c = 0 ↔ c = 0 := by
  unfold tolower
  split
  · rename_i h
    simp only [UInt8.le_iff_toNat_le] at h
    simp only [← UInt8.toNat_inj] at h ⊢
    simp at h ⊢
    omega
  · rfl

lemma splitCommas_of_not_mem {l : Bytes} (h : comma ∉ l) : splitCommas l = [l] := by
  induction l with
  | nil => rfl
  | cons c l ih =>
    rw [mem_cons,not_or] at h
    rw [splitCommas,if_neg (Ne.symm h.1),ih h.2]

lemma splitCommas_append {text : Bytes} (h : comma ∉ text) (l : Bytes) :
    splitCommas (text ++ comma :: l) = text :: splitCommas l := by
  induction text with
  | nil => rw [nil_append,splitCommas,if_pos rfl]
  | cons c text ih =>
    rw [mem_cons,not_or] at h
    rw [cons_append,splitCommas,if_neg (Ne.symm h.1),ih h.2]

lemma splitCommas_ne_nil (l : Bytes) : splitCommas l ≠ [] := by
  by_cases h : comma ∈ l
  · obtain ⟨text,l',rfl,hno⟩ := eq_append_cons_of_mem h
    rw [splitCommas_append hno]
    exact cons_ne_nil _ _
  · rw [splitCommas_of_not_mem h]
    exact cons_ne_nil _ _

def joinCommas : List Bytes → Bytes
  | [] => []
  | [item] => item
  | item :: items => item ++ comma :: joinCommas items

lemma joinCommas_cons (item : Bytes) {items : List Bytes} (h : items ≠ []) :
    joinCommas (item :: items) = item ++ comma :: joinCommas items := by
  obtain ⟨next,rest,rfl⟩ := exists_cons_of_ne_nil h
  rfl

lemma splitCommas_joinCommas {items : List Bytes} (hne : items ≠ [])
    (h : ∀ item ∈ items, comma ∉ item) : splitCommas (joinCommas items) = items := by
  induction items with
  | nil => exact absurd rfl hne
  | cons item items ih =>
    have hitem := h item mem_cons_self
    by_cases hi : items = []
    · subst hi
      exact splitCommas_of_not_mem hitem
    · rw [joinCommas_cons item hi,splitCommas_append hitem,
        ih hi fun i hm => h i (mem_cons_of_mem item hm)]

lemma joinCommas_splitCommas (l : Bytes) :
    joinCommas (splitCommas l) = l ∧ ∀ item ∈ splitCommas l, comma ∉ item := by
  induction hn : l.length using Nat.strongRecOn generalizing l with
  | ind n ih =>
  subst hn
  by_cases h : comma ∈ l
  · obtain ⟨text,l',rfl,hno⟩ := eq_append_cons_of_mem h
    obtain ⟨hj,hall⟩ := ih _ (by rw [length_append,length_cons]; omega) l' rfl
    rw [splitCommas_append hno,joinCommas_cons text (splitCommas_ne_nil l'),hj]
    refine ⟨rfl,fun item hi => ?_⟩
    rcases mem_cons.mp hi with rfl | hi
    · exact hno
    · exact hall item hi
  · rw [splitCommas_of_not_mem h]
    refine ⟨rfl,fun item hi => ?_⟩
    rw [mem_singleton.mp hi]
    exact h

lemma memcmp_eq_zero_iff {a b : Bytes} {n : Nat} (ha : n ≤ a.length) (hb : n ≤ b.length) :
    memcmp n a b = 0 ↔ a.take n = b.take n := by
  induction n generalizing a b with
  | zero => simp [memcmp]
  | succ n ih =>
    match a, b, ha, hb with
    | x :: a, y :: b, ha, hb =>
      have hi := ih (by simpa using ha) (by simpa using hb)
      by_cases h : x = y
      · simp [memcmp,h,hi]
      · simp [memcmp,h]

lemma memcmp_min_eq_zero_iff {a b : Bytes} (hl : a.length = b.length) :
    memcmp (min a.length b.length) a b = 0 ↔ a = b := by
  rw [memcmp_eq_zero_iff (Nat.min_le_left _ _) (Nat.min_le_right _ _),hl,Nat.min_self,
    take_length,← hl,take_length]

lemma strncasecmp_comm_zero {a b : Bytes} {n : Nat} :
    strncasecmp n a b = 0 ↔ strncasecmp n b a = 0 := by
  induction n generalizing a b with
  | zero => simp [strncasecmp]
  | succ n ih =>
    match a, b with
    | [], _ => simp [strncasecmp]
    | _ :: _, [] => simp [strncasecmp]
    | x :: a, y :: b =>
      by_cases h : tolower x = tolower y
      · have hz : x = 0 ↔ y = 0 := by
          rw [← tolower_eq_zero,h,tolower_eq_zero]
        simp [strncasecmp,h,hz,ih]
      · simp [strncasecmp,h,Ne.symm h]

end PkixSsh
