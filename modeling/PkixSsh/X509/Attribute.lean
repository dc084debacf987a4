import PkixSsh.X509.NameText

/-!
# The buffer of an attribute value

What `ssh_X509_NAME_add_entry_by_NID` stores in its local buffer, and what it takes out of it.
-/

namespace PkixSsh.X509

open Sshbuf List Option

variable (lib : NameLib)

/-- The bytes that a step of the loop writes, and the rest of the string. -/
def nextSymbol : Bytes → Option (Bytes × Bytes)
  | [] => none
  | c :: str =>
    if c = 0 then none
    else if c = backslash then
      match getEscsymbol str with
      | none => none
      | some (ch,2) => some ([ch.toUInt8],str.drop 2)
      | some (ch,n) => some (lib.utf8Putc ch,str.drop n)
    else (lib.utf8Getc (c :: str)).map fun (ch,n) => (lib.utf8Putc ch,(c :: str).drop n)

/-- The indices of `buf` that are written, with `p` as an index; the last one is the final NUL. -/
def stores : Nat → Nat → Nat → Bytes → List Nat
  | _, p, _, [] => [p]
  | 0, _, _, _ => []
  | fuel + 1, p, k, c :: str =>
    if k = 0 then []
    else
      match nextSymbol lib (c :: str) with
      | none => []
      | some (symbol,rest) =>
        -- UTF8_putc writes nothing if the buffer is too short
        if k < symbol.length then []
        else range' p symbol.length ++ stores fuel (p + symbol.length) (k - symbol.length) rest

/-- All symbols of a string, in order. -/
inductive Decodes : Bytes → Bytes → Prop
  | nil : Decodes [] []
  | cons {c : UInt8} {str symbol rest out : Bytes}
      (h : nextSymbol lib (c :: str) = some (symbol,rest)) (hrest : Decodes rest out) :
      Decodes (c :: str) (symbol ++ out)

variable {lib} {fuel p k : Nat} {c : UInt8} {str out out' : Bytes}

lemma unescapeLoop_cons : unescapeLoop lib (fuel + 1) k (c :: str) =
    if k = 0 then none
    else (nextSymbol lib (c :: str)).bind fun (symbol,rest) =>
      if k < symbol.length then none
      else (unescapeLoop lib fuel (k - symbol.length) rest).map (symbol ++ ·) := by
  rw [unescapeLoop,nextSymbol]
  split
  · rfl
  split
  · rfl
  split
  · cases getEscsymbol str with
    | none => rfl
    | some s =>
      split <;> simp_all
  · cases lib.utf8Getc _ <;> rfl

lemma stores_lt_iff (h : p + k = bufSize) : (∀ i ∈ stores lib fuel p k str, i < bufSize) ↔
    ∀ out, unescapeLoop lib fuel k str = some out → p + out.length ≠ bufSize := by
  induction fuel generalizing p k str with
  | zero =>
    cases str with
    | nil =>
      simp [stores,unescapeLoop]
      omega
    | cons c str => simp [stores,unescapeLoop]
  | succ fuel ih =>
    cases str with
    | nil =>
      simp [stores,unescapeLoop]
      omega
    | cons c str =>
      rw [unescapeLoop_cons,stores]
      split
      · simp
      cases nextSymbol lib _ with
      | none => simp
      | some s =>
        obtain ⟨symbol,rest⟩ := s
        dsimp only [bind_some]
        split
        · simp
        have hrange : ∀ i ∈ range' p symbol.length, i < bufSize := by
          intro i hi
          rw [mem_range'_1] at hi
          omega
        rw [forall_mem_append,and_iff_right hrange,ih (by omega)]
        simp [Nat.add_assoc]

lemma Decodes.unique (h : Decodes lib str out) (h' : Decodes lib str out') : out = out' := by
  induction h generalizing out' with
  | nil =>
    cases h'
    rfl
  | cons h _ ih =>
    cases h' with
    | cons h' hrest =>
      cases h.symm.trans h'
      rw [ih hrest]

lemma decodes_of_unescapeLoop (h : unescapeLoop lib fuel k str = some out) :
    Decodes lib str out := by
  induction fuel generalizing k str out with
  | zero =>
    cases str with
    | nil =>
      simp only [unescapeLoop,some.injEq] at h
      exact h ▸ .nil
    | cons c str => simp [unescapeLoop] at h
  | succ fuel ih =>
    cases str with
    | nil =>
      simp only [unescapeLoop,some.injEq] at h
      exact h ▸ .nil
    | cons c str =>
      rw [unescapeLoop_cons] at h
      split at h
      · cases h
      obtain ⟨⟨symbol,rest⟩,hnext,h⟩ := bind_eq_some_iff.mp h
      dsimp only at h
      split at h
      · cases h
      obtain ⟨out,hout,rfl⟩ := map_eq_some_iff.mp h
      exact .cons hnext (ih hout)

lemma nextSymbol_spec {symbol rest : Bytes} (h : nextSymbol lib (c :: str) = some (symbol,rest)) :
    symbol ≠ [] ∧ rest <:+ c :: str := by
  rw [nextSymbol] at h
  split at h
  · cases h
  split at h
  · split at h
    · cases h
    · cases h
      exact ⟨by simp,(drop_suffix 2 str).trans (suffix_cons c str)⟩
    · cases h
      exact ⟨lib.utf8Putc_ne_nil _,(drop_suffix _ str).trans (suffix_cons c str)⟩
  · obtain ⟨⟨ch,n⟩,-,h⟩ := map_eq_some_iff.mp h
    cases h
    exact ⟨lib.utf8Putc_ne_nil _,drop_suffix n _⟩

lemma Decodes.advances (h : Decodes lib str out) (symbol : Bytes) :
    nextSymbol lib str ≠ some (symbol,str) := by
  induction h generalizing symbol with
  | nil => simp [nextSymbol]
  | cons h _ ih =>
    intro hsame
    cases h.symm.trans hsame
    exact ih _ hsame

lemma unescapeLoop_of_decodes (h : Decodes lib str out) (hfuel : str.length ≤ fuel)
    (hk : out.length ≤ k) : unescapeLoop lib fuel k str = some out := by
  induction h generalizing fuel k with
  | nil =>
    unfold unescapeLoop
    rfl
  | @cons c str symbol rest out hnext hrest ih =>
    obtain ⟨hne,hsuffix⟩ := nextSymbol_spec hnext
    have hpos := length_pos_iff.mpr hne
    have hlt : rest.length < (c :: str).length := by
      refine lt_of_le_of_ne hsuffix.length_le fun he => ?_
      obtain rfl := hsuffix.eq_of_length he
      exact hrest.advances _ hnext
    rw [length_append] at hk
    obtain ⟨fuel,rfl⟩ := Nat.exists_eq_add_one_of_ne_zero (show fuel ≠ 0 by omega)
    rw [unescapeLoop_cons,if_neg (by omega),hnext]
    dsimp only [bind_some]
    rw [if_neg (by omega),ih (by omega) (by omega)]
    rfl

/-- The buffer is kept to unless the decoded value fills it: then the final NUL is behind it. -/
theorem attribute_stores_iff (lib : NameLib) (str : Bytes) :
    (∀ i ∈ stores lib str.length 0 bufSize str, i < bufSize) ↔
      ∀ out, Decodes lib str out → out.length ≠ bufSize := by
  rw [stores_lt_iff (Nat.zero_add _)]
  simp only [Nat.zero_add]
  refine ⟨fun h out hout hl => ?_,fun h out hout => h out (decodes_of_unescapeLoop hout)⟩
  exact h out (unescapeLoop_of_decodes hout le_rfl hl.le) hl

def escapedLetters (n : Nat) : Bytes := (replicate n [backslash,54,49]).flatten

lemma unescapeLoop_escapedLetters {n : Nat} (hk : n ≤ k) (hfuel : n ≤ fuel) :
    unescapeLoop lib fuel k (escapedLetters n) = some (replicate n 97) := by
  induction n generalizing k fuel with
  | zero =>
    unfold unescapeLoop
    rfl
  | succ n ih =>
    obtain ⟨fuel,rfl⟩ := Nat.exists_eq_add_one_of_ne_zero (show fuel ≠ 0 by omega)
    have hnext : nextSymbol lib (escapedLetters (n + 1)) = some ([97],escapedLetters n) := rfl
    have hcons : escapedLetters (n + 1) = backslash :: 54 :: 49 :: escapedLetters n := rfl
    rw [hcons] at hnext ⊢
    rw [unescapeLoop_cons,if_neg (by omega),hnext]
    dsimp only [bind_some,length_cons,length_nil]
    rw [if_neg (by omega),ih (by omega) (by omega)]
    rfl

theorem attribute_stores_full :
    ∃ str, ∀ lib, ∃ i ∈ stores lib str.length 0 bufSize str, bufSize ≤ i := by
  refine ⟨escapedLetters bufSize,fun lib => ?_⟩
  by_contra hall
  simp only [not_exists,not_and,not_le] at hall
  have hfuel : bufSize ≤ (escapedLetters bufSize).length := by
    simp [escapedLetters]
    omega
  exact (stores_lt_iff (Nat.zero_add _)).mp hall _ (unescapeLoop_escapedLetters le_rfl hfuel)
    (by simp)

/-- The value of an accepted string is all of it, in order, unless a symbol has a zero byte. -/
theorem attributeValue_complete_iff {nid : Nat} {e : NameEntry}
    (h : sshX509NameAddEntryByNid lib nid str = some e) :
    (∃ value, attributeValue lib str = some value ∧ Decodes lib str value) ↔
      ∀ out, Decodes lib str out → 0 ∉ out := by
  obtain ⟨_,hvalue,-⟩ := bind_eq_some_iff.mp h
  obtain ⟨out,hout,rfl⟩ := map_eq_some_iff.mp hvalue
  have hdecodes := decodes_of_unescapeLoop hout
  refine ⟨?_,fun h => ?_⟩
  · rintro ⟨_,hv,hall⟩ out' hout' h0
    cases hvalue.symm.trans hv
    rw [← hall.unique hout'] at h0
    simpa using mem_takeWhile_imp h0
  · refine ⟨_,hvalue,?_⟩
    rw [untilNul_of_not_mem (h out hdecodes)]
    exact hdecodes

def anyNameLib : NameLib where
  ssl := asciiOpenssl
  fieldName _ := cstr "CN"
  txt2nid _ := 13
  utf8Getc s := s.head?.map fun c => (c.toNat,1)
  utf8Putc ch := [ch.toUInt8]
  utf8Putc_ne_nil _ := by simp
  addEntryByNid _ _ text := some ⟨oidCommonName,.utf8String,text⟩
  dump _ := []

theorem attributeValue_complete_escaped : ∃ value,
    attributeValue anyNameLib (cstr "a\\62") = some value ∧
      Decodes anyNameLib (cstr "a\\62") value := by
  have hb : Decodes anyNameLib [92,54,50] [98] := @Decodes.cons _ 92 _ [98] [] [] rfl .nil
  have hab : Decodes _ _ _ := @Decodes.cons _ 97 _ [97] _ _ rfl hb
  have hadd : (sshX509NameAddEntryByNid anyNameLib 13 (cstr "a\\62")).isSome := rfl
  obtain ⟨e,he⟩ := isSome_iff_exists.mp hadd
  refine (attributeValue_complete_iff he).mpr fun out hout => ?_
  rw [← hab.unique hout]
  decide

/-- The value is cut at an escaped NUL. -/
theorem attributeValue_cut : ∃ str, ∀ lib, attributeValue lib str = some [97] ∧
    (∀ nid, sshX509NameAddEntryByNid lib nid str = lib.addEntryByNid nid false [97]) ∧
    Decodes lib str [97,0,98] := by
  refine ⟨cstr "\\61\\00\\62",fun lib => ?_⟩
  have h2 : Decodes lib [92,54,50] [98] := @Decodes.cons lib 92 _ [98] [] [] rfl .nil
  have h1 : Decodes lib [92,48,48,92,54,50] _ := @Decodes.cons lib 92 _ [0] _ _ rfl h2
  exact ⟨rfl,fun _ => rfl,@Decodes.cons lib 92 _ [97] _ _ rfl h1⟩

end PkixSsh.X509
