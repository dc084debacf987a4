import PkixSsh.X509.NameText

/-!
# Printed values read back

The escapes of a printed value are undone by `ssh_X509_NAME_add_entry_by_NID`; the quotation marks
stay.
-/

namespace PkixSsh.X509

open Sshbuf List UInt8

/-- Any character but the control characters of ASCII. -/
def Printable (c : Char) : Prop := 32 ≤ c.toNat ∧ c.toNat ≠ 127

def PrintableText (text : Bytes) : Prop :=
  ∃ cs : List Char, (∀ c ∈ cs, Printable c) ∧ text = cs.flatMap String.utf8EncodeChar

lemma utf8EncodeChar_ascii {c : Char} (h : c.toNat < 128) :
    String.utf8EncodeChar c = [c.toNat.toUInt8] := by
  have hle : c.val.toNat ≤ 127 := Nat.le_of_lt_succ h
  simp only [String.utf8EncodeChar,if_pos hle]
  rfl

lemma utf8EncodeChar_high {c : Char} (h : 128 ≤ c.toNat) :
    ∀ b ∈ String.utf8EncodeChar c, 128 ≤ b := by
  have hgt : ¬ c.val.toNat ≤ 127 := Nat.not_le.mpr h
  intro b hb
  rw [le_iff_toNat_le]
  simp only [String.utf8EncodeChar,if_neg hgt] at hb
  split at hb
  · simp only [mem_cons,not_mem_nil,or_false] at hb
    rcases hb with rfl | rfl <;> simp <;> omega
  · split at hb
    · simp only [mem_cons,not_mem_nil,or_false] at hb
      rcases hb with rfl | rfl | rfl <;> simp <;> omega
    · simp only [mem_cons,not_mem_nil,or_false] at hb
      rcases hb with rfl | rfl | rfl | rfl <;> simp <;> omega

lemma PrintableText.nil : PrintableText [] := ⟨[],by simp,rfl⟩

lemma PrintableText.cons {c : Char} {text : Bytes} (hc : Printable c)
    (h : PrintableText text) : PrintableText (String.utf8EncodeChar c ++ text) := by
  obtain ⟨cs,hcs,rfl⟩ := h
  exact ⟨c :: cs,by simpa using ⟨hc,hcs⟩,rfl⟩

variable {c : UInt8} {text : Bytes}

lemma utf8EncodeChar_ofNat (h : c.toNat < 128) :
    (Char.ofNat c.toNat).toNat = c.toNat ∧ String.utf8EncodeChar (Char.ofNat c.toNat) = [c] := by
  have hv : c.toNat.isValidChar := Or.inl (by omega)
  have hn : (Char.ofNat c.toNat).toNat = c.toNat := by
    rw [Char.ofNat,dif_pos hv]
    rfl
  rw [utf8EncodeChar_ascii (by omega),hn]
  simp

lemma PrintableText.ascii (hl : 32 ≤ c.toNat) (hu : c.toNat < 127) (h : PrintableText text) :
    PrintableText (c :: text) := by
  obtain ⟨hn,he⟩ := utf8EncodeChar_ofNat (c := c) (by omega)
  have hp : Printable (Char.ofNat c.toNat) := ⟨by omega,by omega⟩
  simpa [he] using h.cons hp

lemma PrintableText.induct {P : ∀ text, PrintableText text → Prop} (nil : P [] .nil)
    (ascii : ∀ c text (hl : 32 ≤ c.toNat) (hu : c.toNat < 127) (h : PrintableText text), P text h →
      P (c :: text) (h.ascii hl hu))
    (symbol : ∀ (c : Char) text (hc : 128 ≤ c.toNat) (h : PrintableText text), P text h →
      P (String.utf8EncodeChar c ++ text) (h.cons ⟨by omega,by omega⟩))
    (h : PrintableText text) : P text h := by
  obtain ⟨cs,hcs,rfl⟩ := h
  induction cs with
  | nil => exact nil
  | cons c cs ih =>
    rw [forall_mem_cons] at hcs
    obtain ⟨⟨hlow,hdel⟩,hcs⟩ := hcs
    by_cases hc : c.toNat < 128
    · have htn : c.toNat.toUInt8.toNat = c.toNat := by
        simp
        omega
      simp only [flatMap_cons,utf8EncodeChar_ascii hc]
      exact ascii _ _ (by omega) (by omega) _ (ih hcs)
    · exact symbol c _ (by omega) _ (ih hcs)

lemma PrintableText.of_ascii (h : ∀ c ∈ text, 32 ≤ c.toNat ∧ c.toNat < 127) :
    PrintableText text := by
  induction text with
  | nil => exact .nil
  | cons c text ih =>
    rw [forall_mem_cons] at h
    exact (ih h.2).ascii h.1.1 h.1.2

lemma PrintableText.of_concat (hc : c.toNat < 128) (h : PrintableText (text ++ [c])) :
    PrintableText text := by
  generalize hall : text ++ [c] = all at h
  induction h using PrintableText.induct generalizing text with
  | nil => simp at hall
  | ascii b rest hl hu hrest ih =>
    cases text with
    | nil => exact .nil
    | cons b' text =>
      rw [cons_append,List.cons.injEq] at hall
      obtain ⟨rfl,hall⟩ := hall
      exact (ih hall).ascii hl hu
  | symbol ch rest hch hrest ih =>
    rcases eq_nil_or_concat rest with rfl | ⟨rest',b,rfl⟩
    · -- the last byte of a longer character is not of ASCII
      have hb : 128 ≤ c := utf8EncodeChar_high hch c (by simp [(append_nil _).symm.trans hall.symm])
      rw [le_iff_toNat_le] at hb
      simp at hb
      omega
    · rw [concat_eq_append] at hall hrest ih
      rw [← append_assoc] at hall
      obtain ⟨rfl,hb⟩ := append_inj' hall rfl
      exact PrintableText.cons ⟨by omega,by omega⟩ (ih (by rw [hb]))

/-- Strings whose characters take several bytes each. -/
def isWide (v : Asn1String) : Bool := v.tag = .bmpString || v.tag = .universalString

def isAscii (c : UInt8) : Bool := c.toNat < 128

/-- `NID_friendlyName` and `NID_ms_csp_name`, the attribute types kept in wide strings. -/
def wideTypes : List Nat := [156,417]

/-- What the documentation of OpenSSL says of the functions. A name of an attribute type is a
word; characters are read and written in UTF-8; a text that is added to a name is the text of the
new entry, in a string whose type depends on the attribute type: one that is no directory string
takes ASCII only. A character of ASCII is a byte of its own, behind zero bytes in a wide string. -/
structure NameLib.Documented (lib : NameLib) : Prop where
  fieldName_ne_nil : ∀ o, lib.fieldName o ≠ []
  fieldName_chars : ∀ o, ∀ c ∈ lib.fieldName o,
    isSeparator c = false ∧ c ≠ equalsSign ∧ isspace c = false
  known : ∀ o, lib.ssl.obj2nid o ≠ nidUndef → lib.txt2nid (lib.fieldName o) = lib.ssl.obj2nid o
  unknown : ∀ o, lib.ssl.obj2nid o = nidUndef →
    lib.txt2nid (lib.fieldName o) = nidUndef ∧ (lib.fieldName o).map tolower ≠ cstr "email"
  getc : ∀ (c : Char) rest, c.toNat ≠ 0 →
    lib.utf8Getc (String.utf8EncodeChar c ++ rest) =
      some (c.toNat,(String.utf8EncodeChar c).length)
  putc : ∀ c : Char, lib.utf8Putc c.toNat = String.utf8EncodeChar c
  added : ∀ nid buf e, PrintableText buf →
    lib.addEntryByNid nid (buf.any fun c => c > 127) buf = some e →
      lib.ssl.nid2obj nid = some e.object ∧ sshAsn1StringToUTF8 lib.ssl e.value = some buf ∧
        (nid ∉ wideTypes → isWide e.value = false)
  directory : ∀ nid utf8 utf8' buf buf' e e', lib.addEntryByNid nid utf8 buf = some e →
    lib.addEntryByNid nid utf8' buf' = some e' → sshIsDirectoryString e.value = false →
      ∀ c ∈ buf', isAscii c = true
  narrow : ∀ v text, isWide v = false → sshAsn1StringToUTF8 lib.ssl v = some text →
    text.filter isAscii = v.data.filter isAscii
  wide : ∀ v text, isWide v = true → sshAsn1StringToUTF8 lib.ssl v = some text →
    (∃ c ∈ text, isAscii c = true) → 0 ∈ v.data

lemma utf8EncodeChar_head (c : Char) : ∃ b s, String.utf8EncodeChar c = b :: s ∧
    (b.toNat = c.toNat ∨ 128 ≤ b.toNat) := by
  by_cases hc : c.toNat < 128
  · refine ⟨_,_,utf8EncodeChar_ascii hc,.inl ?_⟩
    simp
    omega
  · obtain ⟨b,s,he⟩ := exists_cons_of_ne_nil (String.utf8EncodeChar_ne_nil (c := c))
    have hb := utf8EncodeChar_high (c := c) (by omega) b (by simp [he])
    exact ⟨b,s,he,.inr hb⟩

section

variable {lib : NameLib}

lemma unescapeLoop_symbol (hd : lib.Documented) {c : Char} (h0 : c.toNat ≠ 0)
    (hb : c.toNat ≠ 92) (fuel k : Nat) (rest : Bytes) :
    unescapeLoop lib (fuel + 1) k (String.utf8EncodeChar c ++ rest) =
      if k < (String.utf8EncodeChar c).length then none
      else (unescapeLoop lib fuel (k - (String.utf8EncodeChar c).length) rest).map
        fun out => String.utf8EncodeChar c ++ out := by
  have hget := hd.getc c rest h0
  have hput := hd.putc c
  obtain ⟨b,s,he,hbc⟩ := utf8EncodeChar_head c
  have hb0 : b ≠ 0 := by
    rintro rfl
    simp at hbc
    omega
  have hb92 : b ≠ backslash := by
    rintro rfl
    simp [backslash] at hbc
    omega
  rw [he] at hget hput ⊢
  rw [cons_append] at hget ⊢
  simp only [unescapeLoop,if_neg hb0,if_neg hb92,hget,hput]
  have hdrop : (b :: (s ++ rest)).drop (b :: s).length = rest := by simp
  rw [hdrop]
  by_cases hk : k = 0
  · simp [hk]
  · rw [if_neg hk]

variable {c : UInt8} {s text : Bytes}

lemma unescapeLoop_escaped (hd : lib.Documented) (hc : c = quotationMark ∨ c = backslash)
    (fuel k : Nat) (rest : Bytes) : unescapeLoop lib (fuel + 1) k (backslash :: c :: rest) =
      if k < 1 then none else (unescapeLoop lib fuel (k - 1) rest).map fun out => c :: out := by
  have hcn : c.toNat < 128 := by rcases hc with rfl | rfl <;> decide
  have hget : getEscsymbol (c :: rest) = some (c.toNat,1) := by
    rcases hc with rfl | rfl <;> rfl
  have hput : lib.utf8Putc c.toNat = [c] := by
    have h := hd.putc (Char.ofNat c.toNat)
    rwa [(utf8EncodeChar_ofNat hcn).1,(utf8EncodeChar_ofNat hcn).2] at h
  have hb0 : backslash ≠ 0 := by decide
  simp only [unescapeLoop,if_neg hb0,hget,hput]
  by_cases hk : k = 0
  · simp [hk]
  · simp [hk]

lemma unescapeLoop_plain (hd : lib.Documented) (hl : 32 ≤ c.toNat) (hu : c.toNat < 127)
    (hb : c ≠ backslash) (fuel k : Nat) (rest : Bytes) : unescapeLoop lib (fuel + 1) k (c :: rest) =
      if k < 1 then none else (unescapeLoop lib fuel (k - 1) rest).map fun out => c :: out := by
  obtain ⟨hn,he⟩ := utf8EncodeChar_ofNat (c := c) (by omega)
  have hb' : c.toNat ≠ 92 := fun h => hb (UInt8.toNat_inj.mp h)
  have h := unescapeLoop_symbol hd (c := Char.ofNat c.toNat) (by omega) (by omega) fuel k rest
  rwa [he] at h

lemma escapeChar_printable (hl : 32 ≤ c.toNat) (hu : c.toNat ≠ 127) :
    escapeChar c = if c = quotationMark ∨ c = backslash then [backslash,c] else [c] := by
  have h : (c < 32 || c = 127) = false := by
    rw [Bool.or_eq_false_iff,decide_eq_false_iff_not,decide_eq_false_iff_not,lt_iff_toNat_lt]
    refine ⟨?_,fun h => hu (congrArg toNat h)⟩
    simp
    omega
  simp only [escapeChar,h,Bool.or_eq_true,decide_eq_true_eq,Bool.false_eq_true,if_false]

lemma flatMap_escapeChar_high (h : ∀ b ∈ s, 128 ≤ b) : s.flatMap escapeChar = s := by
  have hc : ∀ b ∈ s, escapeChar b = [b] := by
    intro b hb
    have hb' := le_iff_toNat_le.mp (h b hb)
    simp at hb'
    rw [escapeChar_printable (by omega) (by omega),if_neg]
    rintro (rfl | rfl) <;> simp [quotationMark,backslash] at hb'
  rw [flatMap_congr hc,flatMap_singleton']

lemma room_append (g : Nat → Option Bytes) (k : Nat) (s t : Bytes) : (if k < s.length then none
      else (if k - s.length < t.length then none
        else (g (k - s.length - t.length)).map fun out => t ++ out).map fun out => s ++ out) =
    if k < (s ++ t).length then none
      else (g (k - (s ++ t).length)).map fun out => s ++ t ++ out := by
  rw [length_append]
  by_cases hs : k < s.length
  · rw [if_pos hs,if_pos (by omega)]
  · rw [if_neg hs]
    by_cases ht : k - s.length < t.length
    · rw [if_pos ht,if_pos (by omega)]
      rfl
    · rw [if_neg ht,if_neg (by omega),Option.map_map,Nat.sub_sub]
      congr 1
      funext out
      simp

lemma unescapeLoop_escape (hd : lib.Documented) (h : PrintableText text) (rest : Bytes) :
    ∀ fuel k, (text.flatMap escapeChar ++ rest).length ≤ fuel → ∃ fuel', rest.length ≤ fuel' ∧
        unescapeLoop lib fuel k (text.flatMap escapeChar ++ rest) = if k < text.length then none
          else (unescapeLoop lib fuel' (k - text.length) rest).map fun out => text ++ out := by
  induction h using PrintableText.induct with
  | nil =>
    intro fuel k hf
    exact ⟨fuel,hf,by simp⟩
  | ascii c text hl hu _ ih =>
    intro fuel k hf
    rw [flatMap_cons,append_assoc] at hf ⊢
    rw [escapeChar_printable hl (by omega)] at hf ⊢
    -- either spelling takes one turn and leaves one byte
    have hstep : ∃ f, (text.flatMap escapeChar ++ rest).length ≤ f ∧
        unescapeLoop lib fuel k
          ((if c = quotationMark ∨ c = backslash then [backslash,c] else [c]) ++
          (text.flatMap escapeChar ++ rest)) =
        if k < 1 then none
        else (unescapeLoop lib f (k - 1) (text.flatMap escapeChar ++ rest)).map
          fun out => c :: out := by
      cases fuel with
      | zero => split at hf <;> simp at hf
      | succ f =>
        refine ⟨f,?_,?_⟩
        · split at hf <;> simp at hf ⊢ <;> omega
        · split
          · rename_i hc
            exact unescapeLoop_escaped hd hc f k _
          · rename_i hc
            exact unescapeLoop_plain hd hl hu (fun h => hc (.inr h)) f k _
    obtain ⟨f,hf',hstep⟩ := hstep
    obtain ⟨fuel',hr,ih⟩ := ih f _ hf'
    refine ⟨fuel',hr,?_⟩
    rw [hstep,ih]
    exact room_append (fun k => unescapeLoop lib fuel' k rest) k [c] text
  | symbol c text hc _ ih =>
    intro fuel k hf
    have hlen := length_pos_iff.mpr (String.utf8EncodeChar_ne_nil (c := c))
    rw [flatMap_append,flatMap_escapeChar_high (utf8EncodeChar_high hc),append_assoc] at hf ⊢
    rw [length_append] at hf
    cases fuel with
    | zero => omega
    | succ f =>
      obtain ⟨fuel',hr,ih⟩ := ih f _ (by omega)
      refine ⟨fuel',hr,?_⟩
      rw [unescapeLoop_symbol hd (by omega) (by omega),ih]
      exact room_append (fun k => unescapeLoop lib fuel' k rest) k _ text

@[simp]
lemma unescapeLoop_nil (fuel k : Nat) : unescapeLoop lib fuel k [] = some [] := by
  cases fuel <;> rfl

lemma unescapeLoop_text (hd : lib.Documented) (h : PrintableText text) (k : Nat) :
    unescapeLoop lib (text.flatMap escapeChar).length k (text.flatMap escapeChar) =
      if k < text.length then none else some text := by
  obtain ⟨fuel',_,hl⟩ := unescapeLoop_escape hd h [] (text.flatMap escapeChar).length k (by simp)
  simpa using hl

def readValue (text : Bytes) : Bytes :=
  if needsQuotes text then quotationMark :: text ++ [quotationMark] else text

lemma unescapeLoop_printValue (hd : lib.Documented) (h : PrintableText text) (k : Nat) :
    unescapeLoop lib (printValue text).length k (printValue text) =
      if k < (readValue text).length then none else some (readValue text) := by
  unfold printValue readValue
  split
  · -- the marks are read like any other character
    have hq : ∀ fuel k rest, unescapeLoop lib _ k (quotationMark :: rest) =
        if k < 1 then none
        else (unescapeLoop lib fuel _ rest).map _ :=
      unescapeLoop_plain hd (by decide) (by decide) (by decide)
    obtain ⟨fuel',hr,hl⟩ := unescapeLoop_escape hd h [quotationMark]
      (text.flatMap escapeChar ++ [quotationMark]).length _ (by simp)
    obtain ⟨f,rfl⟩ : ∃ f, fuel' = f + 1 := ⟨fuel' - 1,by simp at hr; omega⟩
    rw [cons_append,length_cons,hq,hl,hq,unescapeLoop_nil]
    have hlen : (quotationMark :: text ++ [quotationMark]).length = text.length + 2 := by simp
    rw [hlen]
    by_cases hk : k < text.length + 2
    · split_ifs <;> first | rfl | omega
    · rw [if_neg hk,if_neg (by omega),if_neg (by omega),if_neg (by omega)]
      rfl
  · exact unescapeLoop_text hd h k

lemma PrintableText.bytes (h : PrintableText text) :
    ∀ c ∈ text, 32 ≤ c.toNat ∧ c.toNat ≠ 127 := by
  induction h using PrintableText.induct with
  | nil => simp
  | ascii c text hl hu _ ih => exact forall_mem_cons.mpr ⟨⟨hl,by omega⟩,ih⟩
  | symbol ch text hch _ ih =>
    intro c hc
    rcases mem_append.mp hc with hc | hc
    · have hb := le_iff_toNat_le.mp (utf8EncodeChar_high hch c hc)
      simp at hb
      omega
    · exact ih c hc

lemma isspace_printable (h : 32 ≤ c.toNat) : isspace c = true ↔ c = 32 := by
  simp only [isspace,le_iff_toNat_le]
  simp
  omega

lemma trim_eq_self (hh : ∀ c, s.head? = some c → isspace c = false)
    (hl : ∀ c, s.getLast? = some c → isspace c = false) : trim s = s := by
  have hd : s.dropWhile isspace = s := by
    cases s with
    | nil => rfl
    | cons c s => rw [dropWhile_cons_of_neg (by simp [hh c rfl])]
  rw [trim,hd]
  rcases eq_nil_or_concat s with rfl | ⟨s',c,rfl⟩
  · rfl
  · rw [concat_eq_append]
    exact rdropWhile_concat_neg _ _ _ (by simp [hl c (by simp)])

lemma escapeChar_concat (h : 32 ≤ c.toNat ∧ c.toNat ≠ 127) :
    ∃ s, escapeChar c = s ++ [c] ∧ ∀ b ∈ s, b = backslash := by
  rw [escapeChar_printable h.1 h.2]
  split
  · exact ⟨[backslash],rfl,by simp⟩
  · exact ⟨[],rfl,by simp⟩

lemma isspace_head_escape (h : PrintableText text) (hh : text.head? ≠ some 32) :
    ∀ c, (text.flatMap escapeChar).head? = some c → isspace c = false := by
  cases text with
  | nil => simp
  | cons b text =>
    have hb := h.bytes b (by simp)
    obtain ⟨s,hs,hsb⟩ := escapeChar_concat hb
    intro c hc
    rw [flatMap_cons,hs] at hc
    cases s with
    | nil =>
      simp only [nil_append,cons_append,List.head?_cons,Option.some.injEq] at hc
      rw [← hc,Bool.eq_false_iff]
      exact fun hsp => hh (congrArg some ((isspace_printable hb.1).mp hsp))
    | cons b' s =>
      simp only [cons_append,List.head?_cons,Option.some.injEq] at hc
      rw [← hc,hsb b' (by simp)]
      decide

lemma rdropWhile_escape (h : ∀ c ∈ text, 32 ≤ c.toNat ∧ c.toNat ≠ 127) :
    (text.flatMap escapeChar).rdropWhile isspace =
      (text.rdropWhile isspace).flatMap escapeChar := by
  induction text using List.reverseRecOn with
  | nil => rfl
  | append_singleton text c ih =>
    rw [forall_mem_append,forall_mem_singleton] at h
    rw [flatMap_append,flatMap_singleton]
    by_cases hc : isspace c = true
    · have hesc : escapeChar c = [c] := by
        rw [(isspace_printable h.2.1).mp hc]
        rfl
      rw [hesc,rdropWhile_concat_pos _ _ _ hc,rdropWhile_concat_pos _ _ _ hc,ih h.1]
    · obtain ⟨s,hs,_⟩ := escapeChar_concat h.2
      rw [hs,← append_assoc,rdropWhile_concat_neg _ _ _ hc,
        rdropWhile_concat_neg _ _ _ hc,flatMap_append,flatMap_singleton,hs,
        append_assoc]

lemma trim_escape (h : PrintableText text) (hh : text.head? ≠ some 32) :
    trim (text.flatMap escapeChar) = (text.rdropWhile isspace).flatMap escapeChar := by
  have hd : (text.flatMap escapeChar).dropWhile isspace = text.flatMap escapeChar := by
    have hsp := isspace_head_escape h hh
    cases he : text.flatMap _ with
    | nil => rfl
    | cons c s => rw [dropWhile_cons_of_neg (by simp [hsp c (by rw [he]; rfl)])]
  rw [trim,hd,rdropWhile_escape h.bytes]

lemma trim_printValue (h : PrintableText text) : trim (printValue text) = printValue text := by
  unfold printValue
  split
  · refine trim_eq_self (fun c hc => ?_) (fun c hc => ?_)
    · simp only [cons_append,List.head?_cons,Option.some.injEq] at hc
      rw [← hc]
      decide
    · simp only [List.getLast?_concat,Option.some.injEq] at hc
      rw [← hc]
      decide
  · rename_i hq
    simp only [needsQuotes,Bool.or_eq_true,decide_eq_true_eq,not_or] at hq
    rw [trim_escape h hq.1.2]
    congr 1
    rcases eq_nil_or_concat text with rfl | ⟨s,c,rfl⟩
    · rfl
    · rw [concat_eq_append] at h hq ⊢
      have hc := h.bytes c (by simp)
      refine rdropWhile_concat_neg _ _ _ fun hsp => hq.2 ?_
      rw [(isspace_printable hc.1).mp hsp,List.getLast?_concat]

lemma any_isSeparator_escape (h : ∀ c ∈ text, 32 ≤ c.toNat ∧ c.toNat ≠ 127) :
    (text.flatMap escapeChar).any isSeparator = text.any isSeparator := by
  induction text with
  | nil => rfl
  | cons c text ih =>
    rw [forall_mem_cons] at h
    obtain ⟨s,hs,hsb⟩ := escapeChar_concat h.1
    have hany : s.any isSeparator = false := by
      rw [List.any_eq_false]
      intro b hb
      rw [hsb b hb]
      decide
    rw [flatMap_cons,any_append,hs,any_append,hany,ih h.2]
    simp

lemma any_isSeparator_printValue (h : PrintableText text) :
    (printValue text).any isSeparator = text.any isSeparator := by
  rw [← any_isSeparator_escape h.bytes]
  unfold printValue
  split
  · have hq : isSeparator quotationMark = false := by decide
    simp [hq]
  · rfl

lemma flatMap_escapeChar_eq_nil (h : PrintableText text) :
    text.flatMap escapeChar = [] ↔ text = [] := by
  cases text with
  | nil => simp
  | cons c text =>
    obtain ⟨s,hs,_⟩ := escapeChar_concat (h.bytes c (by simp))
    simp [hs]

lemma printValue_eq_nil (h : PrintableText text) : printValue text = [] ↔ text = [] := by
  rw [← flatMap_escapeChar_eq_nil h]
  unfold printValue
  split
  · rename_i hq
    constructor
    · intro hp
      simp at hp
    · intro he
      rw [(flatMap_escapeChar_eq_nil h).mp he] at hq
      exact absurd hq (by decide)
  · rfl

lemma PrintableText.append {t : Bytes} (hs : PrintableText s) (ht : PrintableText t) :
    PrintableText (s ++ t) := by
  obtain ⟨cs,hcs,rfl⟩ := hs
  obtain ⟨ct,hct,rfl⟩ := ht
  exact ⟨cs ++ ct,forall_mem_append.mpr ⟨hcs,hct⟩,by rw [flatMap_append]⟩

lemma PrintableText.readValue (h : PrintableText text) : PrintableText (readValue text) := by
  unfold X509.readValue
  split
  · have hq : PrintableText [quotationMark] := .ascii (by decide) (by decide) .nil
    exact (hq.append h).append hq
  · exact h

lemma PrintableText.rdropWhile (h : PrintableText text) :
    PrintableText (text.rdropWhile isspace) := by
  induction text using List.reverseRecOn with
  | nil => exact h
  | append_singleton text c ih =>
    by_cases hc : isspace c = true
    · rw [rdropWhile_concat_pos _ _ _ hc]
      have hcn : c = 32 := (isspace_printable (h.bytes c (by simp)).1).mp hc
      exact ih (h.of_concat (by simp [hcn]))
    · rwa [rdropWhile_concat_neg _ _ _ hc]

/-- The entry made of a text that was read, unless the type is unknown or the text is too long. -/
def entryOfText (lib : NameLib) (o : Oid) (text : Bytes) : Option NameEntry :=
  if lib.ssl.obj2nid o = nidUndef ∨ bufSize < text.length then none
  else lib.addEntryByNid (lib.ssl.obj2nid o) (text.any fun c => c > 127) text

lemma sshX509NameAddEntryByNid_text {str : Bytes} (h : PrintableText text)
    (hu : unescapeLoop lib str.length bufSize str =
      if bufSize < text.length then none else some text)
    (nid : Nat) : sshX509NameAddEntryByNid lib nid str = if bufSize < text.length then none
      else lib.addEntryByNid nid (text.any fun c => c > 127) text := by
  have hnul : untilNul text = text := by
    refine untilNul_of_not_mem fun h0 => ?_
    have := (h.bytes 0 h0).1
    simp at this
  rw [sshX509NameAddEntryByNid,attributeValue,hu]
  split
  · rfl
  · rw [Option.map_some,Option.bind_some,hnul]

lemma fieldNid_fieldName (hd : lib.Documented) (o : Oid) :
    fieldNid lib (lib.fieldName o) = lib.ssl.obj2nid o := by
  unfold fieldNid
  by_cases ho : lib.ssl.obj2nid o = nidUndef
  · obtain ⟨hn,he⟩ := hd.unknown o ho
    simp [hn,he,ho]
  · simp [hd.known o ho,ho]

lemma entryOfToken_field (hd : lib.Documented) (o : Oid) (value : Bytes) :
    entryOfToken lib (lib.fieldName o ++ equalsSign :: value) =
      if lib.ssl.obj2nid o = nidUndef then none else if value = [] then none
      else sshX509NameAddEntryByNid lib (lib.ssl.obj2nid o) (trim value) := by
  have hne : ∀ c ∈ lib.fieldName o, (c ≠ equalsSign) := fun c hc => (hd.fieldName_chars o c hc).2.1
  have htake : (lib.fieldName o ++ equalsSign :: value).takeWhile (· ≠ equalsSign) =
      lib.fieldName o := by
    rw [takeWhile_append_of_pos (by simpa using hne)]
    simp
  have hdrop : (lib.fieldName o ++ equalsSign :: value).dropWhile (· ≠ equalsSign) =
      equalsSign :: value := by
    rw [dropWhile_append_of_pos (by simpa using hne)]
    simp
  have hr : (lib.fieldName o).rdropWhile isspace = lib.fieldName o := by
    rw [rdropWhile_eq_self_iff]
    intro hl
    simp [(hd.fieldName_chars o _ _).2.2]
  simp only [entryOfToken,htake,hdrop,hr,fieldNid_fieldName hd]
  simp

lemma entryOfToken_printValue (hd : lib.Documented) (o : Oid) (h : PrintableText text)
    (hne : text ≠ []) : entryOfToken lib (lib.fieldName o ++ equalsSign :: printValue text) =
      entryOfText lib o (readValue text) := by
  rw [entryOfToken_field hd,if_neg (mt (printValue_eq_nil h).mp hne),trim_printValue h,
    sshX509NameAddEntryByNid_text h.readValue (unescapeLoop_printValue hd h _)]
  unfold entryOfText
  split_ifs <;> first | rfl | tauto

lemma entryOfToken_escape (hd : lib.Documented) (o : Oid) (h : PrintableText text)
    (hne : text ≠ []) (hh : text.head? ≠ some 32) :
    entryOfToken lib (lib.fieldName o ++ equalsSign :: text.flatMap escapeChar) =
      entryOfText lib o (text.rdropWhile isspace) := by
  rw [entryOfToken_field hd,if_neg (mt (flatMap_escapeChar_eq_nil h).mp hne),trim_escape h hh,
    sshX509NameAddEntryByNid_text h.rdropWhile (unescapeLoop_text hd h.rdropWhile _)]
  unfold entryOfText
  split_ifs <;> first | rfl | tauto

end

end PkixSsh.X509
