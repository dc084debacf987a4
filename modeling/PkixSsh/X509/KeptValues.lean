import Mathlib.Algebra.Order.BigOperators.Group.List
import PkixSsh.X509.PrintedName

/-!
# Values that survive

Quoting adds quotation marks and a cut takes a slash away. So the values of a name that is read
back equal are unchanged, apart from those of e-mail addresses.
-/

namespace PkixSsh.X509

open GreedyMatching List Option

def weight (text : Bytes) : Int := (text.count quotationMark : Int) - text.count slash

lemma count_dropWhile {c : UInt8} (hc : isspace c = false) (s : Bytes) :
    (s.dropWhile isspace).count c = s.count c := by
  induction s with
  | nil => rfl
  | cons b s ih =>
    rw [dropWhile_cons]
    split
    · rename_i hb
      rw [ih,count_cons_of_ne]
      rintro rfl
      rw [hc] at hb
      exact Bool.noConfusion hb
    · rfl

lemma count_rdropWhile {c : UInt8} (hc : isspace c = false) (s : Bytes) :
    (s.rdropWhile isspace).count c = s.count c := by
  rw [List.rdropWhile,count_reverse,count_dropWhile hc,count_reverse]

lemma tolower_eq_iff {b c : UInt8} (hc : c.toNat < 65) : tolower b = c ↔ b = c := by
  unfold tolower
  split
  · rename_i h
    simp only [UInt8.le_iff_toNat_le] at h
    rw [← UInt8.toNat_inj,← UInt8.toNat_inj]
    simp at h ⊢
    omega
  · rfl

lemma count_squeeze {c : UInt8} (hc : isspace c = false) (hl : c.toNat < 65) (flag : Bool)
    (s : Bytes) : (squeeze flag s).count c = s.count c := by
  induction s generalizing flag with
  | nil => rfl
  | cons b s ih =>
    have hcons : (tolower b == c) = (b == c) := by
      rw [Bool.eq_iff_iff,beq_iff_eq,beq_iff_eq,tolower_eq_iff hl]
    unfold squeeze
    split
    · rename_i hb
      split
      · -- a space that is left out
        rw [ih,count_cons_of_ne]
        rintro rfl
        rw [hc] at hb
        exact Bool.noConfusion hb
      · rw [count_cons,count_cons,ih,hcons]
    · rw [count_cons,count_cons,ih,hcons]

lemma weight_normalise (s : Bytes) : weight (normalise s) = weight s := by
  have hcount : ∀ c, isspace c = false → c.toNat < 65 →
      (normalise s).count c = s.count c := by
    intro c hc hl
    rw [normalise,count_squeeze hc hl,trim,count_rdropWhile hc,count_dropWhile hc]
  rw [weight,hcount _ (by decide) (by decide),hcount _ (by decide) (by decide),weight]

lemma weight_filter_isAscii (s : Bytes) : weight (s.filter isAscii) = weight s := by
  rw [weight,count_filter (by decide),count_filter (by decide),weight]

def Plain (text : Bytes) : Prop :=
  text ≠ [] ∧ text.any isSeparator = false ∧ needsQuotes text = false

instance : DecidablePred Plain := fun _ => inferInstanceAs (Decidable (_ ∧ _ ∧ _))

variable {text : Bytes} {t : Bytes}

lemma keptValue_weight (h : keptValue text = some t) :
    weight text ≤ weight t ∧ (weight text = weight t → Plain text) := by
  unfold keptValue at h
  split at h
  · exact absurd h (by simp)
  · rename_i hn
    simp only [Bool.or_eq_true,decide_eq_true_eq,not_or,Bool.not_eq_true] at hn
    obtain rfl := Option.some.inj h
    unfold readValue
    split
    · have hw : weight (quotationMark :: text ++ [quotationMark]) = weight text + 2 := by
        have hne : quotationMark ≠ slash := by decide
        simp only [weight,count_append,count_cons,count_nil,beq_iff_eq,if_neg hne,if_true]
        omega
      exact ⟨by omega,by omega⟩
    · rename_i hq
      exact ⟨le_rfl,fun _ => ⟨hn.1,hn.2,by simpa using hq⟩⟩

lemma keptLast_weight (h : keptLast text = some t) :
    weight text ≤ weight t ∧ (weight text = weight t → Plain text) := by
  unfold keptLast at h
  split at h
  · rename_i hs
    rw [Bool.and_eq_true,decide_eq_true_eq] at hs
    obtain ⟨s,rfl⟩ := List.getLast?_eq_some_iff.mp hs.1
    rw [dropLast_concat] at h
    split at h
    · exact absurd h (by simp)
    · obtain rfl := Option.some.inj h
      have hw : weight (s ++ [slash]) = weight (s.rdropWhile isspace) - 1 := by
        have hne : slash ≠ quotationMark := by decide
        simp only [weight,count_append,count_cons,count_nil,beq_iff_eq,if_neg hne,if_true,
          count_rdropWhile (c := quotationMark) (by decide),
          count_rdropWhile (c := slash) (by decide)]
        omega
      exact ⟨by omega,by omega⟩
  · exact keptValue_weight h

def KeptAs (lib : NameLib) (e x : NameEntry) : Prop :=
  ∃ t, (keptValue (entryText lib e) = some t ∨ keptLast (entryText lib e) = some t) ∧
    entryOfText lib e.object t = some x

/-- The attribute types whose values are not compared as texts of single bytes. -/
def isLoose (ssl : Openssl) (e : NameEntry) : Bool :=
  isEmailAddress ssl e || ssl.obj2nid e.object ∈ wideTypes

section

variable {lib : NameLib}

lemma rebuilt_keptAs {name b : X509Name} (h : rebuilt lib name = some b) :
    List.Forall₂ (KeptAs lib) name b := by
  induction name generalizing b with
  | nil =>
    obtain rfl := Option.some.inj h
    exact .nil
  | cons e name ih =>
    cases name with
    | nil =>
      simp only [rebuilt,map_eq_some_iff,bind_eq_some_iff] at h
      obtain ⟨x,⟨t,ht,hx⟩,rfl⟩ := h
      exact .cons ⟨t,.inr ht,hx⟩ .nil
    | cons e' name =>
      simp only [rebuilt] at h
      rw [bind_eq_some_iff] at h
      obtain ⟨x,hx,h⟩ := h
      obtain ⟨t,ht,hx⟩ := bind_eq_some_iff.mp hx
      obtain ⟨xs,hxs,rfl⟩ := map_eq_some_iff.mp h
      exact .cons ⟨t,.inl ht,hx⟩ (ih hxs)

lemma printableText_keptValue (h : PrintableText text)
    (hk : keptValue text = some t) : PrintableText t := by
  unfold keptValue at hk
  split at hk
  · exact absurd hk (by simp)
  · obtain rfl := Option.some.inj hk
    exact h.readValue

lemma printableText_keptLast (h : PrintableText text)
    (hk : keptLast text = some t) : PrintableText t := by
  unfold keptLast at hk
  split at hk
  · rename_i hs
    rw [Bool.and_eq_true,decide_eq_true_eq] at hs
    obtain ⟨s,rfl⟩ := List.getLast?_eq_some_iff.mp hs.1
    rw [dropLast_concat] at hk
    split at hk
    · exact absurd hk (by simp)
    · obtain rfl := Option.some.inj hk
      exact (h.of_concat (by decide)).rdropWhile
  · exact printableText_keptValue h hk

/-- The new entry has the attribute type of the old one and a text that weighs as much or more. -/
lemma KeptAs.spec (hd : lib.Documented) {e x : NameEntry}
    (hp : PrintableText (entryText lib e)) (h : KeptAs lib e x) :
    x.object = e.object ∧ lib.ssl.obj2nid e.object ≠ nidUndef ∧
      (∃ t, PrintableText t ∧ sshAsn1StringToUTF8 lib.ssl x.value = some t) ∧
      (lib.ssl.obj2nid e.object ∉ wideTypes → isWide x.value = false) ∧
      weight (entryText lib e) ≤ weight (entryText lib x) ∧
      (weight (entryText lib e) = weight (entryText lib x) → Plain (entryText lib e)) := by
  obtain ⟨t,ht,hx⟩ := h
  have hpt : PrintableText t := ht.elim (printableText_keptValue hp) (printableText_keptLast hp)
  have hw := ht.elim keptValue_weight keptLast_weight
  unfold entryOfText at hx
  split at hx
  · exact absurd hx (by simp)
  · rename_i hn
    rw [not_or] at hn
    obtain ⟨ho,htext,hwide⟩ := hd.added _ _ _ hpt hx
    rw [lib.ssl.nid2obj_obj2nid _ hn.1,Option.some.injEq] at ho
    have hxt : entryText lib x = t := by rw [entryText,htext,getD_some]
    rw [hxt]
    exact ⟨ho.symm,hn.1,⟨t,hpt,htext⟩,hwide,hw⟩

/-- Where texts of ASCII only are accepted, a value in wide characters has a zero byte. -/
lemma zero_mem_of_isWide (hd : lib.Documented) {e x x' : NameEntry}
    (ht : sshAsn1StringToUTF8 lib.ssl e.value = some text) (h : KeptAs lib e x')
    (hwide : isWide e.value = true) {utf8 : Bool}
    (hx : lib.addEntryByNid (lib.ssl.obj2nid e.object) utf8 t = some x)
    (hdir : sshIsDirectoryString x.value = false) : 0 ∈ e.value.data := by
  refine hd.wide _ _ hwide ht ?_
  obtain ⟨t',ht',hx'⟩ := h
  have heq : entryText lib e = text := by rw [entryText,ht,getD_some]
  rw [heq] at ht'
  unfold entryOfText at hx'
  split at hx'
  · exact absurd hx' (by simp)
  · have hascii := hd.directory _ _ _ _ _ _ _ hx hx' hdir
    have hvalue : keptValue text = some t' → ∃ c ∈ text, isAscii c = true := by
      intro hk
      unfold keptValue at hk
      split at hk
      · exact absurd hk (by simp)
      · rename_i hn
        simp only [Bool.or_eq_true,decide_eq_true_eq,not_or] at hn
        obtain ⟨c,s,hcs⟩ := exists_cons_of_ne_nil hn.1
        obtain rfl := Option.some.inj hk
        refine ⟨c,by simp [hcs],hascii c ?_⟩
        unfold readValue
        split <;> simp [hcs]
    rcases ht' with hk | hk
    · exact hvalue hk
    · unfold keptLast at hk
      split at hk
      · -- the slash itself is of ASCII
        rename_i hs
        rw [Bool.and_eq_true,decide_eq_true_eq] at hs
        exact ⟨slash,mem_of_getLast? hs.1,by decide⟩
      · exact hvalue hk

lemma KeptAs.added {e x : NameEntry} (h : KeptAs lib e x) :
    ∃ utf8 t, lib.addEntryByNid (lib.ssl.obj2nid e.object) utf8 t = some x := by
  obtain ⟨t,_,hx⟩ := h
  unfold entryOfText at hx
  split at hx
  · exact absurd hx (by simp)
  · exact ⟨_,t,hx⟩

lemma weight_of_data_eq (hd : lib.Documented) {v w : Asn1String} {s : Bytes}
    (hs : sshAsn1StringToUTF8 lib.ssl v = some s) (ht : sshAsn1StringToUTF8 lib.ssl w = some t)
    (hv : isWide v = false) (hw : isWide w = false) (h : weight v.data = weight w.data) :
    weight s = weight t := by
  rw [← weight_filter_isAscii s,hd.narrow v s hv hs,weight_filter_isAscii,
    ← weight_filter_isAscii t,hd.narrow w t hw ht,weight_filter_isAscii,h]

lemma weight_eq_of_textEq (hd : lib.Documented) {y x x' : NameEntry} {s : Bytes}
    (hs : sshAsn1StringToUTF8 lib.ssl y.value = some s)
    (ht : sshAsn1StringToUTF8 lib.ssl x.value = some t) (hpt : PrintableText t)
    (hown : KeptAs lib y x') (hx : isWide x.value = false)
    (hadd : ∃ utf8 t, lib.addEntryByNid (lib.ssl.obj2nid y.object) utf8 t = some x)
    (h : TextEq lib.ssl y.value x.value) : weight s = weight t := by
  have hwide : ∀ v, v.tag = .printableString → isWide v = false := by
    intro v hv
    simp [isWide,hv]
  unfold TextEq at h
  split at h
  · rename_i hprint
    unfold SameText at h
    split at h
    · rename_i htag
      -- both are printable strings, whose texts are their bytes
      have hy : y.value.tag = .printableString := hprint.elim id (htag.trans ·)
      refine weight_of_data_eq hd hs ht (hwide _ hy) (hwide _ (htag ▸ hy)) ?_
      rw [← weight_normalise,h,weight_normalise]
    · obtain ⟨us,ut,hus,hut,_,_,hn⟩ := h
      rw [hs,Option.some.injEq] at hus
      rw [ht,Option.some.injEq] at hut
      rw [hus,hut,← weight_normalise us,hn,weight_normalise]
  · split at h
    · unfold SameText at h
      split at h
      · rename_i htag
        have hv : y.value = x.value := by
          rcases hyv : y.value with ⟨tag,data⟩
          rcases hxv : x.value with ⟨tag',data'⟩
          rw [hyv,hxv] at htag h
          simp only [id_eq] at htag h
          rw [htag,h]
        rw [hv,ht,Option.some.injEq] at hs
        rw [hs]
      · obtain ⟨us,ut,hus,hut,_,_,hn⟩ := h
        rw [hs,Option.some.injEq] at hus
        rw [ht,Option.some.injEq] at hut
        rw [hus,hut]
        exact congrArg _ hn
    · rename_i hdir
      by_cases hy : isWide y.value = true
      · -- then the new value is no directory string, and its bytes would hold a zero
        have hyd : sshIsDirectoryString y.value = true := by
          simp only [isWide,Bool.or_eq_true,decide_eq_true_eq] at hy
          unfold sshIsDirectoryString
          rcases hy with hy | hy <;> rw [hy]
        have hxd : sshIsDirectoryString x.value = false := by
          rw [Bool.eq_false_iff]
          exact fun hxd => hdir ⟨hyd,hxd⟩
        obtain ⟨utf8,t',hadd⟩ := hadd
        have hzero := zero_mem_of_isWide hd hs hown hy hadd hxd
        rw [h] at hzero
        have hmem : (0) ∈ t.filter isAscii := by
          rw [hd.narrow _ _ hx ht]
          exact mem_filter.mpr ⟨hzero,by decide⟩
        exact absurd (hpt.bytes 0 (mem_filter.mp hmem).1).1 (by decide)
      · exact weight_of_data_eq hd hs ht (by simpa using hy) hx (congrArg _ h)

/-- The weight of the entries that are not compared loosely. -/
def entryWeight (lib : NameLib) (e : NameEntry) : Int :=
  if isLoose lib.ssl e then 0 else weight (entryText lib e)

lemma eq_of_forall₂_le {a b : List Int} (h : List.Forall₂ (· ≤ ·) a b) (hs : a.sum = b.sum) :
    a = b := by
  induction h with
  | nil => rfl
  | cons hxy hrest ih =>
    rw [sum_cons,sum_cons] at hs
    have hle := hrest.sum_le_sum
    rw [ih (by omega)]
    congr 1
    omega

lemma isLoose_congr {ssl : Openssl} {x y : NameEntry} (h : x.object = y.object) :
    isLoose ssl x = isLoose ssl y := by
  rw [isLoose,isLoose,isEmailAddress,isEmailAddress,h]

/-- The values of a name that is read back equal are plain, loosely compared ones apart. -/
lemma plain_of_sshX509NameCmp (hd : lib.Documented) {name b : X509Name}
    (hp : PrintableName lib name) (hr : rebuilt lib name = some b)
    (h : sshX509NameCmp lib.ssl (some name) (some b) = 0) :
    ∀ e ∈ name, isLoose lib.ssl e = false → Plain (entryText lib e) := by
  have hkept := rebuilt_keptAs hr
  have hpt : ∀ e ∈ name, PrintableText (entryText lib e) := by
    intro e he
    obtain ⟨text,ht,hpt⟩ := hp e he
    rwa [entryText,ht]
  -- pairs of equal entries weigh the same
  obtain ⟨ms,hperm,hmatch⟩ := matching_of_sshX509NameCmp h
  rw [append_nil] at hperm
  have hpair : name.map (entryWeight lib) = ms.map (entryWeight lib) := by
    rw [← forall₂_eq_eq_eq,forall₂_map_left_iff,forall₂_map_right_iff]
    refine (forall₂_mem hmatch).imp fun y x hyx => ?_
    obtain ⟨hy,hx,hm⟩ := hyx
    obtain ⟨x',_,hown⟩ := exists_of_forall₂ hkept hy
    obtain ⟨e,he,hex⟩ := exists_of_forall₂ hkept.flip (hperm.mem_iff.mpr hx)
    obtain ⟨hxe,_,⟨t,hpt',ht⟩,hwide,_⟩ := KeptAs.spec hd (hpt e he) hex
    obtain ⟨_,ho,hv⟩ := (entryMatch_iff _ y x).mp hm
    obtain ⟨s,hs,_⟩ := hp y hy
    unfold entryWeight
    rw [isLoose_congr ho]
    split
    · rfl
    · rename_i hloose
      simp only [isLoose,Bool.or_eq_true,not_or,decide_eq_true_eq,isEmailAddress] at hloose
      rw [if_neg (by rw [ho]; exact hloose.1)] at hv
      rw [entryText,entryText,hs,ht]
      refine weight_eq_of_textEq hd hs ht hpt' hown (hwide ?_) ?_ hv
      · rw [← hxe]
        exact hloose.2
      · rw [ho,hxe]
        exact KeptAs.added hex
  have hsum : (name.map (entryWeight lib)).sum = (b.map (entryWeight lib)).sum := by
    rw [hpair]
    exact ((hperm.map _).sum_eq).symm
  -- and what is kept weighs no less
  have hle : List.Forall₂ (· ≤ ·) (name.map (entryWeight lib)) (b.map (entryWeight lib)) := by
    rw [forall₂_map_left_iff,forall₂_map_right_iff]
    refine (forall₂_mem hkept).imp fun e x hmem => ?_
    obtain ⟨he,_,hex⟩ := hmem
    obtain ⟨hxe,_,_,_,hw,_⟩ := KeptAs.spec hd (hpt e he) hex
    unfold entryWeight
    rw [isLoose_congr hxe]
    split
    · exact le_rfl
    · exact hw
  have heq := eq_of_forall₂_le hle hsum
  rw [← forall₂_eq_eq_eq,forall₂_map_left_iff,forall₂_map_right_iff] at heq
  have hboth : List.Forall₂
      (fun e x => KeptAs lib e x ∧ entryWeight lib e = entryWeight lib x) name b := by
    rw [forall₂_iff_zip] at hkept heq ⊢
    exact ⟨hkept.1,fun hz => ⟨hkept.2 hz,heq.2 hz⟩⟩
  intro e he hl
  obtain ⟨x,_,hex,hw⟩ := exists_of_forall₂ hboth he
  obtain ⟨hxe,_,_,_,_,hplain⟩ := KeptAs.spec hd (hpt e he) hex
  unfold entryWeight at hw
  rw [isLoose_congr hxe,hl] at hw
  exact hplain hw

end

end PkixSsh.X509
