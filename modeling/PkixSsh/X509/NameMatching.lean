import Mathlib.Data.List.Perm.Lattice
import PkixSsh.Lib.GreedyMatching
import PkixSsh.X509.NameCmp

/-!
# What equality of distinguished names means

Closed forms of the comparators. The loop over the entries is the search of `GreedyMatching`.
-/

namespace PkixSsh.X509

open GreedyMatching List

/-- Lower case, with every inner run of white space cut down to its first character; the flag is for
a preceding one. -/
def squeeze : Bool → Bytes → Bytes
  | _, [] => []
  | afterSpace, c :: cs =>
    if isspace c then
      if afterSpace then squeeze true cs else tolower c :: squeeze true cs
    else tolower c :: squeeze false cs

/-- The normal form `ssh_printable_casecmp` compares. -/
def normalise (s : Bytes) : Bytes := squeeze false (trim s)

lemma isspace_tolower (c : UInt8) : isspace (tolower c) = isspace c := by
  unfold tolower
  split
  · rename_i h
    simp only [UInt8.le_iff_toNat_le] at h
    rw [Bool.eq_iff_iff]
    simp only [isspace,UInt8.le_iff_toNat_le,← UInt8.toNat_inj]
    simp at h ⊢
    omega
  · rfl

lemma squeeze_true (s : Bytes) : squeeze true s = squeeze false (s.dropWhile isspace) := by
  induction s with
  | nil => rfl
  | cons c s ih =>
    by_cases h : isspace c
    · simp [squeeze,h,ih]
    · simp [squeeze,h]

lemma squeeze_cons (c : UInt8) (s : Bytes) : squeeze false (c :: s) =
      tolower c :: squeeze false (if isspace c then s.dropWhile isspace else s) := by
  by_cases h : isspace c
  · simp [squeeze,h,squeeze_true]
  · simp [squeeze,h]

lemma printableCasecmpLoop_eq_zero_iff {fuel : Nat} {as bs : Bytes} (h : as.length ≤ fuel) :
    printableCasecmpLoop fuel as bs = 0 ↔ squeeze false as = squeeze false bs := by
  induction fuel generalizing as bs with
  | zero =>
    have ha : as = [] := eq_nil_of_length_eq_zero (by omega)
    subst ha
    cases bs with
    | nil => simp [printableCasecmpLoop]
    | cons b bs =>
      rw [squeeze_cons]
      simp [printableCasecmpLoop,squeeze]
      omega
  | succ fuel ih =>
    match as, bs with
    | [], [] => simp [printableCasecmpLoop]
    | [], b :: bs =>
      rw [squeeze_cons]
      simp [printableCasecmpLoop,squeeze]
      omega
    | a :: as, [] =>
      rw [squeeze_cons]
      simp [printableCasecmpLoop,squeeze]
      omega
    | a :: as, b :: bs =>
      rw [squeeze_cons,squeeze_cons]
      have hle : as.length ≤ fuel := by simpa using h
      by_cases hab : tolower a = tolower b
      · have hs : isspace a = isspace b := by
          rw [← isspace_tolower a,hab,isspace_tolower]
        by_cases hsp : isspace b
        · have hle' : (as.dropWhile isspace).length ≤ fuel := (length_dropWhile_le _ _).trans hle
          simp [printableCasecmpLoop,hab,isspace_tolower,hs,hsp,ih hle']
        · simp [printableCasecmpLoop,hab,isspace_tolower,hs,hsp,ih hle]
      · simp [printableCasecmpLoop,hab,Ne.symm hab]

lemma sshPrintableCasecmp_eq_zero_iff (pa pb : Bytes) :
    sshPrintableCasecmp pa pb = 0 ↔ normalise pa = normalise pb :=
  printableCasecmpLoop_eq_zero_iff le_rfl

/-- The form in which every inner run of white space is one blank. -/
def caseIgnore (s : Bytes) : Bytes := (normalise s).map fun c => if isspace c then 32 else c

def runStarts (s : Bytes) : Bytes := (normalise s).filter isspace

lemma eq_of_blanks {as bs : Bytes} (hmap : as.map (fun c => if isspace c then 32 else c) =
      bs.map fun c => if isspace c then 32 else c)
    (hfilter : as.filter isspace = bs.filter isspace) : as = bs := by
  induction as generalizing bs with
  | nil => exact (map_eq_nil_iff.mp hmap.symm).symm
  | cons a as ih =>
    obtain ⟨b,bs,rfl⟩ := exists_cons_of_ne_nil fun h : bs = [] => by simp [h] at hmap
    rw [map_cons,map_cons,cons.injEq] at hmap
    have hspace : isspace 32 = true := rfl
    by_cases ha : isspace a <;> by_cases hb : isspace b
    · rw [filter_cons_of_pos ha,filter_cons_of_pos hb,cons.injEq] at hfilter
      rw [hfilter.1,ih hmap.2 hfilter.2]
    · rw [if_pos ha,if_neg hb] at hmap
      exact absurd (hmap.1 ▸ hspace) hb
    · rw [if_neg ha,if_pos hb] at hmap
      exact absurd (hmap.1 ▸ hspace) ha
    · rw [if_neg ha,if_neg hb] at hmap
      rw [filter_cons_of_neg ha,filter_cons_of_neg hb] at hfilter
      rw [hmap.1,ih hmap.2 hfilter]

/-- The comparison is that of the forms with single blanks unless strings of one form have runs
that start with different white space. -/
theorem sshPrintableCasecmp_caseIgnore_iff (pa pb : Bytes) :
    (sshPrintableCasecmp pa pb = 0 ↔ caseIgnore pa = caseIgnore pb) ↔
      (caseIgnore pa = caseIgnore pb → runStarts pa = runStarts pb) := by
  rw [sshPrintableCasecmp_eq_zero_iff]
  refine ⟨fun h hform => ?_,fun h => ⟨fun hnorm => ?_,fun hform => ?_⟩⟩
  · rw [runStarts,h.mpr hform,runStarts]
  · rw [caseIgnore,hnorm,caseIgnore]
  · exact eq_of_blanks hform (h hform)

theorem sshPrintableCasecmp_tab : sshPrintableCasecmp [97,9,98] [97,32,98] ≠ 0 ∧
    caseIgnore [97,9,98] = caseIgnore [97,32,98] := by
  decide

lemma memcmpLength_eq_zero_iff (pa pb : Bytes) : memcmpLength pa pb = 0 ↔ pa = pb := by
  simp only [memcmpLength]
  by_cases hl : pa.length = pb.length
  · have hz : memcmp _ pa pb = 0 ↔ pa = pb := memcmp_min_eq_zero_iff hl
    by_cases he : pa = pb
    · rw [if_pos (hz.mpr he)]
      simp [he]
    · simp [mt hz.mp he,he]
  · have he : pa ≠ pb := fun he => hl (by rw [he])
    by_cases hz : memcmp (min pa.length pb.length) pa pb = 0
    · simp only [he,iff_false]
      omega
    · simp [hz,he]

/-- The slip of the comparison: a difference is reported by the difference of the
lengths, and a common prefix counts as equality. -/
lemma sshAsn1StringCasecmp_eq_zero_iff (a b : Asn1String) : sshAsn1StringCasecmp a b = 0 ↔
      a.data.length = b.data.length ∨
        strncasecmp (min a.data.length b.data.length) a.data b.data = 0 := by
  simp only [sshAsn1StringCasecmp]
  split
  · omega
  · rename_i h
    simp only [Decidable.not_not] at h
    simp [h]

/-- Equal texts after `norm`. Strings of one type are compared as they are, others
through their UTF-8 conversions, which must be there and not empty. -/
def SameText (ssl : Openssl) (norm : Bytes → Bytes) (a b : Asn1String) : Prop :=
  if a.tag = b.tag then norm a.data = norm b.data
  else ∃ ua ub, sshAsn1StringToUTF8 ssl a = some ua ∧ sshAsn1StringToUTF8 ssl b = some ub ∧
    ua ≠ [] ∧ ub ≠ [] ∧ norm ua = norm ub

variable {ssl : Openssl} {a b : Asn1String} {x y : NameEntry}

lemma SameText.symm {norm : Bytes → Bytes} (h : SameText ssl norm a b) :
    SameText ssl norm b a := by
  unfold SameText at h ⊢
  by_cases ht : a.tag = b.tag
  · rw [if_pos ht] at h
    rw [if_pos ht.symm]
    exact h.symm
  · rw [if_neg ht] at h
    rw [if_neg (Ne.symm ht)]
    obtain ⟨ua,ub,hua,hub,hna,hnb,he⟩ := h
    exact ⟨ub,ua,hub,hua,hnb,hna,he.symm⟩

lemma convertBoth_eq_zero_iff (ssl : Openssl) (a b : Asn1String) {norm : Bytes → Bytes}
    {cmp : Bytes → Bytes → Int} (hcmp : ∀ p q, cmp p q = 0 ↔ norm p = norm q) :
    convertBoth ssl a b cmp = 0 ↔
      ∃ ua ub, sshAsn1StringToUTF8 ssl a = some ua ∧ sshAsn1StringToUTF8 ssl b = some ub ∧
        ua ≠ [] ∧ ub ≠ [] ∧ norm ua = norm ub := by
  unfold convertBoth
  rcases ha : sshAsn1StringToUTF8 ssl a with _ | _ | ⟨c,ua⟩
  · simp
  · simp
  · rcases hb : sshAsn1StringToUTF8 ssl b with _ | _ | ⟨d,ub⟩
    · simp
    · simp
    · simp [hcmp]

lemma sshAsn1PrintablestringCmp_eq_zero_iff (ssl : Openssl)
    (h : a.tag = .printableString ∨ b.tag = .printableString) :
    sshAsn1PrintablestringCmp ssl a b = 0 ↔ SameText ssl normalise a b := by
  have hn : ¬ (a.tag ≠ .printableString ∧ b.tag ≠ .printableString) := by tauto
  unfold sshAsn1PrintablestringCmp SameText
  rw [if_neg hn]
  by_cases ht : a.tag = b.tag
  · rw [if_pos ht,if_pos ht]
    exact sshPrintableCasecmp_eq_zero_iff _ _
  · rw [if_neg ht,if_neg ht]
    exact convertBoth_eq_zero_iff ssl a b sshPrintableCasecmp_eq_zero_iff

lemma sshAsn1DirectorystringCmp_eq_zero_iff (ssl : Openssl)
    (h : ¬ (a.tag = .printableString ∨ b.tag = .printableString)) :
    sshAsn1DirectorystringCmp ssl a b = 0 ↔ SameText ssl id a b := by
  unfold sshAsn1DirectorystringCmp SameText
  rw [if_neg h]
  by_cases ht : a.tag = b.tag
  · rw [if_pos ht,if_pos ht]
    exact memcmpLength_eq_zero_iff _ _
  · rw [if_neg ht,if_neg ht]
    exact convertBoth_eq_zero_iff ssl a b memcmpLength_eq_zero_iff

/-- Only the lengths of the encodings are compared. -/
lemma sshAsn1ObjectCmp_eq_some {ssl : Openssl} {a b : Oid} {n : Int} :
    sshAsn1ObjectCmp ssl a b = some n ↔
      (ssl.i2dAsn1Object a).length ≤ (ssl.i2dAsn1Object b).length ∧
        ((ssl.i2dAsn1Object b).length : Int) - (ssl.i2dAsn1Object a).length = n := by
  simp [sshAsn1ObjectCmp,memcmp_eq_zero_iff]

lemma sshAsn1ObjectCmp_self (ssl : Openssl) (o : Oid) : sshAsn1ObjectCmp ssl o o = some 0 :=
  sshAsn1ObjectCmp_eq_some.mpr ⟨le_rfl,Int.sub_self _⟩

/-- Equality of values other than e-mail addresses, as the code decides it. -/
def TextEq (ssl : Openssl) (a b : Asn1String) : Prop :=
  if a.tag = .printableString ∨ b.tag = .printableString then SameText ssl normalise a b
  else if sshIsDirectoryString a ∧ sshIsDirectoryString b then SameText ssl id a b
  else a.data = b.data

lemma TextEq.symm (h : TextEq ssl a b) : TextEq ssl b a := by
  unfold TextEq at h ⊢
  split at h
  · rename_i hp
    rw [if_pos hp.symm]
    exact h.symm
  · rename_i hp
    rw [if_neg (mt Or.symm hp)]
    split at h
    · rename_i hd
      rw [if_pos hd.symm]
      exact h.symm
    · rename_i hd
      rw [if_neg (mt And.symm hd)]
      exact h.symm

lemma entryCmp_eq_zero_iff (ssl : Openssl) {nid : Nat} (ho : x.object = y.object)
    (hn : nid ≠ nidEmailAddress) : entryCmp ssl nid x y = 0 ↔ TextEq ssl x.value y.value := by
  unfold entryCmp TextEq
  simp only [if_neg hn]
  split
  · rename_i hp
    exact sshAsn1PrintablestringCmp_eq_zero_iff ssl hp
  · rename_i hp
    split
    · exact sshAsn1DirectorystringCmp_eq_zero_iff ssl hp
    · by_cases hl : x.value.data.length = y.value.data.length
      · have hm : memcmp x.value.data.length x.value.data y.value.data = 0 ↔
            x.value.data = y.value.data := by
          have := memcmp_min_eq_zero_iff hl
          rwa [← hl,Nat.min_self] at this
        have hz : ¬ (x.value.data.length : Int) - y.value.data.length ≠ 0 := by omega
        rw [if_neg hz]
        by_cases he : x.value.data = y.value.data
        · rw [if_neg (not_not.mpr (hm.mpr he)),ho,sshAsn1ObjectCmp_self,Option.getD_some]
          simp [he]
        · simp [mt hm.mp he,he]
      · have he : x.value.data ≠ y.value.data := fun he => hl (by rw [he])
        have hz : (x.value.data.length : Int) - y.value.data.length ≠ 0 := by omega
        simp [hz,he]

/-- Whether the search for a partner of `x` stops at `y`. -/
def entryMatch (ssl : Openssl) (x y : NameEntry) : Bool :=
  ssl.nid2obj (ssl.obj2nid x.object) = some y.object &&
    entryCmp ssl (ssl.obj2nid x.object) x y = 0

lemma nid2obj_obj2nid_iff (ssl : Openssl) {o o' : Oid} :
    ssl.nid2obj (ssl.obj2nid o) = some o' ↔ ssl.obj2nid o ≠ nidUndef ∧ o = o' := by
  constructor
  · intro h
    have hn : ssl.obj2nid o ≠ nidUndef := by
      intro hu
      rw [hu,ssl.nid2obj_undef] at h
      simp at h
    rw [ssl.nid2obj_obj2nid o hn] at h
    exact ⟨hn,Option.some.inj h⟩
  · rintro ⟨hn,rfl⟩
    exact ssl.nid2obj_obj2nid o hn

lemma entryMatch_iff (ssl : Openssl) (x y : NameEntry) : entryMatch ssl x y = true ↔
      ssl.obj2nid x.object ≠ nidUndef ∧ x.object = y.object ∧
        if ssl.obj2nid x.object = nidEmailAddress then
          sshAsn1StringCasecmp x.value y.value = 0 else TextEq ssl x.value y.value := by
  simp only [entryMatch,Bool.and_eq_true,decide_eq_true_eq,nid2obj_obj2nid_iff,and_assoc]
  refine and_congr_right fun _ => and_congr_right fun ho => ?_
  by_cases he : ssl.obj2nid x.object = nidEmailAddress
  · simp [entryCmp,he]
  · rw [if_neg he]
    exact entryCmp_eq_zero_iff ssl ho he

lemma sshAsn1StringCasecmp_comm_zero (h : sshAsn1StringCasecmp a b = 0) :
    sshAsn1StringCasecmp b a = 0 := by
  rw [sshAsn1StringCasecmp_eq_zero_iff] at h ⊢
  rw [Nat.min_comm,strncasecmp_comm_zero]
  exact h.imp_left Eq.symm

lemma entryMatch_comm (ssl : Openssl) (x y : NameEntry) :
    entryMatch ssl x y = entryMatch ssl y x := by
  have hsymm : ∀ x y, entryMatch ssl x y = true → entryMatch ssl y x = true := by
    intro x y h
    rw [entryMatch_iff] at h ⊢
    obtain ⟨hn,ho,hv⟩ := h
    rw [ho] at hn hv
    refine ⟨hn,ho.symm,?_⟩
    split at hv
    · rename_i he
      rw [if_pos he]
      exact sshAsn1StringCasecmp_comm_zero hv
    · rename_i he
      rw [if_neg he]
      exact hv.symm
  exact Bool.eq_iff_iff.mpr ⟨hsymm x y,hsymm y x⟩

lemma findEntry_fst (ssl : Openssl) (x : NameEntry) (loc : Nat) (b : List NameEntry) (n : Int)
    (hn : n ≠ 0) (h : ∀ y ∈ b, entryMatch ssl x y = false) :
    ∃ m, m ≠ 0 ∧ findEntry ssl (ssl.obj2nid x.object) x loc b n = (m,none) := by
  induction b generalizing loc n with
  | nil => exact ⟨n,hn,rfl⟩
  | cons y b ih =>
    obtain ⟨hy,hb⟩ := forall_mem_cons.mp h
    simp only [findEntry]
    split
    · rename_i ho
      have hc : entryCmp ssl (ssl.obj2nid x.object) x y ≠ 0 := by
        simpa [entryMatch,ho] using hy
      rw [if_neg hc]
      exact ih _ _ hc hb
    · exact ih _ n hn hb

lemma findEntry_snd (ssl : Openssl) (x : NameEntry) (loc : Nat) (b : List NameEntry) (n : Int) :
    (findEntry ssl (ssl.obj2nid x.object) x loc b n).2 =
      (b.findIdx? (entryMatch ssl x)).map (loc + ·) := by
  induction b generalizing loc n with
  | nil => rfl
  | cons y b ih =>
    simp only [findEntry,List.findIdx?_cons]
    have hshift : ∀ n', (findEntry ssl (ssl.obj2nid x.object) x (loc + 1) b n').2 =
        ((b.findIdx? (entryMatch ssl x)).map (· + 1)).map (loc + ·) := by
      intro n'
      rw [ih,Option.map_map]
      congr 1
      funext i
      simp only [Function.comp]
      omega
    by_cases ho : ssl.nid2obj (ssl.obj2nid x.object) = some y.object
    · by_cases hc : entryCmp ssl (ssl.obj2nid x.object) x y = 0
      · simp [ho,hc,entryMatch]
      · simp [ho,hc,entryMatch,hshift]
    · simp [ho,entryMatch,hshift]

lemma nameCmpLoop_eq_zero_iff (ssl : Openssl) (as : List NameEntry) (b : X509Name) :
    nameCmpLoop ssl as b = 0 ↔ (greedy (entryMatch ssl) as b).isSome := by
  induction as generalizing b with
  | nil => simp [nameCmpLoop,greedy]
  | cons x as ih =>
    simp only [nameCmpLoop,greedy]
    by_cases hany : b.any (entryMatch ssl x) = true
    · obtain ⟨y,hy,hm⟩ := List.any_eq_true.mp hany
      obtain ⟨i,hi⟩ : ∃ i, b.findIdx? _ = some i :=
        Option.isSome_iff_exists.mp (by simpa using ⟨y,hy,hm⟩)
      have hf := findEntry_snd ssl x 0 b (-1)
      have he : b.eraseP (entryMatch ssl x) = b.eraseIdx i := by
        rw [eraseP_eq_eraseIdx,hi]
      rw [hi] at hf
      rcases hr : findEntry ssl _ x 0 b (-1) with ⟨n,loc⟩
      rw [hr] at hf
      simp only [Nat.zero_add] at hf
      subst hf
      simp only [hany,he]
      exact ih _
    · have hnone : ∀ y ∈ b, entryMatch ssl x y = false := by simpa using hany
      obtain ⟨m,hm,hr⟩ := findEntry_fst ssl x 0 b (-1) (by decide) hnone
      rw [hr]
      simp [hm,hany]

lemma sshX509NameCmp_eq_zero_iff (ssl : Openssl) (a b : X509Name) :
    sshX509NameCmp ssl (some a) (some b) = 0 ↔
      a.length = b.length ∧ (greedy (entryMatch ssl) a.reverse b).isSome := by
  simp only [sshX509NameCmp]
  split
  · omega
  · rename_i hl
    simp only [not_not] at hl
    simp [hl,nameCmpLoop_eq_zero_iff]

lemma matching_of_sshX509NameCmp {a b : X509Name} (h : sshX509NameCmp ssl (some a) (some b) = 0) :
    Matching (fun x y => entryMatch ssl x y = true) a b [] := by
  obtain ⟨hl,hg⟩ := (sshX509NameCmp_eq_zero_iff ssl a b).mp h
  exact (greedy_matching (by simpa using hl) hg).perm_left (reverse_perm _)

def isEmailAddress (ssl : Openssl) (x : NameEntry) : Bool :=
  ssl.obj2nid x.object = nidEmailAddress

/-- The same attribute type, and values equal under its comparison: for an e-mail address up to
ASCII case. -/
def EntryEq (ssl : Openssl) (x y : NameEntry) : Prop :=
  x.object = y.object ∧
    if isEmailAddress ssl x then x.value.data.map tolower = y.value.data.map tolower
    else TextEq ssl x.value y.value

def emailAddresses (ssl : Openssl) (a : X509Name) : List Bytes :=
  (a.filter (isEmailAddress ssl)).map fun x => x.value.data.map tolower

lemma EntryEq.isEmailAddress_eq (h : EntryEq ssl x y) :
    isEmailAddress ssl x = isEmailAddress ssl y := by
  rw [isEmailAddress,isEmailAddress,h.1]

lemma emailAddresses_of_forall₂ {a b : X509Name} (h : List.Forall₂ (EntryEq ssl) a b) :
    emailAddresses ssl a = emailAddresses ssl b := by
  induction h with
  | nil => rfl
  | @cons x y a b hxy _ ih =>
    unfold emailAddresses at ih ⊢
    have hm := hxy.isEmailAddress_eq
    by_cases hx : isEmailAddress ssl x = true
    · have hv := hxy.2
      rw [if_pos hx] at hv
      simp [hx,← hm,ih,hv]
    · simp [hx,← hm,ih]

lemma entryEq_of_entryMatch (h : entryMatch ssl x y = true) (hx : isEmailAddress ssl x = false) :
    EntryEq ssl x y := by
  obtain ⟨_,ho,hv⟩ := (entryMatch_iff ssl x y).mp h
  rw [if_neg (by simpa [isEmailAddress] using hx)] at hv
  exact ⟨ho,by rwa [if_neg (by simp [hx])]⟩

lemma forall₂_entryEq_filter {a b : X509Name}
    (h : List.Forall₂ (fun x y => entryMatch ssl x y = true) a b) :
    List.Forall₂ (EntryEq ssl) (a.filter fun x => !isEmailAddress ssl x)
      (b.filter fun x => !isEmailAddress ssl x) := by
  induction h with
  | nil => exact .nil
  | @cons x y a b hxy _ ih =>
    have hm : isEmailAddress ssl x = isEmailAddress ssl y := by
      rw [isEmailAddress,isEmailAddress,((entryMatch_iff ssl x y).mp hxy).2.1]
    by_cases hx : isEmailAddress ssl x = true
    · simpa [hx,← hm] using ih
    · simp only [Bool.not_eq_true] at hx
      simpa [hx,← hm] using ⟨entryEq_of_entryMatch hxy hx,ih⟩

lemma matching_emailAddresses {a b : X509Name}
    (h : (emailAddresses ssl a).Perm (emailAddresses ssl b)) :
    Matching (EntryEq ssl) (a.filter (isEmailAddress ssl)) (b.filter (isEmailAddress ssl)) [] := by
  have hb : List.Forall₂
      (fun c y => isEmailAddress ssl y = true ∧ c = y.value.data.map tolower)
      (emailAddresses ssl b) (b.filter (isEmailAddress ssl)) := by
    rw [emailAddresses,forall₂_map_left_iff,forall₂_same]
    intro y hy
    exact ⟨(mem_filter.mp hy).2,rfl⟩
  obtain ⟨ms,hf,hp⟩ := perm_comp_forall₂ h hb
  rw [emailAddresses,forall₂_map_left_iff] at hf
  have ha : ∀ x ∈ a.filter _, isEmailAddress ssl x = true := fun x hx => (mem_filter.mp hx).2
  refine ⟨ms,by simpa using hp.symm,((forall₂_and_left _ _).mpr ⟨ha,hf⟩).imp ?_⟩
  rintro x y ⟨hx,hy,hv⟩
  -- both objects are the one the identifier of e-mail addresses stands for
  have hobj : ∀ z, isEmailAddress ssl z = true → ssl.nid2obj nidEmailAddress = some z.object := by
    intro z hz
    have hz' : ssl.obj2nid z.object = nidEmailAddress := by simpa [isEmailAddress] using hz
    rw [← hz']
    exact ssl.nid2obj_obj2nid _ (by rw [hz']; decide)
  refine ⟨Option.some.inj ((hobj x hx).symm.trans (hobj y hy)),?_⟩
  rwa [if_pos hx]

/-- Names the code takes for equal have equal entries in pairs exactly when their
e-mail addresses agree. -/
theorem sshX509NameCmp_sound_iff (ssl : Openssl) (a b : X509Name)
    (h : sshX509NameCmp ssl (some a) (some b) = 0) :
    Matching (EntryEq ssl) a b [] ↔ (emailAddresses ssl a).Perm (emailAddresses ssl b) := by
  constructor
  · rintro ⟨ms,hp,hf⟩
    rw [emailAddresses_of_forall₂ hf]
    exact (((append_nil ms ▸ hp).filter _).map _).symm
  · intro he
    obtain ⟨ms,hp,hf⟩ := matching_of_sshX509NameCmp h
    rw [append_nil] at hp
    obtain ⟨es,hep,hef⟩ := matching_emailAddresses he
    have hrest := forall₂_entryEq_filter hf
    have hm : Matching (EntryEq ssl)
        (a.filter (isEmailAddress ssl) ++ a.filter fun x => !isEmailAddress ssl x) b [] := by
      refine ⟨es ++ ms.filter _,?_,rel_append hef hrest⟩
      have hsplit := (filter_append_perm (isEmailAddress ssl) b).symm
      simpa using hsplit.trans ((append_nil es ▸ hep).append (hp.filter _))
    exact hm.perm_left (filter_append_perm _ _)

def oidEmailAddress : Oid := [0x2a,0x86,0x48,0x86,0xf7,0x0d,0x01,0x09,0x01]

def oidCommonName : Oid := [0x55,0x04,0x03]

def asciiOpenssl : Openssl where
  obj2nid o := if o = oidEmailAddress then nidEmailAddress else if o = oidCommonName then 13 else 0
  nid2obj n := if n = nidEmailAddress then some oidEmailAddress
    else if n = 13 then some oidCommonName else none
  asn1StringToUTF8 s := match s.tag with
    | .utf8String | .printableString | .ia5String => some s.data
    | _ => none
  i2dAsn1Object o := 6 :: o.length.toUInt8 :: o
  nid2obj_undef := rfl
  nid2obj_obj2nid := by
    intro o h
    by_cases h1 : o = oidEmailAddress
    · subst h1
      rfl
    · by_cases h2 : o = oidCommonName
      · subst h2
        rfl
      · simp [h1,h2,nidUndef] at h

/-- Both comparisons stay in their buffers, the result is zero for equal encodings only and its sign
is antisymmetric, if the encodings are equal and for no others. -/
theorem sshAsn1ObjectCmp_decides_iff (ssl : Openssl) (a b : Oid) :
    (∃ n m, sshAsn1ObjectCmp ssl a b = some n ∧ sshAsn1ObjectCmp ssl b a = some m ∧
        (n = 0 ↔ ssl.i2dAsn1Object a = ssl.i2dAsn1Object b) ∧ (0 < n ↔ m < 0)) ↔
      ssl.i2dAsn1Object a = ssl.i2dAsn1Object b := by
  simp only [sshAsn1ObjectCmp_eq_some]
  constructor
  · rintro ⟨_,_,⟨hab,rfl⟩,⟨hba,-⟩,heq,-⟩
    exact heq.mp (by omega)
  · intro he
    exact ⟨0,0,by simp [he]⟩

/-- The common name and the surname compare as equal, and an e-mail address is written over the end
of the buffer for a common name. -/
theorem sshAsn1ObjectCmp_same_length :
    sshAsn1ObjectCmp asciiOpenssl oidCommonName [85,4,4] = some 0 ∧
      asciiOpenssl.i2dAsn1Object oidCommonName ≠ asciiOpenssl.i2dAsn1Object [85,4,4] ∧
      sshAsn1ObjectCmp asciiOpenssl oidEmailAddress oidCommonName = none := by
  decide

def emailEntry (s : String) : NameEntry := ⟨oidEmailAddress,.ia5String,cstr s⟩

def commonNameEntry (tag : Asn1Tag) (s : String) : NameEntry := ⟨oidCommonName,tag,cstr s⟩

theorem sshX509NameCmp_sound_example :
    sshX509NameCmp asciiOpenssl (some [emailEntry "Ab"]) (some [emailEntry "aB"]) = 0 ∧
      (Matching (EntryEq asciiOpenssl) [emailEntry "Ab"] [emailEntry "aB"] [] ↔
        (emailAddresses asciiOpenssl [emailEntry "Ab"]).Perm
          (emailAddresses asciiOpenssl [emailEntry "aB"])) :=
  ⟨by decide,sshX509NameCmp_sound_iff _ _ _ (by decide)⟩

/-- Two addresses of one length are equal for the code, whatever they are. -/
theorem sshX509NameCmp_unsound : sshX509NameCmp asciiOpenssl (some [emailEntry "alice@a.org"])
      (some [emailEntry "mallo@b.org"]) = 0 ∧
    ¬ Matching (EntryEq asciiOpenssl) [emailEntry "alice@a.org"] [emailEntry "mallo@b.org"] [] := by
  refine ⟨by decide,?_⟩
  rintro ⟨ms,hp,hf⟩
  have hm : ms = [emailEntry _] := perm_singleton.mp (by simpa using hp.symm)
  subst hm
  obtain ⟨_,hv⟩ := (forall₂_cons.mp hf).1
  rw [if_pos (by decide)] at hv
  exact absurd hv (by decide)

/-- The comparison is symmetric for every order of the entries exactly when they cannot be paired
completely, or no three of their matches lack the fourth. -/
theorem sshX509NameCmp_symm_iff (ssl : Openssl) (a b : X509Name) : (∀ a' b', a'.Perm a → b'.Perm b →
      (sshX509NameCmp ssl (some a') (some b') = 0 ↔ sshX509NameCmp ssl (some b') (some a') = 0)) ↔
    (Matching (fun x y => entryMatch ssl x y = true) a b [] →
      Rectangular (fun x y => entryMatch ssl x y = true) a b) := by
  by_cases hl : a.length = b.length
  · rw [← greedy_symm_iff hl]
    refine forall₂_congr fun a' b' => forall₂_congr fun ha hb => ?_
    have hl' : a'.length = b'.length := by rw [ha.length_eq,hb.length_eq,hl]
    have hflip : (fun y x => entryMatch ssl x y) = entryMatch ssl := by
      funext x y
      exact entryMatch_comm ssl y x
    rw [sshX509NameCmp_eq_zero_iff,sshX509NameCmp_eq_zero_iff,hflip]
    simp [hl']
  · constructor
    · intro _ hm
      have := hm.length
      exact absurd this.symm hl
    · intro _ a' b' ha hb
      have hl' : a'.length ≠ b'.length := by rwa [ha.length_eq,hb.length_eq]
      rw [sshX509NameCmp_eq_zero_iff,sshX509NameCmp_eq_zero_iff]
      simp [hl',Ne.symm hl']

/-- A printable string takes the only partner of a case sensitive one. -/
theorem sshX509NameCmp_not_symm : sshX509NameCmp asciiOpenssl
      (some [commonNameEntry .utf8String "abc",commonNameEntry .utf8String "ABC"])
      (some [commonNameEntry .utf8String "abc",commonNameEntry .printableString "Abc"]) = 0 ∧
    sshX509NameCmp asciiOpenssl
      (some [commonNameEntry .utf8String "abc",commonNameEntry .printableString "Abc"])
      (some [commonNameEntry .utf8String "abc",commonNameEntry .utf8String "ABC"]) ≠ 0 := by
  decide

end PkixSsh.X509
