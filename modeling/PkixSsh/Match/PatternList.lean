import PkixSsh.Match.Wildcards
import Mathlib.Data.List.Perm.Basic

/-!
# Lists of patterns

What `match_pattern_list` decides, as a matter of the subpatterns without their order; an empty
last one is not seen.
-/

namespace PkixSsh.Match

open List

/-- The inner loop, which copies the subpattern as long as there is room for it: what is
copied, and what is left of the list. -/
def copySub (dolower : Bool) : Nat → Bytes → Bytes × Bytes
  | 0, rest => ([],rest)
  | _ + 1, [] => ([],[])
  | room + 1, c :: rest =>
    if c = comma then ([],c :: rest)
    else
      let (sub,rest) := copySub dolower room rest
      ((if dolower then tolower c else c) :: sub,rest)

/-- The outer loop of `match_pattern_list`. Every round takes a byte at least. -/
def scanLoop (string : Bytes) (dolower : Bool) : Nat → Bool → Bytes → Int
  | 0, gotPositive, _ => if gotPositive then 1 else 0
  | _ + 1, gotPositive, [] => if gotPositive then 1 else 0
  | rounds + 1, gotPositive, c :: rest =>
    let negated := c = exclamationMark
    let (sub,rest) := copySub dolower 1023 (if negated then rest else c :: rest)
    if sub.length ≥ 1023 then 0
    else
      let rest := if rest.head? = some comma then rest.tail else rest
      if matchPattern sub string then
        if negated then -1 else scanLoop string dolower rounds true rest
      else scanLoop string dolower rounds gotPositive rest

/-- `match_pattern_list`, with the positions of its scanner. -/
def scanPatternList (string pattern : Bytes) (dolower : Bool) : Int :=
  scanLoop string dolower pattern.length false pattern

variable {dolower : Bool} {item pattern rest string : Bytes} {items : List Bytes}

lemma copySub_item {room : Nat} (h : comma ∉ item) (rest : Bytes)
    (hrest : rest = [] ∨ rest.head? = some comma) : copySub dolower room (item ++ rest) =
      ((item.take room).map fun c => if dolower then tolower c else c,item.drop room ++ rest) := by
  induction item generalizing room with
  | nil =>
    cases room with
    | zero => rfl
    | succ room =>
      rcases hrest with rfl | hrest
      · rfl
      · obtain ⟨rest',rfl⟩ : ∃ rest', rest = comma :: rest' := by
          cases rest with
          | nil => cases hrest
          | cons c rest' =>
            cases hrest
            exact ⟨rest',rfl⟩
        rfl
  | cons c item ih =>
    rw [mem_cons,not_or] at h
    cases room with
    | zero => rfl
    | succ room =>
      rw [cons_append,copySub,if_neg (Ne.symm h.1),ih h.2]
      rfl

def subpattern (dolower : Bool) (item : Bytes) : Bytes :=
  let sub := if item.head? = some exclamationMark then item.drop 1 else item
  if dolower then sub.map tolower else sub

lemma map_lower (dolower : Bool) (sub : Bytes) :
    (sub.map fun c => if dolower then tolower c else c) =
      if dolower then sub.map tolower else sub := by
  cases dolower <;> simp

lemma copySub_subpattern {sub : Bytes} (h : comma ∉ sub)
    (hrest : rest = [] ∨ rest.head? = some comma) (hl : sub.length < 1023) :
    copySub dolower 1023 (sub ++ rest) = (if dolower then sub.map tolower else sub,rest) := by
  rw [copySub_item h rest hrest,take_of_length_le (by omega),drop_of_length_le (by omega),
    map_lower,nil_append]

lemma length_copySub_long {sub : Bytes} (h : comma ∉ sub)
    (hrest : rest = [] ∨ rest.head? = some comma) (hl : 1023 ≤ sub.length) :
    1023 ≤ (copySub dolower 1023 (sub ++ rest)).1.length := by
  rw [copySub_item h rest hrest,length_map,length_take]
  omega

lemma tail_of_comma (hrest : rest = [] ∨ rest.head? = some comma) :
    (if rest.head? = some comma then rest.tail else rest) = rest.tail := by
  rcases hrest with rfl | hrest
  · rfl
  · rw [if_pos hrest]

lemma length_subpattern (dolower : Bool) (item : Bytes) : (subpattern dolower item).length =
      (if item.head? = some exclamationMark then item.drop 1 else item).length := by
  rw [subpattern]
  cases dolower <;> simp

lemma scanLoop_item (string : Bytes) (dolower : Bool) (rounds : Nat) (gotPositive : Bool)
    (h : comma ∉ item) (hrest : rest = [] ∨ rest.head? = some comma) (hne : item ++ rest ≠ []) :
    scanLoop string dolower (rounds + 1) gotPositive (item ++ rest) =
      if 1023 ≤ (subpattern dolower item).length then 0
      else if matchPattern (subpattern dolower item) string then
        if item.head? = some exclamationMark then -1
        else scanLoop string dolower rounds true rest.tail
      else scanLoop string dolower rounds gotPositive rest.tail := by
  obtain ⟨c,l,hcl⟩ := exists_cons_of_ne_nil hne
  -- what the round copies from, and whether it is negated
  have hneg : c = exclamationMark ↔ item.head? = some exclamationMark := by
    cases item with
    | nil =>
      rcases hrest with rfl | hrest
      · exact absurd rfl hne
      · rw [nil_append] at hcl
        rw [hcl,List.head?_cons,Option.some.injEq] at hrest
        rw [hrest]
        exact ⟨fun hc => absurd hc (by decide),nofun⟩
    | cons d item =>
      cases hcl
      simp
  have hsub : (if c = exclamationMark then l else c :: l) =
      (if item.head? = some exclamationMark then item.drop 1 else item) ++ rest := by
    by_cases hc : c = exclamationMark
    · rw [if_pos hc,if_pos (hneg.mp hc)]
      cases item with
      | nil => cases hneg.mp hc
      | cons d item =>
        cases hcl
        rfl
    · rw [if_neg hc,if_neg fun hi => hc (hneg.mpr hi),hcl]
  have hno : comma ∉ (if item.head? = some exclamationMark then item.drop 1 else item) := by
    split
    · exact fun hm => h (mem_of_mem_drop hm)
    · exact h
  rw [hcl,scanLoop]
  dsimp only
  rw [hsub,length_subpattern]
  by_cases hl : 1023 ≤ (if item.head? = some exclamationMark then item.drop 1 else item).length
  · rw [if_pos (length_copySub_long hno hrest hl),if_pos hl]
  · rw [copySub_subpattern hno hrest (by omega),if_neg hl,tail_of_comma hrest]
    have hlen : (subpattern dolower item).length < 1023 := by
      rw [length_subpattern]
      omega
    rw [subpattern] at hlen ⊢
    dsimp only at hlen ⊢
    rw [if_neg (by omega)]
    simp only [hneg]

lemma subpatterns_last (h : comma ∉ item) (hne : item ≠ []) : subpatterns item = [item] := by
  rw [subpatterns,splitCommas_of_not_mem h]
  simp [hne]

lemma subpatterns_append (h : comma ∉ item) (l : Bytes) :
    subpatterns (item ++ comma :: l) = item :: subpatterns l := by
  have hl := splitCommas_ne_nil l
  rw [subpatterns,subpatterns,splitCommas_append h]
  rw [List.getLast?_cons_of_ne_nil hl,dropLast_cons_of_ne_nil hl]
  split <;> rfl

lemma scanLoop_eq (string : Bytes) (dolower : Bool) {rounds : Nat} (gotPositive : Bool)
    (h : pattern.length ≤ rounds) : scanLoop string dolower rounds gotPositive pattern =
      matchSubpatterns string dolower gotPositive (subpatterns pattern) := by
  induction rounds generalizing gotPositive pattern with
  | zero =>
    rw [length_eq_zero_iff.mp (Nat.le_zero.mp h)]
    rfl
  | succ rounds ih =>
    by_cases hp : pattern = []
    · subst hp
      rfl
    by_cases hc : comma ∈ pattern
    · obtain ⟨item,l,rfl,hno⟩ := eq_append_cons_of_mem hc
      have hl : l.length ≤ rounds := by
        rw [length_append,length_cons] at h
        omega
      rw [scanLoop_item _ _ _ _ hno (.inr rfl) hp,
        subpatterns_append hno,matchSubpatterns,tail_cons,ih true hl,ih _ hl]
      rfl
    · have hround := scanLoop_item string dolower rounds gotPositive hc (.inl rfl)
        (by rwa [append_nil])
      have hnil : ∀ got, scanLoop _ _ _ got [] =
          matchSubpatterns _ _ got [] := fun got => ih got (Nat.zero_le _)
      rw [append_nil,tail_nil,hnil,hnil] at hround
      rw [hround,subpatterns_last hc hp]
      rfl

lemma scanPatternList_eq (string pattern : Bytes) (dolower : Bool) :
    scanPatternList string pattern dolower = matchPatternList string pattern dolower :=
  scanLoop_eq _ _ false le_rfl

def accepts (string : Bytes) (dolower : Bool) (item : Bytes) : Bool :=
  matchPattern (subpattern dolower item) string

def negated (item : Bytes) : Bool := item.head? = some exclamationMark

/-- The verdict on a string by a list of items: a match that is negated goes before all others. -/
def verdict (string : Bytes) (dolower : Bool) (items : List Bytes) : Int :=
  if ∃ item ∈ items, negated item ∧ accepts string dolower item then -1
  else if ∃ item ∈ items, ¬ negated item ∧ accepts string dolower item then 1
  else 0

lemma verdict_perm {items' : List Bytes} (h : items'.Perm items) :
    verdict string dolower items' = verdict string dolower items := by
  simp only [verdict,h.mem_iff]

lemma matchSubpatterns_eq (h : ∀ item ∈ items, (subpattern dolower item).length < 1023)
    (gotPositive : Bool) : matchSubpatterns string dolower gotPositive items =
      if ∃ item ∈ items, negated item ∧ accepts string dolower item then -1
      else if gotPositive ∨ ∃ item ∈ items, ¬ negated item ∧ accepts string dolower item then 1
      else 0 := by
  induction items generalizing gotPositive with
  | nil => cases gotPositive <;> simp [matchSubpatterns]
  | cons item items ih =>
    have hitem := h item mem_cons_self
    have hitems := fun got => ih (fun i hi => h i (mem_cons_of_mem item hi)) got
    have hround : matchSubpatterns string dolower gotPositive (item :: items) =
        if 1023 ≤ (subpattern dolower item).length then 0
        else if accepts string dolower item then
          if negated item then -1 else matchSubpatterns string dolower true items
        else matchSubpatterns string dolower gotPositive items := by
      simp only [negated,decide_eq_true_eq]
      rfl
    rw [hround,if_neg (by omega),hitems,hitems]
    by_cases hacc : accepts string dolower item = true
    · by_cases hneg : negated item = true
      · simp [hacc,hneg]
      · simp [hacc,hneg]
    · simp [hacc]

/-- Without a subpattern that is too long, the verdict is that of the items that are seen. -/
lemma scanPatternList_verdict
    (h : ∀ item ∈ subpatterns pattern, (subpattern dolower item).length < 1023) :
    scanPatternList string pattern dolower = verdict string dolower (subpatterns pattern) := by
  rw [scanPatternList_eq,matchPatternList,matchSubpatterns_eq h,verdict]
  simp

lemma accepts_nil : accepts string dolower [] = true ↔ string = [] := by
  cases dolower <;> simp [accepts,subpattern,matchPattern]

lemma subpatterns_cases (pattern : Bytes) : subpatterns pattern = splitCommas pattern ∨
      splitCommas pattern = subpatterns pattern ++ [[]] := by
  rw [subpatterns]
  split
  · next hlast =>
    refine .inr ?_
    have hget := List.getLast?_eq_some_iff.mp hlast
    obtain ⟨init,hinit⟩ := hget
    rw [hinit,dropLast_concat]
  · exact .inl rfl

/-- The only item that matches is one empty item. -/
def OnlyEmptyItem (string : Bytes) (dolower : Bool) (items : List Bytes) : Prop :=
  string = [] ∧ items.filter (accepts string dolower) = [[]]

lemma verdict_concat_nil (h : ¬ OnlyEmptyItem string dolower (items ++ [[]])) :
    verdict string dolower (items ++ [[]]) = verdict string dolower items := by
  have hneg : negated [] = false := rfl
  by_cases hs : string = []
  · -- some other item matches, and decides
    have hacc : accepts _ dolower [] = true := accepts_nil.mpr hs
    have hsome : ∃ item ∈ items, accepts string dolower item = true := by
      by_contra hno
      refine h ⟨hs,?_⟩
      rw [filter_append,filter_eq_nil_iff.mpr fun item hi ha => hno ⟨item,hi,ha⟩,
        filter_cons_of_pos hacc]
      rfl
    obtain ⟨item,hi,ha⟩ := hsome
    simp only [verdict,mem_append,mem_singleton,or_and_right,exists_or,exists_eq_left,
      hneg,hacc,Bool.false_eq_true,false_and,or_false,not_false_eq_true,true_and,or_true,if_true]
    split
    · rfl
    · next hn =>
      rw [if_pos ⟨item,hi,fun hi' => hn ⟨item,hi,hi',ha⟩,ha⟩]
  · have hacc : ¬ accepts _ dolower [] = true := fun ha => hs (accepts_nil.mp ha)
    simp only [verdict,mem_append,mem_singleton,or_and_right,exists_or,exists_eq_left,
      hacc,Bool.false_eq_true,and_false,or_false]

lemma scanPatternList_of_not_only
    (hl : ∀ item ∈ splitCommas pattern, (subpattern dolower item).length < 1023)
    (h : ¬ OnlyEmptyItem string dolower (splitCommas pattern)) :
    scanPatternList string pattern dolower = verdict string dolower (splitCommas pattern) := by
  rcases subpatterns_cases _ with hp | hp
  · rw [scanPatternList_verdict (by rwa [hp]),hp]
  · rw [hp] at h hl ⊢
    rw [verdict_concat_nil h]
    exact scanPatternList_verdict fun item hi => hl item (mem_append_left _ hi)

lemma OnlyEmptyItem.perm {items' : List Bytes} (h : OnlyEmptyItem string dolower items)
    (hp : items'.Perm items) : OnlyEmptyItem string dolower items' := by
  refine ⟨h.1,perm_singleton.mp ?_⟩
  rw [← h.2]
  exact hp.filter _

lemma scanPatternList_only_last (hc : ∀ item ∈ items, comma ∉ item)
    (hl : ∀ item ∈ items, (subpattern dolower item).length < 1023)
    (h : OnlyEmptyItem string dolower items) : ∃ pattern', (splitCommas pattern').Perm items ∧
      scanPatternList string pattern' dolower = 0 := by
  have hmem : [] ∈ items := by
    have : [] ∈ items.filter (accepts string dolower) := by
      rw [h.2]
      exact mem_cons_self
    exact (mem_filter.mp this).1
  have hperm : (items.erase [] ++ [[]]).Perm items :=
    (perm_append_singleton _ _).trans (perm_cons_erase hmem).symm
  have hsplit := splitCommas_joinCommas (by simp) fun item hi => hc item (hperm.mem_iff.mp hi)
  refine ⟨joinCommas (items.erase [] ++ [[]]),?_,?_⟩
  · rw [hsplit]
    exact hperm
  have hseen : subpatterns (joinCommas (items.erase [] ++ [[]])) = items.erase [] := by
    rw [subpatterns,hsplit]
    simp
  have hnone : ∀ item ∈ items.erase [], ¬ accepts string dolower item = true := by
    intro item hi ha
    have hfilter := (h.perm hperm).2
    rw [filter_append,filter_cons_of_pos (accepts_nil.mpr h.1)] at hfilter
    have hnil : (items.erase []).filter _ = [] :=
      append_cancel_right (hfilter.trans (nil_append _).symm)
    exact filter_eq_nil_iff.mp hnil item hi ha
  rw [scanPatternList_verdict,hseen,verdict,if_neg,if_neg]
  · rintro ⟨item,hi,-,ha⟩
    exact hnone item hi ha
  · rintro ⟨item,hi,-,ha⟩
    exact hnone item hi ha
  · rw [hseen]
    exact fun item hi => hl item (mem_of_mem_erase hi)

/-- The verdict is that of all the items, in whatever order they stand, unless one empty item
is all that matches. -/
theorem scanPatternList_iff {string pattern : Bytes} {dolower : Bool}
    (hl : ∀ item ∈ splitCommas pattern, (subpattern dolower item).length < 1023) :
    (scanPatternList string pattern dolower = verdict string dolower (splitCommas pattern) ∧
      ∀ pattern', (splitCommas pattern').Perm (splitCommas pattern) →
        scanPatternList string pattern' dolower = scanPatternList string pattern dolower) ↔
      ¬ OnlyEmptyItem string dolower (splitCommas pattern) := by
  constructor
  · rintro ⟨hv,hperm⟩ honly
    obtain ⟨pattern',hp,hzero⟩ := scanPatternList_only_last (joinCommas_splitCommas _).2 hl honly
    have hone : verdict string dolower (splitCommas pattern) = 0 := by
      rw [← hv,← hperm _ hp,hzero]
    have hmem : [] ∈ (splitCommas pattern).filter (accepts string dolower) := by
      rw [honly.2]
      exact mem_cons_self
    obtain ⟨hmem,hacc⟩ := mem_filter.mp hmem
    rw [verdict] at hone
    split at hone
    · cases hone
    · rw [if_pos ⟨[],hmem,by decide,hacc⟩] at hone
      cases hone
  · intro honly
    have hv := scanPatternList_of_not_only hl honly
    refine ⟨hv,fun pattern' hp => ?_⟩
    rw [hv,← verdict_perm hp]
    exact scanPatternList_of_not_only (fun item hi => hl item (hp.mem_iff.mp hi))
      fun h => honly (h.perm hp.symm)

/-- Two lists with the same items and different verdicts on the empty string. -/
theorem scanPatternList_order :
    splitCommas (cstr ",a") = [[],cstr "a"] ∧ splitCommas (cstr "a,") = [cstr "a",[]] ∧
      scanPatternList [] (cstr ",a") false = 1 ∧ scanPatternList [] (cstr "a,") false = 0 ∧
      verdict [] false [cstr "a",[]] = 1 := by
  decide

theorem scanPatternList_iff_hosts : scanPatternList (cstr "a.b") (cstr "!c.*,*.b") true = 1 ∧
      (∀ pattern', (splitCommas pattern').Perm (splitCommas (cstr "!c.*,*.b")) →
        scanPatternList (cstr "a.b") pattern' true = 1) := by
  have hl : ∀ item ∈ splitCommas (cstr "!c.*,*.b"), (subpattern true item).length < 1023 := by
    decide +kernel
  have hne : ¬ OnlyEmptyItem (cstr "a.b") true (splitCommas (cstr "!c.*,*.b")) := by
    rintro ⟨hs,-⟩
    revert hs
    decide +kernel
  have hone : scanPatternList (cstr "a.b") (cstr "!c.*,*.b") true = 1 := by decide +kernel
  exact ⟨hone,fun pattern' hp => (((scanPatternList_iff hl).mpr hne).2 _ hp).trans hone⟩

end PkixSsh.Match
