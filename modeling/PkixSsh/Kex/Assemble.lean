import Mathlib.Data.List.Nodup
import PkixSsh.Match.FirstCommon
import PkixSsh.Sshbuf.Basic

/-!
# Configured lists of algorithms

A list of the configuration adds to the default list, removes names of it, goes before it or
replaces it. Removal returns at once: what is left may be nothing.
-/

namespace PkixSsh.Match

open List

def keeps (blacklist : Bool) (filter cp : Bytes) : Bool :=
  (blacklist && matchPatternList cp filter false ≠ 1) ||
    (!blacklist && matchPatternList cp filter false = 1)

def filterStep (blacklist : Bool) (filter fixProp cp : Bytes) : Bytes :=
  if keeps blacklist filter cp then
    if fixProp ≠ [] then fixProp ++ comma :: cp else fixProp ++ cp
  else fixProp

def filterList (proposal filter : Bytes) (blacklist : Bool) : Bytes :=
  (splitCommas proposal).foldl (filterStep blacklist filter) []

def matchFilterBlacklist (proposal filter : Bytes) : Bytes := filterList proposal filter true

def matchFilterWhitelist (proposal filter : Bytes) : Bytes := filterList proposal filter false

lemma splitCommas_append_comma (a b : Bytes) :
    splitCommas (a ++ comma :: b) = splitCommas a ++ splitCommas b := by
  induction a with
  | nil => simp [splitCommas]
  | cons c a ih =>
    obtain ⟨item,items,h⟩ := exists_cons_of_ne_nil (splitCommas_ne_nil a)
    rw [cons_append,splitCommas,splitCommas,ih,h]
    split <;> simp

lemma names_append_comma {list name : Bytes} (h : list ≠ []) (hname : comma ∉ name) :
    names (list ++ comma :: name) = names list ++ [name] := by
  rw [names,names,if_neg h,if_neg (by simp),splitCommas_append_comma,splitCommas_of_not_mem hname]

lemma names_of_not_mem {name : Bytes} (h : name ≠ []) (hname : comma ∉ name) :
    names name = [name] := by
  rw [names,if_neg h,splitCommas_of_not_mem hname]

lemma not_mem_of_mem_names {list name : Bytes} (h : name ∈ names list) : comma ∉ name := by
  rw [names] at h
  split at h
  · cases h
  · exact (joinCommas_splitCommas list).2 name h

lemma not_mem_names_of_matchList {list name : Bytes} (h : NoEmptyName list) (hne : name ≠ [])
    (hname : comma ∉ name) (hnone : (matchList list name).1 = none) : name ∉ names list := by
  intro hm
  have hs : sproposals name = [name] := by
    have hnames : NoEmptyName name := by
      rw [NoEmptyName,names_of_not_mem hne hname,mem_singleton]
      exact Ne.symm hne
    rw [sproposals_names hnames,names_of_not_mem hne hname]
    rfl
  rcases exists_firstCommon _ _ with ⟨pre,x,post,hx⟩ | hno
  · rw [matchList_names,hs,matchLoop_firstCommon h hx] at hnone
    cases hnone
  · exact hno name hm mem_cons_self

lemma names_foldl_filterStep (blacklist : Bool) (filter : Bytes) {items : List Bytes}
    (h : ∀ name ∈ items, name ≠ [] ∧ comma ∉ name) (fixProp : Bytes) :
    names (items.foldl (filterStep blacklist filter) fixProp) =
      names fixProp ++ items.filter (keeps blacklist filter) := by
  induction items generalizing fixProp with
  | nil => simp
  | cons cp items ih =>
    obtain ⟨hne,hcp⟩ := h cp mem_cons_self
    rw [foldl_cons,ih (fun name hm => h name (mem_cons_of_mem cp hm)),filter_cons,filterStep]
    split
    · by_cases hf : fixProp = []
      · subst hf
        rw [if_neg (by simp),nil_append,names_of_not_mem hne hcp]
        rfl
      · rw [if_pos hf,names_append_comma hf hcp,append_assoc,singleton_append]
    · rfl

/-- The filter keeps names in their order. -/
lemma names_filterList {proposal : Bytes} (h : NoEmptyName proposal) (filter : Bytes)
    (blacklist : Bool) : names (filterList proposal filter blacklist) =
      (names proposal).filter (keeps blacklist filter) := by
  rw [filterList]
  by_cases hp : proposal = []
  · subst hp
    simp [splitCommas,names,filterStep]
  · have hall : ∀ name ∈ splitCommas proposal, name ≠ [] ∧ comma ∉ name := by
      rw [NoEmptyName,names,if_neg hp] at h
      exact fun name hm => ⟨fun he => h (he ▸ hm),(joinCommas_splitCommas _).2 name hm⟩
    rw [names_foldl_filterStep _ _ hall,names,if_pos rfl,nil_append,names,if_neg hp]

end PkixSsh.Match

namespace PkixSsh.Kex

open Match Sshbuf List

def catStep (ret p : Bytes) : Bytes :=
  if (matchList ret p).1.isSome then ret else ret ++ comma :: p

/-- The copy of `a` has room for every name of `b`, so that `strlcat` never cuts. -/
def kexNamesCat (a b : Bytes) : Option Bytes :=
  if a = [] then some b
  else if b = [] then some a
  else if b.length > 1024 * 1024 then none
  else some (((splitCommas b).takeWhile (· ≠ [])).foldl catStep a)

def applyPatterns (all : Bytes) : Bytes → List Bytes → Except SshErr Bytes
  | ret, [] => .ok ret
  | ret, cp :: rest =>
    if cp.head? = some exclamationMark then .error .invalidArgument
    else match kexNamesCat ret (matchFilterWhitelist all cp) with
      | none => .error .allocFail
      | some ret => applyPatterns all ret rest

def filterByAll (all : Bytes) (list : Option Bytes) : Except SshErr Bytes := do
  let list ← list.elim (.error .allocFail) .ok
  let ret ← applyPatterns all [] (splitCommas list)
  if ret = [] then .error .invalidArgument else .ok ret

/-- A list that is not set is empty here. -/
def kexAssembleNames (listp dflt all : Bytes) : Except SshErr Bytes :=
  match listp with
  | [] => .ok dflt
  | c :: names =>
    if c = 43 then filterByAll all (kexNamesCat dflt names)
    else if c = 45 then .ok (matchFilterBlacklist dflt names)
    else if c = 94 then filterByAll all (kexNamesCat names dflt)
    else filterByAll all (some (c :: names))

def Selects (all list : Bytes) : Prop := (names list).Nodup ∧ names list ⊆ names all

def Usable (all list : Bytes) : Prop := list ≠ [] ∧ Selects all list

instance (all list : Bytes) : Decidable (Usable all list) :=
  inferInstanceAs (Decidable (_ ∧ _ ∧ _))

/-- The names of the default list that are returned without the patterns being applied: all of
them for a list that is not set, those left for a removal. -/
def fromDefault (dflt : Bytes) : Bytes → Option (List Bytes)
  | [] => some (names dflt)
  | c :: patterns =>
    if c = 45 then some ((names dflt).filter fun name => matchPatternList name patterns false ≠ 1)
    else none

variable {all a b ret list listp dflt : Bytes}

lemma Selects.noEmptyName (h : Selects all list) (hall : NoEmptyName all) : NoEmptyName list :=
  fun he => hall (h.2 he)

variable (hall : NoEmptyName all)

include hall

lemma foldl_catStep_selects (hne : a ≠ []) (ha : Selects all a)
    {items : List Bytes} (h : items ⊆ names all) : Selects all (items.foldl catStep a) := by
  induction items generalizing a with
  | nil => exact ha
  | cons p items ih =>
    obtain ⟨hp,hrest⟩ := cons_subset.mp h
    have hcomma := not_mem_of_mem_names hp
    rw [foldl_cons,catStep]
    split
    · exact ih hne ha hrest
    · next hm =>
      have hnew : p ∉ names a := not_mem_names_of_matchList (ha.noEmptyName hall)
        (fun he => hall (he ▸ hp)) hcomma (by simpa using hm)
      refine ih (by simp) ⟨?_,?_⟩ hrest
      · rw [names_append_comma hne hcomma]
        exact nodup_append.mpr ⟨ha.1,nodup_singleton p,fun x hx y hy he =>
          hnew (mem_singleton.mp hy ▸ he ▸ hx)⟩
      · rw [names_append_comma hne hcomma]
        exact append_subset.mpr ⟨ha.2,cons_subset.mpr ⟨hp,nil_subset _⟩⟩

lemma kexNamesCat_selects (ha : Selects all a) (hb : Selects all b)
    (h : kexNamesCat a b = some ret) : Selects all ret := by
  unfold kexNamesCat at h
  split at h
  · exact Option.some.inj h ▸ hb
  split at h
  · exact Option.some.inj h ▸ ha
  split at h
  · cases h
  next hne hb' _ =>
  rw [← Option.some.inj h]
  refine foldl_catStep_selects hall hne ha fun p hp => hb.2 ?_
  rw [names,if_neg hb']
  exact (takeWhile_sublist _).subset hp

lemma matchFilterWhitelist_selects (hnodup : (names all).Nodup)
    (cp : Bytes) : Selects all (matchFilterWhitelist all cp) := by
  rw [Selects,matchFilterWhitelist,names_filterList hall]
  exact ⟨hnodup.filter _,filter_subset_self _⟩

lemma applyPatterns_selects (hnodup : (names all).Nodup)
    {items : List Bytes} (h : applyPatterns all ret items = .ok list) (hret : Selects all ret) :
    Selects all list := by
  induction items generalizing ret with
  | nil => exact Except.ok.inj h ▸ hret
  | cons cp items ih =>
    rw [applyPatterns] at h
    split at h
    · cases h
    split at h
    · cases h
    · next hcat =>
      exact ih h (kexNamesCat_selects hall hret (matchFilterWhitelist_selects hall hnodup cp) hcat)

lemma filterByAll_usable (hnodup : (names all).Nodup)
    {patterns : Option Bytes} (h : filterByAll all patterns = .ok list) : Usable all list := by
  obtain ⟨patterns,-,h⟩ := bind_eq_ok.mp h
  obtain ⟨ret,hret,h⟩ := bind_eq_ok.mp h
  obtain ⟨hne,h⟩ := ite_error_eq_ok.mp h
  cases h
  exact ⟨hne,applyPatterns_selects hall hnodup hret ⟨nodup_nil,nil_subset _⟩⟩

omit hall

lemma usable_iff (h : names list ⊆ names all) :
    Usable all list ↔ names list ≠ [] ∧ (names list).Nodup := by
  have hne : list = [] ↔ names list = [] :=
    ⟨fun he => by rw [he]; rfl,fun he => by rw [← joinCommas_names list,he]; rfl⟩
  rw [Usable,Ne,hne]
  exact ⟨fun hu => ⟨hu.1,hu.2.1⟩,fun hl => ⟨hl.1,hl.2,h⟩⟩

/-- A configured list is usable unless the patterns are not applied to it and what is returned of
the default list is not. -/
theorem kexAssembleNames_usable_iff (hall : NoEmptyName all) (hnodup : (names all).Nodup)
    (hdflt : names dflt ⊆ names all) (h : kexAssembleNames listp dflt all = .ok list) :
    Usable all list ↔ ∀ left, fromDefault dflt listp = some left → left ≠ [] ∧ left.Nodup := by
  cases listp with
  | nil =>
    cases h
    rw [usable_iff hdflt]
    exact ⟨fun hl left he => Option.some.inj he ▸ hl,fun hl => hl _ rfl⟩
  | cons c patterns =>
    rw [kexAssembleNames] at h
    by_cases hminus : c = 45
    · subst hminus
      cases h
      have hnames : names (matchFilterBlacklist dflt patterns) = (names dflt).filter fun name =>
          matchPatternList name patterns false ≠ 1 := by
        rw [matchFilterBlacklist,names_filterList fun he => hall (hdflt he)]
        congr 1
        funext name
        simp [keeps]
      rw [usable_iff,hnames,fromDefault]
      · exact ⟨fun hl left he => Option.some.inj he ▸ hl,fun hl => hl _ rfl⟩
      · rw [hnames]
        exact fun name hm => hdflt (mem_of_mem_filter hm)
    · have hnone : fromDefault dflt (c :: patterns) = none := if_neg hminus
      rw [hnone]
      refine iff_of_true ?_ nofun
      split at h
      · exact filterByAll_usable hall hnodup h
      split at h
      · exact filterByAll_usable hall hnodup h
      · exact filterByAll_usable hall hnodup h

/-- Appending patterns to the default list. -/
theorem kexAssembleNames_usable_plus : Usable (cstr "ab,b,ac") (cstr "b,ab,ac") := by
  have h : kexAssembleNames (cstr "+a*,b") (cstr "b") (cstr "ab,b,ac") = .ok (cstr "b,ab,ac") := by
    decide +kernel
  exact (kexAssembleNames_usable_iff (by decide +kernel) (by decide +kernel)
    (by decide +kernel) h).mpr nofun

theorem kexAssembleNames_removes_all :
    kexAssembleNames (cstr "-*") (cstr "a,b") (cstr "a,b") = .ok [] ∧
      ¬ Usable (cstr "a,b") [] := by
  decide +kernel

end PkixSsh.Kex
