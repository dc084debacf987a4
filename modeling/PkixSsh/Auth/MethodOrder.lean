import PkixSsh.Auth.Session
import PkixSsh.Lib.Subsequence

/-!
# The order of authentication methods

A list of `AuthenticationMethods` is complete when its items are a subsequence of the successful
methods.
-/

namespace PkixSsh.Auth

open Subsequence List

structure MethodItem where
  method : Bytes
  submethod : Option Bytes

def MethodItem.ofText (text : Bytes) : MethodItem where
  method := text.takeWhile (· ≠ colon)
  submethod :=
    match text.dropWhile (· ≠ colon) with
    | [] => none
    | _ :: sub => some sub

/-- The items of a list. Nothing is left of a complete list. -/
def methodItems (methods : Bytes) : List MethodItem :=
  if methods = [] then [] else (splitCommas methods).map MethodItem.ofText

/-- A method that succeeded, with its submethod. A name of a submethod is an item's, so there
is no comma in it. -/
structure AuthEvent where
  method : Authmethod
  submethod : Option {s : Bytes // comma ∉ s}

def AuthEvent.sub (e : AuthEvent) : Option Bytes := e.submethod.map Subtype.val

/-- An item without a submethod leaves the submethod open. -/
def MethodItem.Matches (i : MethodItem) (e : AuthEvent) : Prop :=
  i.method = e.method.name ∧ (i.submethod = none ∨ i.submethod = e.sub)

instance (i : MethodItem) (e : AuthEvent) : Decidable (i.Matches e) :=
  inferInstanceAs (Decidable (_ ∧ _))

/-- The first item of a list, and the list behind it. -/
inductive FirstItem : Bytes → Bytes → Bytes → Prop
  | last {text} : comma ∉ text → FirstItem text text []
  | more {text l} : comma ∉ text → FirstItem (text ++ comma :: l) text (comma :: l)

lemma exists_firstItem (methods : Bytes) : ∃ text rest, FirstItem methods text rest := by
  by_cases h : comma ∈ methods
  · obtain ⟨text,l,rfl,hno⟩ := eq_append_cons_of_mem h
    exact ⟨text,_,.more hno⟩
  · exact ⟨methods,[],.last h⟩

lemma Authmethod.name_plain (m : Authmethod) : comma ∉ m.name ∧ colon ∉ m.name := by
  cases m <;> decide

variable {methods n rest text : Bytes}

lemma prefix_of_prefix_append {m tail : Bytes} (h : m <+: n ++ tail)
    (hstop : ∀ c ∈ tail.head?, c ∉ m) : m <+: n := by
  rcases List.prefix_or_prefix_of_prefix h (prefix_append n tail) with hm | ⟨d,rfl⟩
  · exact hm
  · obtain ⟨x,hx⟩ := h
    rw [append_assoc,append_cancel_left_eq] at hx
    cases d with
    | nil => exact ⟨[],by simp⟩
    | cons c d =>
      subst hx
      exact absurd (by simp) (hstop c rfl)

variable (h : FirstItem methods text rest)

include h

lemma FirstItem.eq : methods = text ++ rest := by
  cases h with
  | last _ => rw [append_nil]
  | more _ => rfl

lemma FirstItem.not_mem : comma ∉ text := by
  cases h with
  | last hno => exact hno
  | more hno => exact hno

lemma FirstItem.head {c : UInt8} (hc : c ∈ rest.head?) :
    c = comma := by
  cases h with
  | last _ => cases hc
  | more _ =>
    cases hc
    rfl

lemma atItemEnd_rest (found : MatchResult) :
    atItemEnd rest found = found := by
  cases h with
  | last _ => rfl
  | more _ => rfl

omit h

lemma atItemEnd_append {d : Bytes} (hd : d ≠ []) (hno : comma ∉ d) (found : MatchResult) :
    atItemEnd (d ++ rest) found = .matchNone := by
  cases d with
  | nil => exact absurd rfl hd
  | cons c d =>
    rw [mem_cons,not_or] at hno
    exact if_neg (Ne.symm hno.1)

lemma ofText_plain (h : colon ∉ n) : MethodItem.ofText n = ⟨n,none⟩ := by
  have hall : ∀ c ∈ n, (decide (c ≠ colon)) = true := by
    intro c hc
    exact decide_eq_true fun he => h (he ▸ hc)
  rw [MethodItem.ofText,takeWhile_eq_self_iff.mpr hall,dropWhile_eq_nil_iff.mpr hall]

lemma ofText_sub (h : colon ∉ n) (sub : Bytes) :
    MethodItem.ofText (n ++ colon :: sub) = ⟨n,some sub⟩ := by
  have hall : ∀ c ∈ n, (decide (c ≠ colon)) = true := by
    intro c hc
    exact decide_eq_true fun he => h (he ▸ hc)
  rw [MethodItem.ofText,takeWhile_append_of_pos hall,dropWhile_append_of_pos hall]
  simp

section

variable {m n w : Bytes} {sub : Option Bytes}

lemma listStartsWith_other (hm : comma ∉ m ∧ colon ∉ m) (hn : comma ∉ n ∧ colon ∉ n)
    (hw : ∀ c ∈ w.head?, c = comma ∨ c = colon) (hne : n ≠ m) :
    listStartsWith (n ++ w) m sub = .matchNone := by
  rw [listStartsWith]
  by_cases hp : m.isPrefixOf (n ++ w)
  · have hpre : m <+: n := by
      refine prefix_of_prefix_append (List.isPrefixOf_iff_prefix.mp hp) fun c hc => ?_
      rcases hw c hc with rfl | rfl
      · exact hm.1
      · exact hm.2
    obtain ⟨d,rfl⟩ := hpre
    cases d with
    | nil => exact absurd (append_nil m) hne
    | cons c d =>
      have hc : c ≠ comma ∧ c ≠ colon := by
        constructor
        · rintro rfl
          exact hn.1 (by simp)
        · rintro rfl
          exact hn.2 (by simp)
      simp [atItemEnd,hc.1,hc.2]
  · simp [hp]

lemma listStartsWith_method (hw : w.head? ≠ some colon) :
    listStartsWith (m ++ w) m sub = atItemEnd w .matchMethod := by
  simp [listStartsWith,hw]

lemma listStartsWith_noSubmethod (m v : Bytes) :
    listStartsWith (m ++ colon :: v) m none = .matchPartial := by
  simp [listStartsWith]

lemma listStartsWith_submethod (m v u : Bytes) : listStartsWith (m ++ colon :: v) m (some u) =
      if u.isPrefixOf v then atItemEnd (v.drop u.length) .matchBoth else .matchNone := by
  cases hu : u.isPrefixOf v <;> simp [listStartsWith,hu]

lemma removeMethod_of_none {methods : Bytes} (h : listStartsWith methods m sub = .matchNone) :
    removeMethod methods m sub = none := by
  simp [removeMethod,h]

end

section

variable {m n s methods rest : Bytes} {sub : Option Bytes}

lemma FirstItem.skip_comma (h : FirstItem methods n rest) :
    (if rest.head? = some comma then rest.tail else rest) = rest.tail := by
  cases h with
  | last _ => rfl
  | more _ => rfl

lemma removeMethod_plain (hm : comma ∉ m ∧ colon ∉ m) (hn : colon ∉ n)
    (h : FirstItem methods n rest) :
    removeMethod methods m sub = if n = m then some rest.tail else none := by
  rw [h.eq]
  by_cases he : n = m
  · subst he
    have hhead : rest.head? ≠ some colon := by
      intro hc
      have hcomma := h.head hc
      cases hcomma
    have hfound : listStartsWith (n ++ rest) n sub = .matchMethod := by
      rw [listStartsWith_method hhead,atItemEnd_rest h]
    cases sub <;> simp [removeMethod,hfound,h.skip_comma]
  · rw [if_neg he]
    exact removeMethod_of_none
      (listStartsWith_other hm ⟨h.not_mem,hn⟩ (fun c hc => .inl (h.head hc)) he)

lemma removeMethod_sub (hm : comma ∉ m ∧ colon ∉ m) (hsub : ∀ s ∈ sub, comma ∉ s)
    (hn : colon ∉ n) (h : FirstItem methods (n ++ colon :: s) rest) :
    removeMethod methods m sub = if n = m ∧ some s = sub then some rest.tail else none := by
  have hno := h.not_mem
  rw [mem_append,not_or,mem_cons,not_or] at hno
  rw [h.eq,append_assoc,cons_append]
  by_cases he : n = m
  · subst he
    cases sub with
    | none => simp [removeMethod,listStartsWith_noSubmethod]
    | some u =>
      by_cases hp : u.isPrefixOf (s ++ rest)
      · have hpre : u <+: s :=
          prefix_of_prefix_append (List.isPrefixOf_iff_prefix.mp hp)
            fun c hc => (h.head hc) ▸ hsub u rfl
        obtain ⟨d,rfl⟩ := hpre
        have hdrop : (u ++ d ++ rest).drop u.length = d ++ rest := by
          rw [append_assoc,drop_left]
        by_cases hd : d = []
        · subst hd
          have hfound : listStartsWith (n ++ colon :: (u ++ [] ++ rest)) n (some u) =
              .matchBoth := by
            rw [listStartsWith_submethod,if_pos hp,hdrop,nil_append,atItemEnd_rest h]
          rw [append_nil] at hfound ⊢
          simp [removeMethod,hfound,h.skip_comma,Nat.add_comm 1]
        · have hfound : listStartsWith (n ++ colon :: (u ++ d ++ rest)) n (some u) =
              .matchNone := by
            rw [listStartsWith_submethod,if_pos hp,hdrop]
            exact atItemEnd_append hd (fun hc => hno.2.2 (mem_append_right u hc)) _
          rw [removeMethod_of_none hfound]
          simp [hd]
      · have hne : s ≠ u := by
          rintro rfl
          exact hp (List.isPrefixOf_iff_prefix.mpr (prefix_append s rest))
        have hfound : listStartsWith (n ++ colon :: (s ++ rest)) n (some u) = .matchNone := by
          rw [listStartsWith_submethod,if_neg hp]
        rw [removeMethod_of_none hfound]
        simp [hne]
  · rw [if_neg fun hb => he hb.1]
    refine removeMethod_of_none (listStartsWith_other hm ⟨hno.1,hn⟩ (fun c hc => ?_) he)
    cases hc
    exact .inr rfl

end

lemma removeMethod_eq (h : FirstItem methods text rest) (e : AuthEvent) :
    removeMethod methods e.method.name e.sub =
      if (MethodItem.ofText text).Matches e then some rest.tail else none := by
  by_cases hc : colon ∈ text
  · obtain ⟨n,s,rfl,hn⟩ := eq_append_cons_of_mem hc
    have hsub : ∀ s ∈ e.sub, comma ∉ s := by
      intro s hs
      obtain ⟨s',-,rfl⟩ := Option.mem_map.mp hs
      exact s'.2
    rw [removeMethod_sub e.method.name_plain hsub hn h,ofText_sub hn]
    exact if_congr (by simp [MethodItem.Matches]) rfl rfl
  · rw [removeMethod_plain e.method.name_plain hc h,ofText_plain hc]
    exact if_congr (by simp [MethodItem.Matches]) rfl rfl

def Proper (methods : Bytes) : Prop := methods = [] ∨ ∀ item ∈ splitCommas methods, item ≠ []

lemma methodItems_eq_nil : methodItems methods = [] ↔ methods = [] := by
  constructor
  · intro h
    by_contra hne
    rw [methodItems,if_neg hne] at h
    obtain ⟨text,rest,hf⟩ := exists_firstItem _
    cases hf with
    | last hno =>
      rw [splitCommas_of_not_mem hno] at h
      cases h
    | more hno =>
      rw [splitCommas_append hno] at h
      cases h
  · intro h
    rw [methodItems,if_pos h]

lemma Proper.first (h : Proper methods) (hne : methods ≠ []) (hf : FirstItem methods text rest) :
    Proper rest.tail ∧ methodItems methods = .ofText text :: methodItems rest.tail := by
  have hall := h.resolve_left hne
  rw [methodItems,if_neg hne]
  cases hf with
  | last hno =>
    rw [splitCommas_of_not_mem hno]
    exact ⟨.inl rfl,rfl⟩
  | @more _ l hno =>
    rw [splitCommas_append hno] at hall ⊢
    have hl : l ≠ [] := by
      rintro rfl
      exact hall [] (by simp [splitCommas]) rfl
    refine ⟨.inr fun item hitem => hall item (mem_cons_of_mem _ hitem),?_⟩
    rw [tail_cons,methodItems,if_neg hl,map_cons]

lemma auth2MethodsValid_proper {enabled : Authmethod → Bool}
    (h : auth2MethodsValid enabled methods = true) : methods ≠ [] ∧ Proper methods := by
  rw [auth2MethodsValid,Bool.and_eq_true,decide_eq_true_eq,List.all_eq_true] at h
  refine ⟨h.1,.inr fun item hitem => ?_⟩
  rintro rfl
  have hitem' := h.2 [] hitem
  cases hitem'

lemma removeMethod_items (h : Proper methods) (e : AuthEvent) :
    (removeMethod methods e.method.name e.sub = none ∧
        ¬ ∃ i ∈ (methodItems methods).head?, i.Matches e) ∨
      ∃ methods', removeMethod methods e.method.name e.sub = some methods' ∧ Proper methods' ∧
        (∃ i ∈ (methodItems methods).head?, i.Matches e) ∧
        methodItems methods' = consume MethodItem.Matches (methodItems methods) e := by
  obtain ⟨text,rest,hf⟩ := exists_firstItem _
  rw [removeMethod_eq hf]
  by_cases hne : methods = []
  · subst hne
    have hnil : text = [] := by
      have := hf.eq
      simp at this
      exact this.1
    subst hnil
    left
    have hno : ¬ (MethodItem.ofText []).Matches e := by
      rintro ⟨hname,-⟩
      revert hname
      cases e.method <;> decide
    refine ⟨if_neg hno,?_⟩
    simp [methodItems]
  · obtain ⟨hrest,hitems⟩ := h.first hne hf
    rw [hitems]
    by_cases hm : (MethodItem.ofText text).Matches e
    · right
      refine ⟨rest.tail,if_pos hm,hrest,⟨_,rfl,hm⟩,?_⟩
      rw [consume,if_pos hm]
    · left
      refine ⟨if_neg hm,?_⟩
      rintro ⟨i,hi,hmatch⟩
      cases hi
      exact hm hmatch

def OpenLists (methods : List Bytes) : Prop := ∀ l ∈ methods, l ≠ [] ∧ Proper l

def StartsSome (methods : List Bytes) (e : AuthEvent) : Prop :=
  ∃ l ∈ methods, ∃ i ∈ (methodItems l).head?, i.Matches e

/-- What the loop does when no list gets complete. -/
structure Consumed (e : AuthEvent) (methods methods' : List Bytes) : Prop where
  lists : List.Forall₂ (fun l l' => methodItems l' = consume MethodItem.Matches (methodItems l) e)
    methods methods'
  still : OpenLists methods'

lemma updateMethodsLoop_spec {e : AuthEvent} {methods : List Bytes} (h : OpenLists methods)
    {methods' : List Bytes} {found complete : Bool}
    (hu : updateMethodsLoop e.method.name e.sub methods = (methods',found,complete)) :
    (found = true ↔ StartsSome methods e) ∧ (complete = true ↔
        ∃ l ∈ methods, consume MethodItem.Matches (methodItems l) e = []) ∧
      (complete = false → Consumed e methods methods') := by
  induction methods generalizing methods' found complete with
  | nil =>
    cases hu
    refine ⟨by simp [StartsSome],by simp,fun _ => ⟨.nil,nofun⟩⟩
  | cons l ls ih =>
    obtain ⟨hl,hproper⟩ := h l mem_cons_self
    have hls : OpenLists ls := fun l' hl' => h l' (mem_cons_of_mem _ hl')
    rcases hrest : updateMethodsLoop _ e.sub ls with ⟨ls',found',complete'⟩
    obtain ⟨hfound,hcomplete,hconsumed⟩ := ih hls hrest
    have hstarts : StartsSome (l :: ls) e ↔
        (∃ i ∈ (methodItems l).head?, i.Matches e) ∨ StartsSome ls e := by
      simp [StartsSome]
    rcases removeMethod_items hproper e with ⟨hnone,hno⟩ | ⟨l',hsome,hproper',hhead,hitems⟩
    · rw [updateMethodsLoop,hnone,hrest] at hu
      cases hu
      have hkeep : consume MethodItem.Matches (methodItems l) e = methodItems l := by
        cases hi : methodItems l with
        | nil => rfl
        | cons i is =>
          rw [hi] at hno
          have him : ¬ i.Matches e := fun hm => hno ⟨i,rfl,hm⟩
          rw [consume,if_neg him]
      refine ⟨?_,?_,fun hc => ?_⟩
      · rw [hstarts,hfound,or_iff_right hno]
      · rw [hcomplete]
        simp [hkeep,methodItems_eq_nil,hl]
      · obtain ⟨hlists,hstill⟩ := hconsumed hc
        refine ⟨.cons hkeep.symm hlists,fun x hx => ?_⟩
        rcases mem_cons.mp hx with rfl | hx
        · exact ⟨hl,hproper⟩
        · exact hstill x hx
    · cases l' with
      | nil =>
        rw [updateMethodsLoop,hsome] at hu
        cases hu
        refine ⟨iff_of_true rfl (hstarts.mpr (.inl hhead)),?_,by rintro ⟨⟩⟩
        exact iff_of_true rfl ⟨l,mem_cons_self,hitems.symm⟩
      | cons c cs =>
        rw [updateMethodsLoop,hsome,hrest] at hu
        cases hu
        have hopen : consume MethodItem.Matches (methodItems l) e ≠ [] := by
          rw [← hitems,Ne,methodItems_eq_nil]
          exact cons_ne_nil c cs
        refine ⟨iff_of_true rfl (hstarts.mpr (.inl hhead)),?_,fun hc => ?_⟩
        · rw [hcomplete]
          simp [hopen]
        · obtain ⟨hlists,hstill⟩ := hconsumed hc
          refine ⟨.cons hitems hlists,fun x hx => ?_⟩
          rcases mem_cons.mp hx with rfl | hx
          · exact ⟨cons_ne_nil c cs,hproper'⟩
          · exact hstill x hx

/-- The events up to the first one for which `auth2_update_methods_lists` returns 1. -/
def firstComplete (methods : List Bytes) : List AuthEvent → Option Nat
  | [] => none
  | e :: es =>
    match auth2UpdateMethodsLists methods e.method.name e.sub with
    | none => none
    | some (_,true) => some 1
    | some (methods',false) => (firstComplete methods' es).map (· + 1)

/-- Every event matches the head of a list that remains, until a list is complete. -/
def EachStarts (methods : List Bytes) : List AuthEvent → Prop
  | [] => True
  | e :: es => StartsSome methods e ∧ ∀ methods',
      auth2UpdateMethodsLists methods e.method.name e.sub = some (methods',false) →
        EachStarts methods' es

def SomeSatisfied (methods : List Bytes) (es : List AuthEvent) : Prop :=
  ∃ l ∈ methods, Embeds MethodItem.Matches (methodItems l) es

/-- The first events that satisfy a list are the first `n`. -/
structure FirstSatisfied (methods : List Bytes) (es : List AuthEvent) (n : Nat) : Prop where
  le : n ≤ es.length
  satisfied : SomeSatisfied methods (es.take n)
  first : ∀ k < n, ¬ SomeSatisfied methods (es.take k)

section

variable {methods methods' : List Bytes} {e : AuthEvent} {es : List AuthEvent} {n : Nat}

lemma OpenLists.not_satisfied_nil (h : OpenLists methods) : ¬ SomeSatisfied methods [] := by
  rintro ⟨l,hl,hemb⟩
  have hnil : methodItems l = [] := (foldl_consume_eq_nil []).mpr hemb
  exact (h l hl).1 (methodItems_eq_nil.mp hnil)

lemma Consumed.satisfied_iff (h : Consumed e methods methods') (es : List AuthEvent) :
    SomeSatisfied methods (e :: es) ↔ SomeSatisfied methods' es := by
  have hlists := h.lists
  clear h
  induction hlists with
  | nil => simp [SomeSatisfied]
  | @cons l l' ls ls' hl _ ih =>
    have hcons : ∀ (l : Bytes) ls es, SomeSatisfied (l :: ls) es ↔
        Embeds MethodItem.Matches (methodItems l) es ∨ SomeSatisfied ls es := by
      simp [SomeSatisfied]
    rw [hcons,hcons,hl,embeds_consume]
    exact or_congr_right ih

lemma auth2UpdateMethodsLists_spec (h : OpenLists methods) (he : StartsSome methods e) :
    ∃ methods', (auth2UpdateMethodsLists methods e.method.name e.sub = some (methods',true) ∧
        SomeSatisfied methods [e]) ∨
      (auth2UpdateMethodsLists methods e.method.name e.sub = some (methods',false) ∧
        ¬ SomeSatisfied methods [e] ∧ Consumed e methods methods') := by
  rcases hu : updateMethodsLoop _ e.sub _ with ⟨methods',found,complete⟩
  obtain ⟨hfound,hcomplete,hconsumed⟩ := updateMethodsLoop_spec h hu
  have hsat : complete = true ↔ SomeSatisfied methods [e] := by
    rw [hcomplete]
    apply exists_congr
    intro l
    apply and_congr_right
    intro _
    exact foldl_consume_eq_nil [e]
  refine ⟨methods',?_⟩
  cases complete with
  | true => exact .inl ⟨by rw [auth2UpdateMethodsLists,hu]; rfl,hsat.mp rfl⟩
  | false =>
    refine .inr ⟨?_,fun hs => (by cases hsat.mpr hs),hconsumed rfl⟩
    rw [auth2UpdateMethodsLists,hu,hfound.mpr he]
    rfl

lemma FirstSatisfied.one (h : OpenLists methods) (he : SomeSatisfied methods [e]) :
    FirstSatisfied methods (e :: es) n ↔ 1 = n := by
  constructor
  · intro hn
    rcases Nat.lt_trichotomy n 1 with hlt | heq | hgt
    · obtain rfl : n = 0 := by omega
      exact absurd hn.satisfied h.not_satisfied_nil
    · exact heq.symm
    · exact absurd he (hn.first 1 hgt)
  · rintro rfl
    refine ⟨by simp,he,fun k hk => ?_⟩
    obtain rfl : k = 0 := by omega
    exact h.not_satisfied_nil

lemma FirstSatisfied.next (h : OpenLists methods) (hc : Consumed e methods methods') :
    FirstSatisfied methods (e :: es) n ↔ ∃ k, FirstSatisfied methods' es k ∧ k + 1 = n := by
  constructor
  · intro hn
    cases n with
    | zero => exact absurd hn.satisfied h.not_satisfied_nil
    | succ k =>
      refine ⟨k,⟨by simpa using hn.le,(hc.satisfied_iff _).mp hn.satisfied,fun j hj hs => ?_⟩,rfl⟩
      exact hn.first (j + 1) (by omega) ((hc.satisfied_iff _).mpr hs)
  · rintro ⟨k,hk,rfl⟩
    refine ⟨by simpa using hk.le,(hc.satisfied_iff _).mpr hk.satisfied,fun j hj hs => ?_⟩
    cases j with
    | zero => exact h.not_satisfied_nil hs
    | succ j => exact hk.first j (by omega) ((hc.satisfied_iff _).mp hs)

lemma firstComplete_iff (h : OpenLists methods) (hes : EachStarts methods es) (n : Nat) :
    firstComplete methods es = some n ↔ FirstSatisfied methods es n := by
  induction es generalizing methods n with
  | nil =>
    refine iff_of_false (by simp [firstComplete]) fun hn => ?_
    have hsat := hn.satisfied
    rw [take_nil] at hsat
    exact h.not_satisfied_nil hsat
  | cons e es ih =>
    obtain ⟨methods',⟨hu,hs⟩ | ⟨hu,-,hc⟩⟩ := auth2UpdateMethodsLists_spec h hes.1
    · rw [firstComplete,hu,FirstSatisfied.one h hs]
      simp
    · rw [firstComplete,hu,FirstSatisfied.next h hc]
      simp only [Option.map_eq_some_iff]
      apply exists_congr
      intro k
      rw [ih hc.still (hes.2 _ hu) k]

end

/-- With the lists of a configuration, authentication is complete at the first event after which
some list is a subsequence of the events. -/
theorem auth2UpdateMethodsLists_first {O : Type} {options : ServerOptions} {s s' : Authctxt O}
    (h : auth2SetupMethodsLists options s = some s') (hne : s'.configured ≠ [])
    {es : List AuthEvent} (hes : EachStarts s'.authMethods es) (n : Nat) :
    firstComplete s'.authMethods es = some n ↔ FirstSatisfied s'.authMethods es n := by
  refine firstComplete_iff ?_ hes n
  rw [auth2SetupMethodsLists] at h
  dsimp only at h
  split at h
  · rename_i hnil
    cases h
    exact absurd hnil hne
  · split at h
    · cases h
    · cases h
      intro l hl
      exact auth2MethodsValid_proper (mem_filter.mp hl).2

def exampleMethodOptions : ServerOptions where
  authMethods := [cstr "publickey,password",cstr "hostbased,keyboard-interactive:pam"]
  maxAuthtries := 6
  pubkeyAuthentication := true
  passwordAuthentication := true
  kbdInteractiveAuthentication := true
  challengeResponseAuthentication := true
  hostbasedAuthentication := true
  permitEmptyPasswd := false
  permitRootLogin := .yes
  sessionId2 := []

def exampleEvents : List AuthEvent :=
  [⟨.hostbased,none⟩,⟨.publickey,none⟩,⟨.keyboardInteractive,some ⟨cstr "pam",by decide⟩⟩]

lemma exampleEvents_start :
    EachStarts [cstr "publickey,password",cstr "hostbased,keyboard-interactive:pam"]
      exampleEvents := by
  have h1 : auth2UpdateMethodsLists
      [cstr "publickey,password",cstr "hostbased,keyboard-interactive:pam"]
      (cstr "hostbased") none =
        some ([cstr "publickey,password",cstr "keyboard-interactive:pam"],false) := by
    decide +kernel
  have h2 : auth2UpdateMethodsLists [cstr "publickey,password",cstr "keyboard-interactive:pam"]
      (cstr "publickey") none =
        some ([cstr "password",cstr "keyboard-interactive:pam"],false) := by
    decide +kernel
  have h3 : auth2UpdateMethodsLists [cstr "password",cstr "keyboard-interactive:pam"]
      (cstr "keyboard-interactive") (some (cstr "pam")) = some ([cstr "password",[]],true) := by
    decide +kernel
  refine ⟨by unfold StartsSome; decide +kernel,fun methods h => ?_⟩
  cases h1.symm.trans h
  refine ⟨by unfold StartsSome; decide +kernel,fun methods h => ?_⟩
  cases h2.symm.trans h
  refine ⟨by unfold StartsSome; decide +kernel,fun methods h => ?_⟩
  cases h3.symm.trans h

theorem auth2UpdateMethodsLists_first_pam :
    ∃ s', auth2SetupMethodsLists exampleMethodOptions (initial exampleMethodOptions ()) = some s' ∧
      firstComplete s'.authMethods exampleEvents = some 3 ∧
      FirstSatisfied s'.authMethods exampleEvents 3 := by
  have hsetup : (auth2SetupMethodsLists exampleMethodOptions
      (initial exampleMethodOptions ())).map (fun s => (s.configured,s.authMethods)) =
      some (exampleMethodOptions.authMethods,exampleMethodOptions.authMethods) := by
    decide +kernel
  obtain ⟨s',hs',hmethods⟩ := Option.map_eq_some_iff.mp hsetup
  rw [Prod.mk.injEq] at hmethods
  have hrun : firstComplete s'.authMethods exampleEvents = some 3 := by
    rw [hmethods.2]
    decide +kernel
  refine ⟨s',hs',hrun,(auth2UpdateMethodsLists_first hs' ?_ ?_ 3).mp hrun⟩
  · rw [hmethods.1]
    exact cons_ne_nil _ _
  · rw [hmethods.2]
    exact exampleEvents_start

end PkixSsh.Auth
