import Mathlib.Computability.Language
import PkixSsh.Match

/-!
# The language of a pattern

A pattern stands for a language, which the matcher accepts but for one case: two or more asterisks
at the end do not stand for the empty sequence.
-/

namespace PkixSsh.Match

open List

/-- One character of a pattern stands for a sequence of characters. -/
def StandsFor (c : UInt8) (w : Bytes) : Prop :=
  if c = asterisk then True else if c = questionMark then w.length = 1 else w = [c]

def symbolLanguage (c : UInt8) : Language UInt8 := {w | StandsFor c w}

def language (p : Bytes) : Language UInt8 := (p.map symbolLanguage).prod

lemma language_cons (c : UInt8) (p : Bytes) :
    language (c :: p) = symbolLanguage c * language p := by
  rw [language,map_cons,prod_cons,language]

lemma language_append (p q : Bytes) : language (p ++ q) = language p * language q := by
  rw [language,map_append,prod_append,language,language]

variable {p q s : Bytes} {c : UInt8}

lemma mem_language_nil : s ∈ language [] ↔ s = [] := Language.mem_one s

lemma mem_language_asterisk : s ∈ language (asterisk :: p) ↔ ∃ t, t <:+ s ∧ t ∈ language p := by
  constructor
  · rintro ⟨u,-,t,ht,rfl⟩
    exact ⟨t,suffix_append u t,ht⟩
  · rintro ⟨t,⟨u,rfl⟩,ht⟩
    exact ⟨u,(show StandsFor asterisk u by simp [StandsFor]),t,ht,rfl⟩

lemma mem_symbolLanguage {w : Bytes} (hc : c ≠ asterisk) :
    w ∈ symbolLanguage c ↔ ∃ d, w = [d] ∧ (c = questionMark ∨ c = d) := by
  show StandsFor c w ↔ _
  rw [StandsFor,if_neg hc]
  by_cases hq : c = questionMark
  · simp [hq,length_eq_one_iff]
  · simp [hq]

lemma mem_language_character (hc : c ≠ asterisk) :
    s ∈ language (c :: p) ↔ ∃ d t, s = d :: t ∧ (c = questionMark ∨ c = d) ∧ t ∈ language p := by
  constructor
  · rintro ⟨u,hu,t,ht,rfl⟩
    obtain ⟨d,rfl,hd⟩ := (mem_symbolLanguage hc).mp hu
    exact ⟨d,t,rfl,hd,ht⟩
  · rintro ⟨d,t,rfl,hd,ht⟩
    exact ⟨[d],(mem_symbolLanguage hc).mpr ⟨d,rfl,hd⟩,t,ht,rfl⟩

lemma nil_mem_language : [] ∈ language p ↔ ∀ c ∈ p, c = asterisk := by
  induction p with
  | nil => simp [mem_language_nil]
  | cons c p ih =>
    by_cases hc : c = asterisk
    · subst hc
      simp [mem_language_asterisk,ih]
    · simp [mem_language_character hc,hc]

lemma anyPosition_iff {f : Bytes → Bool} :
    anyPosition f s = true ↔ ∃ t, t ≠ [] ∧ t <:+ s ∧ f t = true := by
  induction s with
  | nil =>
    refine ⟨nofun,?_⟩
    rintro ⟨t,ht,hs,-⟩
    exact absurd (suffix_nil.mp hs) ht
  | cons c s ih =>
    rw [anyPosition,Bool.or_eq_true,ih]
    constructor
    · rintro (h | ⟨t,ht,hs,hf⟩)
      · exact ⟨c :: s,cons_ne_nil c s,suffix_refl _,h⟩
      · exact ⟨t,ht,hs.trans (suffix_cons c s),hf⟩
    · rintro ⟨t,ht,hs,hf⟩
      rcases suffix_cons_iff.mp hs with rfl | hs
      · exact .inl hf
      · exact .inr ⟨t,ht,hs,hf⟩

/-- The pattern that the matcher follows: two or more asterisks at the end ask for a
character. -/
def strict : Bytes → Bytes
  | [] => []
  | c :: p =>
    if p ≠ [] ∧ (c :: p).all (· = asterisk) then [questionMark,asterisk] else c :: strict p

lemma mem_language_question_asterisk : s ∈ language [questionMark,asterisk] ↔ s ≠ [] := by
  rw [mem_language_character (by decide)]
  constructor
  · rintro ⟨d,t,rfl,-,-⟩
    exact cons_ne_nil d t
  · intro hs
    obtain ⟨d,t,rfl⟩ := exists_cons_of_ne_nil hs
    refine ⟨d,t,rfl,.inl rfl,mem_language_asterisk.mpr ⟨[],nil_suffix,?_⟩⟩
    exact mem_language_nil.mpr rfl

lemma strict_of_asterisks (hp : 2 ≤ p.length) (h : ∀ c ∈ p, c = asterisk) :
    strict p = [questionMark,asterisk] := by
  match p with
  | [] => simp at hp
  | [c] => simp at hp
  | c :: d :: p =>
    rw [strict,if_pos ⟨cons_ne_nil d p,by simpa using h⟩]

lemma strict_cons (h : ¬ ∀ d ∈ c :: p, d = asterisk) : strict (c :: p) = c :: strict p := by
  rw [strict,if_neg fun hp => h (by simpa using hp.2)]

/-- The empty sequence is accepted only by the empty pattern and by a single asterisk. -/
lemma nil_not_mem_language_strict (h : ¬ ∀ c ∈ p, c = asterisk) : [] ∉ language (strict p) := by
  rw [nil_mem_language]
  intro hall
  induction p with
  | nil => simp at h
  | cons c p ih =>
    rw [strict_cons h] at hall
    refine ih ?_ fun d hd => hall d (mem_cons_of_mem c hd)
    intro hp
    refine h fun d hd => ?_
    rcases mem_cons.mp hd with rfl | hd
    · exact hall d mem_cons_self
    · exact hp d hd

lemma anyPosition_asterisk (h : [] ∉ language p) {f : Bytes → Bool}
    (hf : ∀ t, f t = true ↔ t ∈ language p) :
    anyPosition f s = true ↔ s ∈ language (asterisk :: p) := by
  rw [anyPosition_iff,mem_language_asterisk]
  constructor
  · rintro ⟨t,-,hs,ht⟩
    exact ⟨t,hs,(hf t).mp ht⟩
  · rintro ⟨t,hs,ht⟩
    refine ⟨t,?_,hs,(hf t).mpr ht⟩
    rintro rfl
    exact h ht

lemma matchPattern_character (hc : c ≠ asterisk)
    (ih : ∀ t, matchPattern p t = true ↔ t ∈ language q) :
    matchPattern (c :: p) s = true ↔ s ∈ language (c :: q) := by
  rw [mem_language_character hc,matchPattern.eq_def]
  simp only [if_neg hc]
  match s with
  | [] => simp
  | d :: t =>
    simp only [List.cons.injEq]
    split
    · next h =>
      refine ⟨nofun,?_⟩
      rintro ⟨d',t',⟨rfl,rfl⟩,hd,-⟩
      rcases hd with hd | hd
      · exact absurd hd h.1
      · exact absurd hd h.2
    · next h =>
      rw [ih]
      constructor
      · intro ht
        refine ⟨d,t,⟨rfl,rfl⟩,?_,ht⟩
        by_cases hq : c = questionMark
        · exact .inl hq
        · exact .inr (by_contra fun hd => h ⟨hq,hd⟩)
      · rintro ⟨d',t',⟨rfl,rfl⟩,-,ht⟩
        exact ht

lemma anyPosition_asterisks (h : ∀ t, t ≠ [] → t ∈ language (strict p)) :
    (∃ t, t ≠ [] ∧ t <:+ s ∧ t ∈ language (strict p)) ↔ s ≠ [] := by
  constructor
  · rintro ⟨t,ht,hs,-⟩ rfl
    exact ht (suffix_nil.mp hs)
  · intro hs
    exact ⟨s,hs,suffix_refl s,h s hs⟩

lemma mem_language_strict_asterisks {t : Bytes} (hp : p ≠ []) (h : ∀ c ∈ p, c = asterisk)
    (ht : t ≠ []) : t ∈ language (strict p) := by
  match p with
  | [] => exact absurd rfl hp
  | [c] =>
    cases h c mem_cons_self
    exact mem_language_asterisk.mpr ⟨[],nil_suffix,mem_language_nil.mpr rfl⟩
  | c :: d :: p =>
    rw [strict_of_asterisks (by simp) h]
    exact mem_language_question_asterisk.mpr ht

lemma matchPattern_asterisk {q : UInt8} {rest : Bytes}
    (ih : ∀ t, matchPattern (q :: rest) t = true ↔ t ∈ language (strict (q :: rest)))
    (ih' : ∀ t, matchPattern rest t = true ↔ t ∈ language (strict rest)) :
    matchPattern (asterisk :: q :: rest) s = true ↔
      s ∈ language (strict (asterisk :: q :: rest)) := by
  rw [matchPattern.eq_def]
  simp only [if_true]
  by_cases hall : ∀ c ∈ asterisk :: q :: rest, c = asterisk
  · have hq : q = asterisk := hall q (by simp)
    rw [if_neg fun h => h.2 hq,strict_of_asterisks (by simp) hall,anyPosition_iff]
    simp only [ih]
    rw [mem_language_question_asterisk]
    refine anyPosition_asterisks fun t ht => mem_language_strict_asterisks ?_ ?_ ht
    · exact cons_ne_nil q rest
    · exact fun c hc => hall c (mem_cons_of_mem _ hc)
  · have hrest : ¬ ∀ c ∈ q :: rest, c = asterisk := by
      intro h
      exact hall fun c hc => (mem_cons.mp hc).elim id (h c)
    rw [strict_cons hall]
    have hnil := nil_not_mem_language_strict hrest
    split
    · next hq =>
      refine anyPosition_asterisk hnil fun t => ?_
      rw [strict_cons hrest,mem_language_character hq.2]
      cases t with
      | nil => simp
      | cons d t =>
        simp only [List.head?_cons,Option.some.injEq,Bool.and_eq_true,decide_eq_true_eq,ih',hq.1,
          false_or,List.cons.injEq]
        constructor
        · rintro ⟨rfl,ht⟩
          exact ⟨d,t,⟨rfl,rfl⟩,rfl,ht⟩
        · rintro ⟨d',t',⟨rfl,rfl⟩,rfl,ht⟩
          exact ⟨rfl,ht⟩
    · exact anyPosition_asterisk hnil ih

lemma matchPattern_language (p s : Bytes) :
    matchPattern p s = true ↔ s ∈ language (strict p) := by
  -- the matcher looks one character ahead, and so does the induction on the pattern
  induction hn : p.length using Nat.strong_induction_on generalizing p s with
  | _ n ih =>
  subst hn
  match p with
  | [] => simp [matchPattern,strict,mem_language_nil]
  | c :: p =>
    have ihp := fun t => ih _ (Nat.lt_succ_self _) p t rfl
    by_cases hc : c = asterisk
    · subst hc
      match p with
      | [] => simp [matchPattern,strict,mem_language_asterisk,mem_language_nil]
      | q :: rest =>
        refine matchPattern_asterisk ihp fun t => ih _ ?_ rest t rfl
        simp only [length_cons]
        omega
    · rw [strict_cons fun h => hc (h c mem_cons_self)]
      exact matchPattern_character hc ihp

/-- Two asterisks at the end that would have to stand for the empty sequence. -/
def EmptyEnd (p s : Bytes) : Prop :=
  ∃ q, p = q ++ [asterisk,asterisk] ∧ s ∈ language q ∧ s ∉ language (q ++ [questionMark,asterisk])

lemma strict_of_not_suffix (h : ¬ [asterisk,asterisk] <:+ p) : strict p = p := by
  induction p with
  | nil => rfl
  | cons c p ih =>
    have hp : ¬ [asterisk,asterisk] <:+ p := fun hs => h (hs.trans (suffix_cons c p))
    rw [strict,ih hp,if_neg]
    rintro ⟨hne,hall⟩
    obtain ⟨d,q,rfl⟩ := exists_cons_of_ne_nil hne
    have hrep := eq_replicate_of_mem fun e he => by simpa using List.all_eq_true.mp hall e he
    refine h ⟨List.replicate q.length asterisk,?_⟩
    rw [hrep]
    show _ ++ List.replicate 2 _ = _
    rw [replicate_append_replicate]
    rfl

lemma language_asterisks_question (h : ∀ c ∈ q, c = asterisk) :
    language (q ++ [questionMark,asterisk]) = language [questionMark,asterisk] := by
  induction q with
  | nil => rfl
  | cons c q ih =>
    cases h c mem_cons_self
    have hq := ih fun c hc => h c (mem_cons_of_mem _ hc)
    ext s
    rw [cons_append,mem_language_asterisk,hq]
    simp only [mem_language_question_asterisk]
    constructor
    · rintro ⟨t,hs,ht⟩ rfl
      exact ht (suffix_nil.mp hs)
    · intro hs
      exact ⟨s,suffix_refl s,hs⟩

lemma language_strict_append (q : Bytes) :
    language (strict (q ++ [asterisk,asterisk])) = language (q ++ [questionMark,asterisk]) := by
  induction q with
  | nil => rfl
  | cons c q ih =>
    by_cases hall : ∀ d ∈ c :: q, d = asterisk
    · rw [strict_of_asterisks,language_asterisks_question hall]
      · simp
      · intro d hd
        rcases mem_append.mp hd with hd | hd
        · exact hall d hd
        · simpa using hd
    · rw [cons_append,strict_cons,language_cons,ih,← language_cons,cons_append]
      intro h
      refine hall fun d hd => h d ?_
      exact mem_append_left _ hd

lemma mem_language_append_asterisks : s ∈ language (q ++ [asterisk,asterisk]) ↔
      s ∈ language q ∨ s ∈ language (q ++ [questionMark,asterisk]) := by
  rw [language_append,language_append,Language.mem_mul]
  constructor
  · rintro ⟨u,hu,t,-,rfl⟩
    by_cases ht : t = []
    · subst ht
      exact .inl (by simpa using hu)
    · exact .inr ⟨u,hu,t,mem_language_question_asterisk.mpr ht,rfl⟩
  · have hany : ∀ t, t ∈ language [asterisk,asterisk] := by
      intro t
      simp only [mem_language_asterisk]
      exact ⟨t,suffix_refl t,[],nil_suffix,rfl⟩
    rintro (h | ⟨u,hu,t,-,rfl⟩)
    · exact ⟨s,h,[],hany [],append_nil s⟩
    · exact ⟨u,hu,t,hany t,rfl⟩

/-- The matcher decides the language of the pattern, unless asterisks at its end would have
to stand for the empty sequence. -/
theorem matchPattern_iff_mem_language (p s : Bytes) :
    (matchPattern p s = true ↔ s ∈ language p) ↔ ¬ EmptyEnd p s := by
  rw [matchPattern_language]
  by_cases hp : [asterisk,asterisk] <:+ p
  · obtain ⟨q,rfl⟩ := hp
    have hend : EmptyEnd (q ++ [asterisk,asterisk]) s ↔
        s ∈ language q ∧ s ∉ language (q ++ [questionMark,asterisk]) := by
      constructor
      · rintro ⟨q',hq,h⟩
        cases append_cancel_right hq
        exact h
      · exact fun h => ⟨q,rfl,h⟩
    rw [language_strict_append,mem_language_append_asterisks]
    tauto
  · rw [strict_of_not_suffix hp]
    simp only [true_iff]
    rintro ⟨q,rfl,-⟩
    exact hp (suffix_append q _)

/-- The empty string is not matched by two asterisks. -/
theorem matchPattern_two_asterisks :
    matchPattern [asterisk,asterisk] [] = false ∧ [] ∈ language [asterisk,asterisk] :=
  ⟨rfl,nil_mem_language.mpr (by simp)⟩

end PkixSsh.Match
