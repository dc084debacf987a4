import Mathlib.Data.List.Perm.Basic
import Mathlib.Data.List.Forall2

/-!
# Greedy matching of two lists along a relation

`greedy` pairs each left item with the first free right item that the relation accepts. What it
finds is a `Matching`; it finds one in every order just if the relation is rectangular on the
lists.
-/

namespace GreedyMatching

open List Prod

variable {α β : Type*} {x : α} {r : α → β → Prop} {as : List α} {bs rest : List β}
  {ps : List (α × β)}

lemma exists_of_forall₂ {R : α → β → Prop} {xs : List α} {ys : List β} (h : List.Forall₂ R xs ys)
    (hx : x ∈ xs) : ∃ y ∈ ys, R x y := by
  induction h with
  | nil => cases hx
  | cons hxy _ ih =>
    rcases mem_cons.mp hx with rfl | hx
    · exact ⟨_,mem_cons_self,hxy⟩
    · obtain ⟨y,hy,hxy⟩ := ih hx
      exact ⟨y,mem_cons_of_mem _ hy,hxy⟩

lemma forall₂_mem {R : α → β → Prop} {xs : List α} {ys : List β} (h : List.Forall₂ R xs ys) :
    List.Forall₂ (fun x y => x ∈ xs ∧ y ∈ ys ∧ R x y) xs ys := by
  rw [forall₂_iff_zip] at h ⊢
  refine ⟨h.1,fun {x y} hz => ?_⟩
  obtain ⟨hx,hy⟩ := of_mem_zip hz
  exact ⟨hx,hy,h.2 hz⟩

/-- Pair every left item with the first free right item that `r` accepts. The result
is the list of right items that stay free. -/
def greedy (r : α → β → Bool) : List α → List β → Option (List β)
  | [], bs => some bs
  | a :: as, bs => if bs.any (r a) then greedy r as (bs.eraseP (r a)) else none

/-- A one-to-one pairing of all left items with right items, `rest` staying free. -/
def Matching (r : α → β → Prop) (as : List α) (bs rest : List β) : Prop :=
  ∃ ms, bs.Perm (ms ++ rest) ∧ List.Forall₂ r as ms

/-- No three sides of a rectangle without the fourth: the relation is a disjoint
union of complete bipartite pieces on the two lists. -/
def Rectangular (r : α → β → Prop) (as : List α) (bs : List β) : Prop :=
  ∀ x ∈ as, ∀ x' ∈ as, ∀ y ∈ bs, ∀ y' ∈ bs, r x y → r x' y → r x' y' → r x y'

lemma Rectangular.mono {as' : List α} {bs' : List β} (h : Rectangular r as bs) (ha : as' ⊆ as)
    (hb : bs' ⊆ bs) : Rectangular r as' bs' :=
  fun x hx x' hx' y hy y' hy' => h x (ha hx) x' (ha hx') y (hb hy) y' (hb hy')

lemma Rectangular.swap (h : Rectangular r as bs) : Rectangular (fun b a => r a b) bs as :=
  fun y hy y' hy' x hx x' hx' h11 h12 h22 => h x' hx' x hx y' hy' y hy h22 h12 h11

lemma any_split {p : β → Bool} (h : bs.any p = true) :
    ∃ b l1 l2, p b = true ∧ bs = l1 ++ b :: l2 ∧ bs.eraseP p = l1 ++ l2 := by
  obtain ⟨b,hb,hp⟩ := List.any_eq_true.mp h
  obtain ⟨c,l1,l2,_,hc,he,hr⟩ := exists_of_eraseP hb hp
  exact ⟨c,l1,l2,hc,he,hr⟩

lemma greedy_sound {r : α → β → Bool} (h : greedy r as bs = some rest) :
    Matching (fun a b => r a b = true) as bs rest := by
  induction as generalizing bs with
  | nil =>
    have he : bs = rest := by simpa [greedy] using h
    exact ⟨[],by simp [he],.nil⟩
  | cons a as ih =>
    simp only [greedy] at h
    split at h
    · rename_i hany
      obtain ⟨b,l1,l2,hb,he,hr⟩ := any_split hany
      rw [hr] at h
      obtain ⟨ms,hp,hf⟩ := ih h
      refine ⟨b :: ms,?_,.cons hb hf⟩
      rw [he]
      exact perm_middle.trans (hp.cons b)
    · simp at h

lemma Matching.length (h : Matching r as bs rest) : bs.length = as.length + rest.length := by
  obtain ⟨ms,hp,hf⟩ := h
  rw [hp.length_eq,length_append,hf.length_eq]

lemma Matching.perm_left {as' : List α} (h : Matching r as bs rest) (hp : as.Perm as') :
    Matching r as' bs rest := by
  obtain ⟨ms,hb,hf⟩ := h
  obtain ⟨ns,hg,hn⟩ := perm_comp_forall₂ hp.symm hf
  exact ⟨ns,hb.trans (hn.symm.append_right rest),hg⟩

lemma Matching.perm_right {bs' : List β} (h : Matching r as bs rest) (hp : bs.Perm bs') :
    Matching r as bs' rest := by
  obtain ⟨ms,hb,hf⟩ := h
  exact ⟨ms,hp.symm.trans hb,hf⟩

lemma Matching.swap (h : Matching r as bs []) : Matching (fun b a => r a b) bs as [] := by
  obtain ⟨ms,hp,hf⟩ := h
  rw [append_nil] at hp
  obtain ⟨ns,hg,hn⟩ := perm_comp_forall₂ hp hf.flip
  exact ⟨ns,by simpa using hn.symm,hg⟩

/-- Whichever accepted item `b` the first left item takes, the old partner of `b` takes over the
item that becomes free. -/
lemma Matching.exchange {a : α} {b : β} (h : Matching r (a :: as) (b :: bs) rest) (hab : r a b)
    (hr : Rectangular r (a :: as) (b :: bs)) : ∃ rest', Matching r as bs rest' := by
  obtain ⟨_,hp,hf⟩ := h
  obtain ⟨m,ms,ham,hms,rfl⟩ := forall₂_cons_left_iff.mp hf
  have hmem : ∀ {y}, y ∈ m :: ms ++ rest → y ∈ b :: bs := fun hy => hp.mem_iff.mpr hy
  have hb : b = m ∨ b ∈ ms ∨ b ∈ rest := by simpa using hp.mem_iff.mp mem_cons_self
  rcases hb with rfl | hb | hb
  · exact ⟨rest,ms,List.Perm.cons_inv hp,hms⟩
  · -- `b` is the partner of a later item `a'`; that item is paired with `m` instead
    obtain ⟨l1,l2,rfl⟩ := append_of_mem hb
    obtain ⟨_,hg,has⟩ := perm_comp_forall₂ perm_middle.symm hms.flip
    obtain ⟨a',as',ha'b,has',rfl⟩ := forall₂_cons_left_iff.mp hg
    have ha' : a' ∈ as := has.mem_iff.mp mem_cons_self
    have ha'm : r a' m :=
      hr a' (mem_cons_of_mem _ ha') a mem_cons_self b mem_cons_self m
        (hmem (by simp)) ha'b hab ham
    obtain ⟨ns,hns,hn⟩ := perm_comp_forall₂ has.symm (List.Forall₂.cons ha'm has'.flip)
    refine ⟨rest,ns,?_,hns⟩
    have hswap : (m :: (l1 ++ b :: l2)).Perm _ :=
      (List.Perm.cons m perm_middle).trans
        ((List.Perm.swap b m _).trans (List.Perm.cons b hn.symm))
    exact List.Perm.cons_inv (hp.trans (hswap.append_right rest))
  · obtain ⟨l1,l2,rfl⟩ := append_of_mem hb
    refine ⟨m :: (l1 ++ l2),ms,?_,hms⟩
    have hmid : (m :: ms ++ (l1 ++ b :: l2)).Perm (b :: (m :: ms ++ (l1 ++ l2))) := by
      rw [← append_assoc,← append_assoc]
      exact perm_middle
    refine List.Perm.cons_inv (hp.trans (hmid.trans (List.Perm.cons b ?_)))
    exact perm_middle.symm

/-- On a rectangular relation the search finds a pairing whenever there is one. -/
lemma greedy_complete {r : α → β → Bool} (hr : Rectangular (fun a b => r a b = true) as bs)
    (h : Matching (fun a b => r a b = true) as bs rest) : ∃ rest', greedy r as bs = some rest' := by
  induction as generalizing bs rest with
  | nil => exact ⟨bs,rfl⟩
  | cons a as ih =>
    have hany : bs.any (r a) = true := by
      obtain ⟨ms,hp,hf⟩ := h
      obtain ⟨m,ms,ham,_,rfl⟩ := forall₂_cons_left_iff.mp hf
      exact List.any_eq_true.mpr ⟨m,hp.mem_iff.mpr (by simp),ham⟩
    obtain ⟨b,l1,l2,hb,rfl,he⟩ := any_split hany
    have hfront : (l1 ++ b :: l2).Perm _ := perm_middle
    have hm : Matching (fun a b => r a b = true) (a :: as) (b :: (l1 ++ l2)) rest := by
      obtain ⟨ms,hp,hf⟩ := h
      exact ⟨ms,hfront.symm.trans hp,hf⟩
    have hr' := hr.mono (fun _ h => h) (fun _ hy => hfront.mem_iff.mpr hy)
    obtain ⟨rest',hm'⟩ := hm.exchange hb hr'
    simp only [greedy,hany,he]
    exact ih (hr'.mono (subset_cons_self _ _) (subset_cons_self _ _)) hm'

lemma greedy_matching {r : α → β → Bool} (hl : as.length = bs.length)
    (h : (greedy r as bs).isSome) : Matching (fun a b => r a b = true) as bs [] := by
  obtain ⟨rest,hg⟩ := Option.isSome_iff_exists.mp h
  have hm := greedy_sound hg
  have hrest : rest = [] := eq_nil_of_length_eq_zero (by have := hm.length; omega)
  rwa [hrest] at hm

lemma greedy_isSome_iff {r : α → β → Bool} (hl : as.length = bs.length)
    (hr : Rectangular (fun a b => r a b = true) as bs) :
    (greedy r as bs).isSome ↔ Matching (fun a b => r a b = true) as bs [] :=
  ⟨greedy_matching hl,fun h => Option.isSome_iff_exists.mpr (greedy_complete hr h)⟩

def Pairing (r : α → β → Prop) (as : List α) (bs : List β) (ps : List (α × β)) : Prop :=
  as.Perm (ps.map fst) ∧ bs.Perm (ps.map snd) ∧ ∀ p ∈ ps, r p.1 p.2

lemma Matching.exists_pairing (h : Matching r as bs []) : ∃ ps, Pairing r as bs ps := by
  obtain ⟨ms,hp,hf⟩ := h
  have hl := hf.length_eq
  refine ⟨as.zip ms,?_,?_,?_⟩
  · rw [map_fst_zip (Nat.le_of_eq hl)]
  · rw [map_snd_zip (Nat.le_of_eq hl.symm)]
    simpa using hp
  · intro p hmem
    exact forall₂_zip hf hmem

lemma Pairing.perm {qs : List (α × β)} (h : Pairing r as bs ps) (hp : ps.Perm qs) :
    Pairing r as bs qs :=
  ⟨h.1.trans (hp.map _),h.2.1.trans (hp.map _),fun p hq => h.2.2 p (hp.mem_iff.mpr hq)⟩

lemma Pairing.exchange {x' : α} {y y' : β} (h : Pairing r as bs ((x,y) :: (x',y') :: ps))
    (h12 : r x y') (h21 : r x' y) : Pairing r as bs ((x,y') :: (x',y) :: ps) := by
  obtain ⟨ha,hb,hr⟩ := h
  refine ⟨by simpa using ha,?_,?_⟩
  · exact hb.trans (by simpa using List.Perm.swap y' y _)
  · simp only [forall_mem_cons] at hr ⊢
    exact ⟨h12,h21,hr.2.2⟩

lemma greedy_pairs {r : α → β → Bool} (h : ∀ p ∈ ps, r p.1 p.2 = true) (as : List α) (bs : List β)
    : greedy r (ps.map fst ++ as) (ps.map snd ++ bs) = greedy r as bs := by
  induction ps with
  | nil => rfl
  | cons p ps ih =>
    obtain ⟨hp,hps⟩ := forall_mem_cons.mp h
    simp [greedy,hp,ih hps]

lemma exists_perm_two [DecidableEq α] {p q : α} {l : List α} (hp : p ∈ l) (hq : q ∈ l)
    (hne : p ≠ q) : ∃ rest, l.Perm (p :: q :: rest) := by
  have hq' : q ∈ l.erase p := (mem_erase_of_ne (Ne.symm hne)).mpr hq
  exact ⟨(l.erase p).erase q,(perm_cons_erase hp).trans ((perm_cons_erase hq').cons p)⟩

/-- The relation between two pairs that the left item of the first accepts the right
item of the second. -/
def Crosses (r : α → β → Prop) (p q : α × β) : Prop := r p.1 q.2

section Crossing

variable {r : α → β → Prop} {as : List α} {bs : List β}

open scoped Classical in
lemma Crosses.symm_of
    (hc : ∀ p q ps, Pairing r as bs (p :: q :: ps) → Crosses r q p → Crosses r p q)
    {ps : List (α × β)} (hps : Pairing r as bs ps) {p q : α × β} (hp : p ∈ ps) (hq : q ∈ ps)
    (h : Crosses r q p) : Crosses r p q := by
  by_cases he : p = q
  · subst he
    exact h
  · obtain ⟨rest,hperm⟩ := exists_perm_two hp hq he
    exact hc p q rest (hps.perm hperm) h

open scoped Classical in
lemma Crosses.trans_of
    (hc : ∀ p q ps, Pairing r as bs (p :: q :: ps) → Crosses r q p → Crosses r p q)
    {ps : List (α × β)} (hps : Pairing r as bs ps) {p q k : α × β} (hp : p ∈ ps) (hq : q ∈ ps)
    (hk : k ∈ ps) (hpq : Crosses r p q) (hqk : Crosses r q k) : Crosses r p k := by
  by_cases hne : p = q
  · subst hne
    exact hqk
  by_cases hqk' : q = k
  · subst hqk'
    exact hpq
  by_cases hpk : p = k
  · subst hpk
    exact hps.2.2 p hp
  -- exchanging the right items of `p` and `q` pairs `q` with the right item of `p`
  obtain ⟨rest,hperm⟩ := exists_perm_two hp hq hne
  have hqp := Crosses.symm_of hc hps hq hp hpq
  have hex := (hps.perm hperm).exchange hpq hqp
  have hmem : k ∈ rest := by
    have := hperm.mem_iff.mp hk
    simpa [Ne.symm hpk,Ne.symm hqk'] using this
  have hkp : Crosses r k (q.1,p.2) := Crosses.symm_of hc hex (by simp [hmem]) (by simp) hqk
  exact Crosses.symm_of hc hps hp hk hkp

/-- If exchanging is always possible between pairs of a complete pairing, the relation
is rectangular. -/
lemma rectangular_of_crosses
    (hc : ∀ p q ps, Pairing r as bs (p :: q :: ps) → Crosses r q p → Crosses r p q)
    (hm : Matching r as bs []) : Rectangular r as bs := by
  obtain ⟨ps,hps⟩ := hm.exists_pairing
  have hleft : ∀ x ∈ as, ∃ p ∈ ps, p.1 = x := fun x hx => by
    simpa using hps.1.mem_iff.mp hx
  have hright : ∀ y ∈ bs, ∃ p ∈ ps, p.2 = y := fun y hy => by
    simpa using hps.2.1.mem_iff.mp hy
  intro x hx x' hx' y hy y' hy' h11 h21 h22
  obtain ⟨p,hp,rfl⟩ := hleft x hx
  obtain ⟨q,hq,rfl⟩ := hright y hy
  obtain ⟨k,hk,rfl⟩ := hleft x' hx'
  obtain ⟨l,hl,rfl⟩ := hright y' hy'
  have hqk : Crosses r q k := Crosses.symm_of hc hps hq hk h21
  have hpk : Crosses r p k := Crosses.trans_of hc hps hp hq hk h11 hqk
  exact Crosses.trans_of hc hps hp hk hl hpk h22

end Crossing

/-- The search from the left finds a complete pairing and the search from the right does not: `y`
takes `x'`, and `y'` does not accept what is left. -/
lemma greedy_asymm {r : α → β → Bool} {x' : α} {y y' : β} (hps : ∀ p ∈ ps, r p.1 p.2 = true)
    (h11 : r x y = true) (h22 : r x' y' = true) (h21 : r x' y = true) (h12 : r x y' = false) :
    (greedy r (ps.map fst ++ [x',x]).reverse (y' :: y :: (ps.map snd).reverse)).isSome ∧
    (greedy (fun b a => r a b) (y' :: y :: (ps.map snd).reverse).reverse
      (ps.map fst ++ [x',x])).isSome = false := by
  constructor
  · have hmem : ∀ p ∈ ps.reverse, r p.1 p.2 = true := fun p hp => hps p (mem_reverse.mp hp)
    have hrev := greedy_pairs hmem [] []
    simp only [append_nil,map_reverse] at hrev
    simp [greedy,h11,h12,h22,hrev]
  · have hswap : ∀ p ∈ ps.map Prod.swap, r p.2 p.1 = true := by
      intro p hp
      obtain ⟨q,hq,rfl⟩ := List.mem_map.mp hp
      exact hps q hq
    have hflip := greedy_pairs (r := fun b a => r a b) hswap [y,y'] [x',x]
    simp only [List.map_map] at hflip
    have hfst : fst ∘ swap = (snd : α × β → β) := rfl
    have hsnd : snd ∘ swap = (fst : α × β → α) := rfl
    rw [hfst,hsnd] at hflip
    simp [hflip,greedy,h21,h12]

/-- The search succeeds from both sides or from neither, whatever the order of the two
lists, exactly when no complete pairing exists or the relation is rectangular. -/
lemma greedy_symm_iff {r : α → β → Bool} (hl : as.length = bs.length) :
    (∀ as' bs', as'.Perm as → bs'.Perm bs →
      ((greedy r as'.reverse bs').isSome ↔ (greedy (fun b a => r a b) bs'.reverse as').isSome)) ↔
    (Matching (fun a b => r a b = true) as bs [] →
      Rectangular (fun a b => r a b = true) as bs) := by
  constructor
  · intro h hm
    refine rectangular_of_crosses ?_ hm
    intro p q ps hp hqp
    by_contra hpq
    obtain ⟨ha,hb,hr⟩ := hp
    simp only [forall_mem_cons] at hr
    have hasym := greedy_asymm hr.2.2 hr.1 hr.2.1 hqp (by simpa [Crosses] using hpq)
    have hperma : (ps.map fst ++ [q.1,p.1]).Perm as := by
      refine List.Perm.trans ?_ ha.symm
      exact perm_append_comm.trans (List.Perm.swap _ _ _)
    have hpermb : (q.2 :: p.2 :: (ps.map snd).reverse).Perm bs := by
      refine List.Perm.trans ?_ hb.symm
      exact (List.Perm.swap _ _ _).trans (((reverse_perm _).cons _).cons _)
    have hiff := h _ _ hperma hpermb
    rw [hasym.2] at hiff
    exact absurd (hiff.mp hasym.1) (by simp)
  · intro h as' bs' ha hb
    have hla : as'.length = bs'.length := by rw [ha.length_eq,hb.length_eq,hl]
    constructor
    · intro hs
      have hm := (greedy_matching (by simpa using hla) hs).perm_left (reverse_perm _)
      have hrect := h ((hm.perm_left ha).perm_right hb)
      refine (greedy_isSome_iff (by simpa using hla.symm) ?_).mpr
        (hm.swap.perm_left (reverse_perm _).symm)
      exact hrect.swap.mono (fun y hy => hb.mem_iff.mp (mem_reverse.mp hy))
        fun x hx => ha.mem_iff.mp hx
    · intro hs
      have hm := (greedy_matching (by simpa using hla.symm) hs).swap.perm_right (reverse_perm _)
      have hrect := h ((hm.perm_left ha).perm_right hb)
      refine (greedy_isSome_iff (by simpa using hla) ?_).mpr (hm.perm_left (reverse_perm _).symm)
      exact hrect.mono (fun x hx => ha.mem_iff.mp (mem_reverse.mp hx)) fun y hy => hb.mem_iff.mp hy

end GreedyMatching
