import Mathlib.Data.List.TakeWhile
import PkixSsh.Match

/-!
# The first name in common

`match_list` copies `MAX_PROP` names of the server and finds the first name in common as long as it
is among them. The position behind it is wrong if it is the last of several names.
-/

namespace PkixSsh.Match

open List

/-- The names of a list. The empty text is a list without names. -/
def names (list : Bytes) : List Bytes := if list = [] then [] else splitCommas list

def NoEmptyName (list : Bytes) : Prop := [] ∉ names list

instance (list : Bytes) : Decidable (NoEmptyName list) := inferInstanceAs (Decidable (¬ _))

/-- A name that comes first in `client` of those that are in `server`, between the names before
and after it. -/
structure FirstCommon (client server : List Bytes) (pre : List Bytes) (x : Bytes)
    (post : List Bytes) : Prop where
  split : client = pre ++ x :: post
  before : ∀ y ∈ pre, y ∉ server
  common : x ∈ server

/-- What a choice has to be: none, or the first name in common and where the next name of the client
starts. -/
def Honours (client server : Bytes) : Option Bytes × Nat → Prop
  | (some x,next) => ∃ pre post, FirstCommon (names client) (names server) pre x post ∧
      next = (joinCommas (pre ++ [x])).length + if post = [] then 0 else 1
  | (none,_) => ∀ y ∈ names client, y ∉ names server

lemma exists_firstCommon (client server : List Bytes) :
    (∃ pre x post, FirstCommon client server pre x post) ∨ ∀ y ∈ client, y ∉ server := by
  induction client with
  | nil => exact .inr nofun
  | cons y client ih =>
    by_cases hy : y ∈ server
    · exact .inl ⟨[],y,client,rfl,nofun,hy⟩
    rcases ih with ⟨pre,x,post,h⟩ | h
    · refine .inl ⟨y :: pre,x,post,by rw [h.split,cons_append],?_,h.common⟩
      intro z hz
      rcases mem_cons.mp hz with rfl | hz
      · exact hy
      · exact h.before z hz
    · refine .inr fun z hz => ?_
      rcases mem_cons.mp hz with rfl | hz
      · exact hy
      · exact h z hz

lemma FirstCommon.unique {client server pre pre' post post' : List Bytes} {x x' : Bytes}
    (h : FirstCommon client server pre x post) (h' : FirstCommon client server pre' x' post') :
    pre = pre' ∧ x = x' ∧ post = post' := by
  have hs : pre ++ x :: post = pre' ++ x' :: post' := h.split.symm.trans h'.split
  rcases append_eq_append_iff.mp hs with ⟨d,hd,hx⟩ | ⟨d,hd,hx⟩
  · cases d with
    | nil =>
      rw [append_nil] at hd
      cases hx
      exact ⟨hd.symm,rfl,rfl⟩
    | cons y d =>
      cases hx
      exact absurd h.common (h'.before x (by rw [hd]; simp))
  · cases d with
    | nil =>
      rw [append_nil] at hd
      cases hx
      exact ⟨hd,rfl,rfl⟩
    | cons y d =>
      cases hx
      exact absurd h'.common (h.before x' (by rw [hd]; simp))

lemma joinCommas_names (list : Bytes) : joinCommas (names list) = list := by
  rw [names]
  split
  · next h =>
    rw [h]
    rfl
  · exact (joinCommas_splitCommas list).1

lemma matchLoop_none {len pos : Nat} {server client : List Bytes}
    (h : ∀ y ∈ client, y ∉ server) : matchLoop len server pos client = (none,len) := by
  induction client generalizing pos with
  | nil => rfl
  | cons y client ih =>
    rw [matchLoop]
    split
    · rfl
    · rw [if_neg (h y mem_cons_self)]
      exact ih fun z hz => h z (mem_cons_of_mem y hz)

lemma matchLoop_firstCommon {len pos : Nat} {server client pre post : List Bytes} {x : Bytes}
    (hne : [] ∉ client) (h : FirstCommon client server pre x post) :
    matchLoop len server pos client =
      (some x,if post = [] then len else pos + (joinCommas (pre ++ [x])).length + 1) := by
  obtain ⟨rfl,hbefore,hcommon⟩ := h
  induction pre generalizing pos with
  | nil =>
    have hx : x ≠ [] := fun hx => hne (by rw [hx]; exact mem_cons_self)
    rw [nil_append,matchLoop,if_neg hx,if_pos hcommon]
    rfl
  | cons y pre ih =>
    rw [cons_append,mem_cons,not_or] at hne
    rw [cons_append,matchLoop,if_neg (Ne.symm hne.1),if_neg (hbefore y mem_cons_self),
      ih (fun z hz => hbefore z (mem_cons_of_mem y hz)) hne.2,cons_append,
      joinCommas_cons y (by simp),length_append,length_cons]
    split
    · rfl
    · congr 1
      omega

lemma sproposals_names {server : Bytes} (h : NoEmptyName server) :
    sproposals server = (names server).take maxProp := by
  rw [sproposals]
  by_cases hs : server = []
  · subst hs
    rfl
  · rw [NoEmptyName,names,if_neg hs] at h
    rw [names,if_neg hs]
    congr 1
    refine takeWhile_eq_self_iff.mpr fun y hy => ?_
    have hy' : y ≠ [] := fun he => h (by rw [← he]; exact hy)
    exact decide_eq_true hy'

lemma matchList_names (client server : Bytes) :
    matchList client server =
      matchLoop ((names client).headD []).length (sproposals server) 0 (names client) := by
  rw [matchList,names]
  split
  · next hc =>
    subst hc
    rfl
  · rfl

/-- The first name in common is chosen with the position behind it, if it is one of the first
`MAX_PROP` names of the server and not the last of several names of the client. -/
theorem matchList_honours_iff {client server : Bytes} (hc : NoEmptyName client)
    (hs : NoEmptyName server) : Honours client server (matchList client server) ↔
      ∀ pre x post, FirstCommon (names client) (names server) pre x post →
        x ∈ (names server).take maxProp ∧ (post = [] → pre = []) := by
  have hloop := matchList_names client server
  rw [sproposals_names hs] at hloop
  have htake : ∀ {pre x post}, FirstCommon (names client) (names server) pre x post →
      x ∈ (names _).take maxProp →
      FirstCommon _ _ pre x post :=
    fun hx hm => ⟨hx.split,fun y hy hm => hx.before y hy (mem_of_mem_take hm),hm⟩
  constructor
  · intro h pre x post hx
    rcases exists_firstCommon _ _ with ⟨pre',x',post',hx'⟩ | hnone
    · rw [hloop,matchLoop_firstCommon hc hx'] at h
      obtain ⟨p,q,hp,hnext⟩ := h
      obtain ⟨rfl,rfl,rfl⟩ := hp.unique hx
      obtain ⟨rfl,-,rfl⟩ := hx'.unique (htake hx hx'.common)
      refine ⟨hx'.common,fun hpost => ?_⟩
      -- the copy was cut behind its first name
      cases pre' with
      | nil => rfl
      | cons y pre =>
        rw [if_pos hpost,if_pos hpost,hx.split,cons_append,cons_append,
          joinCommas_cons y (by simp),length_append,length_cons] at hnext
        change y.length = _ at hnext
        omega
    · rw [hloop,matchLoop_none hnone] at h
      exact absurd hx.common (h x (by rw [hx.split]; simp))
  · intro h
    rcases exists_firstCommon _ _ with ⟨pre,x,post,hx⟩ | hnone
    · obtain ⟨hm,hlast⟩ := h pre x post hx
      rw [hloop,matchLoop_firstCommon hc (htake hx hm)]
      refine ⟨pre,post,hx,?_⟩
      by_cases hp : post = []
      · rw [if_pos hp,if_pos hp,hx.split,hlast hp]
        rfl
      · rw [if_neg hp,if_neg hp]
        omega
    · rw [hloop,matchLoop_none fun y hy hm => hnone y hy (mem_of_mem_take hm)]
      exact hnone

def longProposal : Bytes := joinCommas (List.replicate 40 (cstr "a") ++ [cstr "b"])

/-- A name behind the first forty is not found, and behind the last of two names stands the position
behind the first one. -/
theorem matchList_longProposal : NoEmptyName (cstr "b") ∧ NoEmptyName longProposal ∧
      matchList (cstr "b") longProposal = (none,1) ∧
      ¬ Honours (cstr "b") longProposal (matchList (cstr "b") longProposal) ∧
      matchList (cstr "x,b") (cstr "b") = (some (cstr "b"),1) ∧
      ¬ Honours (cstr "x,b") (cstr "b") (matchList (cstr "x,b") (cstr "b")) := by
  have hres : matchList (cstr "b") longProposal = (none,1) := by decide +kernel
  have hnext : matchList (cstr "x,b") (cstr "b") = (some (cstr "b"),1) := by decide +kernel
  refine ⟨by decide +kernel,by decide +kernel,hres,?_,hnext,?_⟩
  · intro h
    have hcommon : cstr "b" ∈ names longProposal := by decide +kernel
    exact h _ (by decide +kernel) hcommon
  · rw [hnext]
    rintro ⟨pre,post,hx,hlen⟩
    have hsplit : FirstCommon (names (cstr "x,b")) (names (cstr "b")) [cstr "x"] (cstr "b") [] :=
      ⟨by decide +kernel,by decide +kernel,by decide +kernel⟩
    obtain ⟨rfl,-,rfl⟩ := hx.unique hsplit
    exact absurd hlen (by decide +kernel)

theorem matchList_honours_second : Honours (cstr "x,b,c") (cstr "c,b") (some (cstr "b"),4) := by
  refine (matchList_honours_iff (by decide +kernel) (by decide +kernel)).mpr ?_
  intro pre x post hx
  have hsplit : FirstCommon (names (cstr "x,b,c")) (names (cstr "c,b")) [cstr "x"] (cstr "b")
      [cstr "c"] := ⟨by decide +kernel,by decide +kernel,by decide +kernel⟩
  obtain ⟨rfl,rfl,rfl⟩ := hx.unique hsplit
  exact ⟨hx.common,by rintro ⟨⟩⟩

end PkixSsh.Match
