import PkixSsh.Buffer.Struct

/-!
# What a call does to a buffer and to the memory

A buffer that is valid in the memory stays valid under every call: no call faults, the bytes
in front of the caller change as the call says, and no other block is touched.
-/

namespace PkixSsh.Buffer

open Blocks List

lemma checkSanity_iff {b : Sshbuf} :
    checkSanity b = true ↔ (b.readonly = true ∨ b.d = some b.cd) ∧ 1 ≤ b.refcount ∧
      b.refcount ≤ sshbufRefsMax ∧ b.maxSize ≤ sshbufSizeMax ∧ b.alloc ≤ b.maxSize ∧
      b.size ≤ b.alloc ∧ b.off ≤ b.size := by
  simp only [checkSanity,Bool.and_eq_true,Bool.or_eq_true,decide_eq_true_eq,and_assoc]

/-- A sane buffer, with its bytes in a block that is in use. -/
structure Valid (m : Memory UInt8) (b : Sshbuf) : Prop where
  sane : checkSanity b = true
  view : b.readonly = true → b.d = none
  start : b.readonly = false → b.cd.pos = 0
  block : ∃ cells, m.block b.cd.block = some cells ∧ b.cd.pos + b.alloc ≤ cells.length

/-- The visible bytes, at `sshbuf_ptr` and as many as `sshbuf_len`. -/
def contents (m : Memory UInt8) (b : Sshbuf) : Bytes :=
  (((m.block b.cd.block).getD []).drop (b.cd.pos + b.off)).take (b.size - b.off)

section

variable {m m' : Memory UInt8} {b : Sshbuf}

lemma Valid.if_sane {α : Type} {x y : α} (h : Valid m b) :
    (if !checkSanity b then x else y) = y := by
  rw [h.sane]
  rfl

lemma Valid.owns (h : Valid m b) (hr : b.readonly = false) : b.d = some b.cd := by
  rcases (checkSanity_iff.mp h.sane).1 with h' | h'
  · rw [hr] at h'
    cases h'
  · exact h'

lemma Valid.bounds (h : Valid m b) :
    b.off ≤ b.size ∧ b.size ≤ b.alloc ∧ b.alloc ≤ b.maxSize ∧ b.maxSize ≤ sshbufSizeMax := by
  obtain ⟨-,-,-,hmax,halloc,hsize,hoff⟩ := checkSanity_iff.mp h.sane
  exact ⟨hoff,hsize,halloc,hmax⟩

lemma contents_eq {cells : Bytes} (h : m.block b.cd.block = some cells) :
    contents m b = (cells.drop (b.cd.pos + b.off)).take (b.size - b.off) := by
  rw [contents,h]
  rfl

lemma Valid.length_contents (h : Valid m b) : (contents m b).length = sshbufLen b := by
  obtain ⟨cells,hcells,hlen⟩ := h.block
  have := h.bounds
  rw [contents_eq hcells,length_take,length_drop,sshbufLen]
  omega

lemma Valid.resize (h : Valid m b) {off size maxSize : Nat} (hoff : off ≤ size)
    (hsize : size ≤ b.alloc) (halloc : b.alloc ≤ maxSize) (hmax : maxSize ≤ sshbufSizeMax) :
    Valid m { b with off := off, size := size, maxSize := maxSize } := by
  obtain ⟨hd,hpos,hrefs,-⟩ := checkSanity_iff.mp h.sane
  exact ⟨checkSanity_iff.mpr ⟨hd,hpos,hrefs,hmax,halloc,hsize,hoff⟩,h.view,h.start,h.block⟩

lemma Valid.frame (h : Valid m b) (hb : m'.block b.cd.block = m.block b.cd.block) :
    Valid m' b := by
  obtain ⟨cells,hcells,hlen⟩ := h.block
  exact ⟨h.sane,h.view,h.start,cells,hb.trans hcells,hlen⟩

lemma contents_frame (h : m'.block b.cd.block = m.block b.cd.block) :
    contents m' b = contents m b := by
  rw [contents,contents,h]

end

/-- Block `i` has become block `j`, and all others are as they were. -/
structure Carries (m m' : Memory UInt8) (i j : Nat) : Prop where
  next : m.next ≤ m'.next
  frame : ∀ k, k ≠ i → k < m.next → m'.block k = m.block k
  fresh : ∀ k, m.next ≤ k → k ≠ j → m'.block k = none
  moved : j ≠ i → m.next ≤ j ∧ m'.block i = none

namespace Carries

lemma refl (m : Memory UInt8) (i : Nat) : Carries m m i i :=
  ⟨le_rfl,fun _ _ _ => rfl,fun k hk _ => m.fresh k hk,fun h => absurd rfl h⟩

lemma trans {m1 m2 m3 : Memory UInt8} {i j k : Nat} (hi : i < m1.next)
    (h : Carries m1 m2 i j) (h' : Carries m2 m3 j k) : Carries m1 m3 i k := by
  refine ⟨h.next.trans h'.next,fun n hn hlt => ?_,fun n hn hk => ?_,fun hk => ?_⟩
  · have hj : n ≠ j := by
      rintro rfl
      have := (h.moved hn).1
      omega
    rw [h'.frame n hj (lt_of_lt_of_le hlt h.next),h.frame n hn hlt]
  · by_cases hj : n = j
    · rw [hj] at hk ⊢
      exact (h'.moved fun hkj => hk hkj.symm).2
    · by_cases hlt : n < m2.next
      · rw [h'.frame n hj hlt]
        exact h.fresh n hn hj
      · exact h'.fresh n (by omega) hk
  · by_cases hj : j = i
    · subst hj
      exact ⟨h.next.trans (h'.moved hk).1,(h'.moved hk).2⟩
    · obtain ⟨hjnext,hnone⟩ := h.moved hj
      have hold : m3.block i = none := by
        rw [h'.frame i (fun he => hj he.symm) (lt_of_lt_of_le hi h.next),hnone]
      by_cases hkj : k = j
      · exact ⟨hkj ▸ hjnext,hold⟩
      · exact ⟨h.next.trans (h'.moved hkj).1,hold⟩

end Carries

section

variable {w : World} {p : Ptr} {cells : Bytes}

lemma read_ok {len : Nat} (h : w.mem.block p.block = some cells)
    (hlen : p.pos + len ≤ cells.length) : w.read p len = .ok ((cells.drop p.pos).take len) := by
  rw [World.read,Memory.read_eq h hlen]

lemma write_ok {v : Bytes} (h : w.mem.block p.block = some cells)
    (hlen : p.pos + v.length ≤ cells.length) :
    ∃ w', w.write p v = .ok w' ∧ w'.mem.block p.block = some (splice cells p.pos v) ∧
      Carries w.mem w'.mem p.block p.block := by
  obtain ⟨m',hm,hnext,hblock⟩ := Memory.write_eq h hlen
  refine ⟨{ w with mem := m' },by rw [World.write,hm],?_,?_⟩
  · rw [hblock,Function.update_self]
  · refine ⟨hnext.ge,fun k hk _ => ?_,fun k hk hne => ?_,fun hne => absurd rfl hne⟩
    · rw [hblock,Function.update_of_ne hk]
    · exact m'.fresh k (hnext.symm ▸ hk)

lemma World.write_next {v : Bytes} {w' : World} (h : w.write p v = .ok w') :
    w'.mem.next = w.mem.next := by
  rw [World.write] at h
  split at h
  · cases h
  · next m' hm =>
    cases h
    exact Memory.next_write hm

/-- The block that `recallocarray` returns begins as the old one, and the memory is as it was
if it returns none. -/
lemma recallocarray_ok (a : Allocator) (oldsize newsize : Nat)
    (h : w.mem.block p.block = some cells) (hp : p.pos = 0) (hlen : oldsize ≤ cells.length) :
    ∃ dp w', recallocarray a w p oldsize newsize = .ok (dp,w') ∧ (dp = none → w'.mem = w.mem) ∧
      ∀ q, dp = some q → q.pos = 0 ∧ Carries w.mem w'.mem p.block q.block ∧
        ∃ cells', w'.mem.block q.block = some cells' ∧ newsize ≤ cells'.length ∧
          ∀ n, n ≤ oldsize → n ≤ newsize → cells'.take n = cells.take n := by
  rw [recallocarray]
  split
  · next hshrink =>
    have hfits : (⟨p.block,p.pos + newsize⟩ : Ptr).pos +
        (List.replicate (oldsize - newsize) (0 : UInt8)).length ≤ cells.length := by
      simp only [length_replicate]
      omega
    obtain ⟨w',hw,hblock,hcarries⟩ := write_ok (p := ⟨p.block,p.pos + newsize⟩) h hfits
    refine ⟨some p,w',by rw [hw]; rfl,by rintro ⟨⟩,?_⟩
    rintro q ⟨⟩
    refine ⟨hp,hcarries,_,hblock,?_,fun n hold hnew => ?_⟩
    · rw [length_splice hfits]
      omega
    · have hle : n ≤ (cells.take (p.pos + newsize)).length := by
        rw [length_take]
        omega
      rw [splice,append_assoc,take_append_of_le_length hle,take_take,Nat.min_eq_left (by omega)]
  · split
    · exact ⟨none,_,rfl,fun _ => rfl,by rintro _ ⟨⟩⟩
    · have hread : w.read p (min oldsize newsize) = .ok _ := read_ok h (by omega)
      have hlt := Memory.lt_next h
      rw [hread]
      simp only [Sshbuf.ok_bind]
      generalize hv : (cells.drop p.pos).take _ ++ List.replicate _ 0 = v
      have hold : (w.granted v).mem.block p.block = some cells := by
        rw [World.granted,Memory.block_alloc_of_ne _ _ hlt.ne,h]
      have hvlen : newsize ≤ v.length := by
        rw [← hv,length_append,length_take,length_drop,length_replicate]
        omega
      refine ⟨some _,{ w.granted v with mem := (w.granted v).mem.free _ },
        by rw [World.free,hold]; rfl,by rintro ⟨⟩,?_⟩
      rintro q ⟨⟩
      have hnext : (w.granted v).mem.next = w.mem.next + 1 := rfl
      refine ⟨rfl,⟨?_,fun k hk hlt' => ?_,fun k hk hne => ?_,fun _ => ⟨le_rfl,?_⟩⟩,v,?_,hvlen,?_⟩
      · rw [Memory.next_free]
        omega
      · rw [Memory.block_free_of_ne _ hk]
        exact Memory.block_alloc_of_ne _ _ hlt'.ne
      · rw [Memory.block_free_of_ne _ (by dsimp only at hne; omega)]
        exact Memory.fresh _ _ (by dsimp only at hne; rw [hnext]; omega)
      · exact Memory.block_free_self _ _
      · rw [Memory.block_free_of_ne _ hlt.ne']
        exact Memory.block_alloc_next _ _
      · intro n hn hn'
        rw [← hv,hp,drop_zero,take_append_of_le_length (by rw [length_take]; omega),
          take_take,Nat.min_eq_left (by omega)]

lemma recallocarray_isSome {a : Allocator} {w' : World} {dp : Option Ptr} {oldsize newsize : Nat}
    (hgrow : oldsize < newsize) (h : recallocarray a w p oldsize newsize = .ok (dp,w')) :
    dp.isSome = a.grants w.requests := by
  rw [recallocarray,if_neg (by omega)] at h
  cases hg : a.grants _ with
  | false =>
    rw [hg] at h
    cases h
    rfl
  | true =>
    rw [hg] at h
    obtain ⟨_,-,h⟩ := Sshbuf.bind_eq_ok.mp h
    obtain ⟨_,-,h⟩ := Sshbuf.bind_eq_ok.mp h
    cases h
    rfl

end

/-- What a call on one buffer may do to it and to the memory. -/
structure Moves (b : Sshbuf) (w : World) (b' : Sshbuf) (w' : World) : Prop where
  valid : Valid w'.mem b'
  readonly : b'.readonly = b.readonly
  refcount : b'.refcount = b.refcount
  parent : b'.parent = b.parent
  carries : Carries w.mem w'.mem b.cd.block b'.cd.block
  shared : b.readonly = true ∨ 1 < b.refcount →
    b'.cd = b.cd ∧ b'.alloc = b.alloc ∧ w'.mem = w.mem

section

variable {b b' : Sshbuf} {w w' : World}

lemma Valid.lt_next (h : Valid w.mem b) : b.cd.block < w.mem.next := by
  obtain ⟨cells,hcells,-⟩ := h.block
  exact Memory.lt_next hcells

lemma Valid.moves (h : Valid w.mem b) : Moves b w b w :=
  ⟨h,rfl,rfl,rfl,.refl _ _,fun _ => ⟨rfl,rfl,rfl⟩⟩

lemma Moves.trans {b'' : Sshbuf} {w'' : World} (hv : Valid w.mem b) (h : Moves b w b' w')
    (h' : Moves b' w' b'' w'') : Moves b w b'' w'' where
  valid := h'.valid
  readonly := h'.readonly.trans h.readonly
  refcount := h'.refcount.trans h.refcount
  parent := h'.parent.trans h.parent
  carries := .trans hv.lt_next h.carries h'.carries
  shared hs := by
    obtain ⟨hcd,halloc,hmem⟩ := h.shared hs
    rw [← h.readonly,← h.refcount] at hs
    obtain ⟨hcd',halloc',hmem'⟩ := h'.shared hs
    exact ⟨hcd'.trans hcd,halloc'.trans halloc,hmem'.trans hmem⟩

lemma Moves.resize (h : Moves b w b' w') {off size maxSize : Nat} (hoff : off ≤ size)
    (hsize : size ≤ b'.alloc) (halloc : b'.alloc ≤ maxSize) (hmax : maxSize ≤ sshbufSizeMax) :
    Moves b w { b' with off := off, size := size, maxSize := maxSize } w' :=
  ⟨h.valid.resize hoff hsize halloc hmax,h.readonly,h.refcount,h.parent,h.carries,h.shared⟩

lemma Moves.of_mem_eq (h : Valid w.mem b) (hm : w'.mem = w.mem) : Moves b w b w' :=
  ⟨hm ▸ h,rfl,rfl,rfl,hm ▸ .refl _ _,fun _ => ⟨rfl,rfl,hm⟩⟩

lemma Moves.of_mem {w'' : World} (h : Moves b w b' w') (hm : w''.mem = w'.mem) :
    Moves b w b' w'' :=
  ⟨hm ▸ h.valid,h.readonly,h.refcount,h.parent,hm ▸ h.carries,fun hs =>
    ⟨(h.shared hs).1,(h.shared hs).2.1,hm.trans (h.shared hs).2.2⟩⟩

lemma Moves.block_eq (h : Valid w.mem b) (hm : Moves b w b' w) : b'.cd.block = b.cd.block := by
  by_contra hne
  obtain ⟨cells,hcells,-⟩ := h.block
  rw [(hm.carries.moved hne).2] at hcells
  cases hcells

lemma Moves.other (h : Moves b w b' w') {k : Nat} (hk : k < w.mem.next)
    (hsep : b.readonly = false → b.refcount ≤ 1 → b.cd.block ≠ k) :
    w'.mem.block k = w.mem.block k := by
  by_cases hs : b.readonly = true ∨ 1 < b.refcount
  · rw [(h.shared hs).2.2]
  · simp only [not_or,Bool.not_eq_true,not_lt] at hs
    exact h.carries.frame k (hsep hs.1 hs.2).symm hk

variable (h : Valid w.mem b) (hr : b.readonly = false) (hone : b.refcount ≤ 1)

include h hr hone

omit h in
lemma not_shared : ¬ (b.readonly = true ∨ 1 < b.refcount) := by
  rintro (hs | hs)
  · rw [hr] at hs
    cases hs
  · omega

lemma recallocarray_moves (a : Allocator) (rlen : Nat) (hsize : b.size ≤ rlen)
    (hmax : rlen ≤ b.maxSize) :
    ∃ dp w', recallocarray a w b.cd b.alloc rlen = .ok (dp,w') ∧ (dp = none → w'.mem = w.mem) ∧
      ∀ q, dp = some q → Moves b w { b with cd := q, d := some q, alloc := rlen } w' ∧
        contents w'.mem { b with cd := q, d := some q, alloc := rlen } = contents w.mem b := by
  obtain ⟨cells,hcells,hlen⟩ := h.block
  have hpos := h.start hr
  obtain ⟨hoff,hle,-,hlimit⟩ := h.bounds
  obtain ⟨dp,w',hre,hnone,hsome⟩ := recallocarray_ok a b.alloc rlen hcells hpos (by omega)
  refine ⟨dp,w',hre,hnone,fun q hq => ?_⟩
  obtain ⟨hqpos,hcarries,cells',hcells',hlen',htake⟩ := hsome q hq
  obtain ⟨-,hrefs,hrefs',-⟩ := checkSanity_iff.mp h.sane
  refine ⟨⟨⟨?_,?_,fun _ => hqpos,cells',hcells',?_⟩,rfl,rfl,rfl,hcarries,?_⟩,?_⟩
  · exact checkSanity_iff.mpr ⟨.inr rfl,hrefs,hrefs',hlimit,hmax,hsize,hoff⟩
  · intro hr'
    rw [hr] at hr'
    cases hr'
  · dsimp only
    omega
  · exact fun hs => absurd hs (not_shared hr hone)
  · rw [contents_eq hcells,contents_eq hcells']
    rw [hpos,hqpos,Nat.zero_add,← drop_take,← drop_take,htake _ hle hsize]

omit hone in
lemma write_moves {p : Nat} {v : Bytes} (hp : p + v.length ≤ b.alloc) :
    ∃ w', w.write ⟨b.cd.block,b.cd.pos + p⟩ v = .ok w' ∧ Valid w'.mem b ∧
      Carries w.mem w'.mem b.cd.block b.cd.block ∧ ∀ cells, w.mem.block b.cd.block = some cells →
        w'.mem.block b.cd.block = some (splice cells p v) := by
  obtain ⟨cells,hcells,hlen⟩ := h.block
  have hpos := h.start hr
  have hfits : (⟨b.cd.block,b.cd.pos + p⟩ : Ptr).pos + v.length ≤ cells.length := by
    dsimp only
    omega
  obtain ⟨w',hw,hblock,hcarries⟩ := write_ok (p := ⟨b.cd.block,b.cd.pos + p⟩) hcells hfits
  refine ⟨w',hw,⟨h.sane,h.view,h.start,_,hblock,?_⟩,hcarries,?_⟩
  · rw [length_splice hfits]
    exact hlen
  · intro cells' hcells'
    rw [hcells] at hcells'
    cases hcells'
    rw [hblock,hpos,Nat.zero_add]

end

end PkixSsh.Buffer
