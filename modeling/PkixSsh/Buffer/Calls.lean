import PkixSsh.Buffer.Contents

/-!
# The calls of `sshbuf.c` on a valid buffer

One result for each call: it does not fault, it is a move in the sense of `Moves`, and it
says what becomes of the visible bytes.
-/

namespace PkixSsh.Buffer

open Blocks List Nat

section

variable {b : Sshbuf} {w : World}

/-- The size of a buffer that `sshbuf_maybe_pack` may pack. -/
def packedSize (b : Sshbuf) (force : Bool) : Nat :=
  if force ∨ (b.off ≥ sshbufPackMin ∧ b.off ≥ b.size / 2) then b.size - b.off else b.size

structure Packed (b : Sshbuf) (w : World) (force : Bool) (b' : Sshbuf) (w' : World) : Prop where
  moves : Moves b w b' w'
  contents : contents w'.mem b' = contents w.mem b
  maxSize : b'.maxSize = b.maxSize
  alloc : b'.alloc = b.alloc
  size : b'.size ≤ b.size
  len : b'.size - b'.off = b.size - b.off
  packed : b.readonly = false → b.refcount ≤ 1 →
    b'.size = packedSize b force ∧ (force = true → b'.off = 0)

lemma sshbufMaybePack_ok (h : Valid w.mem b) (force : Bool) :
    ∃ b' w', sshbufMaybePack b w force = .ok (b',w') ∧ w'.requests = w.requests ∧
      Packed b w force b' w' := by
  rw [sshbufMaybePack]
  split
  · next hstay =>
    refine ⟨b,w,rfl,rfl,h.moves,rfl,rfl,rfl,le_rfl,rfl,fun hr hone => ?_⟩
    have hoff : b.off = 0 := hstay.resolve_right (not_shared hr hone)
    refine ⟨?_,fun _ => hoff⟩
    rw [packedSize,hoff,Nat.sub_zero,ite_self]
  · next hstay =>
    simp only [not_or,Bool.not_eq_true] at hstay
    obtain ⟨-,hr,hone⟩ := hstay
    split
    · next hforce =>
      obtain ⟨cells,hcells,hlen⟩ := h.block
      obtain ⟨hoff,hsize,halloc,hmax⟩ := h.bounds
      have hpos := h.start hr
      have hread : w.read ⟨b.cd.block,b.cd.pos + b.off⟩ (b.size - b.off) =
          .ok (contents w.mem b) := by
        rw [contents_eq hcells]
        exact read_ok hcells (by dsimp only; omega)
      have hv : (contents w.mem b).length = b.size - b.off := h.length_contents
      obtain ⟨w',hw,hvalid,hcarries,hblock⟩ :=
        write_moves h hr (p := 0) (v := contents w.mem b) (by omega)
      have hwrite : w.write b.cd _ = .ok w' := hw
      refine ⟨{ b with size := b.size - b.off, off := 0 },w',?_,?_,?_⟩
      · simp only [h.owns hr,deref,Sshbuf.ok_bind,hread,hwrite]
        rfl
      · rw [World.write] at hwrite
        split at hwrite <;> cases hwrite
        rfl
      · refine ⟨⟨hvalid.resize (by omega) (by omega) halloc hmax,rfl,rfl,rfl,hcarries,?_⟩,
          ?_,rfl,rfl,
          by dsimp only; omega,by dsimp only; omega,fun _ _ => ⟨(if_pos hforce).symm,fun _ => rfl⟩⟩
        · exact fun hs => absurd hs (not_shared hr (by omega))
        · rw [contents_eq (b := { b with size := b.size - b.off, off := 0 }) (hblock cells hcells)]
          dsimp only
          rw [hpos,drop_splice (by omega),Nat.sub_zero,← hv,take_left]
    · next hforce =>
      exact ⟨b,w,rfl,rfl,h.moves,rfl,rfl,rfl,le_rfl,rfl,
        fun _ _ => ⟨(if_neg hforce).symm,fun hf => absurd (.inl hf) hforce⟩⟩

lemma le_roundup (x : Nat) : x ≤ roundup x sshbufSizeInc := by
  simp only [roundup,sshbufSizeInc]
  omega

lemma sshbufCheckReserve_eq (h : Valid w.mem b) (len : Nat) : sshbufCheckReserve b len = .ok
      (if b.readonly ∨ b.refcount > 1 then .error .bufferReadOnly
      else if len > b.maxSize ∨ b.maxSize - len < b.size - b.off then .error .noBufferSpace
      else .ok ()) := by
  simp only [sshbufCheckReserve,h.if_sane]
  split_ifs <;> rfl

/-- Whether `sshbuf_reserve` succeeds: the buffer may be written to, its limit allows it, and
the allocator grants what the block lacks. -/
def canReserve (a : Allocator) (b : Sshbuf) (w : World) (len : Nat) : Prop :=
  b.readonly = false ∧ b.refcount ≤ 1 ∧ len ≤ b.maxSize ∧ b.size - b.off ≤ b.maxSize - len ∧
    (len + packedSize b (b.size + len > b.maxSize) ≤ b.alloc ∨ a.grants w.requests = true)

structure Allocated (a : Allocator) (b : Sshbuf) (w : World) (len : Nat) (s : Ret Unit) :
    Prop where
  moves : Moves b w s.buf s.w
  contents : contents s.w.mem s.buf = contents w.mem b
  maxSize : s.buf.maxSize = b.maxSize
  success : s.r = .ok () ↔ canReserve a b w len
  room : s.r = .ok () → s.buf.size + len ≤ s.buf.alloc

lemma sshbufAllocate_ok (h : Valid w.mem b) (a : Allocator) (len : Nat) :
    ∃ s, sshbufAllocate a b w len = .ok s ∧ Allocated a b w len s := by
  rw [sshbufAllocate,sshbufCheckReserve_eq h]
  simp only [Sshbuf.ok_bind]
  split
  · next e he =>
    refine ⟨_,rfl,h.moves,rfl,rfl,?_,nofun⟩
    refine iff_of_false nofun fun hcan => ?_
    obtain ⟨hr,hone,hlen,hspace,-⟩ := hcan
    rw [if_neg (not_shared hr hone),if_neg (by omega)] at he
    cases he
  · next hcheck =>
    split_ifs at hcheck with hs hspace
    simp only [not_or,Bool.not_eq_true] at hs
    obtain ⟨hr,hone⟩ := hs
    obtain ⟨b',w',hpack,hreq,hp⟩ := sshbufMaybePack_ok h (b.size + len > b.maxSize)
    have hr' : b'.readonly = false := hp.moves.readonly.trans hr
    have hone' : b'.refcount ≤ 1 := by
      rw [hp.moves.refcount]
      omega
    obtain ⟨hsize,hfront⟩ := hp.packed hr (by omega)
    have hlen := hp.len
    have hmax := hp.maxSize
    -- the size after packing leaves room for the request
    have hroom : b'.size + len ≤ b'.maxSize := by
      by_cases hf : b.size + len > b.maxSize
      · have := hfront (decide_eq_true hf)
        omega
      · have := hp.size
        omega
    rw [hpack]
    simp only [Sshbuf.ok_bind]
    split
    · next hhave =>
      refine ⟨_,rfl,hp.moves,hp.contents,hmax,iff_of_true rfl
        ⟨hr,by omega,by omega,by omega,.inl ?_⟩,
        fun _ => by dsimp only; omega⟩
      rw [← hsize,← hp.alloc]
      exact hhave
    · next hlack =>
      have hneed : b'.alloc + (len + b'.size - b'.alloc) = len + b'.size := by omega
      have hup := le_roundup (len + b'.size)
      rw [hneed]
      generalize hrlen : (if roundup _ _ > b'.maxSize then len + b'.size
        else roundup _ _) = rlen
      have hrange : len + b'.size ≤ rlen ∧ rlen ≤ b'.maxSize := by
        rw [← hrlen]
        split_ifs <;> omega
      obtain ⟨dp,w'',hre,hnone,hsome⟩ := recallocarray_moves hp.moves.valid hr' hone' a
        rlen (by omega) hrange.2
      have hgrants := recallocarray_isSome (by omega) hre
      rw [hreq] at hgrants
      simp only [hp.moves.valid.owns hr',deref,Sshbuf.ok_bind,hre]
      cases dp with
      | none =>
        refine ⟨_,rfl,Moves.trans h hp.moves (.of_mem_eq hp.moves.valid (hnone rfl)),?_,hmax,?_,
          nofun⟩
        · rw [← hp.contents]
          exact congrArg (contents · b') (hnone rfl)
        · refine iff_of_false nofun fun hcan => ?_
          rcases hcan.2.2.2.2 with hfits | hg
          · rw [← hp.alloc] at hfits
            omega
          · rw [hg] at hgrants
            cases hgrants
      | some q =>
        obtain ⟨hmoves,hcontents⟩ := hsome q rfl
        have hcheck' := sshbufCheckReserve_eq hmoves.valid len
        rw [if_neg (not_shared hr' hone'),if_neg (by dsimp only; omega)] at hcheck'
        simp only [hcheck']
        refine ⟨_,rfl,Moves.trans h hp.moves hmoves,hcontents.trans hp.contents,hmax,
          iff_of_true rfl ⟨hr,by omega,by omega,by omega,.inr hgrants.symm⟩,
          fun _ => by dsimp only; omega⟩

structure Reserved (a : Allocator) (b : Sshbuf) (w : World) (len : Nat) (s : Ret Ptr) : Prop where
  moves : Moves b w s.buf s.w
  maxSize : s.buf.maxSize = b.maxSize
  success : (∃ p, s.r = .ok p) ↔ canReserve a b w len
  failure : ∀ e, s.r = .error e → contents s.w.mem s.buf = contents w.mem b
  space : ∀ p, s.r = .ok p → p = ⟨s.buf.cd.block,s.buf.cd.pos + (s.buf.size - len)⟩ ∧
    s.buf.off + len ≤ s.buf.size ∧
    contents s.w.mem { s.buf with size := s.buf.size - len } = contents w.mem b

lemma sshbufReserve_ok (h : Valid w.mem b) (a : Allocator) (len : Nat) :
    ∃ s, sshbufReserve a b w len = .ok s ∧ Reserved a b w len s := by
  obtain ⟨s,hs,ha⟩ := sshbufAllocate_ok h a len
  obtain ⟨r,b',w'⟩ := s
  rw [sshbufReserve,hs]
  simp only [Sshbuf.ok_bind]
  cases r with
  | error e =>
    refine ⟨_,rfl,ha.moves,ha.maxSize,?_,fun _ _ => ha.contents,nofun⟩
    refine iff_of_false (fun ⟨p,hp⟩ => by cases hp) fun hcan => ?_
    cases ha.success.mpr hcan
  | ok u =>
    have hcan := ha.success.mp rfl
    have hroom : b'.size + len ≤ b'.alloc := ha.room rfl
    have hmoves : Moves b w b' w' := ha.moves
    obtain ⟨hoff,hsize,halloc,hmax⟩ := hmoves.valid.bounds
    have hd : deref b'.d = .ok b'.cd := by
      rw [hmoves.valid.owns (hmoves.readonly.trans hcan.1)]
      rfl
    simp only [hd]
    refine ⟨_,rfl,hmoves.resize (by omega) (by omega) halloc hmax,ha.maxSize,
      iff_of_true ⟨_,rfl⟩ hcan,nofun,?_⟩
    rintro p ⟨⟩
    dsimp only
    rw [Nat.add_sub_cancel]
    exact ⟨rfl,by omega,ha.contents⟩

variable {m : Memory UInt8} {v : Bytes} {a : Allocator} {p : Ptr} {w' : World} {len : Nat}

lemma contents_splice {m' : Memory UInt8} {cells : Bytes} (hv : Valid m b)
    (hcells : m.block b.cd.block = some cells) (hpos : b.cd.pos = 0)
    (hlen : b.off + v.length ≤ b.size)
    (h : m'.block b.cd.block = some (splice cells (b.size - v.length) v)) :
    contents m' b = contents m { b with size := b.size - v.length } ++ v := by
  obtain ⟨cells',hcells',hle⟩ := hv.block
  rw [hcells] at hcells'
  cases hcells'
  have hbounds := hv.bounds
  have hsize : b.size - v.length + v.length = b.size := by omega
  have hshort : b.off ≤ (cells.take (b.size - v.length)).length := by
    rw [length_take]
    omega
  rw [contents_eq h,contents_eq (b := { b with size := b.size - v.length }) hcells]
  rw [hpos,zero_add,← drop_take,← drop_take,← drop_append_of_le_length hshort]
  nth_rw 1 [← hsize]
  rw [take_splice (by omega)]

lemma Reserved.fill {s : Ret Ptr} (h : Valid w.mem b) (hs : Reserved a b w v.length s)
    (hp : s.r = .ok p) : ∃ w', s.w.write p v = .ok w' ∧ Moves b w s.buf w' ∧
      contents w'.mem s.buf = contents w.mem b ++ v := by
  have hcan := hs.success.mp ⟨p,hp⟩
  obtain ⟨hp',hoff,hcontents⟩ := hs.space p hp
  have hr : s.buf.readonly = false := hs.moves.readonly.trans hcan.1
  have hvalid := hs.moves.valid
  obtain ⟨w',hw,hvalid',hcarries,hblock⟩ := write_moves hvalid hr
    (p := s.buf.size - v.length) (v := v) (by have := hvalid.bounds; omega)
  obtain ⟨cells,hcells,-⟩ := hvalid.block
  refine ⟨w',hp' ▸ hw,Moves.trans h hs.moves ⟨hvalid',rfl,rfl,rfl,hcarries,?_⟩,?_⟩
  · refine fun hshared => absurd hshared (not_shared hr ?_)
    rw [hs.moves.refcount]
    exact hcan.2.1
  · rw [contents_splice hvalid hcells (hvalid.start hr) hoff (hblock cells hcells),hcontents]

/-- `sshbuf_reserve`, and the caller writes to the space it got. -/
def reserveAndFill (a : Allocator) (b : Sshbuf) (w : World) (v : Bytes) :
    Except Fault (Ret Unit) := do
  let s ← sshbufReserve a b w v.length
  match s.r with
  | .error r => return ⟨.error r,s.buf,s.w⟩
  | .ok p =>
    let w ← s.w.write p v
    return ⟨.ok (),s.buf,w⟩

structure Appended (a : Allocator) (b : Sshbuf) (w : World) (v : Bytes) (s : Ret Unit) :
    Prop where
  moves : Moves b w s.buf s.w
  maxSize : s.buf.maxSize = b.maxSize
  success : s.r = .ok () ↔ canReserve a b w v.length
  contents : contents s.w.mem s.buf = contents w.mem b ++ (if s.r = .ok () then v else [])

lemma Reserved.failed {b' : Sshbuf} {e : SshErr} (h : Reserved a b w v.length ⟨.error e,b',w'⟩) :
    Appended a b w v ⟨.error e,b',w'⟩ := by
  refine ⟨h.moves,h.maxSize,iff_of_false nofun fun hcan => ?_,?_⟩
  · obtain ⟨p,hp⟩ := h.success.mpr hcan
    cases hp
  · simpa using h.failure e rfl

lemma reserveAndFill_ok (h : Valid w.mem b) (a : Allocator) (v : Bytes) :
    ∃ s, reserveAndFill a b w v = .ok s ∧ Appended a b w v s := by
  obtain ⟨⟨r,b',w'⟩,hs,hres⟩ := sshbufReserve_ok h a _
  rw [reserveAndFill,hs,Sshbuf.ok_bind]
  cases r with
  | error e => exact ⟨_,rfl,hres.failed⟩
  | ok p =>
    obtain ⟨w'',hw,hmoves,hcontents⟩ := hres.fill h rfl
    dsimp only at hw ⊢
    rw [hw]
    exact ⟨_,rfl,hmoves,hres.maxSize,iff_of_true rfl (hres.success.mp ⟨p,rfl⟩),hcontents⟩

lemma sshbufPut_ok (h : Valid w.mem b) (a : Allocator) (v : Bytes) :
    ∃ s, sshbufPut a b w v = .ok s ∧ Appended a b w v s := by
  obtain ⟨⟨r,b',w'⟩,hs,hres⟩ := sshbufReserve_ok h a _
  rw [sshbufPut,hs,Sshbuf.ok_bind]
  cases r with
  | error e => exact ⟨_,rfl,hres.failed⟩
  | ok p =>
    have hcan := hres.success.mp ⟨p,rfl⟩
    obtain ⟨w'',hw,hmoves,hcontents⟩ := hres.fill h rfl
    dsimp only at hw ⊢
    split
    · rw [hw]
      exact ⟨_,rfl,hmoves,hres.maxSize,iff_of_true rfl hcan,hcontents⟩
    · next hempty =>
      rw [not_not,length_eq_zero_iff] at hempty
      subst hempty
      refine ⟨_,rfl,hres.moves,hres.maxSize,iff_of_true rfl hcan,?_⟩
      simpa using (hres.space p rfl).2.2

lemma contents_drop (b : Sshbuf) (len : Nat) :
    contents m { b with off := b.off + len } = (contents m b).drop len := by
  simp only [contents,drop_take,drop_drop,add_assoc,sub_add_eq]

lemma contents_take (b : Sshbuf) (len : Nat) :
    contents m { b with size := b.size - len } = (contents m b).take (b.size - b.off - len) := by
  simp only [contents,take_take]
  congr 1
  omega

variable (h : Valid w.mem b)

include h

lemma sshbufConsume_ok (len : Nat) : ∃ b', sshbufConsume b len = .ok
        (if len ≤ (contents w.mem b).length then .ok () else .error .messageIncomplete,b') ∧
      Moves b w b' w ∧ b'.maxSize = b.maxSize ∧ contents w.mem b' =
        (contents w.mem b).drop (if len ≤ (contents w.mem b).length then len else 0) := by
  obtain ⟨hoff,hsize,halloc,hmax⟩ := h.bounds
  simp only [sshbufConsume,h.if_sane,h.length_contents,sshbufLen]
  by_cases hzero : len = 0
  · subst hzero
    exact ⟨b,by simp,h.moves,rfl,by simp⟩
  by_cases hlen : len ≤ b.size - b.off
  · rw [if_neg hzero,if_neg (by omega)]
    split
    · next hend =>
      refine ⟨_,rfl,h.moves.resize le_rfl (by omega) halloc hmax,rfl,?_⟩
      rw [drop_eq_nil_of_le (by rw [h.length_contents,sshbufLen]; omega)]
      simp [contents]
    · exact ⟨_,rfl,h.moves.resize (by omega) hsize halloc hmax,rfl,contents_drop b len⟩
  · rw [if_neg hzero,if_pos (by omega),if_neg hlen,if_neg hlen]
    exact ⟨b,rfl,h.moves,rfl,rfl⟩

lemma sshbufConsumeEnd_ok (len : Nat) : ∃ b', sshbufConsumeEnd b len = .ok
        (if len ≤ (contents w.mem b).length then .ok () else .error .messageIncomplete,b') ∧
      Moves b w b' w ∧ b'.maxSize = b.maxSize ∧ contents w.mem b' =
        (contents w.mem b).take ((contents w.mem b).length -
          if len ≤ (contents w.mem b).length then len else 0) := by
  obtain ⟨hoff,hsize,halloc,hmax⟩ := h.bounds
  have hall : contents w.mem b = (contents w.mem b).take _ :=
    (take_of_length_le h.length_contents.le).symm
  have hvis : sshbufLen b = b.size - b.off := rfl
  simp only [sshbufConsumeEnd,h.if_sane,h.length_contents]
  by_cases hzero : len = 0
  · subst hzero
    exact ⟨b,by simp,h.moves,rfl,by simpa using hall⟩
  by_cases hlen : len ≤ sshbufLen b
  · rw [if_neg hzero,if_neg (not_lt_of_ge hlen),if_pos hlen,if_pos hlen]
    exact ⟨_,rfl,h.moves.resize (by omega) (by omega) halloc hmax,rfl,contents_take b len⟩
  · rw [if_neg hzero,if_pos (not_le.mp hlen),if_neg hlen,if_neg hlen]
    exact ⟨b,rfl,h.moves,rfl,hall⟩

lemma read_contents_from {start : Nat} (hlen : start + len ≤ (contents w.mem b).length) :
    w.read ⟨b.cd.block,b.cd.pos + b.off + start⟩ len =
      .ok (((contents w.mem b).drop start).take len) := by
  obtain ⟨cells,hcells,hle⟩ := h.block
  have hbounds := h.bounds
  rw [h.length_contents,sshbufLen] at hlen
  rw [contents_eq hcells,drop_take,drop_drop,take_take,min_eq_left (by omega)]
  exact read_ok hcells (by dsimp only; omega)

lemma read_contents (hlen : len ≤ (contents w.mem b).length) :
    w.read (sshbufPtr b) len = .ok ((contents w.mem b).take len) :=
  read_contents_from h ((zero_add len).trans_le hlen)

lemma sshbufGet_ok (len : Nat) : ∃ b', sshbufGet b w len = .ok
        ⟨if len ≤ (contents w.mem b).length then .ok ((contents w.mem b).take len)
          else .error .messageIncomplete,b',w⟩ ∧
      Moves b w b' w ∧ b'.maxSize = b.maxSize ∧ contents w.mem b' =
        (contents w.mem b).drop (if len ≤ (contents w.mem b).length then len else 0) := by
  obtain ⟨b',hc,hmoves,hmax,hcontents⟩ := sshbufConsume_ok h len
  refine ⟨b',?_,hmoves,hmax,hcontents⟩
  simp only [sshbufGet,h.if_sane,hc]
  by_cases hlen : len ≤ (contents w.mem b).length
  · simp only [if_pos hlen,read_contents h hlen]
    rfl
  · simp only [if_neg hlen]
    rfl

lemma sshbufPoke_ok (offset : Nat) (v : Bytes) :
    ∃ s, sshbufPoke b w offset v = .ok s ∧ Moves b w s.buf s.w := by
  obtain ⟨hoff,hsize,halloc,hmax⟩ := h.bounds
  simp only [sshbufPoke,h.if_sane]
  split
  · exact ⟨_,rfl,h.moves⟩
  split
  · exact ⟨_,rfl,h.moves⟩
  · next hlen =>
    rw [sshbufLen] at hlen
    split
    · exact ⟨_,rfl,h.moves⟩
    · next hs =>
      simp only [not_or,Bool.not_eq_true] at hs
      obtain ⟨w',hw,hvalid,hcarries,-⟩ := write_moves h hs.1 (p := b.off + offset) (v := v)
        (by omega)
      rw [← add_assoc] at hw
      simp only [h.owns hs.1,deref,Sshbuf.ok_bind,hw]
      exact ⟨_,rfl,hvalid,rfl,rfl,rfl,hcarries,fun hs' => absurd hs' (not_shared hs.1 (by omega))⟩

omit h

lemma sshbufSetMaxSize_ok (a : Allocator) (h : Valid w.mem b) (maxSize : Nat) :
    ∃ s, sshbufSetMaxSize a b w maxSize = .ok s ∧ Moves b w s.buf s.w ∧
      contents s.w.mem s.buf = contents w.mem b := by
  simp only [sshbufSetMaxSize,h.if_sane]
  split
  · exact ⟨_,rfl,h.moves,rfl⟩
  split
  · exact ⟨_,rfl,h.moves,rfl⟩
  next hs =>
  simp only [not_or,Bool.not_eq_true] at hs
  split
  · exact ⟨_,rfl,h.moves,rfl⟩
  next hlimit =>
  obtain ⟨b',w',hpack,-,hp⟩ := sshbufMaybePack_ok h (maxSize < b.size)
  have hmoves : Moves b w b' w' := hp.moves
  have hr : b'.readonly = false := hmoves.readonly.trans hs.1
  have hone : b'.refcount ≤ 1 := by
    rw [hmoves.refcount]
    omega
  obtain ⟨hoff,hsize,halloc,hmax⟩ := hmoves.valid.bounds
  simp only [hpack,Sshbuf.ok_bind]
  split
  · next hshrink =>
    set rlen := if b'.size < sshbufSizeInit then sshbufSizeInit else roundup b'.size sshbufSizeInc
      with hrlen
    have hle : b'.size ≤ rlen := by
      rw [hrlen]
      split
      · omega
      · exact le_roundup _
    have hfits : (if rlen > maxSize then maxSize else rlen) ≤ maxSize := by
      split <;> omega
    have hholds : b'.size ≤ if rlen > maxSize then maxSize else rlen := by
      split <;> omega
    obtain ⟨dp,w'',hre,hnone,hsome⟩ := recallocarray_moves hmoves.valid hr hone a
      (if rlen > maxSize then maxSize else rlen) hholds (by omega)
    simp only [hmoves.valid.owns hr,deref,Sshbuf.ok_bind,hre]
    cases dp with
    | none =>
      refine ⟨_,rfl,hmoves.trans h (.of_mem_eq hmoves.valid (hnone rfl)),?_⟩
      rw [hnone rfl,hp.contents]
    | some q =>
      obtain ⟨hm,hc⟩ := hsome q rfl
      have hm' := Moves.trans h hmoves hm
      simp only [if_neg (not_lt_of_ge hfits)]
      exact ⟨_,rfl,hm'.resize hoff hholds hfits (by omega),hc.trans hp.contents⟩
  · split
    · exact ⟨_,rfl,hmoves,hp.contents⟩
    · exact ⟨_,rfl,hmoves.resize hoff hsize (by omega) (by omega),hp.contents⟩

/-- A reset with a limit below the initial allocation clears that many bytes even when the block
could not be resized. -/
def resetSafe (a : Allocator) (b : Sshbuf) (w : World) : Prop :=
  b.readonly = true ∨ 1 < b.refcount ∨ (sshbufSizeInit ≤ b.maxSize ∧
    (sshbufSizeInit ≤ b.alloc ∨ a.grants w.requests = true))

lemma clear_moves (h : Valid w.mem b) (hr : b.readonly = false) (hone : b.refcount ≤ 1)
    (hroom : sshbufSizeInit ≤ b.alloc) : ∃ w', (do
        let d ← deref b.d
        let w ← w.write d (List.replicate sshbufSizeInit 0)
        return (b,w)) = .ok (b,w') ∧ Moves b w b w' := by
  obtain ⟨w',hw,hvalid,hcarries,-⟩ := write_moves h hr (p := 0)
    (v := List.replicate sshbufSizeInit 0) (by rw [length_replicate]; omega)
  rw [add_zero] at hw
  refine ⟨w',?_,hvalid,rfl,rfl,rfl,hcarries,fun hs => absurd hs (not_shared hr hone)⟩
  rw [h.owns hr,deref,Sshbuf.ok_bind,hw]
  rfl

lemma sshbufReset_ok (a : Allocator) (h : Valid w.mem b) (hsafe : resetSafe a b w) :
    ∃ b' w', sshbufReset a b w = .ok (b',w') ∧ Moves b w b' w' ∧ contents w'.mem b' = [] := by
  obtain ⟨hoff,hsize,halloc,hmax⟩ := h.bounds
  rw [sshbufReset]
  split
  · exact ⟨_,w,rfl,h.moves.resize le_rfl hsize halloc hmax,by simp [contents]⟩
  next hs =>
  simp only [not_or,Bool.not_eq_true,not_lt] at hs
  obtain ⟨hr,hone⟩ := hs
  obtain ⟨hinit,hroom⟩ : sshbufSizeInit ≤ b.maxSize ∧
      (sshbufSizeInit ≤ b.alloc ∨ a.grants _ = true) := by
    rcases hsafe with hr' | hr' | hr'
    · rw [hr] at hr'
      cases hr'
    · omega
    · exact hr'
  have hempty : Moves b w _ w := h.moves.resize le_rfl (zero_le _) halloc hmax
  simp only [h.if_sane]
  by_cases hkeep : b.alloc = sshbufSizeInit
  · obtain ⟨w',hclear,hm⟩ := clear_moves hempty.valid hr hone hkeep.ge
    rw [if_neg (not_not.mpr hkeep)]
    exact ⟨_,w',hclear,hempty.trans h hm,by simp [contents]⟩
  obtain ⟨dp,w',hre,hnone,hsome⟩ := recallocarray_moves hempty.valid hr hone a _ (zero_le _) hinit
  rw [if_pos hkeep,h.owns hr,deref,Sshbuf.ok_bind]
  simp only [hre]
  cases dp with
  | some q =>
    obtain ⟨hm,-⟩ := hsome q rfl
    obtain ⟨w'',hclear,hm'⟩ := clear_moves hm.valid hr hone le_rfl
    exact ⟨_,w'',hclear,(hempty.trans h hm).trans h hm',by simp [contents]⟩
  | none =>
    -- the request was denied, so the block was not to grow
    have hdenied : ¬ b.alloc < sshbufSizeInit := by
      intro hgrow
      have := recallocarray_isSome hgrow hre
      rcases hroom with hroom | hroom
      · omega
      · rw [hroom] at this
        cases this
    have hm := Moves.of_mem_eq hempty.valid (hnone rfl)
    obtain ⟨w'',hclear,hm'⟩ := clear_moves hm.valid hr hone (not_lt.mp hdenied)
    rw [← h.owns hr]
    exact ⟨_,w'',hclear,(hempty.trans h hm).trans h hm',by simp [contents]⟩

structure Fresh (w : World) (b : Sshbuf) (w' : World) : Prop where
  mem : w'.mem = w.mem.alloc (List.replicate sshbufSizeInit 0)
  cd : b.cd = ⟨w.mem.next,0⟩
  off : b.off = 0
  size : b.size = 0
  maxSize : b.maxSize = sshbufSizeMax
  readonly : b.readonly = false
  refcount : b.refcount = 1
  parent : b.parent = none
  valid : Valid w'.mem b

lemma sshbufNew_some (h : sshbufNew a w = (some b,w')) : Fresh w b w' := by
  rw [sshbufNew] at h
  split at h
  · cases h
  split at h
  · cases h
  cases h
  refine ⟨rfl,rfl,rfl,rfl,rfl,rfl,rfl,rfl,?_,nofun,fun _ => rfl,_,Memory.block_alloc_next _ _,?_⟩
  · refine checkSanity_iff.mpr ⟨.inr rfl,?_⟩
    dsimp only
    decide +kernel
  · simp

lemma sshbufNew_none (h : sshbufNew a w = (none,w')) : w'.mem = w.mem := by
  rw [sshbufNew] at h
  split at h
  · cases h
    rfl
  split at h
  · cases h
    rfl
  · cases h

structure View (w : World) (p : Ptr) (len : Nat) (c : Sshbuf) : Prop where
  cd : c.cd = p
  off : c.off = 0
  size : c.size = len
  alloc : c.alloc = len
  readonly : c.readonly = true
  refcount : c.refcount = 1
  parent : c.parent = none
  valid : Valid w.mem c

lemma View.bytes {c : Sshbuf} (h : View w p len c) (hread : w.read p len = .ok v) :
    contents w.mem c = v := by
  obtain ⟨cells,hcells,hle⟩ := h.valid.block
  rw [contents_eq hcells,h.cd,h.off,h.size]
  rw [h.cd] at hcells
  rw [h.cd,h.alloc] at hle
  rw [read_ok hcells hle] at hread
  cases hread
  rfl

lemma sshbufFrom_ok {cells : Bytes} (a : Allocator) (len : Nat)
    (hcells : w.mem.block p.block = some cells) (hfits : p.pos + len ≤ cells.length)
    (hlen : len ≤ sshbufSizeMax) : ∃ o w', sshbufFrom a w p len = (o,w') ∧ w'.mem = w.mem ∧
      (a.grants w.requests = false → o = none) ∧
      (a.grants w.requests = true → ∃ c, o = some c ∧ View w p len c) := by
  rw [sshbufFrom,if_neg (not_lt_of_ge hlen)]
  cases hg : a.grants _ with
  | false => exact ⟨none,w.denied,rfl,rfl,fun _ => rfl,nofun⟩
  | true =>
    refine ⟨_,w.denied,rfl,rfl,nofun,fun _ => ⟨_,rfl,rfl,rfl,rfl,rfl,rfl,rfl,rfl,?_⟩⟩
    refine ⟨checkSanity_iff.mpr ⟨.inl rfl,le_rfl,?_,hlen,le_rfl,le_rfl,zero_le _⟩,
      fun _ => rfl,nofun,cells,hcells,hfits⟩
    dsimp only
    decide +kernel

end

end PkixSsh.Buffer
