import PkixSsh.Lib.Machine
import PkixSsh.Buffer.Calls

/-!
# A writable buffer is a queue of bytes

The calls a program makes on a buffer of its own, and the queue it sees: puts append to it,
gets and consumes take from its front, `sshbuf_consume_end` takes from its back.
-/

namespace PkixSsh.Buffer

open Blocks Machine List

inductive QueueOp where
  | put (v : Bytes)
  | fill (v : Bytes)
  | get (len : Nat)
  | consume (len : Nat)
  | consumeEnd (len : Nat)
  | allocate (len : Nat)

/-- How a call ends: with bytes, which only `sshbuf_get` has, or with an error. -/
abbrev Answer := Except SshErr Bytes

def noValue : Except SshErr Unit → Answer
  | .error e => .error e
  | .ok () => .ok []

def queueCall (a : Allocator) (s : Sshbuf × World) :
    QueueOp → Except Fault (Answer × Sshbuf × World)
  | .put v => do
    let t ← sshbufPut a s.1 s.2 v
    return (noValue t.r,t.buf,t.w)
  | .fill v => do
    let t ← reserveAndFill a s.1 s.2 v
    return (noValue t.r,t.buf,t.w)
  | .get len => do
    let t ← sshbufGet s.1 s.2 len
    return (t.r,t.buf,t.w)
  | .consume len => do
    let (r,b) ← sshbufConsume s.1 len
    return (noValue r,b,s.2)
  | .consumeEnd len => do
    let (r,b) ← sshbufConsumeEnd s.1 len
    return (noValue r,b,s.2)
  | .allocate len => do
    let t ← sshbufAllocate a s.1 s.2 len
    return (noValue t.r,t.buf,t.w)

def QueueOp.needs : QueueOp → Nat
  | .get len | .consume len | .consumeEnd len => len
  | .put _ | .fill _ | .allocate _ => 0

def QueueOp.room : QueueOp → Nat
  | .put v | .fill v => v.length
  | .allocate len => len
  | .get _ | .consume _ | .consumeEnd _ => 0

/-- The queue of at most `SSHBUF_SIZE_MAX` bytes. A call fails for bytes it lacks, or for room that
is beyond the limit or denied. -/
inductive QueueStep (a : Allocator) : Bytes → QueueOp → Answer → Bytes → Prop
  | put {q v : Bytes} (h : q.length + v.length ≤ sshbufSizeMax) :
    QueueStep a q (.put v) (.ok []) (q ++ v)
  | fill {q v : Bytes} (h : q.length + v.length ≤ sshbufSizeMax) :
    QueueStep a q (.fill v) (.ok []) (q ++ v)
  | allocate {q : Bytes} {len : Nat} (h : q.length + len ≤ sshbufSizeMax) :
    QueueStep a q (.allocate len) (.ok []) q
  | get {q : Bytes} {len : Nat} (h : len ≤ q.length) :
    QueueStep a q (.get len) (.ok (q.take len)) (q.drop len)
  | consume {q : Bytes} {len : Nat} (h : len ≤ q.length) :
    QueueStep a q (.consume len) (.ok []) (q.drop len)
  | consumeEnd {q : Bytes} {len : Nat} (h : len ≤ q.length) :
    QueueStep a q (.consumeEnd len) (.ok []) (q.take (q.length - len))
  | short {q : Bytes} {op : QueueOp} (h : q.length < op.needs) :
    QueueStep a q op (.error .messageIncomplete) q
  | refused {q : Bytes} {op : QueueOp} {e : SshErr} (h : sshbufSizeMax < q.length + op.room ∨
      (0 < op.room ∧ ∃ n, a.grants n = false)) :
    QueueStep a q op (.error e) q

/-- The buffer is the only reference to its bytes, has no limit of its own, and shows `q`. -/
structure Shows (s : Sshbuf × World) (q : Bytes) : Prop where
  valid : Valid s.2.mem s.1
  writable : s.1.readonly = false
  single : s.1.refcount = 1
  limit : s.1.maxSize = sshbufSizeMax
  bytes : contents s.2.mem s.1 = q

section

variable {b b' : Sshbuf} {w w' : World} {q q' : Bytes} {a : Allocator}

lemma Shows.moves (h : Shows (b,w) q) (hm : Moves b w b' w') (hmax : b'.maxSize = b.maxSize)
    (hq : contents w'.mem b' = q') : Shows (b',w') q' :=
  ⟨hm.valid,hm.readonly.trans h.writable,hm.refcount.trans h.single,hmax.trans h.limit,hq⟩

lemma Shows.read (h : Shows (b,w) q) : w.read (sshbufPtr b) (sshbufLen b) = .ok q := by
  have hall := read_contents h.valid le_rfl
  rw [h.valid.length_contents] at hall
  rw [hall,← h.valid.length_contents,take_length]
  exact congrArg _ h.bytes

lemma shows_sshbufNew (hnew : sshbufNew a w = (some b,w')) : Shows (b,w') [] := by
  have hb := sshbufNew_some hnew
  refine ⟨hb.valid,hb.readonly,hb.refcount,hb.maxSize,?_⟩
  rw [contents,hb.size,Nat.zero_sub,take_zero]

lemma canReserve_iff (h : Shows (b,w) q) (len : Nat) :
    canReserve a b w len ↔ q.length + len ≤ sshbufSizeMax ∧
      (len + packedSize b (b.size + len > b.maxSize) ≤ b.alloc ∨ a.grants w.requests = true) := by
  have hlen : q.length = b.size - b.off := by
    rw [← h.bytes]
    exact h.valid.length_contents
  have hlimit : b.maxSize = sshbufSizeMax := h.limit
  rw [canReserve,and_iff_right h.writable,and_iff_right h.single.le,← and_assoc]
  exact and_congr_left fun _ => by omega

lemma refused_of_not_canReserve (h : Shows (b,w) q) {len : Nat} (hcan : ¬ canReserve a b w len) :
    sshbufSizeMax < q.length + len ∨ (0 < len ∧ ∃ n, a.grants n = false) := by
  rw [canReserve_iff h,not_and_or,not_or] at hcan
  rcases hcan with hcan | ⟨hfits,hcan⟩
  · exact .inl (by omega)
  · refine .inr ⟨?_,_,Bool.eq_false_of_not_eq_true hcan⟩
    have hbounds := h.valid.bounds
    have hpack : packedSize b (b.size + len > b.maxSize) ≤ b.size := by
      rw [packedSize]
      split <;> omega
    dsimp only at hbounds
    omega

lemma appended_step {v : Bytes} {t : Ret Unit} (h : Shows (b,w) q) (ht : Appended a b w v t) :
    Shows (t.buf,t.w) (if t.r = .ok () then q ++ v else q) ∧
      (t.r = .ok () → q.length + v.length ≤ sshbufSizeMax) ∧
      (∀ e, t.r = .error e → sshbufSizeMax < q.length + v.length ∨
        (0 < v.length ∧ ∃ n, a.grants n = false)) := by
  refine ⟨h.moves ht.moves ht.maxSize ?_,fun hr => ?_,fun e he => ?_⟩
  · rw [ht.contents,h.bytes]
    split
    · rfl
    · exact append_nil q
  · exact ((canReserve_iff h _).mp (ht.success.mp hr)).1
  · refine refused_of_not_canReserve h fun hcan => ?_
    rw [ht.success.mpr hcan] at he
    cases he

lemma queueCall_refines {s : Sshbuf × World} (op : QueueOp) (h : Shows s q) :
    ∃ o s' q', queueCall a s op = .ok (o,s') ∧ QueueStep a q op o q' ∧ Shows s' q' := by
  obtain ⟨b,w⟩ := s
  have hvalid : Valid w.mem b := h.valid
  have hq : contents w.mem b = q := h.bytes
  cases op with
  | put v =>
    obtain ⟨t,ht,happ⟩ := sshbufPut_ok hvalid a v
    obtain ⟨hshows,hfits,hrefused⟩ := appended_step h happ
    rw [queueCall,ht,Sshbuf.ok_bind]
    cases hr : t.r with
    | ok u => exact ⟨_,_,_,rfl,.put (hfits hr),by simpa [hr] using hshows⟩
    | error e => exact ⟨_,_,_,rfl,.refused (hrefused e hr),by simpa [hr] using hshows⟩
  | fill v =>
    obtain ⟨t,ht,happ⟩ := reserveAndFill_ok hvalid a v
    obtain ⟨hshows,hfits,hrefused⟩ := appended_step h happ
    rw [queueCall,ht,Sshbuf.ok_bind]
    cases hr : t.r with
    | ok u => exact ⟨_,_,_,rfl,.fill (hfits hr),by simpa [hr] using hshows⟩
    | error e => exact ⟨_,_,_,rfl,.refused (hrefused e hr),by simpa [hr] using hshows⟩
  | allocate len =>
    obtain ⟨t,ht,halloc⟩ := sshbufAllocate_ok hvalid a len
    have hshows := h.moves halloc.moves halloc.maxSize (halloc.contents.trans hq)
    rw [queueCall,ht,Sshbuf.ok_bind]
    cases hr : t.r with
    | ok u =>
      exact ⟨_,_,_,rfl,.allocate ((canReserve_iff h _).mp (halloc.success.mp hr)).1,hshows⟩
    | error e =>
      refine ⟨_,_,_,rfl,.refused (refused_of_not_canReserve h fun hcan => ?_),hshows⟩
      rw [halloc.success.mpr hcan] at hr
      cases hr
  | get len =>
    obtain ⟨b',hg,hmoves,hmax,hbytes⟩ := sshbufGet_ok hvalid len
    have hshows := h.moves hmoves hmax hbytes
    rw [queueCall,hg]
    rw [hq] at hshows ⊢
    by_cases hlen : len ≤ q.length
    · rw [if_pos hlen] at hshows ⊢
      exact ⟨_,_,_,rfl,.get hlen,hshows⟩
    · rw [if_neg hlen] at hshows ⊢
      exact ⟨_,_,_,rfl,.short (not_le.mp hlen),hshows⟩
  | consume len =>
    obtain ⟨b',hg,hmoves,hmax,hbytes⟩ := sshbufConsume_ok hvalid len
    have hshows := h.moves hmoves hmax hbytes
    rw [queueCall,hg]
    rw [hq] at hshows ⊢
    by_cases hlen : len ≤ q.length
    · rw [if_pos hlen] at hshows ⊢
      exact ⟨_,_,_,rfl,.consume hlen,hshows⟩
    · rw [if_neg hlen] at hshows ⊢
      exact ⟨_,_,_,rfl,.short (not_le.mp hlen),hshows⟩
  | consumeEnd len =>
    obtain ⟨b',hg,hmoves,hmax,hbytes⟩ := sshbufConsumeEnd_ok hvalid len
    have hshows := h.moves hmoves hmax hbytes
    rw [queueCall,hg]
    rw [hq] at hshows ⊢
    by_cases hlen : len ≤ q.length
    · rw [if_pos hlen] at hshows ⊢
      exact ⟨_,_,_,rfl,.consumeEnd hlen,hshows⟩
    · rw [if_neg hlen,Nat.sub_zero,take_length] at hshows
      rw [if_neg hlen]
      exact ⟨_,_,_,rfl,.short (not_le.mp hlen),hshows⟩

/-- Whatever calls are made on a new buffer, none faults, and the answers and the bytes are those of
the queue. -/
theorem sshbuf_refines_queue (hnew : sshbufNew a w = (some b,w')) (ops : List QueueOp) :
    ∃ answers s q, run (queueCall a) (b,w') ops = .ok (answers,s) ∧
      Path (QueueStep a) [] ops answers q ∧ s.2.read (sshbufPtr s.1) (sshbufLen s.1) = .ok q := by
  obtain ⟨answers,s,q,hrun,hpath,hshows⟩ :=
    run_refines (fun s q op h => queueCall_refines op h) ops (shows_sshbufNew hnew)
  exact ⟨answers,s,q,hrun,hpath,hshows.read⟩

end

def generous : Allocator := ⟨fun _ => true,4096⟩

theorem sshbuf_refines_queue_generous :
    ∃ answers s q, run (queueCall generous) ((sshbufNew generous ⟨.empty,0⟩).1.get (by decide),
        (sshbufNew generous ⟨.empty,0⟩).2) [.put [1,2,3],.get 1,.consumeEnd 1] = .ok (answers,s) ∧
      Path (QueueStep generous) [] [.put [1,2,3],.get 1,.consumeEnd 1] answers q ∧
      s.2.read (sshbufPtr s.1) (sshbufLen s.1) = .ok q :=
  sshbuf_refines_queue rfl _

end PkixSsh.Buffer
