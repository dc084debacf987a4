import PkixSsh.Lib.Forest
import PkixSsh.Buffer.Queue
import PkixSsh.Buffer.Reads

/-!
# A program with many buffers

Buffers by number, with the pointers that the program still has. Children keep their parent in use;
`sshbuf_free` drops one reference and may go on to the parents.
-/

namespace PkixSsh.Buffer

open Blocks Machine

/-- The buffers in use, the pointers the program has, and the memory. The blocks below
`foreign` are data of the program itself. -/
structure Heap where
  bufs : Nat → Option Sshbuf
  nextBuf : Nat
  held : Nat → Bool
  foreign : Nat
  w : World

namespace Heap

/-- No buffers, and all blocks are the program's. -/
def init (w : World) : Heap := ⟨fun _ => none,0,fun _ => false,w.mem.next,w⟩

def set (h : Heap) (id : Nat) (b : Option Sshbuf) : Heap :=
  { h with bufs := Function.update h.bufs id b }

def add (h : Heap) (b : Sshbuf) : Heap :=
  { h with bufs := Function.update h.bufs h.nextBuf (some b), nextBuf := h.nextBuf + 1
           held := Function.update h.held h.nextBuf true }

end Heap

variable (a : Allocator) (h : Heap)

def sshbufFromb (id : Nat) (b : Sshbuf) (w : World) : Except Fault (Ret Sshbuf) :=
  if !checkSanity b then .error .sigsegv
  else
    match sshbufFrom a w (sshbufPtr b) (sshbufLen b) with
    | (none,w) => .ok ⟨.error .allocFail,b,w⟩
    | (some ret,w) => do
      let (ret,b) ← sshbufSetParent ret b id
      return ⟨.ok ret,b,w⟩

def freezero (w : World) (p : Ptr) (sz : Nat) : Except Fault World := do
  let w ← w.write p (List.replicate sz 0)
  w.free p

def freeData (w : World) (b : Sshbuf) : Except Fault World :=
  if !b.readonly then do
    let d ← deref b.d
    freezero w d b.alloc
  else .ok w

/-- The end of `sshbuf_free`: the data of the buffer and the buffer itself are released. -/
def release (id : Nat) (b : Sshbuf) : Except Fault Heap := do
  let w ← freeData h.w b
  return { h.set id none with w := w }

/-- `sshbuf_free`. A parent is older than its child, so that its number bounds the depth of
the recursion. -/
def sshbufFreeLoop : Nat → Heap → Nat → Except Fault Heap
  | 0,_,_ => .error .access
  | fuel + 1,h,id =>
    match h.bufs id with
    | none => .error .access
    | some b =>
      if !checkSanity b then .error .sigsegv
      else
        let b := { b with refcount := b.refcount - 1 }
        let h := h.set id (some b)
        if b.refcount > 0 then .ok h
        else do
          let h ← match b.parent with
            | none => .ok h
            | some parent => sshbufFreeLoop fuel h parent
          release h id b

def sshbufFree (id : Nat) : Except Fault Heap := sshbufFreeLoop (id + 1) h id

inductive BufOp where
  | queue (op : QueueOp)
  | reserve (len : Nat)
  | setMaxSize (maxSize : Nat)
  | reset
  | poke (offset : Nat) (v : Bytes)

def bufCall (b : Sshbuf) (w : World) : BufOp → Except Fault (Answer × Sshbuf × World)
  | .queue op => queueCall a (b,w) op
  | .reserve len => do
    let s ← sshbufReserve a b w len
    return (noValue (s.r.map fun _ => ()),s.buf,s.w)
  | .setMaxSize maxSize => do
    let s ← sshbufSetMaxSize a b w maxSize
    return (noValue s.r,s.buf,s.w)
  | .reset => do
    let (b,w) ← sshbufReset a b w
    return (.ok [],b,w)
  | .poke offset v => do
    let s ← sshbufPoke b w offset v
    return (noValue s.r,s.buf,s.w)

inductive HeapOp where
  | new
  | fromData (blob : Ptr) (len : Nat)
  | fromb (id : Nat)
  | froms (id : Nat)
  | call (id : Nat) (op : BufOp)
  | free (id : Nat)

def spawn (id : Nat) (f : Sshbuf → World → Except Fault (Ret Sshbuf)) :
    Except Fault (Answer × Heap) :=
  match h.bufs id with
  | none => .error .access
  | some b => do
    let s ← f b h.w
    let h := { h.set id (some s.buf) with w := s.w }
    match s.r with
    | .error e => return (.error e,h)
    | .ok child => return (.ok [],h.add child)

/-- One call. Only pointers the program has are passed, and only memory of its own to
`sshbuf_from`; anything else is not a call. -/
def heapStep : HeapOp → Except Fault (Answer × Heap)
  | .new =>
    match sshbufNew a h.w with
    | (none,w) => .ok (.error .allocFail,{ h with w := w })
    | (some b,w) => .ok (.ok [],{ h with w := w }.add b)
  | .fromData blob len =>
    if blob.block < h.foreign ∧ (h.w.mem.read blob.block blob.pos len).isSome then
      match sshbufFrom a h.w blob len with
      | (none,w) => .ok (.error .allocFail,{ h with w := w })
      | (some b,w) => .ok (.ok [],{ h with w := w }.add b)
    else .ok (.ok [],h)
  | .fromb id => if h.held id then spawn h id (sshbufFromb a id) else .ok (.ok [],h)
  | .froms id => if h.held id then spawn h id (sshbufFroms a id) else .ok (.ok [],h)
  | .call id op =>
    if h.held id then
      match h.bufs id with
      | none => .error .access
      | some b => do
        let (r,b,w) ← bufCall a b h.w op
        return (r,{ h.set id (some b) with w := w })
    else .ok (.ok [],h)
  | .free id =>
    if h.held id then do
      let h ← sshbufFree { h with held := Function.update h.held id false } id
      return (.ok [],h)
    else .ok (.ok [],h)

/-- The calls that end well: a reset as `resetSafe` says, and no child of a buffer that has as
many references as are counted. -/
def heapSafe : HeapOp → Prop
  | .fromb id | .froms id => ∀ b, h.bufs id = some b → b.refcount < sshbufRefsMax
  | .call id .reset => ∀ b, h.bufs id = some b → resetSafe a b h.w
  | _ => True

end PkixSsh.Buffer
