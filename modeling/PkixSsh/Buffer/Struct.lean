import PkixSsh.Lib.Blocks
import PkixSsh.Sshbuf.Basic

/-!
# `struct sshbuf` and its memory

The functions of `sshbuf.c` for one buffer, over memory in blocks. Sizes are natural numbers: every
sum of them is bounded by a check before it.
-/

namespace PkixSsh.Buffer

def sshbufRefsMax : Nat := 0x100000

def sshbufSizeInit : Nat := 256

def sshbufSizeInc : Nat := 256

def sshbufPackMin : Nat := 8192

def roundup (x y : Nat) : Nat := (x + (y - 1)) / y * y

structure Ptr where
  block : Nat
  pos : Nat
  deriving DecidableEq

/-- `struct sshbuf`. The pointer `d` is null in a buffer that refers to data of others, and
`parent` is the number of a buffer. -/
structure Sshbuf where
  d : Option Ptr
  cd : Ptr
  off : Nat
  size : Nat
  maxSize : Nat
  alloc : Nat
  readonly : Bool
  refcount : Nat
  parent : Option Nat

inductive Fault where
  | sigsegv
  | access
  deriving DecidableEq

/-- The allocator: whether it grants its n-th request, and `getpagesize()`. -/
structure Allocator where
  grants : Nat → Bool
  pagesize : Nat

structure World where
  mem : Blocks.Memory UInt8
  requests : Nat

namespace World

variable (w : World)

def read (p : Ptr) (len : Nat) : Except Fault Bytes :=
  match w.mem.read p.block p.pos len with
  | none => .error .access
  | some v => .ok v

def write (p : Ptr) (v : Bytes) : Except Fault World :=
  match w.mem.write p.block p.pos v with
  | none => .error .access
  | some mem => .ok { w with mem := mem }

def free (p : Ptr) : Except Fault World :=
  match w.mem.block p.block with
  | none => .error .access
  | some _ => .ok { w with mem := w.mem.free p.block }

def denied : World := { w with requests := w.requests + 1 }

def granted (v : Bytes) : World :=
  ⟨w.mem.alloc v,w.requests + 1⟩

end World

def deref : Option Ptr → Except Fault Ptr
  | none => .error .access
  | some p => .ok p

variable (a : Allocator) (b : Sshbuf) (w : World) (len : Nat)

/-- `recallocarray` of bytes. A block that shrinks by little stays where it is. -/
def recallocarray (ptr : Ptr) (oldsize newsize : Nat) : Except Fault (Option Ptr × World) :=
  if newsize ≤ oldsize ∧ oldsize - newsize < oldsize / 2 ∧ oldsize - newsize < a.pagesize then do
    let w ← w.write ⟨ptr.block,ptr.pos + newsize⟩ (List.replicate (oldsize - newsize) 0)
    return (some ptr,w)
  else if !a.grants w.requests then .ok (none,w.denied)
  else do
    let old ← w.read ptr (min oldsize newsize)
    let w' := w.granted (old ++ List.replicate (newsize - oldsize) 0)
    let w' ← w'.free ptr
    return (some ⟨w.mem.next,0⟩,w')

def checkSanity : Bool :=
  (b.readonly || b.d = some b.cd) && 1 ≤ b.refcount && b.refcount ≤ sshbufRefsMax &&
    b.maxSize ≤ sshbufSizeMax && b.alloc ≤ b.maxSize && b.size ≤ b.alloc && b.off ≤ b.size

/-- What a call leaves behind: its value or its error, the buffer and the memory. -/
structure Ret (α : Type) where
  r : Except SshErr α
  buf : Sshbuf
  w : World

def sshbufMaybePack (force : Bool) : Except Fault (Sshbuf × World) :=
  if b.off = 0 ∨ b.readonly ∨ b.refcount > 1 then .ok (b,w)
  else if force ∨ (b.off ≥ sshbufPackMin ∧ b.off ≥ b.size / 2) then do
    let d ← deref b.d
    let v ← w.read ⟨d.block,d.pos + b.off⟩ (b.size - b.off)
    let w ← w.write d v
    return ({ b with size := b.size - b.off, off := 0 },w)
  else .ok (b,w)

def sshbufNew : Option Sshbuf × World :=
  if !a.grants w.requests then (none,w.denied)
  else if !a.grants (w.requests + 1) then (none,w.denied.denied)
  else
    (some
      { d := some ⟨w.mem.next,0⟩, cd := ⟨w.mem.next,0⟩, off := 0, size := 0
        maxSize := sshbufSizeMax, alloc := sshbufSizeInit, readonly := false
        refcount := 1, parent := none },
      w.denied.granted (List.replicate sshbufSizeInit 0))

def sshbufFrom (blob : Ptr) (len : Nat) : Option Sshbuf × World :=
  if len > sshbufSizeMax then (none,w)
  else if !a.grants w.requests then (none,w.denied)
  else
    (some
      { d := none, cd := blob, off := 0, size := len, maxSize := len, alloc := len
        readonly := true, refcount := 1, parent := none },
      w.denied)

def sshbufLen : Nat := b.size - b.off

def sshbufPtr : Ptr := ⟨b.cd.block,b.cd.pos + b.off⟩

def sshbufReset : Except Fault (Sshbuf × World) :=
  if b.readonly ∨ b.refcount > 1 then .ok ({ b with off := b.size },w)
  else if !checkSanity b then .error .sigsegv
  else do
    let b := { b with off := 0, size := 0 }
    let (b,w) ←
      if b.alloc ≠ sshbufSizeInit then do
        let d ← deref b.d
        let (dp,w) ← recallocarray a w d b.alloc sshbufSizeInit
        match dp with
        | none => .ok (b,w)
        | some dp => .ok ({ b with cd := dp, d := some dp, alloc := sshbufSizeInit },w)
      else .ok (b,w)
    let d ← deref b.d
    let w ← w.write d (List.replicate sshbufSizeInit 0)
    return (b,w)

def sshbufSetMaxSize (maxSize : Nat) : Except Fault (Ret Unit) :=
  if !checkSanity b then .error .sigsegv
  else if maxSize = b.maxSize then .ok ⟨.ok (),b,w⟩
  else if b.readonly ∨ b.refcount > 1 then .ok ⟨.error .bufferReadOnly,b,w⟩
  else if maxSize > sshbufSizeMax then .ok ⟨.error .noBufferSpace,b,w⟩
  else do
    let (b,w) ← sshbufMaybePack b w (maxSize < b.size)
    if maxSize < b.alloc ∧ maxSize > b.size then do
      let rlen := if b.size < sshbufSizeInit then sshbufSizeInit else roundup b.size sshbufSizeInc
      let rlen := if rlen > maxSize then maxSize else rlen
      let d ← deref b.d
      let (dp,w) ← recallocarray a w d b.alloc rlen
      match dp with
      | none => .ok ⟨.error .allocFail,b,w⟩
      | some dp =>
        let b := { b with cd := dp, d := some dp, alloc := rlen }
        if maxSize < b.alloc then .ok ⟨.error .noBufferSpace,b,w⟩
        else .ok ⟨.ok (),{ b with maxSize := maxSize },w⟩
    else if maxSize < b.alloc then .ok ⟨.error .noBufferSpace,b,w⟩
    else .ok ⟨.ok (),{ b with maxSize := maxSize },w⟩

def sshbufCheckReserve : Except Fault (Except SshErr Unit) :=
  if !checkSanity b then .error .sigsegv
  else if b.readonly ∨ b.refcount > 1 then .ok (.error .bufferReadOnly)
  else if len > b.maxSize ∨ b.maxSize - len < b.size - b.off then .ok (.error .noBufferSpace)
  else .ok (.ok ())

def sshbufAllocate : Except Fault (Ret Unit) := do
  match ← sshbufCheckReserve b len with
  | .error r => return ⟨.error r,b,w⟩
  | .ok () =>
    let (b,w) ← sshbufMaybePack b w (b.size + len > b.maxSize)
    if len + b.size ≤ b.alloc then return ⟨.ok (),b,w⟩
    else
      let need := len + b.size - b.alloc
      let rlen := roundup (b.alloc + need) sshbufSizeInc
      let rlen := if rlen > b.maxSize then b.alloc + need else rlen
      let d ← deref b.d
      let (dp,w) ← recallocarray a w d b.alloc rlen
      match dp with
      | none => return ⟨.error .allocFail,b,w⟩
      | some dp =>
        let b := { b with alloc := rlen, cd := dp, d := some dp }
        let r ← sshbufCheckReserve b len
        return ⟨r,b,w⟩

def sshbufReserve : Except Fault (Ret Ptr) := do
  let s ← sshbufAllocate a b w len
  match s.r with
  | .error r => return ⟨.error r,s.buf,s.w⟩
  | .ok () =>
    let d ← deref s.buf.d
    return ⟨.ok ⟨d.block,d.pos + s.buf.size⟩,{ s.buf with size := s.buf.size + len },s.w⟩

def sshbufPut (v : Bytes) : Except Fault (Ret Unit) := do
  let s ← sshbufReserve a b w v.length
  match s.r with
  | .error r => return ⟨.error r,s.buf,s.w⟩
  | .ok p =>
    if v.length ≠ 0 then
      let w ← s.w.write p v
      return ⟨.ok (),s.buf,w⟩
    else return ⟨.ok (),s.buf,s.w⟩

def sshbufConsume : Except Fault (Except SshErr Unit × Sshbuf) :=
  if !checkSanity b then .error .sigsegv
  else if len = 0 then .ok (.ok (),b)
  else if len > sshbufLen b then .ok (.error .messageIncomplete,b)
  else
    let b := { b with off := b.off + len }
    if b.off = b.size then .ok (.ok (),{ b with off := 0, size := 0 }) else .ok (.ok (),b)

def sshbufConsumeEnd : Except Fault (Except SshErr Unit × Sshbuf) :=
  if !checkSanity b then .error .sigsegv
  else if len = 0 then .ok (.ok (),b)
  else if len > sshbufLen b then .ok (.error .messageIncomplete,b)
  else .ok (.ok (),{ b with size := b.size - len })

def sshbufGet : Except Fault (Ret Bytes) :=
  if !checkSanity b then .error .sigsegv
  else do
    let p := sshbufPtr b
    let (r,b) ← sshbufConsume b len
    match r with
    | .error e => return ⟨.error e,b,w⟩
    | .ok () =>
      let v ← w.read p len
      return ⟨.ok v,b,w⟩

def sshbufPoke (offset : Nat) (v : Bytes) : Except Fault (Ret Unit) :=
  if !checkSanity b then .error .sigsegv
  else if offset ≥ 2 ^ 64 - 1 - v.length then .ok ⟨.error .invalidArgument,b,w⟩
  else if offset + v.length > sshbufLen b then .ok ⟨.error .noBufferSpace,b,w⟩
  else if b.readonly ∨ b.refcount > 1 then .ok ⟨.error .bufferReadOnly,b,w⟩
  else do
    let d ← deref b.d
    let w ← w.write ⟨d.block,d.pos + b.off + offset⟩ v
    return ⟨.ok (),b,w⟩

end PkixSsh.Buffer
