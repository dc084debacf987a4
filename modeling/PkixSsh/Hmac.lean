import PkixSsh.Libc

/-!
# The keyed hash of `hmac.c`

The states of both passes are made from the key once and copied for each message.
-/

namespace PkixSsh.Hmac

open List

/-- The digest interface: a hash function over states that take in bytes piece by piece. -/
structure Digest (σ : Type) where
  start : σ
  update : σ → Bytes → σ
  final : σ → Bytes
  hash : Bytes → Bytes
  bytes : Nat
  blocksize : Nat
  final_foldl : ∀ chunks : List Bytes, final (chunks.foldl update start) = hash chunks.flatten
  length_hash : ∀ v, (hash v).length = bytes
  bytes_le : bytes ≤ blocksize

structure HmacCtx (σ : Type) where
  ictx : σ
  octx : σ
  digest : σ
  buf : Bytes

variable {σ : Type} (d : Digest σ)

def hmacStart : HmacCtx σ := ⟨d.start,d.start,d.start,replicate d.blocksize 0⟩

def overwrite (buf v : Bytes) : Bytes := v ++ buf.drop v.length

/-- `ssh_hmac_init`, without a key for `none`. -/
def hmacInit (key : Option Bytes) (ctx : HmacCtx σ) : HmacCtx σ :=
  match key with
  | none => { ctx with digest := ctx.ictx }
  | some key =>
    let buf := overwrite ctx.buf (if key.length ≤ d.blocksize then key else d.hash key)
    let buf := buf.map (· ^^^ 0x36)
    let ictx := d.update ctx.ictx buf
    let buf := buf.map (· ^^^ (0x36 ^^^ 0x5c))
    ⟨ictx,d.update ctx.octx buf,ictx,replicate d.blocksize 0⟩

def hmacUpdate (ctx : HmacCtx σ) (m : Bytes) : HmacCtx σ :=
  { ctx with digest := d.update ctx.digest m }

/-- `ssh_hmac_final` for room of `dlen` bytes. The inner digest is put into `buf`. -/
def hmacFinal (dlen : Nat) (ctx : HmacCtx σ) : Option (Bytes × HmacCtx σ) :=
  if dlen < d.bytes then none
  else
    let buf := overwrite ctx.buf (d.final ctx.digest)
    let digest := d.update ctx.octx (buf.take d.bytes)
    some (d.final digest,{ ctx with digest, buf })

/-- A message in pieces, from `ssh_hmac_init` to `ssh_hmac_final`. -/
def hmacMessage (dlen : Nat) (key : Option Bytes) (ctx : HmacCtx σ) (chunks : List Bytes) :
    Option (Bytes × HmacCtx σ) :=
  hmacFinal d dlen (chunks.foldl (hmacUpdate d) (hmacInit d key ctx))

def hmacMessages (dlen : Nat) (ctx : HmacCtx σ) : List (List Bytes) → Option (List Bytes)
  | [] => some []
  | m :: ms => do
    let (mac,ctx) ← hmacMessage d dlen none ctx m
    let macs ← hmacMessages dlen ctx ms
    return mac :: macs

/-- The key of RFC 2104: hashed if it is longer than a block, and filled up with zeros. -/
def blockKey (key : Bytes) : Bytes :=
  let key := if key.length ≤ d.blocksize then key else d.hash key
  key ++ replicate (d.blocksize - key.length) 0

def hmac (key text : Bytes) : Bytes :=
  d.hash ((blockKey d key).map (· ^^^ 0x5c) ++
    d.hash ((blockKey d key).map (· ^^^ 0x36) ++ text))

structure Keyed (key : Bytes) (ctx : HmacCtx σ) : Prop where
  ictx : ctx.ictx = d.update d.start ((blockKey d key).map (· ^^^ 0x36))
  octx : ctx.octx = d.update d.start ((blockKey d key).map (· ^^^ 0x5c))

variable {d} {key : Bytes} {ctx : HmacCtx σ} {dlen : Nat}

lemma final_update (v : Bytes) (chunks : List Bytes) :
    d.final (chunks.foldl d.update (d.update d.start v)) = d.hash (v ++ chunks.flatten) :=
  d.final_foldl (v :: chunks)

lemma foldl_hmacUpdate (ctx : HmacCtx σ) (chunks : List Bytes) :
    chunks.foldl (hmacUpdate d) ctx = { ctx with digest := chunks.foldl d.update ctx.digest } := by
  induction chunks generalizing ctx with
  | nil => rfl
  | cons m chunks ih => exact ih _

/-- The first message finds the states that the later ones find. -/
lemma hmacInit_some (key : Bytes) : ∃ ctx, Keyed d key ctx ∧
    hmacInit d (some key) (hmacStart d) = hmacInit d none ctx := by
  have hbuf : overwrite (hmacStart d).buf (if key.length ≤ d.blocksize then key else d.hash key) =
      blockKey d key := by
    simp [overwrite,hmacStart,blockKey]
  have hxor : (fun c : UInt8 => c ^^^ (0x36 ^^^ 0x5c)) ∘ (· ^^^ 0x36) = (· ^^^ 0x5c) := by
    funext c
    calc c ^^^ 0x36 ^^^ (0x36 ^^^ 0x5c) = c ^^^ (0x36 ^^^ (0x36 ^^^ 0x5c)) := UInt8.xor_assoc _ _ _
      _ = c ^^^ 0x5c := by rw [← UInt8.xor_assoc 0x36,UInt8.xor_self,UInt8.zero_xor]
  refine ⟨hmacInit d (some key) _,⟨?_,?_⟩,rfl⟩
  · rw [hmacInit,hbuf]
    rfl
  · rw [hmacInit,hbuf,map_map,hxor]
    rfl

lemma hmacMessage_keyed (h : Keyed d key ctx) (hlen : d.bytes ≤ dlen) (chunks : List Bytes) :
    ∃ ctx', hmacMessage d dlen none ctx chunks = some (hmac d key chunks.flatten,ctx') ∧
      Keyed d key ctx' := by
  have hinner : d.final (chunks.foldl d.update ctx.ictx) =
      d.hash ((blockKey d key).map (· ^^^ 0x36) ++ chunks.flatten) := by
    rw [h.ictx,final_update]
  rw [hmacMessage,foldl_hmacUpdate,hmacFinal,if_neg (Nat.not_lt.mpr hlen)]
  refine ⟨_,congrArg some (Prod.ext ?_ rfl),h.ictx,h.octx⟩
  -- the inner digest is what stands in front in `buf`
  dsimp only [hmacInit,overwrite]
  rw [hinner,take_left' (d.length_hash _),h.octx]
  calc _ = d.hash _ := final_update _ [_]
    _ = _ := by rw [flatten_singleton,hmac]

lemma hmacMessages_keyed (h : Keyed d key ctx) (hlen : d.bytes ≤ dlen) (ms : List (List Bytes)) :
    hmacMessages d dlen ctx ms = some (ms.map fun m => hmac d key m.flatten) := by
  induction ms generalizing ctx with
  | nil => rfl
  | cons m ms ih =>
    obtain ⟨ctx',hm,h'⟩ := hmacMessage_keyed h hlen m
    rw [hmacMessages,hm]
    simp [ih h']

/-- Every message gets its keyed hash, the first one with the key and the later ones without. -/
theorem hmacMessages_hmac (d : Digest σ) (key : Bytes) (m : List Bytes) (ms : List (List Bytes))
    (dlen : Nat) (hlen : d.bytes ≤ dlen) : ∃ ctx,
      hmacMessage d dlen (some key) (hmacStart d) m = some (hmac d key m.flatten,ctx) ∧
        hmacMessages d dlen ctx ms = some (ms.map fun m => hmac d key m.flatten) := by
  obtain ⟨ctx0,hkeyed,hinit⟩ := hmacInit_some key
  obtain ⟨ctx,hm,h⟩ := hmacMessage_keyed hkeyed hlen m
  refine ⟨ctx,?_,hmacMessages_keyed h hlen ms⟩
  rw [hmacMessage,hinit]
  exact hm

def firstBytes : Digest Bytes where
  start := []
  update s v := s ++ v
  final s := (s ++ replicate 4 0).take 4
  hash v := (v ++ replicate 4 0).take 4
  bytes := 4
  blocksize := 6
  final_foldl chunks := by
    rw [foldl_append_eq_append]
    simp
  length_hash v := by simp
  bytes_le := by decide

theorem hmacMessages_two : ∃ ctx,
    hmacMessage firstBytes 4 (some [1]) (hmacStart firstBytes) [[2],[3]] =
        some (hmac firstBytes [1] [2,3],ctx) ∧
      hmacMessages firstBytes 4 ctx [[[4]]] = some [hmac firstBytes [1] [4]] :=
  hmacMessages_hmac _ [1] _ _ 4 (by decide)

end PkixSsh.Hmac
