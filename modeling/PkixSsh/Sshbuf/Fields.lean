import PkixSsh.Sshbuf.Codec

/-!
# Sequences of typed fields

Fields of every type that are put one after the other are read back in the same order.
-/

namespace PkixSsh.Sshbuf

open List

inductive FieldType where
  | u8 | u16 | u32 | u64 | string | cstring | stringb | bignum2Bytes

inductive Field where
  | u8 (v : UInt8)
  | u16 (v : UInt16)
  | u32 (v : UInt32)
  | u64 (v : UInt64)
  | string (v : Bytes)
  | cstring (v : Bytes)
  | stringb (v : Bytes)
  | bignum2Bytes (v : Bytes)

namespace Field

def type : Field → FieldType
  | u8 _ => .u8
  | u16 _ => .u16
  | u32 _ => .u32
  | u64 _ => .u64
  | string _ => .string
  | cstring _ => .cstring
  | stringb _ => .stringb
  | bignum2Bytes _ => .bignum2Bytes

def put : Field → Bytes → Except SshErr Bytes
  | u8 v => putU8 v
  | u16 v => Sshbuf.put (BigEndian.encode 2 v.toNat)
  | u32 v => putU32 v.toNat
  | u64 v => putU64 v.toNat
  | string v | cstring v | stringb v => putString v
  | bignum2Bytes v => putBignum2Bytes v

/-- C strings have no NUL, and numbers up to `SSHBUF_MAX_BIGNUM` significant bytes. -/
def ok : Field → Bool
  | cstring v => 0 ∉ v
  | bignum2Bytes v => (v.dropWhile (· = 0)).length ≤ sshbufMaxBignum
  | _ => true

def read : Field → Field
  | bignum2Bytes v => bignum2Bytes (v.dropWhile (· = 0))
  | f => f

end Field

def getField : FieldType → Get Field
  | .u8 => fun b => getU8 b >>= fun r => .ok (.u8 r.1,r.2)
  | .u16 => fun b => getUint 2 b >>= fun r => .ok (.u16 r.1.toUInt16,r.2)
  | .u32 => fun b => getU32 b >>= fun r => .ok (.u32 r.1.toUInt32,r.2)
  | .u64 => fun b => getU64 b >>= fun r => .ok (.u64 r.1.toUInt64,r.2)
  | .string => fun b => getString b >>= fun r => .ok (.string r.1,r.2)
  | .cstring => fun b => getCstring b >>= fun r => .ok (.cstring r.1,r.2)
  | .stringb => fun b => getString b >>= fun r => .ok (.stringb r.1,r.2)
  | .bignum2Bytes => fun b => getBignum2BytesDirect b >>= fun r => .ok (.bignum2Bytes r.1,r.2)

def putFields (fs : List Field) (buf : Bytes) : Except SshErr Bytes :=
  fs.foldlM (fun b f => f.put b) buf

def getFields : List FieldType → Get (List Field)
  | [] => fun buf => .ok ([],buf)
  | t :: ts => fun buf => getField t buf >>= fun r =>
    getFields ts r.2 >>= fun rs => .ok (r.1 :: rs.1,rs.2)

lemma readsBack_putU16 (v : UInt16) :
    ReadsBack (put (BigEndian.encode 2 v.toNat)) (getUint 2) v.toNat := by
  intro m r h
  obtain ⟨-,rfl⟩ := put_iff.mp h
  exact ⟨_,rfl,getUint_encode v.toNat_lt⟩

lemma readsBack_putBignum2Bytes {v : Bytes}
    (hv : (v.dropWhile (· = 0)).length ≤ sshbufMaxBignum) :
    ReadsBack (putBignum2Bytes v) getBignum2BytesDirect (v.dropWhile (· = 0)) := by
  intro m r h
  obtain ⟨hlen,h⟩ := ite_error_eq_ok.mp h
  obtain ⟨-,rfl⟩ := put_iff.mp h
  refine ⟨_,rfl,fun rest => ?_⟩
  have h5 : 5 ≤ sshbufSizeMax := by decide
  rw [getBignum2BytesDirect_bignumBytes (by omega),if_pos hv]

lemma Field.readsBack {f : Field} (hf : f.ok) : ReadsBack f.put (getField f.type) f.read := by
  cases f with
  | u8 v => exact (readsBack_putU8 v).map fun _ => rfl
  | u16 v => exact (readsBack_putU16 v).map fun _ => by simp [Field.read]
  | u32 v => exact (readsBack_putU32 v.toNat_lt).map fun _ => by simp [Field.read]
  | u64 v => exact (readsBack_putU64 v.toNat_lt).map fun _ => by simp [Field.read]
  | string v | stringb v => exact (readsBack_putString v).map fun _ => rfl
  | cstring v => exact (readsBack_putCstring (of_decide_eq_true hf)).map fun _ => rfl
  | bignum2Bytes v => exact (readsBack_putBignum2Bytes (of_decide_eq_true hf)).map fun _ => rfl

lemma putFields_readsBack {fs : List Field} (h : ∀ f ∈ fs, f.ok) :
    ReadsBack (putFields fs) (getFields (fs.map Field.type)) (fs.map Field.read) := by
  induction fs with
  | nil =>
    intro m r hr
    cases hr
    exact ⟨[],(append_nil m).symm,fun _ => rfl⟩
  | cons f fs ih =>
    obtain ⟨hf,hfs⟩ := forall_mem_cons.mp h
    have hrest := (ih hfs).map (b := f.read :: fs.map _)
      (k := fun r => .ok (f.read :: r.1,r.2)) fun _ => rfl
    exact (Field.readsBack hf).bind hrest

/-- Whatever fields were put are read back, and nothing is left. -/
theorem getFields_putFields (fs : List Field) (buf : Bytes) (h : ∀ f ∈ fs, f.ok)
    (hput : putFields fs [] = .ok buf) :
    getFields (fs.map Field.type) buf = .ok (fs.map Field.read,[]) := by
  obtain ⟨bs,rfl,hread⟩ := putFields_readsBack h [] buf hput
  simpa using hread []

theorem getFields_three : getFields [.u16,.cstring,.bignum2Bytes] [1,2,0,0,0,1,97,0,0,0,2,0,128] =
    .ok ([.u16 258,.cstring [97],.bignum2Bytes [128]],[]) :=
  getFields_putFields [.u16 258,.cstring [97],.bignum2Bytes [0,0,128]] _ (by decide) rfl

end PkixSsh.Sshbuf
