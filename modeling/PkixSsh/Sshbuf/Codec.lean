import PkixSsh.Sshbuf.Basic

/-!
# Writers with the readers that undo them

The relation that a reader finds a given value in what a writer appends. It is closed under
sequencing, so that records are read back field by field.
-/

namespace PkixSsh.Sshbuf

open List

variable {α β : Type}

/-- Whatever `write` appends, `read` takes as `a`, and all of it. -/
def ReadsBack (write : Bytes → Except SshErr Bytes) (read : Get α) (a : α) : Prop :=
  ∀ m r, write m = .ok r → ∃ bs, r = m ++ bs ∧ ∀ rest, read (bs ++ rest) = .ok (a,rest)

variable {write write' : Bytes → Except SshErr Bytes} {read : Get α}
  {k : α × Bytes → Except SshErr (β × Bytes)} {n : Nat}

lemma ReadsBack.bind {a : α} {b : β} (h : ReadsBack write read a)
    (h' : ReadsBack write' (fun buf => k (a,buf)) b) :
    ReadsBack (fun m => write m >>= write') (fun buf => read buf >>= k) b := by
  intro m r hr
  obtain ⟨m',hm,hr⟩ := bind_eq_ok.mp hr
  obtain ⟨bs,rfl,hbs⟩ := h m m' hm
  obtain ⟨bs',rfl,hbs'⟩ := h' _ r hr
  refine ⟨bs ++ bs',append_assoc m bs bs',?_⟩
  intro rest
  show (read _ >>= k) = _
  rw [append_assoc,hbs]
  exact hbs' rest

lemma ReadsBack.map {a : α} {b : β} (h : ReadsBack write read a)
    (hk : ∀ buf, k (a,buf) = .ok (b,buf)) : ReadsBack write (fun buf => read buf >>= k) b := by
  intro m r hr
  obtain ⟨bs,rfl,hbs⟩ := h m r hr
  refine ⟨bs,rfl,?_⟩
  intro rest
  show (read _ >>= k) = _
  rw [hbs,ok_bind,hk]

lemma readsBack_putU8 (v : UInt8) : ReadsBack (putU8 v) getU8 v := by
  intro m r h
  obtain ⟨-,rfl⟩ := put_iff.mp h
  exact ⟨[v],rfl,fun rest => rfl⟩

lemma readsBack_putU32 (hn : n < 2 ^ 32) : ReadsBack (putU32 n) getU32 n := by
  intro m r h
  obtain ⟨-,rfl⟩ := put_iff.mp h
  exact ⟨_,rfl,getUint_encode (by omega)⟩

lemma readsBack_putU64 (hn : n < 2 ^ 64) : ReadsBack (putU64 n) getU64 n := by
  intro m r h
  obtain ⟨-,rfl⟩ := put_iff.mp h
  exact ⟨_,rfl,getUint_encode (by omega)⟩

lemma readsBack_putString (v : Bytes) : ReadsBack (putString v) getString v := by
  intro m r h
  obtain ⟨hl,rfl⟩ := putString_iff.mp h
  exact ⟨_,rfl,getString_framed (by omega)⟩

lemma readsBack_putCstring {v : Bytes} (hv : 0 ∉ v) : ReadsBack (putString v) getCstring v := by
  intro m r h
  obtain ⟨hl,rfl⟩ := putString_iff.mp h
  exact ⟨_,rfl,getCstring_framed hv (by omega)⟩

/-- The writer appends this many bytes wherever they fit. -/
def Fits (write : Bytes → Except SshErr Bytes) (n : Nat) : Prop :=
  ∀ m, m.length + n ≤ sshbufSizeMax → ∃ r, write m = .ok r ∧ r.length = m.length + n

lemma Fits.bind {n' : Nat} (h : Fits write n) (h' : Fits write' n') :
    Fits (fun m => write m >>= write') (n + n') := by
  intro m hm
  obtain ⟨r,hr,hl⟩ := h m (by omega)
  obtain ⟨r',hr',hl'⟩ := h' r (by omega)
  refine ⟨r',?_,by omega⟩
  show (write m >>= write') = _
  rw [hr,ok_bind,hr']

lemma fits_put (v : Bytes) : Fits (put v) v.length := by
  intro m hm
  exact ⟨m ++ v,put_iff.mpr ⟨hm,rfl⟩,length_append⟩

lemma fits_putU8 (v : UInt8) : Fits (putU8 v) 1 := fits_put [v]

lemma fits_putU32 (n : Nat) : Fits (putU32 n) 4 := by
  have := fits_put (BigEndian.encode 4 n)
  rwa [BigEndian.length_encode] at this

lemma fits_putU64 (n : Nat) : Fits (putU64 n) 8 := by
  have := fits_put (BigEndian.encode 8 n)
  rwa [BigEndian.length_encode] at this

lemma fits_putString (v : Bytes) : Fits (putString v) (v.length + 4) := by
  intro m hm
  refine ⟨m ++ framed v,putString_iff.mpr ⟨hm,rfl⟩,?_⟩
  rw [length_append,length_framed]

/-- The writer appends these bytes, whatever the buffer holds. -/
def Writes (write : Bytes → Except SshErr Bytes) (bs : Bytes) : Prop :=
  ∀ m r, write m = .ok r → r = m ++ bs

lemma Writes.bind {bs bs' : Bytes} (h : Writes write bs) (h' : Writes write' bs') :
    Writes (fun m => write m >>= write') (bs ++ bs') := by
  intro m r hr
  obtain ⟨m',hm,hr⟩ := bind_eq_ok.mp hr
  rw [h' m' r hr,h m m' hm,append_assoc]

lemma writes_putString (v : Bytes) : Writes (putString v) (framed v) :=
  fun _ _ h => (putString_iff.mp h).2

def Stable (read : Get α) : Prop :=
  ∀ buf a rest tail, read buf = .ok (a,rest) → read (buf ++ tail) = .ok (a,rest ++ tail)

lemma Stable.bind (h : Stable read) (h' : ∀ a, Stable fun buf => k (a,buf)) :
    Stable fun buf => read buf >>= k := by
  intro buf b rest tail hr
  obtain ⟨⟨a,buf'⟩,ha,hr⟩ := bind_eq_ok.mp hr
  show (read _ >>= k) = _
  rw [h buf a buf' tail ha]
  exact h' a buf' b rest tail hr

lemma Stable.pure (a : α) : Stable fun buf => .ok (a,buf) := by
  intro buf b rest tail h
  cases h
  rfl

lemma Stable.error (e : SshErr) : Stable (fun _ => .error e : Get α) := by
  intro buf b rest tail h
  cases h

lemma Stable.ite {read' : Get α} (h : Stable read) (h' : Stable read') (p : Prop) [Decidable p] :
    Stable fun buf => if p then read buf else read' buf := by
  by_cases hp : p
  · simp only [if_pos hp]
    exact h
  · simp only [if_neg hp]
    exact h'

lemma Stable.mapError (h : Stable read) (f : SshErr → SshErr) :
    Stable fun buf => (read buf).mapError f := by
  intro buf a rest tail hr
  dsimp only at hr ⊢
  cases hread : read buf with
  | error e =>
    rw [hread] at hr
    cases hr
  | ok p =>
    rw [hread] at hr
    cases hr
    rw [h buf a rest tail hread]
    rfl

lemma stable_getString : Stable getString := by
  intro buf v rest tail h
  obtain ⟨hl,rfl⟩ := getString_ok h
  rw [append_assoc]
  exact getString_framed hl _

lemma stable_getCstring : Stable getCstring := by
  intro buf v rest tail h
  obtain ⟨d,hd,hnul,rfl⟩ := getCstring_iff.mp h
  exact getCstring_iff.mpr ⟨d,stable_getString buf d rest tail hd,hnul,rfl⟩

lemma stable_getBignum2BytesDirect : Stable getBignum2BytesDirect := by
  intro buf v rest tail h
  obtain ⟨d,hd,hm,rfl⟩ := getBignum2BytesDirect_iff.mp h
  exact getBignum2BytesDirect_iff.mpr ⟨d,stable_getString buf d rest tail hd,hm,rfl⟩

end PkixSsh.Sshbuf
