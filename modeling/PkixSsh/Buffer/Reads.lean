import PkixSsh.Buffer.Calls

/-!
# The typed reads of `sshbuf-getput-basic.c`

The reads on a buffer in memory agree with the reads of a list of bytes. Those that fail for lack of
memory or room have not all left the source alone.
-/

namespace PkixSsh.Buffer

open Blocks List BigEndian

open PkixSsh.Sshbuf (ok_bind getString peekStringDirect getCstring getBignum2BytesDirect)

/-- `sshbuf_get_u64`, `sshbuf_get_u32`, `sshbuf_get_u16` and `sshbuf_get_u8`, by their width. -/
def sshbufGetUint (width : Nat) (b : Sshbuf) (w : World) : Except Fault (Ret Nat) := do
  let s ← sshbufGet b w width
  return ⟨s.r.map decode,s.buf,s.w⟩

def sshbufPeekStringDirect (b : Sshbuf) (w : World) : Except Fault (Except SshErr (Ptr × Nat)) :=
  if !checkSanity b then .error .sigsegv
  else if sshbufLen b < 4 then .ok (.error .messageIncomplete)
  else do
    let p := sshbufPtr b
    let len := decode (← w.read p 4)
    if len > sshbufSizeMax - 4 then return .error .stringTooLarge
    else if sshbufLen b - 4 < len then return .error .messageIncomplete
    else return .ok (⟨p.block,p.pos + 4⟩,len)

/-- `sshbuf_get_string_direct`. The pointer it returns is one into the buffer. -/
def sshbufGetStringDirect (b : Sshbuf) (w : World) : Except Fault (Ret (Ptr × Nat)) := do
  match ← sshbufPeekStringDirect b w with
  | .error e => return ⟨.error e,b,w⟩
  | .ok (p,len) =>
    let (r,b) ← sshbufConsume b (len + 4)
    match r with
    | .error _ => return ⟨.error .internalError,b,w⟩
    | .ok () => return ⟨.ok (p,len),b,w⟩

def sshbufSkipString (b : Sshbuf) (w : World) : Except Fault (Ret (Ptr × Nat)) :=
  sshbufGetStringDirect b w

variable (a : Allocator)

/-- The copy that `sshbuf_get_string` and `sshbuf_get_cstring` make in the end, if the caller
wants the value. -/
def copyValue (want : Bool) (b : Sshbuf) (w : World) (p : Ptr) (len : Nat) :
    Except Fault (Ret (Option Ptr × Nat)) :=
  if want then
    if !a.grants w.requests then .ok ⟨.error .allocFail,b,w.denied⟩
    else do
      let v ← w.read p len
      return ⟨.ok (some ⟨w.mem.next,0⟩,len),b,w.granted (v ++ [0])⟩
  else .ok ⟨.ok (none,len),b,w⟩

def sshbufGetString (want : Bool) (b : Sshbuf) (w : World) :
    Except Fault (Ret (Option Ptr × Nat)) := do
  let s ← sshbufGetStringDirect b w
  match s.r with
  | .error e => return ⟨.error e,s.buf,s.w⟩
  | .ok (p,len) => copyValue a want s.buf s.w p len

def sshbufGetCstring (want : Bool) (b : Sshbuf) (w : World) :
    Except Fault (Ret (Option Ptr × Nat)) := do
  match ← sshbufPeekStringDirect b w with
  | .error e => return ⟨.error e,b,w⟩
  | .ok (p,len) =>
    let v ← w.read p len
    if 0 ∈ v.dropLast then return ⟨.error .invalidFormat,b,w⟩
    else
      let s ← sshbufSkipString b w
      match s.r with
      | .error _ => return ⟨.error .internalError,s.buf,s.w⟩
      | .ok _ => copyValue a want s.buf s.w p len

def sshbufGetBignum2BytesDirect (b : Sshbuf) (w : World) : Except Fault (Ret (Ptr × Nat)) := do
  match ← sshbufPeekStringDirect b w with
  | .error e => return ⟨.error e,b,w⟩
  | .ok (p,olen) =>
    let d ← w.read p olen
    if d.head?.any (· ≥ 0x80) then return ⟨.error .bignumIsNegative,b,w⟩
    else if olen > sshbufMaxBignum + 1 ∨ (olen = sshbufMaxBignum + 1 ∧ d.head? ≠ some 0) then
      return ⟨.error .bignumTooLarge,b,w⟩
    else
      let len := (d.dropWhile (· = 0)).length
      let (r,b) ← sshbufConsume b (olen + 4)
      match r with
      | .error _ => return ⟨.error .internalError,b,w⟩
      | .ok () => return ⟨.ok (⟨p.block,p.pos + (olen - len)⟩,len),b,w⟩

/-- `sshbuf_set_parent` of a new buffer, which becomes a child of the buffer with number `id`. -/
def sshbufSetParent (child parent : Sshbuf) (id : Nat) : Except Fault (Sshbuf × Sshbuf) :=
  if !checkSanity child then .error .sigsegv
  else if !checkSanity parent then .error .sigsegv
  else .ok ({ child with parent := some id },{ parent with refcount := parent.refcount + 1 })

def sshbufFroms (id : Nat) (b : Sshbuf) (w : World) :
    Except Fault (Ret Sshbuf) := do
  match ← sshbufPeekStringDirect b w with
  | .error e => return ⟨.error e,b,w⟩
  | .ok (p,len) =>
    match sshbufFrom a w p len with
    | (none,w) => return ⟨.error .allocFail,b,w⟩
    | (some child,w) =>
      let (r,b) ← sshbufConsume b (len + 4)
      match r with
      | .error e => return ⟨.error e,b,w⟩
      | .ok () =>
        let (child,b) ← sshbufSetParent child b id
        return ⟨.ok child,b,w⟩

def sshbufGetStringb (b v : Sshbuf) (w : World) :
    Except Fault (Except SshErr Unit × Sshbuf × Sshbuf × World) := do
  match ← sshbufPeekStringDirect b w with
  | .error e => return (.error e,b,v,w)
  | .ok _ =>
    let s ← sshbufGetUint 4 b w
    match s.r with
    | .error e => return (.error e,s.buf,v,s.w)
    | .ok len =>
      let t ← sshbufReserve a v s.w len
      match t.r with
      | .error e => return (.error e,s.buf,t.buf,t.w)
      | .ok p =>
        let u ← sshbufGet s.buf t.w len
        match u.r with
        | .error e => return (.error e,u.buf,t.buf,u.w)
        | .ok bytes =>
          let w ← u.w.write p bytes
          return (.ok (),u.buf,t.buf,w)

/-- A read of a buffer ends as a read of the list `q` does and leaves the rest of the list in the
buffer. -/
inductive Follows {α β : Type} (V : β → α → Prop) (q : Bytes) :
    Except SshErr (α × Bytes) → Except SshErr β → Bytes → Prop
  | fails (e : SshErr) : Follows V q (.error e) (.error e) q
  | reads {v : α} {x : β} {rest : Bytes} (h : V x v) : Follows V q (.ok (v,rest)) (.ok x) rest

def PointsTo (w : World) (x : Ptr × Nat) (v : Bytes) : Prop :=
  x.2 = v.length ∧ w.read x.1 x.2 = .ok v

def CopyOf (w : World) (x : Option Ptr × Nat) (v : Bytes) : Prop :=
  x.2 = v.length ∧ ∀ p, x.1 = some p → w.read p (x.2 + 1) = .ok (v ++ [0])

section

variable {b : Sshbuf} {w : World}

lemma sshbufGetUint_follows (h : Valid w.mem b) (width : Nat) :
    ∃ r b', sshbufGetUint width b w = .ok ⟨r,b',w⟩ ∧ Moves b w b' w ∧
      Follows Eq (contents w.mem b) (Sshbuf.getUint width (contents w.mem b)) r
        (contents w.mem b') := by
  obtain ⟨b',hg,hmoves,-,hrest⟩ := sshbufGet_ok h width
  rw [sshbufGetUint,hg,Sshbuf.getUint,Sshbuf.get]
  by_cases hlen : width ≤ (contents w.mem b).length
  · rw [if_pos hlen] at hrest ⊢
    rw [if_neg (not_lt_of_ge hlen)]
    refine ⟨_,b',rfl,hmoves,?_⟩
    rw [hrest]
    exact .reads rfl
  · rw [if_neg hlen] at hrest ⊢
    rw [if_pos (not_le.mp hlen)]
    refine ⟨_,b',rfl,hmoves,?_⟩
    rw [hrest]
    exact .fails _

variable {α β : Type} {q q' v : Bytes} {served : Prop} {kept : Bytes → Bytes} {w' : World}
  {V : β → α → Prop} {parsed : Except SshErr (α × Bytes)} {r : Except SshErr β}

lemma peekStringDirect_length (h : peekStringDirect q = .ok v) :
    v.length + 4 ≤ q.length ∧ v = (q.drop 4).take v.length ∧
      decode (q.take 4) = v.length := by
  obtain ⟨hmax,hq⟩ := Sshbuf.peekStringDirect_ok h
  have hlen := congrArg List.length hq
  rw [length_append,Sshbuf.length_framed] at hlen
  rw [Sshbuf.framed,append_assoc] at hq
  refine ⟨by omega,?_,?_⟩
  · rw [hq,drop_left' (length_encode 4 _),take_left]
  · rw [hq,take_left' (length_encode 4 _),decode_encode]
    rw [sshbufSizeMax] at hmax
    omega

lemma sshbufPeekStringDirect_ok (h : Valid w.mem b) :
    (∃ e, peekStringDirect (contents w.mem b) = .error e ∧
      sshbufPeekStringDirect b w = .ok (.error e)) ∨
    ∃ v, peekStringDirect (contents w.mem b) = .ok v ∧ sshbufPeekStringDirect b w =
        .ok (.ok (⟨b.cd.block,b.cd.pos + b.off + 4⟩,v.length)) ∧
      w.read ⟨b.cd.block,b.cd.pos + b.off + 4⟩ v.length = .ok v := by
  have hlen := h.length_contents
  rw [sshbufPeekStringDirect,peekStringDirect,hlen]
  simp only [h.if_sane]
  split
  · exact .inl ⟨_,rfl,rfl⟩
  next hfour =>
  rw [read_contents h (by omega),ok_bind]
  split
  · exact .inl ⟨_,rfl,rfl⟩
  split
  · exact .inl ⟨_,rfl,rfl⟩
  have hvlen : (((contents w.mem b).drop 4).take (decode ((contents w.mem b).take 4))).length =
      decode ((contents w.mem b).take 4) := by
    rw [length_take,length_drop]
    omega
  refine .inr ⟨_,rfl,?_⟩
  rw [hvlen]
  exact ⟨rfl,read_contents_from h (by omega)⟩

lemma sshbufConsume_string (h : Valid w.mem b)
    (hv : peekStringDirect (contents w.mem b) = .ok v) :
    ∃ b', sshbufConsume b (v.length + 4) = .ok (.ok (),b') ∧ Moves b w b' w ∧
      contents w.mem b' = (contents w.mem b).drop (v.length + 4) := by
  obtain ⟨b',hc,hmoves,-,hrest⟩ := sshbufConsume_ok h _
  have hlen := (peekStringDirect_length hv).1
  rw [if_pos hlen] at hc hrest
  exact ⟨b',hc,hmoves,hrest⟩

lemma sshbufGetStringDirect_follows (h : Valid w.mem b) :
    ∃ r b', sshbufGetStringDirect b w = .ok ⟨r,b',w⟩ ∧ Moves b w b' w ∧
      Follows (PointsTo w) (contents w.mem b) (getString (contents w.mem b)) r
        (contents w.mem b') := by
  rw [sshbufGetStringDirect,getString]
  obtain ⟨e,hv,hpeek⟩ | ⟨v,hv,hpeek,hread⟩ := sshbufPeekStringDirect_ok h
  · rw [hv,hpeek]
    exact ⟨_,b,rfl,h.moves,.fails e⟩
  · obtain ⟨b',hc,hmoves,hrest⟩ := sshbufConsume_string h hv
    simp only [hv,hpeek,hc,ok_bind]
    refine ⟨_,b',rfl,hmoves,?_⟩
    rw [hrest]
    exact .reads ⟨rfl,hread⟩

lemma sshbufGetBignum2BytesDirect_follows (h : Valid w.mem b) :
    ∃ r b', sshbufGetBignum2BytesDirect b w = .ok ⟨r,b',w⟩ ∧ Moves b w b' w ∧
      Follows (PointsTo w) (contents w.mem b) (getBignum2BytesDirect (contents w.mem b)) r
        (contents w.mem b') := by
  rw [sshbufGetBignum2BytesDirect,getBignum2BytesDirect]
  obtain ⟨e,hv,hpeek⟩ | ⟨v,hv,hpeek,hread⟩ := sshbufPeekStringDirect_ok h
  · rw [hv,hpeek]
    exact ⟨_,b,rfl,h.moves,.fails e⟩
  · obtain ⟨b',hc,hmoves,hrest⟩ := sshbufConsume_string h hv
    obtain ⟨hlen,hvq,-⟩ := peekStringDirect_length hv
    simp only [hv,hpeek,hread,ok_bind]
    split
    · exact ⟨_,b,rfl,h.moves,.fails _⟩
    split
    · exact ⟨_,b,rfl,h.moves,.fails _⟩
    · simp only [hc]
      refine ⟨_,b',rfl,hmoves,?_⟩
      rw [hrest]
      refine .reads ⟨rfl,?_⟩
      -- the digits are the end of the string
      have hsplit := takeWhile_append_dropWhile (p := (· = (0))) (l := v)
      have hsum := congrArg List.length hsplit
      rw [length_append] at hsum
      generalize hk : v.length - (v.dropWhile _).length = k
      have htail := congrArg (List.drop k) hsplit
      rw [drop_left' (by omega)] at htail
      have hvis := congrArg (List.drop k) hvq
      rw [drop_take,show v.length - k = (v.dropWhile (· = 0)).length by omega] at hvis
      rw [Nat.add_assoc _ 4,read_contents_from h (by omega),← drop_drop,← hvis,htail]

/-- A read that may find the bytes it wants and be denied what else it needs; then it leaves
`kept` of the rest. -/
structure Attempts {α β : Type} (served : Prop) (kept : Bytes → Bytes) (V : β → α → Prop)
    (q : Bytes) (parsed : Except SshErr (α × Bytes)) (r : Except SshErr β) (q' : Bytes) :
    Prop where
  follows : served → Follows V q parsed r q'
  rejected : ∀ e, parsed = .error e → r = .error e ∧ q' = q
  denied : ¬ served → ∀ x rest, parsed = .ok (x,rest) → (∃ e, r = .error e) ∧ q' = kept rest

lemma Follows.attempts (kept : Bytes → Bytes) (h : Follows V q parsed r q') :
    Attempts True kept V q parsed r q' := by
  refine ⟨fun _ => h,fun e he => ?_,fun hs => absurd trivial hs⟩
  subst he
  cases h
  exact ⟨rfl,rfl⟩

lemma Attempts.fails (e : SshErr) : Attempts served kept V q (.error e) (.error e) q := by
  refine ⟨fun _ => .fails e,fun e' he => ?_,nofun⟩
  cases he
  exact ⟨rfl,rfl⟩

lemma Attempts.of_ok {rest : Bytes} {u : α} (hgot : served → (∃ x, r = .ok x ∧ V x u) ∧ q' = rest)
    (hdenied : ¬ served → (∃ e, r = .error e) ∧ q' = kept rest) :
    Attempts served kept V q (.ok (u,rest)) r q' := by
  refine ⟨fun hs => ?_,nofun,fun hs x rest' hx => ?_⟩
  · obtain ⟨⟨x,rfl,hx⟩,rfl⟩ := hgot hs
    exact .reads hx
  · cases hx
    exact hdenied hs

lemma Attempts.value {x : β} (h : Attempts served kept V q parsed (.ok x) q') : ∃ v, V x v := by
  cases hp : parsed with
  | error e => cases (h.rejected e hp).1
  | ok y =>
    obtain ⟨v,rest⟩ := y
    by_cases hs : served
    · have hf := h.follows hs
      rw [hp] at hf
      cases hf with
      | reads hv => exact ⟨v,hv⟩
    · obtain ⟨⟨e,he⟩,-⟩ := h.denied hs v rest hp
      cases he

lemma Attempts.unchanged_iff (h : Attempts served kept V q parsed r q') :
    (∀ e, r = .error e → q' = q) ↔ ∀ x rest, parsed = .ok (x,rest) → served ∨ kept rest = q := by
  constructor
  · intro hq x rest hp
    by_contra hno
    rw [not_or] at hno
    obtain ⟨⟨e,he⟩,hkept⟩ := h.denied hno.1 x rest hp
    exact hno.2 (hkept.symm.trans (hq e he))
  · intro hs e he
    cases hp : parsed with
    | error e' => exact (h.rejected e' hp).2
    | ok x =>
      obtain ⟨v,rest⟩ := x
      by_cases hserved : served
      · have hf := h.follows hserved
        rw [hp,he] at hf
        cases hf
      · rw [(h.denied hserved v rest hp).2]
        exact (hs v rest hp).resolve_left hserved

def Keeps (w w' : World) : Prop := ∀ k, k < w.mem.next → w'.mem.block k = w.mem.block k

lemma Keeps.refl (w : World) : Keeps w w := fun _ _ => rfl

lemma Keeps.contents (hk : Keeps w w') (h : Valid w.mem b) :
    contents w'.mem b = contents w.mem b :=
  contents_frame (hk _ h.lt_next)

lemma Keeps.valid (hk : Keeps w w') (h : Valid w.mem b) : Valid w'.mem b :=
  h.frame (hk _ h.lt_next)

lemma keeps_granted (w : World) (v : Bytes) : Keeps w (w.granted v) :=
  fun _ hk => Memory.block_alloc_of_ne _ _ hk.ne

lemma copyValue_ok {p : Ptr} (a : Allocator) (want : Bool) (hread : w.read p v.length = .ok v) :
    ∃ r w', copyValue a want b w p v.length = .ok ⟨r,b,w'⟩ ∧ Keeps w w' ∧
      ((want = true → a.grants w.requests = true) → ∃ x, r = .ok x ∧ CopyOf w' x v) ∧
      (¬ (want = true → a.grants w.requests = true) → r = .error .allocFail) := by
  rw [copyValue]
  cases want with
  | false => exact ⟨_,w,rfl,.refl w,fun _ => ⟨_,rfl,rfl,nofun⟩,fun h => by simp at h⟩
  | true =>
    cases hg : a.grants _ with
    | false => exact ⟨_,w.denied,rfl,.refl w,fun h => (by simp at h),fun _ => rfl⟩
    | true =>
      simp only [hread]
      refine ⟨_,_,rfl,keeps_granted w _,fun _ => ⟨_,rfl,rfl,?_⟩,fun h => by simp at h⟩
      rintro p ⟨⟩
      rw [read_ok (Memory.block_alloc_next _ _) (by simp)]
      exact congrArg _ (take_of_length_le (by simp))

lemma sshbufGetString_attempts (h : Valid w.mem b) (a : Allocator) (want : Bool) :
    ∃ r b' w', sshbufGetString a want b w = .ok ⟨r,b',w'⟩ ∧ Keeps w w' ∧ Valid w'.mem b' ∧
      Attempts (want = true → a.grants w.requests = true) id (CopyOf w') (contents w.mem b)
        (getString (contents w.mem b)) r (contents w'.mem b') := by
  obtain ⟨r,b',hd,hmoves,hf⟩ := sshbufGetStringDirect_follows h
  rw [sshbufGetString,hd]
  generalize hq : contents w.mem b' = q' at hf
  generalize getString _ = parsed at hf
  cases hf with
  | fails e =>
    refine ⟨_,b',w,rfl,.refl w,hmoves.valid,?_⟩
    rw [hq]
    exact .fails e
  | @reads v x rest hv =>
    obtain ⟨p,len⟩ := x
    obtain ⟨hlen,hread⟩ := hv
    subst hlen
    obtain ⟨r,w',hcopy,hkeeps,hgot,hdenied⟩ := copyValue_ok a want hread
    refine ⟨r,b',w',hcopy,hkeeps,hkeeps.valid hmoves.valid,?_⟩
    rw [hkeeps.contents hmoves.valid,hq]
    exact .of_ok (fun hs => ⟨hgot hs,rfl⟩) fun hs => ⟨⟨_,hdenied hs⟩,rfl⟩

/-- The C string that the callers see is what stands before the first NUL of the copy. -/
def CstringOf (w : World) (x : Option Ptr × Nat) (v : Bytes) : Prop :=
  ∃ d, v = Sshbuf.untilNul d ∧ CopyOf w x d

lemma sshbufGetCstring_attempts (h : Valid w.mem b) (a : Allocator) (want : Bool) :
    ∃ r b' w', sshbufGetCstring a want b w = .ok ⟨r,b',w'⟩ ∧ Keeps w w' ∧ Valid w'.mem b' ∧
      Attempts (want = true → a.grants w.requests = true) id (CstringOf w') (contents w.mem b)
        (getCstring (contents w.mem b)) r (contents w'.mem b') := by
  rw [sshbufGetCstring,getCstring]
  obtain ⟨e,hv,hpeek⟩ | ⟨v,hv,hpeek,hread⟩ := sshbufPeekStringDirect_ok h
  · rw [hv,hpeek]
    exact ⟨_,b,w,rfl,.refl w,h,.fails e⟩
  · obtain ⟨r',b',hd,hmoves,hf⟩ := sshbufGetStringDirect_follows h
    simp only [hv,hpeek,hread,ok_bind]
    split
    · exact ⟨_,b,w,rfl,.refl w,h,.fails _⟩
    · rw [getString,hv] at hf
      generalize hq : contents w.mem b' = q' at hf
      cases hf with
      | @reads _ x =>
      obtain ⟨r,w',hcopy,hkeeps,hgot,hdenied⟩ := copyValue_ok a want hread
      rw [sshbufSkipString,hd]
      refine ⟨r,b',w',hcopy,hkeeps,hkeeps.valid hmoves.valid,?_⟩
      rw [hkeeps.contents hmoves.valid,hq]
      refine .of_ok (fun hs => ⟨?_,rfl⟩) fun hs => ⟨⟨_,hdenied hs⟩,rfl⟩
      obtain ⟨x,hr,hx⟩ := hgot hs
      exact ⟨x,hr,v,rfl,hx⟩

/-- The child that `sshbuf_froms` returns shows the string. -/
structure ChildOf (w : World) (id : Nat) (c : Sshbuf) (v : Bytes) : Prop where
  valid : Valid w.mem c
  readonly : c.readonly = true
  refcount : c.refcount = 1
  parent : c.parent = some id
  bytes : contents w.mem c = v

lemma sshbufFroms_attempts (h : Valid w.mem b) (a : Allocator) (id : Nat) :
    ∃ r b' w', sshbufFroms a id b w = .ok ⟨r,b',w'⟩ ∧ w'.mem = w.mem ∧
      (∀ e, r = .error e → b' = b) ∧ (∀ c, r = .ok c → c.cd.block = b.cd.block ∧
        ∃ b1, Moves b w b1 w ∧ b' = { b1 with refcount := b1.refcount + 1 }) ∧
      Attempts (a.grants w.requests = true) (fun _ => contents w.mem b) (ChildOf w' id)
        (contents w.mem b) (getString (contents w.mem b)) r (contents w'.mem b') := by
  rw [sshbufFroms,getString]
  obtain ⟨e,hv,hpeek⟩ | ⟨v,hv,hpeek,hread⟩ := sshbufPeekStringDirect_ok h
  · rw [hv,hpeek]
    exact ⟨_,b,w,rfl,rfl,fun _ _ => rfl,by rintro _ ⟨⟩,.fails e⟩
  · obtain ⟨b',hc,hmoves,hrest⟩ := sshbufConsume_string h hv
    obtain ⟨hlen,hvq,-⟩ := peekStringDirect_length hv
    obtain ⟨cells,hcells,hle⟩ := h.block
    have hbounds := h.bounds
    have hvis := h.length_contents
    rw [sshbufLen] at hvis
    obtain ⟨o,w',hfrom,hmem,hdenied,hgot⟩ := sshbufFrom_ok (p := ⟨b.cd.block,b.cd.pos + b.off + 4⟩)
      a v.length hcells (by dsimp only; omega) (by omega)
    simp only [hv,hpeek,ok_bind,hfrom]
    cases hg : a.grants w.requests with
    | false =>
      rw [hdenied hg]
      refine ⟨_,b,w',rfl,hmem,fun _ _ => rfl,by rintro _ ⟨⟩,?_⟩
      exact .of_ok (by rintro ⟨⟩) fun _ => ⟨⟨_,rfl⟩,by rw [hmem]⟩
    | true =>
      obtain ⟨c,rfl,hview⟩ := hgot hg
      have hsane : checkSanity b' = true := hmoves.valid.sane
      simp only [hc,ok_bind,sshbufSetParent,hview.valid.if_sane,hsane]
      refine ⟨_,_,w',rfl,hmem,by rintro _ ⟨⟩,?_,.of_ok (fun _ => ⟨⟨_,rfl,?_⟩,?_⟩) ?_⟩
      · rintro c' ⟨⟩
        refine ⟨?_,b',hmoves,rfl⟩
        rw [hview.cd]
      · have hvalid : Valid w'.mem { c with parent := some id } := by
          rw [hmem]
          exact ⟨hview.valid.sane,hview.valid.view,hview.valid.start,hview.valid.block⟩
        refine ⟨hvalid,hview.readonly,hview.refcount,rfl,?_⟩
        rw [hmem]
        exact hview.bytes hread
      · rw [hmem]
        exact hrest
      · exact fun hs => absurd trivial hs

/-- A destination that may be written to has its bytes elsewhere. -/
def Apart (b d : Sshbuf) : Prop :=
  d.readonly = false → d.refcount ≤ 1 → d.cd.block ≠ b.cd.block

lemma Apart.frame {d d' : Sshbuf} (hsep : Apart b d) (h : Valid w.mem b) (hd : Moves d w d' w') :
    w'.mem.block b.cd.block = w.mem.block b.cd.block :=
  hd.other h.lt_next hsep

lemma sshbufGetUint_four (h : Valid w.mem b) (hv : peekStringDirect (contents w.mem b) = .ok v) :
    ∃ b', sshbufGetUint 4 b w = .ok ⟨.ok v.length,b',w⟩ ∧ Moves b w b' w ∧
      contents w.mem b' = (contents w.mem b).drop 4 := by
  obtain ⟨b',hg,hmoves,-,hrest⟩ := sshbufGet_ok h 4
  obtain ⟨hlen,-,hdecode⟩ := peekStringDirect_length hv
  rw [if_pos (by omega)] at hg hrest
  refine ⟨b',?_,hmoves,hrest⟩
  rw [sshbufGetUint,hg,← hdecode]
  rfl

lemma sshbufGetStringb_attempts {d : Sshbuf} (h : Valid w.mem b) (hd : Valid w.mem d)
    (hsep : Apart b d) (a : Allocator) :
    ∃ r b' d' w', sshbufGetStringb a b d w = .ok (r,b',d',w') ∧ Valid w'.mem b' ∧
      Valid w'.mem d' ∧ (∀ e, r = .error e → contents w'.mem d' = contents w.mem d) ∧
      Attempts (canReserve a d w (decode ((contents w.mem b).take 4)))
        (fun _ => (contents w.mem b).drop 4) (fun _ s => contents w'.mem d' = contents w.mem d ++ s)
        (contents w.mem b) (getString (contents w.mem b)) r (contents w'.mem b') := by
  rw [sshbufGetStringb,getString]
  obtain ⟨e,hv,hpeek⟩ | ⟨v,hv,hpeek,-⟩ := sshbufPeekStringDirect_ok h
  · rw [hv,hpeek]
    exact ⟨_,b,d,w,rfl,h,hd,fun _ _ => rfl,.fails e⟩
  · obtain ⟨hlen,hvq,hdecode⟩ := peekStringDirect_length hv
    obtain ⟨b1,hfour,hmoves1,hrest1⟩ := sshbufGetUint_four h hv
    obtain ⟨⟨r,d',w'⟩,hs,hres⟩ := sshbufReserve_ok hd a v.length
    have hsep1 : Apart b1 d := by
      rw [Apart,hmoves1.block_eq h]
      exact hsep
    simp only [hv,hpeek,hfour,hs,ok_bind]
    rw [hdecode]
    cases r with
    | error e =>
      have hframe := hsep1.frame hmoves1.valid hres.moves
      refine ⟨_,b1,d',w',rfl,hmoves1.valid.frame hframe,hres.moves.valid,
        fun _ _ => hres.failure e rfl,?_⟩
      refine .of_ok (fun hcan => ?_) fun _ => ⟨⟨e,rfl⟩,(contents_frame hframe).trans hrest1⟩
      obtain ⟨p,hp⟩ := hres.success.mpr hcan
      cases hp
    | ok p =>
      have hframe := hsep1.frame hmoves1.valid hres.moves
      have hvalid1 := hmoves1.valid.frame hframe
      have hshown : contents _ b1 = (contents w.mem b).drop 4 :=
        (contents_frame hframe).trans hrest1
      obtain ⟨b2,hget,hmoves2,-,hrest2⟩ := sshbufGet_ok hvalid1 _
      have hfits : v.length ≤ ((contents w.mem b).drop 4).length := by
        rw [length_drop]
        omega
      rw [hshown,if_pos hfits] at hget hrest2
      rw [← hvq] at hget
      obtain ⟨w'',hw,hmoves3,hcopied⟩ := hres.fill hd rfl
      -- the write to the destination does not touch the source
      have hframe2 : w''.mem.block b2.cd.block = w'.mem.block b2.cd.block := by
        rw [hmoves2.block_eq hvalid1,hframe]
        exact hsep1.frame hmoves1.valid hmoves3
      simp only [hget,ok_bind,hw]
      refine ⟨_,b2,d',w'',rfl,hmoves2.valid.frame hframe2,hmoves3.valid,by rintro _ ⟨⟩,?_⟩
      refine .of_ok (fun _ => ⟨⟨_,rfl,hcopied⟩,?_⟩) fun hcan => absurd ?_ hcan
      · rw [contents_frame hframe2,hrest2,drop_drop,Nat.add_comm]
      · exact hres.success.mp ⟨p,rfl⟩

end

inductive ReadOp where
  | uint (width : Nat)
  | string (want : Bool)
  | stringDirect
  | cstring (want : Bool)
  | stringb
  | froms (id : Nat)
  | bignum2BytesDirect
  | skip

/-- The read of a source, with the destination that only `sshbuf_get_stringb` has. -/
def readCall (op : ReadOp) (b d : Sshbuf) (w : World) :
    Except Fault (Except SshErr Unit × Sshbuf × Sshbuf × World) :=
  match op with
  | .uint width => do
    let s ← sshbufGetUint width b w
    return (s.r.map fun _ => (),s.buf,d,s.w)
  | .string want => do
    let s ← sshbufGetString a want b w
    return (s.r.map fun _ => (),s.buf,d,s.w)
  | .stringDirect => do
    let s ← sshbufGetStringDirect b w
    return (s.r.map fun _ => (),s.buf,d,s.w)
  | .cstring want => do
    let s ← sshbufGetCstring a want b w
    return (s.r.map fun _ => (),s.buf,d,s.w)
  | .stringb => sshbufGetStringb a b d w
  | .froms id => do
    let s ← sshbufFroms a id b w
    return (s.r.map fun _ => (),s.buf,d,s.w)
  | .bignum2BytesDirect => do
    let s ← sshbufGetBignum2BytesDirect b w
    return (s.r.map fun _ => (),s.buf,d,s.w)
  | .skip => do
    let s ← sshbufSkipString b w
    return (s.r.map fun _ => (),s.buf,d,s.w)

/-- What a read needs after it has taken bytes from the source: memory for a copy that is
wanted, room in the destination. -/
def ReadOp.served (op : ReadOp) (b d : Sshbuf) (w : World) : Prop :=
  match op with
  | .string want =>
    (getString (contents w.mem b)).isOk → want = true → a.grants w.requests = true
  | .cstring want =>
    (getCstring (contents w.mem b)).isOk → want = true → a.grants w.requests = true
  | .stringb => (getString (contents w.mem b)).isOk →
    canReserve a d w (decode ((contents w.mem b).take 4))
  | .uint _ | .stringDirect | .froms _ | .bignum2BytesDirect | .skip => True

def Unchanged (b : Sshbuf) (w : World) (b' : Sshbuf) (w' : World) : Prop :=
  contents w'.mem b' = contents w.mem b ∧ sshbufLen b' = sshbufLen b

section

variable {a : Allocator} {op : ReadOp} {b d b' : Sshbuf} {w w' : World}

lemma unchanged_iff (h : Valid w.mem b) (h' : Valid w'.mem b') :
    Unchanged b w b' w' ↔ contents w'.mem b' = contents w.mem b := by
  refine and_iff_left_of_imp fun hc => ?_
  rw [← h'.length_contents,hc,h.length_contents]

variable {α β : Type} {q : Bytes} {parsed : Except SshErr (α × Bytes)}

lemma map_eq_error {r : Except SshErr β} {e : SshErr} :
    (r.map fun _ => ()) = .error e ↔ r = .error e := by
  cases r <;> simp [Except.map]

lemma readCall_single {V : β → α → Prop} {served : Prop} {kept : Bytes → Bytes} {s : Ret β}
    (h : Valid w.mem b) (hd : Valid w.mem d)
    (hcall : readCall a op b d w = .ok (s.r.map fun _ => (),s.buf,d,s.w)) (hk : Keeps w s.w)
    (hvalid : ∀ e, s.r = .error e → Valid s.w.mem s.buf)
    (hat : Attempts served kept V (contents w.mem b) parsed s.r (contents s.w.mem s.buf))
    (hserved : op.served a b d w ↔ ∀ x rest, parsed = .ok (x,rest) →
      served ∨ kept rest = contents w.mem b)
    : ∃ r b' d' w', readCall a op b d w = .ok (r,b',d',w') ∧
      ((∀ e, r = .error e → Unchanged b w b' w') ↔ op.served a b d w) ∧
      ∀ e, r = .error e → Unchanged d w d' w' := by
  refine ⟨_,_,_,_,hcall,?_,fun e _ => (unchanged_iff hd (hk.valid hd)).mpr (hk.contents hd)⟩
  rw [hserved,← hat.unchanged_iff]
  simp only [map_eq_error]
  exact forall_congr' fun e => ⟨fun hu he => (hu he).1,
    fun hu he => (unchanged_iff h (hvalid e he)).mpr (hu he)⟩

lemma readCall_direct {V : β → α → Prop} {r : Except SshErr β} (h : Valid w.mem b)
    (hd : Valid w.mem d) (hcall : readCall a op b d w = .ok (r.map fun _ => (),b',d,w))
    (hmoves : Moves b w b' w) (hf : Follows V (contents w.mem b) parsed r (contents w.mem b'))
    (hserved : op.served a b d w) : ∃ r b' d' w', readCall a op b d w = .ok (r,b',d',w') ∧
      ((∀ e, r = .error e → Unchanged b w b' w') ↔ op.served a b d w) ∧
      ∀ e, r = .error e → Unchanged d w d' w' :=
  readCall_single h hd (s := ⟨r,b',w⟩) hcall (.refl w) (fun _ _ => hmoves.valid) (hf.attempts id)
    (iff_of_true hserved fun _ _ _ => .inl trivial)

lemma drop_ne_self {n : Nat} (hn : 0 < n) (hq : 0 < q.length) : q.drop n ≠ q := by
  intro he
  have := congrArg List.length he
  rw [length_drop] at this
  omega

lemma getString_rest_ne {v rest : Bytes} (h : getString q = .ok (v,rest)) :
    rest ≠ q ∧ q.drop 4 ≠ q := by
  obtain ⟨-,hq⟩ := Sshbuf.getString_ok h
  have hlen := congrArg List.length hq
  rw [length_append,Sshbuf.length_framed] at hlen
  refine ⟨?_,drop_ne_self (by omega) (by omega)⟩
  rintro rfl
  omega

lemma ok_imp_iff {served : Prop} {kept : Bytes → Bytes}
    (hne : ∀ x rest, parsed = .ok (x,rest) → kept rest ≠ q) :
    (parsed.isOk → served) ↔ ∀ x rest, parsed = .ok (x,rest) → served ∨ kept rest = q := by
  constructor
  · intro hs x rest hp
    refine .inl (hs ?_)
    rw [hp]
    rfl
  · intro hs hok
    cases hp : parsed with
    | error e =>
      rw [hp] at hok
      cases hok
    | ok y =>
      obtain ⟨x,rest⟩ := y
      exact (hs x rest hp).resolve_right (hne x rest hp)

/-- A read that fails has left its destination alone, and its source exactly if it did not fail for
want of memory or room after bytes were taken. -/
theorem read_unchanged_iff_served (h : Valid w.mem b) (hd : Valid w.mem d) (hsep : Apart b d)
    (a : Allocator) (op : ReadOp) : ∃ r b' d' w', readCall a op b d w = .ok (r,b',d',w') ∧
      ((∀ e, r = .error e → Unchanged b w b' w') ↔ op.served a b d w) ∧
      ∀ e, r = .error e → Unchanged d w d' w' := by
  cases op with
  | uint width =>
    obtain ⟨r,b',hr,hmoves,hf⟩ := sshbufGetUint_follows h width
    refine readCall_direct h hd ?_ hmoves hf trivial
    rw [readCall,hr]
    rfl
  | stringDirect =>
    obtain ⟨r,b',hr,hmoves,hf⟩ := sshbufGetStringDirect_follows h
    refine readCall_direct h hd ?_ hmoves hf trivial
    rw [readCall,hr]
    rfl
  | skip =>
    obtain ⟨r,b',hr,hmoves,hf⟩ := sshbufGetStringDirect_follows h
    refine readCall_direct h hd ?_ hmoves hf trivial
    rw [readCall,sshbufSkipString,hr]
    rfl
  | bignum2BytesDirect =>
    obtain ⟨r,b',hr,hmoves,hf⟩ := sshbufGetBignum2BytesDirect_follows h
    refine readCall_direct h hd ?_ hmoves hf trivial
    rw [readCall,hr]
    rfl
  | string want =>
    obtain ⟨r,b',w',hr,hk,hvalid,hat⟩ := sshbufGetString_attempts h a want
    refine readCall_single h hd (s := ⟨r,b',w'⟩) ?_ hk (fun _ _ => hvalid) hat ?_
    · rw [readCall,hr]
      rfl
    · exact ok_imp_iff fun x rest hp => (getString_rest_ne hp).1
  | cstring want =>
    obtain ⟨r,b',w',hr,hk,hvalid,hat⟩ := sshbufGetCstring_attempts h a want
    refine readCall_single h hd (s := ⟨r,b',w'⟩) ?_ hk (fun _ _ => hvalid) hat ?_
    · rw [readCall,hr]
      rfl
    · refine ok_imp_iff fun x rest hp => ?_
      obtain ⟨v,hv,-⟩ := Sshbuf.getCstring_iff.mp hp
      exact (getString_rest_ne hv).1
  | froms id =>
    obtain ⟨r,b',w',hr,hmem,hsame,-,hat⟩ := sshbufFroms_attempts h a id
    refine readCall_single h hd (s := ⟨r,b',w'⟩) ?_ (fun k _ => by rw [hmem])
      (fun e he => ?_) hat ?_
    · rw [readCall,hr]
      rfl
    · cases hsame e he
      rw [hmem]
      exact h
    · exact iff_of_true trivial fun _ _ _ => .inr rfl
  | stringb =>
    obtain ⟨r,b',d',w',hr,hvalid,hvalid',hdst,hat⟩ := sshbufGetStringb_attempts h hd hsep a
    refine ⟨r,b',d',w',hr,?_,fun e he => (unchanged_iff hd hvalid').mpr (hdst e he)⟩
    simp only [unchanged_iff h hvalid]
    rw [hat.unchanged_iff]
    exact (ok_imp_iff fun x rest hp => (getString_rest_ne hp).2).symm

end

def wordView : Sshbuf :=
  { d := none, cd := ⟨0,0⟩, off := 0, size := 7, maxSize := 7, alloc := 7, readonly := true
    refcount := 1, parent := none }

def wordWorld : World := ⟨Memory.empty.alloc [0,0,0,3,97,98,99],0⟩

lemma wordView_valid : Valid wordWorld.mem wordView :=
  ⟨by decide +kernel,fun _ => rfl,nofun,_,rfl,le_rfl⟩

theorem read_unchanged_iff_served_word :
    ∃ r b' d' w', readCall ⟨fun _ => true,4096⟩ (.string true) wordView wordView wordWorld =
        .ok (r,b',d',w') ∧ ((∀ e, r = .error e → Unchanged wordView wordWorld b' w') ↔
        ReadOp.served ⟨fun _ => true,4096⟩ (.string true) wordView wordView wordWorld) ∧
      ∀ e, r = .error e → Unchanged wordView wordWorld d' w' :=
  read_unchanged_iff_served wordView_valid wordView_valid nofun _ _

/-- A read into a destination that is read-only takes the length field from the source, and one
that gets no memory takes the whole string. -/
theorem failed_read_takes_bytes : contents wordWorld.mem wordView = [0,0,0,3,97,98,99] ∧
    (∃ b' d' w', readCall ⟨fun _ => true,4096⟩ .stringb wordView wordView wordWorld =
        .ok (.error .bufferReadOnly,b',d',w') ∧ contents w'.mem b' = [97,98,99]) ∧
    (∃ b' d' w', readCall ⟨fun _ => false,4096⟩ (.string true) wordView wordView wordWorld =
        .ok (.error .allocFail,b',d',w') ∧ contents w'.mem b' = []) :=
  ⟨by decide +kernel,⟨_,_,_,rfl,by decide +kernel⟩,⟨_,_,_,rfl,by decide +kernel⟩⟩

end PkixSsh.Buffer
