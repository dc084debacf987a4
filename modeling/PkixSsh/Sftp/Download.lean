import PkixSsh.Lib.Machine
import PkixSsh.Sshbuf.Basic

/-!
# Downloads

The loop of `do_download`, without resuming, against a server that answers each request with a
piece of one file, the one of the request that the client finds.
-/

namespace PkixSsh.Sftp

open List Nat Machine

/-- The local file: its size and its bytes, which are zero where nothing was written. -/
structure LocalFile where
  size : Nat
  byte : Nat → UInt8

namespace LocalFile

def empty : LocalFile := ⟨0,fun _ => 0⟩

def pwrite (f : LocalFile) (offset : Nat) (data : Bytes) : LocalFile :=
  if data = [] then f
  else ⟨max f.size (offset + data.length),fun i =>
    if offset ≤ i ∧ i < offset + data.length then data.getD (i - offset) 0 else f.byte i⟩

def ftruncate (f : LocalFile) (length : Nat) : LocalFile :=
  ⟨length,fun i => if i < length then f.byte i else 0⟩

def contents (f : LocalFile) : Bytes := (List.range f.size).map f.byte

end LocalFile

structure ReadRequest where
  id : Nat
  len : Nat
  offset : Nat

/-- What a download depends on: `a->size`, or 0, and two settings of the connection. -/
structure Params where
  size : Nat
  transferBuflen : Nat
  numRequests : Nat

/-- The variables of `do_download`; `num_req` is the length of the queue. -/
structure Download where
  requests : List ReadRequest
  msgId : Nat
  offset : Nat
  highwater : Nat
  buflen : Nat
  maxReq : Nat
  status : Nat
  readError : Bool
  writeError : Bool
  reordered : Bool
  file : LocalFile

def ssh2FxEof : Nat := 1

def minReadSize : Nat := 512

inductive ReadReply where
  | status (code : Nat)
  | data (bytes : Bytes)

/-- One turn of the loop: the flag `interrupted` at its start, the reply, and how many bytes of it
are written to the local file. The write fails if these are not all. -/
structure DownloadTurn where
  interrupted : Bool
  id : Nat
  reply : ReadReply
  written : Nat

def sendRequests : Nat → Download → Download
  | 0,d => d
  | n + 1,d => sendRequests n { d with
      requests := d.requests ++ [⟨d.msgId,d.buflen,d.offset⟩]
      msgId := (d.msgId + 1) % 2 ^ 32
      offset := d.offset + d.buflen }

def findRequest (id : Nat) :
    List ReadRequest → Option (List ReadRequest × ReadRequest × List ReadRequest)
  | [] => none
  | r :: rs =>
    if r.id = id then some ([],r,rs)
    else (findRequest id rs).map fun (pre,q,post) => (r :: pre,q,post)

def store (d : Download) (offset : Nat) (data : Bytes) (written : Nat) : Download :=
  let d := { d with file := d.file.pwrite offset (data.take written) }
  if written < data.length ∧ d.writeError = false then { d with writeError := true, maxReq := 0 }
  else if d.reordered = false ∧ offset ≤ d.highwater then
    { d with highwater := offset + data.length }
  else if d.reordered = false ∧ offset > d.highwater then { d with reordered := true }
  else d

def requeue (d : Download) (pre : List ReadRequest) (r : ReadRequest) (post : List ReadRequest)
    (len : Nat) : Download :=
  if len = r.len then { d with requests := pre ++ post }
  else { d with
    requests := pre ++ ⟨d.msgId,r.len - len,r.offset + len⟩ :: post
    msgId := (d.msgId + 1) % 2 ^ 32
    buflen := if len < d.buflen then max minReadSize len else d.buflen }

def widen (p : Params) (d : Download) : Download :=
  if d.maxReq > 0 then
    if p.size > 0 ∧ d.offset > p.size then { d with maxReq := 1 }
    else if d.maxReq < p.numRequests then { d with maxReq := d.maxReq + 1 } else d
  else d

def sent (d : Download) (t : DownloadTurn) : Download :=
  let d := { d with maxReq := if t.interrupted then 0 else d.maxReq }
  sendRequests (d.maxReq - d.requests.length) d

/-- One turn of the loop. An error is the end of the loop, or of the process. -/
def downloadStep (p : Params) (d : Download) (t : DownloadTurn) : Except Unit (Unit × Download) :=
  if d.requests = [] ∧ (d.maxReq = 0 ∨ t.interrupted) then .error ()
  else
    let d := sent d t
    match findRequest t.id d.requests with
    | none => .error ()
    | some (pre,r,post) =>
      match t.reply with
      | .status code => .ok ((),{ d with
          requests := pre ++ post
          status := code
          readError := d.readError || code ≠ ssh2FxEof
          maxReq := 0 })
      | .data data =>
        if data.length > r.len then .error ()
        else .ok ((),widen p (requeue (store d r.offset data t.written) pre r post data.length))

/-- Behind the loop: whether the flag is set at the truncation and at the end, and whether
`do_close` succeeds. -/
structure Closing where
  interrupted : Bool
  interruptedLater : Bool
  closed : Bool

def finish (d : Download) (c : Closing) : Int × LocalFile :=
  let file := if d.readError || d.writeError || c.interrupted then d.file.ftruncate d.highwater
    else d.file
  (if d.readError || d.writeError || !c.closed || c.interrupted || c.interruptedLater then -1
    else 0,
    file)

def startDownload (p : Params) (msgId : Nat) : Download :=
  ⟨[],msgId,0,0,p.transferBuflen,1,0,false,false,false,.empty⟩

/-- `do_download` from the opening of the local file on, if the loop ends behind these turns. The
flag `interrupted` stays set. -/
def doDownload (p : Params) (msgId : Nat) (ts : List DownloadTurn) (c : Closing) :
    Option (Int × LocalFile) :=
  let c := { c with interrupted := c.interrupted || ts.any (·.interrupted) }
  match run (downloadStep p) (startDownload p msgId) ts with
  | .error _ => none
  | .ok (_,d) =>
    if d.requests = [] ∧ (d.maxReq = 0 ∨ c.interrupted) then some (finish d c) else none

/-- A reply of a server that serves this file. -/
def Conforms (F : Bytes) (d : Download) (t : DownloadTurn) : Prop :=
  ∀ pre r post, findRequest t.id (sent d t).requests = some (pre,r,post) →
    match t.reply with
    | .status code => code = ssh2FxEof → F.length ≤ r.offset
    | .data data => data <+: F.drop r.offset

/-- No write fails at the contiguous point behind another one that failed. -/
def Calm (d : Download) (t : DownloadTurn) : Prop :=
  ∀ pre r post data, findRequest t.id (sent d t).requests = some (pre,r,post) →
    t.reply = .data data → t.written < data.length → d.writeError = true → d.reordered = false →
      d.highwater < r.offset

def Stored (F : Bytes) (f : LocalFile) (i : Nat) : Prop := F[i]? = some (f.byte i)

def ReadRequest.covers (r : ReadRequest) (i : Nat) : Prop := r.offset ≤ i ∧ i < r.offset + r.len

/-- Below the offset, what is not stored is asked for, unless an error has occurred. -/
structure Covered (F : Bytes) (d : Download) : Prop where
  size : d.file.size ≤ F.length
  queued : ∀ r ∈ d.requests, r.offset + r.len ≤ d.offset
  asked : d.readError = false → d.writeError = false → ∀ i, i < F.length → i < d.offset →
    (i < d.file.size ∧ Stored F d.file i) ∨ ∃ r ∈ d.requests, r.covers i
  ended : d.maxReq = 0 → d.readError = false → d.writeError = false → F.length ≤ d.offset

structure Contiguous (F : Bytes) (d : Download) : Prop where
  bound : d.highwater ≤ F.length
  stored : ∀ i, i < d.highwater → Stored F d.file i

variable {F data : Bytes} {f : LocalFile} {d d' : Download} {t : DownloadTurn} {p : Params}
  {i o : Nat}
  {r : ReadRequest} {rs pre post : List ReadRequest}

lemma getElem?_of_piece (h : data <+: F.drop o) (hi : i < data.length) :
    F[o + i]? = some (data.getD i 0) := by
  obtain ⟨tail,htail⟩ := h
  rw [← List.getElem?_drop,← htail,List.getElem?_append_left hi,getD_eq_getElem?_getD,
    List.getElem?_eq_getElem hi]
  rfl

lemma pwrite_size (h : data <+: F.drop o) (hs : f.size ≤ F.length) :
    (f.pwrite o data).size ≤ F.length := by
  unfold LocalFile.pwrite
  split
  · exact hs
  · next hne =>
    have hle := h.length_le
    have hpos := length_pos_iff.mpr hne
    rw [length_drop] at hle
    dsimp only
    omega

lemma pwrite_stored (h : data <+: F.drop o) (hi : Stored F f i) :
    Stored F (f.pwrite o data) i := by
  unfold LocalFile.pwrite
  split
  · exact hi
  · unfold Stored
    dsimp only
    split
    · next hin =>
      have hget := getElem?_of_piece h (i := i - o) (by omega)
      rwa [Nat.add_sub_cancel' hin.1] at hget
    · exact hi

lemma pwrite_new (h : data <+: F.drop o) (hlo : o ≤ i) (hhi : i < o + data.length) :
    i < (f.pwrite o data).size ∧ Stored F (f.pwrite o data) i := by
  have hne : data ≠ [] := by
    rintro rfl
    exact absurd hhi (by simpa using hlo)
  have hget := getElem?_of_piece h (i := i - o) (by omega)
  rw [Nat.add_sub_cancel' hlo] at hget
  unfold LocalFile.pwrite
  rw [if_neg hne]
  refine ⟨lt_of_lt_of_le hhi (le_max_right ..),?_⟩
  unfold Stored
  dsimp only
  rwa [if_pos ⟨hlo,hhi⟩]

lemma pwrite_size_le (f : LocalFile) (o : Nat) (data : Bytes) :
    f.size ≤ (f.pwrite o data).size := by
  unfold LocalFile.pwrite
  split
  · exact le_rfl
  · exact le_max_left ..

lemma contents_eq_take (h : ∀ i, i < f.size → Stored F f i) :
    f.contents = F.take f.size := by
  apply ext_getElem?
  intro i
  rw [LocalFile.contents,List.getElem?_map,List.getElem?_take]
  by_cases hi : i < f.size
  · rw [if_pos hi,List.getElem?_range hi]
    exact (h i hi).symm
  · rw [if_neg hi,List.getElem?_eq_none (by simpa using hi)]
    rfl

lemma findRequest_some {id : Nat} (h : findRequest id rs = some (pre,r,post)) :
    rs = pre ++ r :: post := by
  induction rs generalizing pre with
  | nil => cases h
  | cons q rs ih =>
    rw [findRequest] at h
    split at h
    · cases h
      rfl
    · obtain ⟨⟨pre',r',post'⟩,hf,heq⟩ := Option.map_eq_some_iff.mp h
      cases heq
      rw [ih hf]
      rfl

lemma sendRequests_eq (n : Nat) (d : Download) : ∃ rs m o,
    sendRequests n d = { d with requests := rs, msgId := m, offset := o } := by
  induction n generalizing d with
  | zero => exact ⟨_,_,_,rfl⟩
  | succ n ih =>
    obtain ⟨rs,m,o,h⟩ := ih _
    exact ⟨rs,m,o,h⟩

lemma Covered.send (n : Nat) (h : Covered F d) : Covered F (sendRequests n d) := by
  induction n generalizing d with
  | zero => exact h
  | succ n ih =>
    refine ih ⟨h.size,?_,?_,?_⟩
    · intro r hr
      rcases mem_append.mp hr with hr | hr
      · exact (h.queued r hr).trans (Nat.le_add_right ..)
      · rw [mem_singleton.mp hr]
    · intro hre hw i hi hio
      by_cases hlt : i < d.offset
      · rcases h.asked hre hw i hi hlt with hdone | ⟨r,hr,hc⟩
        · exact .inl hdone
        · exact .inr ⟨r,mem_append_left _ hr,hc⟩
      · exact .inr ⟨_,mem_append_right _ mem_cons_self,not_lt.mp hlt,hio⟩
    · intro hm hre hw
      exact (h.ended hm hre hw).trans (Nat.le_add_right ..)

lemma store_eq (d : Download) (o : Nat) (data : Bytes) (w : Nat) : ∃ h e m q,
    store d o data w = { d with
      file := d.file.pwrite o (data.take w)
      highwater := h
      writeError := e
      maxReq := m
      reordered := q } ∧ (e = false → d.writeError = false ∧ data.length ≤ w ∧ m = d.maxReq) := by
  unfold store
  dsimp only
  split
  · exact ⟨_,_,_,_,rfl,nofun⟩
  · next hfail =>
    have hok : d.writeError = false → d.writeError = false ∧ data.length ≤ w ∧
        d.maxReq = d.maxReq :=
      fun hw => ⟨hw,not_lt.mp fun hlt => hfail ⟨hlt,hw⟩,rfl⟩
    split
    · exact ⟨_,_,_,_,rfl,hok⟩
    · split
      · exact ⟨_,_,_,_,rfl,hok⟩
      · exact ⟨_,_,_,_,rfl,hok⟩

lemma Covered.widen (p : Params) (h : Covered F d) : Covered F (widen p d) := by
  unfold Sftp.widen
  split
  · split
    · exact ⟨h.size,h.queued,h.asked,nofun⟩
    · split
      · exact ⟨h.size,h.queued,h.asked,nofun⟩
      · exact h
  · exact h

lemma mem_queue {x : ReadRequest} : x ∈ pre ++ r :: post ↔ x = r ∨ x ∈ pre ++ post := by
  simp only [mem_append,mem_cons]
  exact or_left_comm

/-- The reply to a request moves what it covers from the queue to the file. -/
lemma Covered.reply (h : Covered F d) (hq : d.requests = pre ++ r :: post)
    (hdata : data <+: F.drop r.offset) (hlen : data.length ≤ r.len) (w : Nat) :
    Covered F (requeue (store d r.offset data w) pre r post data.length) := by
  obtain ⟨hw,e,m,q,hst,hok⟩ := store_eq d _ data w
  rw [hst]
  have hpiece : data.take w <+: F.drop _ := (List.take_prefix ..).trans hdata
  have hr := h.queued r (hq ▸ mem_queue.mpr (.inl rfl))
  have hkeep : ∀ x ∈ pre ++ post, x.offset + x.len ≤ d.offset :=
    fun x hx => h.queued x (hq ▸ mem_queue.mpr (.inr hx))
  -- a byte is stored, asked for by another request or by the rest of this one
  have hask : d.readError = false → e = false → ∀ i, i < F.length → i < d.offset →
      (i < (d.file.pwrite r.offset (data.take w)).size ∧
        Stored F (d.file.pwrite r.offset (data.take w)) i) ∨
      (∃ x ∈ pre ++ post, x.covers i) ∨ (r.offset + data.length ≤ i ∧ i < r.offset + r.len) := by
    intro hre he i hi hio
    obtain ⟨hwe,hall,-⟩ := hok he
    rw [take_of_length_le hall] at hpiece ⊢
    rcases h.asked hre hwe i hi hio with ⟨hs,hst⟩ | ⟨x,hx,hc⟩
    · exact .inl ⟨hs.trans_le (pwrite_size_le ..),pwrite_stored hpiece hst⟩
    · rw [hq] at hx
      rcases mem_queue.mp hx with rfl | hx
      · by_cases hin : i < x.offset + data.length
        · exact .inl (pwrite_new hpiece hc.1 hin)
        · exact .inr (.inr ⟨not_lt.mp hin,hc.2⟩)
      · exact .inr (.inl ⟨x,hx,hc⟩)
  have hend : m = 0 → d.readError = false → e = false → F.length ≤ d.offset := by
    intro hm hre he
    obtain ⟨hwe,-,rfl⟩ := hok he
    exact h.ended hm hre hwe
  unfold requeue
  split
  · next hfull =>
    refine ⟨pwrite_size hpiece h.size,hkeep,?_,hend⟩
    intro hre he i hi hio
    rcases hask hre he i hi hio with hs | hx | hin
    · exact .inl hs
    · exact .inr hx
    · omega
  · refine ⟨pwrite_size hpiece h.size,?_,?_,hend⟩
    · intro x hx
      rcases mem_queue.mp hx with rfl | hx
      · dsimp only
        omega
      · exact hkeep x hx
    · intro hre he i hi hio
      rcases hask hre he i hi hio with hs | ⟨x,hx,hc⟩ | hin
      · exact .inl hs
      · exact .inr ⟨x,mem_queue.mpr (.inr hx),hc⟩
      · exact .inr ⟨_,mem_queue.mpr (.inl rfl),hin.1,by dsimp only; omega⟩

lemma Covered.answer (h : Covered F d) (hq : d.requests = pre ++ r :: post) (code : Nat)
    (heof : code = ssh2FxEof → F.length ≤ r.offset) : Covered F { d with
      requests := pre ++ post
      status := code
      readError := d.readError || code ≠ ssh2FxEof
      maxReq := 0 } := by
  have hno : (d.readError || decide (code ≠ ssh2FxEof)) = false →
      d.readError = false ∧ code = ssh2FxEof := by simp
  refine ⟨h.size,fun x hx => h.queued x (hq ▸ mem_queue.mpr (.inr hx)),?_,?_⟩
  · intro hre hw i hi hio
    obtain ⟨hre,hcode⟩ := hno hre
    rcases h.asked hre hw i hi hio with hs | ⟨x,hx,hc⟩
    · exact .inl hs
    · rw [hq] at hx
      rcases mem_queue.mp hx with rfl | hx
      · exact absurd (hi.trans_le (heof hcode)) (not_lt.mpr hc.1)
      · exact .inr ⟨x,hx,hc⟩
  · intro _ hre _
    have hr := h.queued r (hq ▸ mem_queue.mpr (.inl rfl))
    have := heof (hno hre).2
    dsimp only
    omega

lemma downloadStep_cases (h : downloadStep p d t = .ok ((),d')) : ∃ pre r post,
    findRequest t.id (sent d t).requests = some (pre,r,post) ∧
    ((∃ code, t.reply = .status code ∧ d' = { sent d t with
        requests := pre ++ post
        status := code
        readError := (sent d t).readError || code ≠ ssh2FxEof
        maxReq := 0 }) ∨
      ∃ data, t.reply = .data data ∧ data.length ≤ r.len ∧
        d' = widen p (requeue (store (sent d t) r.offset data t.written)
          pre r post data.length)) := by
  unfold downloadStep at h
  split at h
  · cases h
  dsimp only at h
  split at h
  · cases h
  next pre r post hf =>
  refine ⟨pre,r,post,hf,?_⟩
  split at h
  · next code hc =>
    cases h
    exact .inl ⟨code,hc,rfl⟩
  · next data hd =>
    split at h
    · cases h
    · next hlen =>
      cases h
      exact .inr ⟨data,hd,not_lt.mp hlen,rfl⟩

lemma Covered.step (h : Covered F d) (hc : Conforms F d t) (hi : t.interrupted = false)
    (hstep : downloadStep p d t = .ok ((),d')) : Covered F d' := by
  have hsent : Covered F (sent d t) := by
    unfold sent
    rw [hi]
    exact h.send _
  obtain ⟨pre,r,post,hf,hcase⟩ := downloadStep_cases hstep
  have hconf := hc pre r post hf
  have hq := findRequest_some hf
  rcases hcase with ⟨code,hr,rfl⟩ | ⟨data,hr,hlen,rfl⟩
  · rw [hr] at hconf
    exact hsent.answer hq code hconf
  · rw [hr] at hconf
    exact (hsent.reply hq hconf hlen _).widen p

/-- Sending and the interrupt leave the file, the contiguous point and the errors alone. -/
lemma sent_eq (d : Download) (t : DownloadTurn) : ∃ rs m o k,
    sent d t = { d with requests := rs, msgId := m, offset := o, maxReq := k } := by
  obtain ⟨rs,m,o,h⟩ := sendRequests_eq _ _
  exact ⟨rs,m,o,_,h⟩

lemma Contiguous.store (h : Contiguous F d) (hdata : data <+: F.drop o) {w : Nat}
    (hcalm : w < data.length → d.writeError = true → d.reordered = false → d.highwater < o) :
    Contiguous F (store d o data w) := by
  have hpiece : data.take w <+: F.drop o := (List.take_prefix ..).trans hdata
  have hkeep := fun i hi => pwrite_stored hpiece (h.stored i hi)
  unfold Sftp.store
  dsimp only
  split
  · exact ⟨h.bound,hkeep⟩
  next hfail =>
  split
  · next hmove =>
    -- the point is moved: all of the data are in the file
    have hall : data.length ≤ w := by
      by_contra hlt
      have hlt := Nat.lt_of_not_le hlt
      have hw : d.writeError = true := by
        by_contra hw
        exact hfail ⟨hlt,Bool.eq_false_of_not_eq_true hw⟩
      exact absurd (hcalm hlt hw hmove.1) (not_lt.mpr hmove.2)
    rw [take_of_length_le hall] at hkeep ⊢
    have hle := hdata.length_le
    have hb := h.bound
    rw [length_drop] at hle
    refine ⟨by dsimp only; omega,fun i hi => ?_⟩
    by_cases hio : i < o
    · exact hkeep i (hio.trans_le hmove.2)
    · exact (pwrite_new hdata (not_lt.mp hio) hi).2
  · split
    · exact ⟨h.bound,hkeep⟩
    · exact ⟨h.bound,hkeep⟩

lemma Contiguous.requeue (h : Contiguous F d) (pre : List ReadRequest) (r : ReadRequest)
    (post : List ReadRequest) (len : Nat) : Contiguous F (requeue d pre r post len) := by
  unfold Sftp.requeue
  split
  · exact ⟨h.bound,h.stored⟩
  · exact ⟨h.bound,h.stored⟩

lemma Contiguous.widen (p : Params) (h : Contiguous F d) : Contiguous F (widen p d) := by
  unfold Sftp.widen
  split
  · split
    · exact ⟨h.bound,h.stored⟩
    · split
      · exact ⟨h.bound,h.stored⟩
      · exact h
  · exact h

lemma Contiguous.step (h : Contiguous F d) (hc : Conforms F d t) (hcalm : Calm d t)
    (hstep : downloadStep p d t = .ok ((),d')) : Contiguous F d' := by
  obtain ⟨pre,r,post,hf,hcase⟩ := downloadStep_cases hstep
  have hconf := hc pre r post hf
  obtain ⟨rs,m,o,k,hsent⟩ := sent_eq d t
  rcases hcase with ⟨code,-,rfl⟩ | ⟨data,hr,-,rfl⟩
  · rw [hsent]
    exact ⟨h.bound,h.stored⟩
  · rw [hr] at hconf
    have hst : Contiguous F (Sftp.store (sent d t) r.offset data t.written) := by
      refine Contiguous.store ?_ hconf ?_
      · rw [hsent]
        exact ⟨h.bound,h.stored⟩
      · rw [hsent]
        exact hcalm pre r post data hf hr
    exact (hst.requeue _ _ _ _).widen p

variable {msgId : Nat} {ts : List DownloadTurn} {c : Closing}

/-- Without errors and interrupt the local file is the remote one. -/
lemma Covered.contents (h : Covered F d) (hq : d.requests = []) (hm : d.maxReq = 0)
    (hr : d.readError = false) (hw : d.writeError = false) : d.file.contents = F := by
  have hall : ∀ i, i < F.length → i < d.file.size ∧ Stored F d.file i := by
    intro i hi
    rcases h.asked hr hw i hi (hi.trans_le (h.ended hm hr hw)) with hs | ⟨r,hmem,-⟩
    · exact hs
    · rw [hq] at hmem
      cases hmem
  have hsize : d.file.size = F.length := by
    refine h.size.antisymm (Nat.le_of_not_lt fun hlt => ?_)
    exact absurd (hall _ hlt).1 (lt_irrefl _)
  rw [contents_eq_take fun i hi => (hall i (hsize ▸ hi)).2,hsize,take_length]

lemma covered_of_run {os : List Unit}
    (hc : Machine.Guarded (downloadStep p) (Conforms F) (startDownload p msgId) ts)
    (hi : ts.any (·.interrupted) = false)
    (hrun : run (downloadStep p) (startDownload p msgId) ts = .ok (os,d)) : Covered F d := by
  have hstart : Covered F (startDownload p msgId) := ⟨zero_le _,nofun,nofun,nofun⟩
  revert hstart hc hrun
  generalize startDownload p msgId = d0
  intro hc hrun hstart
  induction ts generalizing d0 os with
  | nil =>
    cases hrun
    exact hstart
  | cons t ts ih =>
    obtain ⟨o,d1,os',hstep,hrest,-⟩ := run_cons_ok.mp hrun
    rw [any_cons,Bool.or_eq_false_iff] at hi
    exact ih hi.2 d1 (hc.2 o d1 hstep) hrest (hstart.step hc.1 hi.1 hstep)

lemma contents_of_run {os : List Unit}
    (hc : Machine.Guarded (downloadStep p) (Conforms F) (startDownload p msgId) ts)
    (hrun : run (downloadStep p) (startDownload p msgId) ts = .ok (os,d))
    (hq : d.requests = []) (hm : d.maxReq = 0 ∨ (c.interrupted || ts.any (·.interrupted)) = true)
    (hno : ¬(d.readError || d.writeError || (c.interrupted || ts.any (·.interrupted))) = true) :
    d.file.contents = F := by
  simp only [Bool.or_eq_true,not_or,Bool.not_eq_true] at hno
  obtain ⟨⟨hr,hw⟩,hci,hti⟩ := hno
  refine (covered_of_run hc hti hrun).contents hq ?_ hr hw
  rw [hci,hti] at hm
  exact hm.resolve_right nofun

lemma doDownload_some {ret : Int} (h : doDownload p msgId ts c = some (ret,f)) : ∃ os d,
    run (downloadStep p) (startDownload p msgId) ts = .ok (os,d) ∧ d.requests = [] ∧
    (d.maxReq = 0 ∨ (c.interrupted || ts.any (·.interrupted)) = true) ∧
    (ret,f) = finish d { c with interrupted := c.interrupted || ts.any (·.interrupted) } := by
  unfold doDownload at h
  dsimp only at h
  split at h
  · cases h
  · next os d hrun =>
    split at h
    · next hend =>
      cases h
      exact ⟨os,d,hrun,hend.1,hend.2,rfl⟩
    · cases h

lemma Conforms.of_find (hf : findRequest t.id (sent d t).requests = some (pre,r,post))
    (h : match t.reply with
      | .status code => code = ssh2FxEof → F.length ≤ r.offset
      | .data data => data <+: F.drop r.offset) : Conforms F d t := by
  intro pre' r' post' hf'
  cases hf.symm.trans hf'
  exact h

/-- A download that succeeds gives the file of a server that conforms. -/
theorem doDownload_exact
    (hc : Machine.Guarded (downloadStep p) (Conforms F) (startDownload p msgId) ts)
    (h : doDownload p msgId ts c = some (0,f)) : f.contents = F := by
  obtain ⟨os,d,hrun,hq,hm,hfin⟩ := doDownload_some h
  simp only [finish,Prod.mk.injEq] at hfin
  obtain ⟨hret,rfl⟩ := hfin
  split at hret
  · cases hret
  · next hok =>
    have hno : ¬(d.readError || d.writeError || (c.interrupted || ts.any (·.interrupted))) =
        true := by
      grind
    rw [if_neg hno]
    exact contents_of_run hc hrun hq hm hno

def shortRead : List DownloadTurn :=
  [⟨false,0,.data [1,2],2⟩,⟨false,1,.data [3],1⟩,⟨false,2,.status ssh2FxEof,0⟩]

theorem doDownload_exact_shortRead : ∃ f,
    doDownload ⟨0,2,1⟩ 0 shortRead ⟨false,false,true⟩ = some (0,f) ∧ f.contents = [1,2,3] := by
  have hc : Machine.Guarded (downloadStep ⟨0,2,1⟩) (Conforms [1,2,3]) (startDownload ⟨0,2,1⟩ 0)
      shortRead := by
    refine .cons (.of_find rfl ⟨[3],rfl⟩) rfl (.cons (.of_find rfl ⟨[],rfl⟩) rfl ?_)
    exact .cons (.of_find rfl fun _ => le_rfl) rfl trivial
  exact ⟨_,rfl,doDownload_exact (c := ⟨false,false,true⟩) hc rfl⟩

/-- A download that fails leaves a part of the file from its start, if no write fails at the
contiguous point behind another one that failed. -/
theorem doDownload_no_holes
    (hc : Machine.Guarded (downloadStep p) (fun d t => Conforms F d t ∧ Calm d t)
      (startDownload p msgId) ts)
    (h : doDownload p msgId ts c = some (-1,f)) : f.contents <+: F := by
  obtain ⟨os,d,hrun,hq,hm,hfin⟩ := doDownload_some h
  simp only [finish,Prod.mk.injEq] at hfin
  obtain ⟨-,rfl⟩ := hfin
  split
  · have hcont : Contiguous F d := by
      have hstart : Contiguous F (startDownload p msgId) :=
        ⟨zero_le _,fun i hi => absurd hi (not_lt_zero i)⟩
      refine run_invariant ?_ hstart hc hrun
      exact fun d t o d' hI hP hstep => hI.step hP.1 hP.2 hstep
    rw [contents_eq_take]
    · exact List.take_prefix ..
    · intro i hi
      change F[i]? = some (if i < d.highwater then d.file.byte i else 0)
      rw [if_pos (show i < d.highwater from hi)]
      exact hcont.stored i hi
  · next hno =>
    have heq := contents_of_run (hc.mono fun _ _ hP => hP.1) hrun hq hm hno
    exact ⟨[],by rw [append_nil,heq]⟩

def readFailure : List DownloadTurn :=
  [⟨false,0,.data [1,2],2⟩,⟨false,1,.data [3],0⟩,⟨false,2,.status 4,0⟩]

theorem doDownload_no_holes_readFailure : ∃ f,
    doDownload ⟨0,2,1⟩ 0 readFailure ⟨false,false,true⟩ = some (-1,f) ∧ f.contents <+: [1,2,3] := by
  have hc : Machine.Guarded (downloadStep ⟨0,2,1⟩) (fun d t => Conforms [1,2,3] d t ∧ Calm d t)
      (startDownload ⟨0,2,1⟩ 0) readFailure := by
    refine .cons ⟨.of_find rfl ⟨[3],rfl⟩,fun _ _ _ _ _ _ _ => nofun⟩ rfl ?_
    refine .cons ⟨.of_find rfl ⟨[],rfl⟩,fun _ _ _ _ _ _ _ => nofun⟩ rfl ?_
    exact .cons ⟨.of_find rfl nofun,fun _ _ _ _ _ => nofun⟩ rfl trivial
  exact ⟨_,rfl,doDownload_no_holes hc rfl⟩

def failedWrites : List DownloadTurn :=
  [⟨false,0,.data [1],1⟩,⟨false,2,.data [3],0⟩,⟨false,1,.data [2],0⟩]

theorem doDownload_leaves_hole : ∃ f,
    Machine.Guarded (downloadStep ⟨0,1,4⟩) (Conforms [1,2,3]) (startDownload ⟨0,1,4⟩ 0)
      failedWrites ∧
    doDownload ⟨0,1,4⟩ 0 failedWrites ⟨false,false,true⟩ = some (-1,f) ∧
      ¬f.contents <+: [1,2,3] := by
  refine ⟨_,.cons (.of_find rfl ⟨[2,3],rfl⟩) rfl ?_,rfl,by decide⟩
  refine .cons (.of_find rfl ⟨[],rfl⟩) rfl (.cons (.of_find rfl ⟨[3],rfl⟩) rfl trivial)

end PkixSsh.Sftp
