import Mathlib.Algebra.Group.Nat.Defs
import PkixSsh.Lib.Machine
import PkixSsh.Libc

/-!
# Uploads

The loop of `do_upload`. What was sent and acknowledged is kept in the state; the source has no
variables for it.
-/

namespace PkixSsh.Sftp

open List

/-- A WRITE request; as a `struct outstanding_ack` it has the length of the data only. -/
structure Write where
  id : Nat
  offset : Nat
  data : Bytes
  deriving DecidableEq

def ssh2FxOk : Nat := 0

structure Upload where
  id : Nat
  startid : Nat
  ackid : Nat
  offset : Nat
  acks : List Write
  status : Nat
  writes : List Write
  replies : List (Write × Nat)

/-- One turn of the loop: the flag `interrupted`, how many bytes `read` would return, and the
message from the server, if one is read. -/
structure UploadTurn where
  interrupted : Bool
  len : Nat
  rid : Nat
  status : Nat

variable (F : Bytes) (transferBuflen numRequests : Nat)

/-- What `read` returns: at least a byte before the end of the file. An error is `fatal`. -/
def readLocal (u : Upload) (t : UploadTurn) : Bytes :=
  if t.interrupted ∨ u.status ≠ ssh2FxOk then []
  else (F.drop u.offset).take (max 1 (min t.len transferBuflen))

def sendWrite (u : Upload) (data : Bytes) : Upload :=
  if data = [] then u
  else
    let w : Write := ⟨(u.id + 1) % 2 ^ 32,u.offset,data⟩
    { u with
      id := w.id
      acks := u.acks ++ [w]
      writes := u.writes ++ [w]
      offset := u.offset + data.length }

/-- The status of a request, none for an id that is not outstanding. -/
def receiveStatus (u : Upload) (t : UploadTurn) : Option Upload :=
  match u.acks.dropWhile (·.id ≠ t.rid) with
  | [] => none
  | w :: post => some { u with
      acks := u.acks.takeWhile (·.id ≠ t.rid) ++ post
      status := t.status
      ackid := (u.ackid + 1) % 2 ^ 32
      replies := u.replies ++ [(w,t.status)] }

/-- One turn of the loop. An error is its end, or that of the process. -/
def uploadStep (u : Upload) (t : UploadTurn) : Except Unit (Unit × Upload) :=
  let data := readLocal F transferBuflen u t
  if data = [] ∧ u.acks = [] then .error ()
  else
    let u := sendWrite u data
    if u.id = u.startid ∨ data = [] ∨ (u.id + 2 ^ 32 - u.ackid) % 2 ^ 32 ≥ numRequests then
      match receiveStatus u t with
      | none => .error ()
      | some u => .ok ((),u)
    else .ok ((),u)

/-- Behind the handle: `id` is the one of the OPEN request, and `offset` is 0 unless the upload is
resumed. -/
def startUpload (id offset : Nat) : Upload :=
  ⟨id,(id + 1) % 2 ^ 32,(id + 1) % 2 ^ 32,offset,[],ssh2FxOk,[],[]⟩

/-- `do_upload`, if its loop ends behind these turns: the flag `interrupted` there, and whether both
files are closed. -/
def doUpload (id offset : Nat) (ts : List UploadTurn) (interrupted closed : Bool) :
    Option (Int × Upload) :=
  match Machine.run (uploadStep F transferBuflen numRequests) (startUpload id offset) ts with
  | .error _ => none
  | .ok (_,u) =>
    if u.acks = [] ∧ (interrupted ∨ u.status ≠ ssh2FxOk ∨ F.length ≤ u.offset) then
      some (if u.status = ssh2FxOk ∧ closed then 0 else -1,u)
    else none

/-- The file from `start` on was sent, and every request was acknowledged. -/
structure Complete (start : Nat) (u : Upload) : Prop where
  data : ∀ w ∈ u.writes, w.data <+: F.drop w.offset
  whole : ∀ i, start ≤ i → i < F.length → ∃ w ∈ u.writes, w.offset ≤ i ∧
    i < w.offset + w.data.length
  acked : ∀ w ∈ u.writes, (w,ssh2FxOk) ∈ u.replies

/-- No request is acknowledged after one that failed. -/
def Steady (u : Upload) (t : UploadTurn) : Prop := u.status ≠ ssh2FxOk → t.status ≠ ssh2FxOk

structure Tracked (start : Nat) (u : Upload) : Prop where
  data : ∀ w ∈ u.writes, w.data <+: F.drop w.offset
  whole : ∀ i, start ≤ i → i < u.offset → ∃ w ∈ u.writes, w.offset ≤ i ∧
    i < w.offset + w.data.length
  acked : ∀ w ∈ u.writes, w ∈ u.acks ∨ ∃ status, (w,status) ∈ u.replies
  good : u.status = ssh2FxOk → ∀ r ∈ u.replies, r.2 = ssh2FxOk

variable {F transferBuflen numRequests} {start id : Nat} {u u' : Upload} {t : UploadTurn}

lemma Tracked.send (h : Tracked F start u) {data : Bytes} (hd : data <+: F.drop u.offset) :
    Tracked F start (sendWrite u data) := by
  unfold sendWrite
  split
  · exact h
  · refine ⟨?_,?_,?_,h.good⟩
    · intro w hw
      rcases mem_append.mp hw with hw | hw
      · exact h.data w hw
      · cases mem_singleton.mp hw
        exact hd
    · intro i hlo hhi
      by_cases hi : i < u.offset
      · obtain ⟨w,hw,hin⟩ := h.whole i hlo hi
        exact ⟨w,mem_append_left _ hw,hin⟩
      · exact ⟨_,mem_append_right _ mem_cons_self,Nat.not_lt.mp hi,hhi⟩
    · intro w hw
      rcases mem_append.mp hw with hw | hw
      · exact (h.acked w hw).imp_left (mem_append_left _)
      · exact .inl (mem_append_right _ hw)

lemma Tracked.receive (h : Tracked F start u) (ht : Steady u t)
    (hr : receiveStatus u t = some u') : Tracked F start u' := by
  unfold receiveStatus at hr
  split at hr
  · cases hr
  · next w post hdrop =>
    cases hr
    have hacks := takeWhile_append_dropWhile (p := (·.id ≠ t.rid)) (l := u.acks)
    rw [hdrop] at hacks
    refine ⟨h.data,h.whole,?_,?_⟩
    · intro x hx
      rcases h.acked x hx with hx | ⟨status,hx⟩
      · rw [← hacks,mem_append,mem_cons] at hx
        rcases hx with hx | rfl | hx
        · exact .inl (mem_append_left _ hx)
        · exact .inr ⟨_,mem_append_right _ mem_cons_self⟩
        · exact .inl (mem_append_right _ hx)
      · exact .inr ⟨status,mem_append_left _ hx⟩
    · intro hok r hr
      rcases mem_append.mp hr with hr | hr
      · exact h.good (by_contra fun hbad => ht hbad hok) r hr
      · cases mem_singleton.mp hr
        exact hok

lemma Tracked.step (h : Tracked F start u) (ht : Steady u t)
    (hstep : uploadStep F transferBuflen numRequests u t = .ok ((),u')) : Tracked F start u' := by
  have hd : readLocal F transferBuflen u t <+: F.drop u.offset := by
    unfold readLocal
    split
    · exact List.nil_prefix
    · exact List.take_prefix ..
  have hsent := h.send hd
  have hstatus : (sendWrite u (readLocal F transferBuflen u t)).status = u.status := by
    unfold sendWrite
    split <;> rfl
  unfold uploadStep at hstep
  dsimp only at hstep
  split at hstep
  · cases hstep
  · split at hstep
    · split at hstep
      · cases hstep
      · next hr =>
        cases hstep
        exact hsent.receive (fun hbad => ht (hstatus ▸ hbad)) hr
    · cases hstep
      exact hsent

/-- An upload that succeeds is complete, if it is steady and was not interrupted before its end. -/
theorem doUpload_complete {ts : List UploadTurn} (interrupted closed : Bool)
    (hc : Machine.Guarded (uploadStep F transferBuflen numRequests)
      Steady (startUpload id start) ts)
    (h : doUpload F transferBuflen numRequests id start ts interrupted closed = some (0,u))
    (hi : interrupted = true → F.length ≤ u.offset) : Complete F start u := by
  unfold doUpload at h
  split at h
  · cases h
  · next os u1 hrun =>
    split at h
    · next hend =>
      simp only [Option.some.injEq,Prod.mk.injEq] at h
      obtain ⟨hret,rfl⟩ := h
      have hok : u1.status = ssh2FxOk := by
        by_contra hbad
        simp [hbad] at hret
      have hstart : Tracked F start (startUpload id start) :=
        ⟨nofun,fun i hlo hhi => absurd hhi (Nat.not_lt.mpr hlo),nofun,nofun⟩
      have htr : Tracked F start u1 := by
        refine Machine.run_invariant ?_ hstart hc hrun
        exact fun u t o u' hI hP hstep => hI.step hP hstep
      have hlen : F.length ≤ u1.offset := by
        rcases hend.2 with h | h | h
        · exact hi h
        · exact absurd hok h
        · exact h
      refine ⟨htr.data,fun i hlo hhi => htr.whole i hlo (Nat.lt_of_lt_of_le hhi hlen),
        fun w hw => ?_⟩
      rcases htr.acked w hw with hw | ⟨status,hw⟩
      · rw [hend.1] at hw
        cases hw
      · have hs : status = ssh2FxOk := htr.good hok _ hw
        exact hs ▸ hw
    · cases h

def steadyUpload : List UploadTurn := [⟨false,1,1,0⟩,⟨false,1,0,0⟩,⟨false,1,2,0⟩]

theorem doUpload_complete_steady : ∃ u,
    doUpload [1,2] 1 4 0 0 steadyUpload false true = some (0,u) ∧ Complete [1,2] 0 u := by
  have hc : Machine.Guarded (uploadStep [1,2] 1 4) Steady (startUpload 0 0) steadyUpload :=
    .cons (absurd rfl) rfl (.cons (absurd rfl) rfl (.cons (absurd rfl) rfl trivial))
  exact ⟨_,rfl,doUpload_complete false true hc rfl nofun⟩

def overwrittenStatus : List UploadTurn :=
  [⟨false,1,1,0⟩,⟨false,1,0,0⟩,⟨false,1,0,0⟩,⟨false,1,2,4⟩,⟨false,1,3,0⟩]

/-- The failure of a request is forgotten, and an interrupted upload succeeds. -/
theorem doUpload_incomplete :
    (∃ u, doUpload [1,2,3] 1 4 0 0 overwrittenStatus false true = some (0,u) ∧
      ¬Complete [1,2,3] 0 u) ∧
    ∃ u, doUpload [1,2,3] 1 4 0 0 [⟨false,1,1,0⟩] true true = some (0,u) ∧
      ¬Complete [1,2,3] 0 u := by
  refine ⟨⟨_,rfl,fun h => ?_⟩,_,rfl,fun h => ?_⟩
  · exact absurd (h.acked ⟨2,1,[2]⟩ (by decide)) (by decide)
  · obtain ⟨w,hw,hin⟩ := h.whole 1 (by decide) (by decide)
    cases mem_singleton.mp hw
    exact absurd hin.2 (by decide)

end PkixSsh.Sftp
