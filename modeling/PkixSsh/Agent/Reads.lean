import PkixSsh.Agent.Locking

/-!
# Requests read from a connection of the agent
-/

namespace PkixSsh.Agent

open Sshbuf List Function

def announced (input : Bytes) : Nat := BigEndian.decode (input.take 4)

def Whole (input : Bytes) : Prop :=
  5 ≤ input.length ∧ announced input ≤ agentMaxLen ∧ announced input + 4 ≤ input.length

def TooLong (input : Bytes) : Prop := 5 ≤ input.length ∧ agentMaxLen < announced input

def behindFirst (input : Bytes) : Bytes := input.drop (announced input + 4)

instance (input : Bytes) : Decidable (Whole input) := instDecidableAnd

instance (input : Bytes) : Decidable (TooLong input) := instDecidableAnd

/-- `handle_conn_read`. A read to be repeated gives `none`, and one that fails or is at the end
gives no bytes. What `process_message` returns is not looked at. -/
def handleConnRead (v : Services) (st : AgentState) (socknum : Nat) (read : Option Bytes)
    (salt : Bytes) (now : Nat) : Except Stop (Int × Reply × AgentState) :=
  match read with
  | none => .ok (0,⟨[],[],none⟩,st)
  | some [] => .ok (-1,⟨[],[],none⟩,st)
  | some buf => (step v st (.read socknum buf salt now)).map (0,·)

variable {v : Services} {st st' : AgentState} {now : Nat} {salt : Bytes} {r : Reply}

lemma takeMessage_rest {input rest : Bytes} {m : Option (UInt8 × Bytes)}
    (h : takeMessage input = .ok (m,rest)) :
    rest = if Whole input then behindFirst input else input := by
  have hget (hw : Whole input) : ∃ val, getString input = .ok (val,behindFirst input) := by
    obtain ⟨hlen,hmax,hwhole⟩ := hw
    rw [announced,agentMaxLen] at hmax
    rw [announced] at hwhole
    have hpeek : peekStringDirect input = .ok ((input.drop 4).take (announced input)) := by
      rw [peekStringDirect,if_neg (by omega)]
      rw [if_neg (by rw [sshbufSizeMax]; omega),if_neg (by omega),announced]
    have hval : ((input.drop 4).take (announced input)).length = announced input := by
      rw [length_take,length_drop,announced]
      omega
    exact ⟨_,by rw [getString,hpeek,ok_bind,hval]; rfl⟩
  rw [takeMessage] at h
  split_ifs at h with hlen hmax hshort
  · cases h
    exact (if_neg fun hw => by have := hw.1; omega).symm
  · cases h
    exact (if_neg fun hw => Nat.not_lt.mpr hw.2.1 hmax).symm
  · cases h
    exact (if_neg fun hw => Nat.not_lt.mpr hw.2.2 hshort).symm
  · have hw : Whole input := ⟨Nat.not_lt.mp hlen,Nat.not_lt.mp hmax,Nat.not_lt.mp hshort⟩
    obtain ⟨val,hval⟩ := hget hw
    rw [hval] at h
    rw [if_pos hw]
    cases val <;> cases h <;> rfl

lemma processLockAgent_input {lock success : Bool} {request : Bytes}
    (h : processLockAgent v st lock salt request = .ok (success,st')) : st'.input = st.input := by
  simp only [processLockAgent] at h
  repeat' split at h
  all_goals cases h <;> rfl

lemma dispatch_input {type : UInt8} {request : Bytes}
    (h : dispatch v st now salt type request = .ok (r,st')) : st'.input = st.input := by
  have hmap (x : Except Stop Reply) (hx : x.map (·,st) = .ok (r,st')) : st'.input = st.input := by
    cases x <;> cases hx
    rfl
  rw [dispatch] at h
  repeat' split at h
  case h_2 hl =>
    cases h
    exact processLockAgent_input hl
  all_goals first | exact hmap _ h | (cases h <;> rfl)

lemma handleConnRead_ok {socknum : Nat} {buf : Bytes} {code : Int} (hbuf : buf ≠ [])
    (h : handleConnRead v st socknum (some buf) salt now = .ok (code,r,st')) :
    code = 0 ∧ st'.input socknum = if Whole (st.input socknum ++ buf) then
      behindFirst (st.input socknum ++ buf) else st.input socknum ++ buf := by
  obtain ⟨c,buf,rfl⟩ := exists_cons_of_ne_nil hbuf
  change (step v st _).map _ = _ at h
  rw [step] at h
  split at h
  · cases h
  next input hput =>
  obtain ⟨-,rfl⟩ := put_iff.mp hput
  cases hm : processMessage v _ now salt _ with
  | error e =>
    rw [hm] at h
    cases h
  | ok x =>
    rw [hm] at h
    cases h
    refine ⟨rfl,?_⟩
    simp only [processMessage,update_self] at hm
    split at hm
    · cases hm
    · next rest htake =>
      cases hm
      exact (update_self ..).trans (takeMessage_rest htake)
    · next rest htake =>
      rw [dispatch_input hm]
      exact (update_self ..).trans (takeMessage_rest htake)

/-- A read leaves no whole request behind and reports one that is too long, exactly if there is at
most one with it and neither that one nor what is behind it is too long. -/
theorem handleConnRead_serves_iff (v : Services) (st st' : AgentState) (socknum : Nat)
    (buf salt : Bytes) (now : Nat) (code : Int) (r : Reply) (hbuf : buf ≠ [])
    (h : handleConnRead v st socknum (some buf) salt now = .ok (code,r,st')) :
    (¬ Whole (st'.input socknum) ∧ (TooLong (st'.input socknum) → code = -1)) ↔
      ¬ (Whole (st.input socknum ++ buf) ∧ (Whole (behindFirst (st.input socknum ++ buf)) ∨
          TooLong (behindFirst (st.input socknum ++ buf)))) ∧
        ¬ TooLong (st.input socknum ++ buf) := by
  obtain ⟨rfl,hinput⟩ := handleConnRead_ok hbuf h
  rw [hinput]
  split_ifs with hw
  · have hfirst : ¬ TooLong _ := fun hl => Nat.not_lt.mpr hw.2.1 hl.2
    simp [hw,hfirst]
  · simp [hw]

theorem handleConnRead_serves_one : ∃ r st', handleConnRead exampleServices exampleAgent 0
      (some (framed [ssh2AgentcRequestIdentities] ++ [0,0])) [7] 0 = .ok (0,r,st') ∧
    st'.input 0 = [0,0] ∧ ¬ Whole (st'.input 0) ∧ (TooLong (st'.input 0) → (0 : Int) = -1) := by
  refine ⟨_,_,rfl,rfl,(handleConnRead_serves_iff exampleServices exampleAgent _ 0
    (framed [ssh2AgentcRequestIdentities] ++ [0,0]) [7] 0 _ _ nofun rfl).mpr ?_⟩
  decide +kernel

/-- The second of two requests waits for more input, and so does a length that is never accepted. -/
theorem handleConnRead_leaves_second :
    (∃ r st', handleConnRead exampleServices exampleAgent 0
        (some (framed [ssh2AgentcRequestIdentities] ++
          framed [ssh2AgentcRequestIdentities])) [7] 0 = .ok (0,r,st') ∧
      Whole (st'.input 0)) ∧
    ∃ r st', handleConnRead exampleServices exampleAgent 0 (some [0,4,0,1,11]) [7] 0 =
        .ok (0,r,st') ∧ TooLong (st'.input 0) :=
  ⟨⟨_,_,rfl,by decide +kernel⟩,_,_,rfl,by decide +kernel⟩

end PkixSsh.Agent
