import PkixSsh.Channels.Basic

/-!
# What is read before a forwarded connection is open

The SOCKS requests of dynamic forwarding and the first packet of an X11 connection.
-/

namespace PkixSsh.Channels

open Sshbuf List

inductive Verdict
  | bad | more | done
  deriving DecidableEq

/-- The loop of `channel_decode_socks4` that looks for `need` NULs, at position `i`. -/
def findNuls (need : Nat) : Bytes → Nat → Nat → Verdict
  | [],_,_ => .more
  | ch :: rest,i,found =>
    let found := if ch = 0 then found + 1 else found
    if ch = 0 ∧ found = need then .done
    else if i > 1024 then .bad
    else findNuls need rest (i + 1) found

def socks4Reply (command : UInt8) (input : Bytes) : Verdict × Bytes × Bytes :=
  if command ≠ 1 then (.bad,input,[]) else (.done,input,[0,90,0,0,0,0,0,0])

/-- `channel_decode_socks4`: the result, what it leaves of `input`, and what it appends to
`output`. -/
def channelDecodeSocks4 (input : Bytes) : Verdict × Bytes × Bytes :=
  if input.length < 8 then (.more,input,[])
  else
    let p := fun i => input.getD i 0
    let need := if p 4 = 0 ∧ p 5 = 0 ∧ p 6 = 0 ∧ p 7 ≠ 0 then 2 else 1
    match findNuls need (input.drop 8) 8 0 with
    | .bad => (.bad,input,[])
    | .more => (.more,input,[])
    | .done =>
      let user := input.drop 8
      if 0 ∉ user then (.bad,user,[])
      else
        let host := user.drop ((untilNul user).length + 1)
        if need = 1 then socks4Reply (p 1) host
        else if 0 ∉ host then (.bad,host,[])
        else if (untilNul host).length + 1 > niMaxhost then (.bad,host,[])
        else socks4Reply (p 1) (host.drop ((untilNul host).length + 1))

/-- The part of `channel_decode_socks5` behind the choice of the method. -/
def socks5Request (input : Bytes) : Verdict × Bytes × Bytes :=
  if input.length < 5 then (.more,input,[])
  else
    let p := fun i => input.getD i 0
    if p 0 ≠ 5 ∨ p 1 ≠ 1 ∨ p 2 ≠ 0 then (.bad,input,[])
    else
      let need :=
        if p 3 = 1 then some (4 + 4 + 2)
        else if p 3 = 3 then some (4 + (p 4).toNat + 2 + 1)
        else if p 3 = 4 then some (4 + 16 + 2)
        else none
      match need with
      | none => (.bad,input,[])
      | some need =>
        if input.length < need then (.more,input,[])
        else (.done,input.drop need,[5,0,0,1,0,0,0,0,0,0])

/-- `channel_decode_socks5`, with `SSH_SOCKS5_AUTHDONE` before and after it. -/
def channelDecodeSocks5 (authdone : Bool) (input : Bytes) : Bool × Verdict × Bytes × Bytes :=
  if input.getD 0 0 ≠ 5 then (authdone,.bad,input,[])
  else if authdone then (true,socks5Request input)
  else if input.length < 2 then (false,.more,input,[])
  else
    let nmethods := (input.getD 1 0).toNat
    if input.length < nmethods + 2 then (false,.more,input,[])
    else if 0 ∉ (input.drop 2).take nmethods then (false,.bad,input,[])
    else (true,.more,input.drop (nmethods + 2),[5,0])

/-- The guess of the protocol by `channel_pre_dynamic` and its reverse. -/
def channelDecodeSocks (authdone : Bool) (input : Bytes) : Bool × Verdict × Bytes × Bytes :=
  match input.head? with
  | some 4 => (authdone,channelDecodeSocks4 input)
  | some 5 => channelDecodeSocks5 authdone input
  | _ => (authdone,.bad,input,[])

/-- The X11 authentication of a session; `refused` is set behind the refusal deadline. -/
structure X11 where
  refused : Bool
  savedProto : Bytes
  fakeData : Bytes
  savedData : Bytes

def x11Pad (n : Nat) : Nat := (n + 3) / 4 * 4

def x11OpenHelper (x : X11) (b : Bytes) : Verdict × Bytes :=
  if x.refused then (.bad,b)
  else if b.length < 12 then (.more,b)
  else
    let ucp := fun i => (b.getD i 0).toNat
    let lens :=
      if ucp 0 = 0x42 then some (256 * ucp 6 + ucp 7,256 * ucp 8 + ucp 9)
      else if ucp 0 = 0x6c then some (ucp 6 + 256 * ucp 7,ucp 8 + 256 * ucp 9)
      else none
    match lens with
    | none => (.bad,b)
    | some (protoLen,dataLen) =>
      let dataAt := 12 + x11Pad protoLen
      if b.length < dataAt + x11Pad dataLen then (.more,b)
      else if protoLen ≠ x.savedProto.length ∨ (b.drop 12).take protoLen ≠ x.savedProto then
        (.bad,b)
      else if dataLen ≠ x.fakeData.length ∨
          (b.drop dataAt).take x.fakeData.length ≠ x.fakeData then (.bad,b)
      else if x.fakeData.length ≠ x.savedData.length then (.bad,b)
      else (.done,b.take dataAt ++ x.savedData ++ b.drop (dataAt + x.savedData.length))

lemma socks4Reply_spec {command : UInt8} {b b' r : Bytes} {v : Verdict}
    (h : socks4Reply command b = (v,b',r)) : b' = b ∧ (v ≠ .done → r = []) := by
  unfold socks4Reply at h
  split at h
  · cases h
    exact ⟨rfl,fun _ => rfl⟩
  · cases h
    exact ⟨rfl,fun hv => absurd rfl hv⟩

lemma channelDecodeSocks4_spec {b b' r : Bytes} {v : Verdict}
    (h : channelDecodeSocks4 b = (v,b',r)) : b'.length ≤ b.length ∧ (v ≠ .done → r = []) := by
  have hstop : ∀ {v' : Verdict} {d : Bytes}, d.length ≤ b.length → (v',d,([])) = (v,b',r) →
      b'.length ≤ b.length ∧ (v ≠ .done → r = []) := by
    intro v' d hd he
    cases he
    exact ⟨hd,fun _ => rfl⟩
  have hdone : ∀ {command : UInt8} {d : Bytes}, d.length ≤ b.length →
      socks4Reply command d = (v,b',r) → b'.length ≤ b.length ∧ (v ≠ .done → r = []) := by
    intro command d hd he
    obtain ⟨rfl,hv⟩ := socks4Reply_spec he
    exact ⟨hd,hv⟩
  unfold channelDecodeSocks4 at h
  dsimp only at h
  split at h
  · exact hstop le_rfl h
  split at h
  · exact hstop le_rfl h
  · exact hstop le_rfl h
  -- the number of strings is kept as one term, or `split` would look into it
  generalize (if b.getD 4 0 = 0 ∧ b.getD 5 0 = 0 ∧ b.getD 6 0 = 0 ∧ b.getD 7 0 ≠ 0 then 2 else 1) =
    need at h
  split at h
  · exact hstop (by simp) h
  split at h
  · exact hdone (by simp only [length_drop]; omega) h
  split at h
  · exact hstop (by simp only [length_drop]; omega) h
  split at h
  · exact hstop (by simp only [length_drop]; omega) h
  · exact hdone (by simp only [length_drop]; omega) h

lemma socks5Request_spec {b b' r : Bytes} {v : Verdict} (h : socks5Request b = (v,b',r)) :
    b'.length ≤ b.length ∧ (v ≠ .done → r = []) := by
  have hstop : ∀ {v' : Verdict}, (v',b,([])) = (v,b',r) →
      b'.length ≤ b.length ∧ (v ≠ .done → r = []) := by
    intro v' he
    cases he
    exact ⟨le_rfl,fun _ => rfl⟩
  unfold socks5Request at h
  split at h
  · exact hstop h
  dsimp only at h
  split at h
  · exact hstop h
  split at h
  · exact hstop h
  split at h
  · exact hstop h
  · cases h
    exact ⟨by simp,fun hv => absurd rfl hv⟩

lemma channelDecodeSocks_spec {a a' : Bool} {b b' r : Bytes} {v : Verdict}
    (h : channelDecodeSocks a b = (a',v,b',r)) : b'.length ≤ b.length ∧
      (v ≠ .done → (r = [] ∧ a' = a) ∨ (r = [5,0] ∧ a = false ∧ a' = true)) := by
  have hkeep : b'.length ≤ b.length ∧ (v ≠ .done → r = []) → a' = a →
      b'.length ≤ b.length ∧
        (v ≠ .done → (r = [] ∧ a' = a) ∨ (r = [5,0] ∧ a = false ∧ a' = true)) :=
    fun ⟨hl,hm⟩ ha => ⟨hl,fun hv => .inl ⟨hm hv,ha⟩⟩
  unfold channelDecodeSocks at h
  split at h
  · obtain ⟨ha,h⟩ := Prod.mk.inj h
    exact hkeep (channelDecodeSocks4_spec h) ha.symm
  · unfold channelDecodeSocks5 at h
    split at h
    · cases h
      exact hkeep ⟨le_rfl,fun _ => rfl⟩ rfl
    split at h
    · next hauth =>
      obtain ⟨ha,h⟩ := Prod.mk.inj h
      exact hkeep (socks5Request_spec h) (ha.symm.trans hauth.symm)
    next hauth =>
    have hauth : a = false := by simpa using hauth
    split at h
    · cases h
      exact hkeep ⟨le_rfl,fun _ => rfl⟩ hauth.symm
    dsimp only at h
    split at h
    · cases h
      exact hkeep ⟨le_rfl,fun _ => rfl⟩ hauth.symm
    split at h
    · cases h
      exact hkeep ⟨le_rfl,fun _ => rfl⟩ hauth.symm
    · cases h
      exact ⟨by simp,fun _ => .inr ⟨rfl,hauth,rfl⟩⟩
  · cases h
    exact hkeep ⟨le_rfl,fun _ => rfl⟩ rfl

lemma length_x11OpenHelper {x : X11} {b b' : Bytes} (h : x11OpenHelper x b = (.done,b')) :
    b'.length = b.length := by
  unfold x11OpenHelper at h
  dsimp only at h
  split at h
  · cases h
  split at h
  · cases h
  split at h
  · cases h
  next protoLen dataLen _ =>
  split at h
  · cases h
  next hlen =>
  split at h
  · cases h
  split at h
  · cases h
  next hdata =>
  split at h
  · cases h
  next hsaved =>
  cases h
  have hpad : dataLen ≤ x11Pad dataLen := by
    unfold x11Pad
    omega
  have hfake : dataLen = x.fakeData.length := not_not.mp (not_or.mp hdata).1
  simp only [length_append,length_take,length_drop]
  omega

end PkixSsh.Channels
