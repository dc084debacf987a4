import Mathlib.Algebra.BigOperators.Group.List.Basic
import Mathlib.Order.MinMax
import PkixSsh.Buffer.Struct

/-!
# Limits of a key

When `packet.c` asks for new keys. The count of blocks that is compared with the limit grows by
blocks, but the next packet is added to it in bytes.
-/

namespace PkixSsh.Packet

open List Option Buffer

structure PacketState where
  packets : Nat
  blocks : Nat

/-- `blockSize` is that of the keys for sending, `isRekeying` is `ssh_packet_is_rekeying`, and
`noRekey` a peer with `SSH_BUG_NOREKEY`. -/
structure SessionState where
  afterAuthentication : Bool
  isRekeying : Bool
  noRekey : Bool
  rekeyInterval : Nat
  rekeyTime : Int
  rekeyLimit : Nat
  pSend : PacketState
  pRead : PacketState
  maxBlocksOut : Nat
  maxBlocksIn : Nat
  blockSize : Nat

def maxPackets : Nat := 2 ^ 31

def maxBlocks (blockSize rekeyLimit : Nat) : Nat :=
  let blocks := if blockSize ≥ 16 then 2 ^ (blockSize * 2) % 2 ^ 64 else 2 ^ 30 / blockSize
  if rekeyLimit = 0 then blocks else min blocks (rekeyLimit / blockSize)

/-- `ssh_set_newkeys` for the keys that packets are sent with. -/
def setNewkeysOut (blockSize : Nat) (st : SessionState) : SessionState :=
  { st with
    pSend := ⟨0,0⟩
    blockSize
    maxBlocksOut := maxBlocks blockSize st.rekeyLimit }

def needRekeying (now : Int) (st : SessionState) (outboundPacketLen : Nat) : Bool :=
  if !st.afterAuthentication || st.isRekeying || st.noRekey then false
  else if st.pSend.packets = 0 ∧ st.pRead.packets = 0 then false
  else if st.rekeyInterval ≠ 0 ∧ st.rekeyTime + st.rekeyInterval ≤ now then true
  else if st.pSend.packets > maxPackets ∨ st.pRead.packets > maxPackets then true
  else
    let outBlocks := roundup outboundPacketLen st.blockSize
    (st.maxBlocksOut ≠ 0 ∧ st.pSend.blocks + outBlocks > st.maxBlocksOut) ∨
      (st.maxBlocksIn ≠ 0 ∧ st.pRead.blocks > st.maxBlocksIn)

/-- A packet: its bytes when it is submitted, those after compression, how many of them are not
encrypted, and the padding that is asked for. -/
structure Outgoing where
  submitted : Nat
  len : Nat
  aadlen : Nat
  extraPad : Nat

/-- The padding of a packet, in an `u_char`. -/
def padlen (blockSize : Nat) (p : Outgoing) : Option Nat :=
  let len := p.len - p.aadlen
  let padlen := (blockSize - len % blockSize) % 256
  let padlen := if padlen < 4 then (padlen + blockSize) % 256 else padlen
  if p.extraPad = 0 then some padlen
  else
    let extraPad := roundup p.extraPad blockSize % 256
    if extraPad < p.extraPad then none
    else
      let pad := extraPad - (len + padlen) % extraPad
      if (padlen + pad) % 256 < padlen then none else some ((padlen + pad) % 256)

def packetBlocks (blockSize : Nat) (p : Outgoing) : Option Nat :=
  (padlen blockSize p).map fun padlen => (p.len + padlen) / blockSize

/-- `ssh_packet_send2_wrapped`, as far as it counts. -/
def send2Wrapped (st : SessionState) (p : Outgoing) : Option SessionState := do
  let n ← packetBlocks st.blockSize p
  let packets := (st.pSend.packets + 1) % 2 ^ 32
  if packets = 0 ∧ !st.noRekey then none
  else some { st with pSend := ⟨packets,st.pSend.blocks + n⟩ }

/-- No other limit asks for new keys. -/
def BlocksDecide (now : Int) (st : SessionState) : Prop :=
  st.afterAuthentication = true ∧ st.isRekeying = false ∧ st.noRekey = false ∧
    ¬ (st.rekeyInterval ≠ 0 ∧ st.rekeyTime + st.rekeyInterval ≤ now) ∧
    ¬ (st.pSend.packets > maxPackets ∨ st.pRead.packets > maxPackets) ∧
    ¬ (st.maxBlocksIn ≠ 0 ∧ st.pRead.blocks > st.maxBlocksIn)

lemma needRekeying_of_blocksDecide {now : Int} {st : SessionState} (h : BlocksDecide now st)
    (len : Nat) : needRekeying now st len = true ↔
      ¬ (st.pSend.packets = 0 ∧ st.pRead.packets = 0) ∧ st.maxBlocksOut ≠ 0 ∧
        st.maxBlocksOut < st.pSend.blocks + roundup len st.blockSize := by
  obtain ⟨ha,hr,hn,ht,hm,hi⟩ := h
  rw [needRekeying,if_neg (by simp [ha,hr,hn])]
  by_cases hp : st.pSend.packets = 0 ∧ st.pRead.packets = 0
  · simp [hp]
  · rw [if_neg ht,if_neg hm]
    simp [hp,hi]

/-- What is counted under a key are the blocks of the packets. -/
lemma send2Wrapped_blocks {ps : List Outgoing} {st st' : SessionState}
    (h : ps.foldlM send2Wrapped st = some st') : ∃ ns,
      ps.mapM (packetBlocks st.blockSize) = some ns ∧ st'.pSend.blocks = st.pSend.blocks + ns.sum ∧
        st'.maxBlocksOut = st.maxBlocksOut ∧ st'.blockSize = st.blockSize := by
  induction ps generalizing st with
  | nil =>
    cases h
    exact ⟨[],rfl,rfl,rfl,rfl⟩
  | cons p ps ih =>
    obtain ⟨st1,hst1,h⟩ := bind_eq_some_iff.mp h
    obtain ⟨n,hn,hst1⟩ := bind_eq_some_iff.mp hst1
    dsimp only at hst1
    split at hst1
    · cases hst1
    cases hst1
    obtain ⟨ns,hns,hblocks,hmax,hsize⟩ := ih h
    refine ⟨n :: ns,?_,?_,hmax,hsize⟩
    · simp [hn,hns]
    · rw [hblocks,sum_cons,Nat.add_assoc]

/-- Where no other limit decides, the count of blocks decides exactly if the next packet exceeds the
limit both in blocks and in bytes, or in neither. The first packet under a key is always sent, and a
limit of 0 is none. -/
theorem needRekeying_exact_iff (now : Int) (st0 st : SessionState) (blockSize : Nat)
    (ps : List Outgoing) (p : Outgoing) (ns : List Nat) (n : Nat)
    (hsent : ps.foldlM send2Wrapped (setNewkeysOut blockSize st0) = some st)
    (hns : (ps ++ [p]).mapM (packetBlocks blockSize) = some (ns ++ [n]))
    (hdecide : BlocksDecide now st) :
    (needRekeying now st p.submitted = true ↔ maxBlocks blockSize st0.rekeyLimit < ns.sum + n) ↔
      if st.pSend.packets = 0 ∧ st.pRead.packets = 0 then
        ns.sum + n ≤ maxBlocks blockSize st0.rekeyLimit
      else if maxBlocks blockSize st0.rekeyLimit = 0 then ns.sum + n = 0
      else maxBlocks blockSize st0.rekeyLimit < ns.sum + min n (roundup p.submitted blockSize) ∨
        ns.sum + max n (roundup p.submitted blockSize) ≤ maxBlocks blockSize st0.rekeyLimit := by
  obtain ⟨ns',hns',hblocks,hmax,hsize⟩ := send2Wrapped_blocks hsent
  obtain rfl : ns = ns' := by
    have hns' : ps.mapM (packetBlocks blockSize) = some ns' := hns'
    cases hp : packetBlocks blockSize p with
    | none => simp [hp] at hns
    | some m =>
      simp only [mapM_append,hns',hp,mapM_cons] at hns
      exact (append_inj' (some.inj hns) rfl).1.symm
  have hblocks : st.pSend.blocks = ns.sum := hblocks.trans (Nat.zero_add _)
  have hmax : st.maxBlocksOut = maxBlocks _ _ := hmax
  have hsize : st.blockSize = blockSize := hsize
  rw [needRekeying_of_blocksDecide hdecide,hsize]
  split_ifs with hp hzero <;> omega

def exampleState : SessionState :=
  ⟨true,false,false,0,0,1600,⟨0,0⟩,⟨0,0⟩,0,0,8⟩

def exampleSent : SessionState :=
  { setNewkeysOut 16 exampleState with pSend := ⟨1,2⟩ }

theorem needRekeying_exact_small :
    needRekeying 0 exampleSent 22 = true ↔ maxBlocks 16 1600 < 2 + 2 :=
  (needRekeying_exact_iff 0 _ _ 16 [⟨22,22,0,0⟩] ⟨22,22,0,0⟩ [2] 2 rfl
    (by decide +kernel) (by unfold BlocksDecide; decide +kernel)).mpr
      (by decide +kernel)

/-- A packet of seven blocks asks for new keys after two of a hundred. -/
theorem needRekeying_early :
    [⟨22,22,0,0⟩].foldlM send2Wrapped (setNewkeysOut 16 exampleState) = some exampleSent ∧
    [⟨22,22,0,0⟩,⟨100,100,0,0⟩].mapM (packetBlocks 16) = some [2,7] ∧ BlocksDecide 0 exampleSent ∧
    ¬ (needRekeying 0 exampleSent 100 = true ↔ maxBlocks 16 exampleState.rekeyLimit < 2 + 7) := by
  unfold BlocksDecide
  refine ⟨rfl,by decide +kernel,by decide +kernel,by decide +kernel⟩

end PkixSsh.Packet
