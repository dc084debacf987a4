import PkixSsh.Bitmap
import PkixSsh.Key.Sign
import PkixSsh.Krl.Basic

/-!
# Writing revocation lists

The serials of an authority are written in sections of three kinds; the cost of each decides
from one range of serials to the next.
-/

namespace PkixSsh.Krl

open Key X509 Sshbuf IntervalList List

/-- The kinds of sections of serials, `KRL_SECTION_CERT_SERIAL_*`. -/
inductive SerialSection where
  | list | range | bitmap
  deriving DecidableEq

def SerialSection.code : SerialSection → UInt8
  | .list => 0x20
  | .range => 0x21
  | .bitmap => 0x22

def certKeyId : UInt8 := 0x23

/-- The costs in bits to switch to a list, to a bitmap and to a new bitmap. -/
def switchCosts : Option SerialSection → Nat × Nat × Nat
  | some .list => (0,8 + 64,8 + 64)
  | some .bitmap => (8,0,8 + 64)
  | some .range | none => (8,8 + 64,8 + 64)

/-- The end of `choose_next_state`: the least cost, where the first of equal ones wins. -/
def pickState (costList costRange costBitmap costBitmapRestart : Nat) : SerialSection × Bool :=
  let (newState,cost) := (SerialSection.bitmap,costBitmap)
  let (newState,cost) := if costRange < cost then (.range,costRange) else (newState,cost)
  let (newState,cost) := if costList < cost then (.list,costList) else (newState,cost)
  if costBitmapRestart < cost then (.bitmap,true) else (newState,false)

/-- `choose_next_state`: the kind of section for the next range, and whether a new bitmap is
forced. The costs are compared in bytes. -/
def chooseNextState (currentState : Option SerialSection) (contig : Nat) (final : Bool)
    (lastGap nextGap : Nat) : SerialSection × Bool :=
  let contig := min contig (2 ^ 31)
  let lastGap := min lastGap (2 ^ 31)
  let nextGap := min nextGap (2 ^ 31)
  let switch := switchCosts currentState
  let costList := switch.1 + (64 * contig + if final then 0 else 8 + 64)
  let costRange := 8 + (2 * 64 + if final then 0 else 8 + 64)
  let costBitmap :=
    switch.2.1 + (lastGap + contig + if final then 0 else min nextGap (8 + 64))
  let costBitmapRestart := switch.2.2 + (contig + if final then 0 else min nextGap (8 + 64))
  pickState ((costList + 7) / 8) ((costRange + 7) / 8) ((costBitmap + 7) / 8)
    ((costBitmapRestart + 7) / 8)

def putBitmap (bitmap : Bitmap) (buf : Bytes) : Except SshErr Bytes :=
  match bitmapToString bitmap (bitmapNbytes bitmap) with
  | none => .error .internalError
  | some blob => putBignum2Bytes blob buf

/-- The variables of `revoked_certs_generate`. The bitmap is only read in a bitmap
section. -/
structure Gen where
  state : Option SerialSection
  last : Nat
  bitmapStart : Nat
  bitmap : Bitmap
  sect : Bytes
  buf : Bytes

variable (state : SerialSection) (rs : RevokedSerial) (g : Gen)

def closedSect : SerialSection → Except SshErr Bytes
  | .list | .range => .ok g.sect
  | .bitmap => putBitmap g.bitmap g.sect

def finishSection : Except SshErr Gen := do
  let sect ← closedSect g state
  let buf ← putU8 state.code g.buf
  let buf ← putString sect buf
  return { g with sect := [], buf := buf }

def startSection : Except SshErr Gen :=
  match state with
  | .list | .range => .ok { g with state := some state, sect := [] }
  | .bitmap => do
    let sect ← putU64 rs.lo []
    return { g with state := some state, bitmap := bitmapNew, bitmapStart := rs.lo, sect := sect }

def contig : Nat := 1 + (rs.hi - rs.lo)

/-- A range put into the section, or what is written so far: a range too far from the start of the
bitmap makes the function return without error. -/
def fillSection : Except SshErr (Gen ⊕ Bytes) :=
  match state with
  | .list => do
    let sect ← (range (contig rs)).foldlM (fun sect i => putU64 (rs.lo + i) sect) g.sect
    return .inl { g with sect := sect }
  | .range => do
    let sect ← putU64 rs.lo g.sect >>= putU64 rs.hi
    return .inl { g with sect := sect }
  | .bitmap =>
    if rs.lo - g.bitmapStart > 2 ^ 31 - 1 then return .inr g.buf
    else
      match (range (contig rs)).foldlM
          (fun b i => bitmapSetBit b ((rs.lo + i - g.bitmapStart) % 2 ^ 32)) g.bitmap with
      | none => .error .allocFail
      | some bitmap => return .inl { g with bitmap := bitmap }

def nextState (state : Option SerialSection) (last : Nat) (rs : RevokedSerial)
    (rest : List RevokedSerial) : SerialSection × Bool :=
  chooseNextState state (contig rs) rest.isEmpty (if state = none then 0 else rs.lo - last)
    (match rest with
      | [] => 0
      | nrs :: _ => nrs.lo - rs.hi)

/-- The open section is finished before another one, and a range section always is. -/
def finishOpen (choice : SerialSection × Bool) (g : Gen) : Except SshErr Gen :=
  match g.state with
  | none => .ok g
  | some state =>
    if choice.2 ∨ choice.1 ≠ state ∨ state = .range then finishSection state g else .ok g

def startNew (choice : SerialSection × Bool) (rs : RevokedSerial) (g : Gen) :
    Except SshErr Gen :=
  if some choice.1 ≠ g.state ∨ choice.2 then startSection choice.1 rs g else .ok g

def generateStep (rest : List RevokedSerial) (g : Gen) : Except SshErr (Gen ⊕ Bytes) := do
  let choice := nextState g.state g.last rs rest
  let g ← finishOpen choice g
  let g ← startNew choice rs g
  match ← fillSection choice.1 rs g with
  | .inl g => return .inl { g with last := rs.hi }
  | .inr buf => return .inr buf

def generateSerials : List RevokedSerial → Gen → Except SshErr (Gen ⊕ Bytes)
  | [], g => .ok (.inl g)
  | rs :: rest, g => do
    match ← generateStep rs rest g with
    | .inl g => generateSerials rest g
    | .inr buf => return .inr buf

def finishLast : Except SshErr Gen :=
  match g.state with
  | none => .ok g
  | some state => finishSection state g

/-- The section of the key IDs of `revoked_certs_generate` and the sections of blobs of
`ssh_krl_to_blob`. Nothing is written for no strings. -/
def putStringsSection (type : UInt8) (strings : List Bytes) (buf : Bytes) :
    Except SshErr Bytes := do
  let sect ← strings.foldlM (fun sect s => putString s sect) []
  if sect.length ≠ 0 then putU8 type buf >>= putString sect else return buf

section

variable (c : Codec)

/-- The key at the start of a section, or no key for all authorities. -/
def putCa (ca : Option SshKey) (buf : Bytes) : Except SshErr Bytes :=
  match ca with
  | none => putString [] buf
  | some k => sshkeyPuts c k buf

def revokedCertsGenerate (rc : RevokedCerts) (buf : Bytes) : Except SshErr Bytes := do
  let buf ← putCa c rc.caKey buf
  let buf ← putString [] buf
  match ← generateSerials rc.revokedSerials.ranges ⟨none,0,0,bitmapNew,[],buf⟩ with
  | .inr buf => return buf
  | .inl g =>
    let g ← finishLast g
    putStringsSection certKeyId (rc.revokedKeyIds.keyIds.map Subtype.val) g.buf

def krlMagic : Bytes := cstr "SSHKRL\n" ++ [0]

def krlFormatVersion : Nat := 1

def sectionCertificates : UInt8 := 1
def sectionExplicitKey : UInt8 := 2
def sectionFingerprintSha1 : UInt8 := 3
def sectionSignature : UInt8 := 4
def sectionFingerprintSha256 : UInt8 := 5

def putHeader (krl : SshKrl) (buf : Bytes) : Except SshErr Bytes :=
  put krlMagic buf >>= putU32 krlFormatVersion >>= putU64 krl.krlVersion.toNat >>=
    putU64 krl.generatedDate.toNat >>= putU64 krl.flags.toNat >>= putString [] >>=
    putString (krl.comment.elim [] Subtype.val)

def putCerts (buf : Bytes) (rc : RevokedCerts) : Except SshErr Bytes := do
  let sect ← revokedCertsGenerate c rc []
  putU8 sectionCertificates buf >>= putString sect

def putSignature (y : Crypto) (buf : Bytes) (key : SshKey) : Except SshErr Bytes := do
  let buf ← putU8 sectionSignature buf >>= sshkeyPuts c key
  let sblob ← sshkeySign y key buf []
  putString sblob buf

def SshKrl.dated (now : UInt64) (krl : SshKrl) : SshKrl :=
  if krl.generatedDate = 0 then { krl with generatedDate := now } else krl

def sshKrlToBlob (y : Crypto) (now : UInt64) (krl : SshKrl) (signKeys : List SshKey) :
    Except SshErr Bytes := do
  let buf ← putHeader (krl.dated now) []
  let buf ← krl.revokedCerts.foldlM (putCerts c) buf
  let buf ← putStringsSection sectionExplicitKey krl.revokedKeys.blobs buf
  let buf ← putStringsSection sectionFingerprintSha1 krl.revokedSha1s.blobs buf
  let buf ← putStringsSection sectionFingerprintSha256 krl.revokedSha256s.blobs buf
  signKeys.foldlM (putSignature c y) buf

end

end PkixSsh.Krl
