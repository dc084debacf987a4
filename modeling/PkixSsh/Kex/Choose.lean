import PkixSsh.Kex.Algorithms
import PkixSsh.Kex.Proposal
import PkixSsh.Match

/-!
# Choosing the algorithms

`kex_choose_conf`: each algorithm is chosen by the client's order, and at the end, however it is
reached, a guess of the peer is compared with the proposals.
-/

namespace PkixSsh.Kex

open X509 Key Match

structure Sshenc where
  name : Option Bytes := none
  cipher : Option Sshcipher := none
  ivLen : Nat := 0
  keyLen : Nat := 0
  blockSize : Nat := 0
  deriving DecidableEq

structure Sshmac where
  name : Option Bytes := none
  type : Option MacType := none
  macLen : Nat := 0
  keyLen : Nat := 0
  etm : Bool := false
  deriving DecidableEq

inductive Compression where
  | none | zlib | delayed
  deriving DecidableEq

structure Sshcomp where
  type : Compression := .none
  name : Option Bytes := none
  deriving DecidableEq

/-- `struct newkeys`, as `calloc` returns it. -/
structure Newkeys where
  enc : Sshenc := {}
  mac : Sshmac := {}
  comp : Sshcomp := {}
  deriving DecidableEq

/-- The part of `struct kex` that the choice reads and writes. -/
structure KexState where
  server : Bool
  initial : Bool
  my : Bytes
  peer : Bytes
  extInfoC : Bool := false
  name : Option Bytes := none
  kexType : KexExchange := .dhGrp1Sha1
  hashAlg : SshDigest := .md5
  ecNid : Int := 0
  hostkeyAlg : Option Bytes := none
  newkeysIn : Option Newkeys := none
  newkeysOut : Option Newkeys := none
  weNeed : Nat := 0
  dhNeed : Nat := 0
  failedChoice : Option Bytes := none
  deriving DecidableEq

/-- The part of `struct ssh` that the choice reads and writes. -/
structure Ssh where
  kex : KexState
  dispatchSkipPackets : Nat := 0
  deriving DecidableEq

variable (t : XkalgTable) (k : KexState) (client server : Option Bytes) (my : Proposal)

def matchProposals : Except Stop (Option Bytes) :=
  match client, server with
  | some c, some s => .ok (matchList c s).1
  | _, _ => .error .nullRead

def chooseKex : Except Stop (Option SshErr × KexState) := do
  let name ← matchProposals client server
  let k := { k with name := name }
  match name with
  | none => return (some .noKexAlgMatch,k)
  | some n =>
    match kexAlgByName n with
    | none => return (some .internalError,k)
    | some a => return (none,{ k with kexType := a.type, hashAlg := a.hashAlg, ecNid := a.ecNid })

def chooseHostkeyalg : Except Stop (Option SshErr × KexState) := do
  let name ← matchProposals client server
  let k := { k with hostkeyAlg := name }
  match name with
  | none => return (some .noHostkeyAlgMatch,k)
  | some n =>
    if sshkeyTypeFromName t n = .unspec then return (some .internalError,k) else return (none,k)

def chooseEnc (enc : Sshenc) (client server : Option Bytes) :
    Except Stop (Option SshErr × Sshenc) := do
  match ← matchProposals client server with
  | none => return (some .noCipherAlgMatch,enc)
  | some name =>
    match cipherByName name with
    | none => return (some .internalError,enc)
    | some c => return (none,⟨some name,some c,cipherIvlen c,c.keyLen,c.blockSize⟩)

def macSetupByAlg (m : Macalg) (mac : Sshmac) : Sshmac :=
  let (macLen,keyLen) :=
    match m.type with
    | .digest alg => (alg.bytes,alg.bytes)
    | .umac keyLen len | .umac128 keyLen len => (len / 8,keyLen / 8)
  { mac with
    type := some m.type
    macLen := if m.truncatebits ≠ 0 then m.truncatebits / 8 else macLen
    keyLen := keyLen
    etm := m.etm }

def chooseMac (mac : Sshmac) (client server : Option Bytes) :
    Except Stop (Option SshErr × Sshmac) := do
  match ← matchProposals client server with
  | none => return (some .noMacAlgMatch,mac)
  | some name =>
    match macs.find? fun m => m.name = name with
    | none => return (some .internalError,mac)
    | some m => return (none,{ macSetupByAlg m mac with name := some name })

def chooseComp (comp : Sshcomp) (client server : Option Bytes) :
    Except Stop (Option SshErr × Sshcomp) := do
  match ← matchProposals client server with
  | none => return (some .noCompressAlgMatch,comp)
  | some name =>
    if name = cstr "zlib@openssh.com" then return (none,⟨.delayed,some name⟩)
    else if name = cstr "zlib" then return (none,⟨.zlib,some name⟩)
    else if name = cstr "none" then return (none,⟨.none,some name⟩)
    else return (some .internalError,comp)

/-- What the function works on between reading the proposals and its end. -/
structure Conf where
  kex : KexState
  peer : Proposal

abbrev Step := Conf → Except Stop (Option SshErr × Conf)

def Step.andThen (f g : Step) : Step := fun s => do
  let (r,s) ← f s
  match r with
  | some r => return (some r,s)
  | none => g s

def cprop (server : Bool) (my peer : Proposal) : Proposal := if server then peer else my

def sprop (server : Bool) (my peer : Proposal) : Proposal := if server then my else peer

/-- A choice from one entry of the proposals. When it fails the list of the peer is moved
to `failed_choice`. -/
def choice (i : ProposalIndex)
    (choose : KexState → Option Bytes → Option Bytes → Except Stop (Option SshErr × KexState))
    : Step :=
  fun s => do
    let (r,kex) ← choose s.kex (cprop s.kex.server my s.peer i) (sprop s.kex.server my s.peer i)
    match r with
    | none => return (none,{ s with kex := kex })
    | some r =>
      return (some r,⟨{ kex with failedChoice := s.peer i },Function.update s.peer i none⟩)

inductive Mode where
  | in_ | out
  deriving DecidableEq

def KexState.newkeys : Mode → Option Newkeys
  | .in_ => k.newkeysIn
  | .out => k.newkeysOut

def KexState.setNewkeys (mode : Mode) (n : Newkeys) : KexState :=
  match mode with
  | .in_ => { k with newkeysIn := some n }
  | .out => { k with newkeysOut := some n }

/-- A choice that goes into one member of the new keys of a direction. -/
def inNewkeys {α : Type} (mode : Mode) (member : Newkeys → α) (set : Newkeys → α → Newkeys)
    (choose : α → Option Bytes → Option Bytes → Except Stop (Option SshErr × α))
    (k : KexState) (client server : Option Bytes) : Except Stop (Option SshErr × KexState) :=
  match k.newkeys mode with
  | none => .error .nullRead
  | some n => do
    let (r,a) ← choose (member n) client server
    return (r,k.setNewkeys mode (set n a))

def ctos (server : Bool) (mode : Mode) : Bool :=
  (!server && mode = .out) || (server && mode = .in_)

/-- The choice of the code, which an authenticated cipher makes needless. -/
def chooseMacOrNone (n : Newkeys) (client server : Option Bytes) :
    Except Stop (Option SshErr × Newkeys) :=
  match n.enc.cipher with
  | none => .error .nullRead
  | some c =>
    if c.authLen ≠ 0 then .ok (none,n)
    else do
      let (r,mac) ← chooseMac n.mac client server
      return (r,{ n with mac := mac })

def chooseMode (mode : Mode) : Step := fun s =>
  let start : Step := fun s => .ok (none,{ s with kex := s.kex.setNewkeys mode {} })
  let dir (c st : ProposalIndex) := if ctos s.kex.server mode then c else st
  (start.andThen
    ((choice my (dir .encAlgsCtos .encAlgsStoc)
        (inNewkeys mode (·.enc) (fun n e => { n with enc := e }) chooseEnc)).andThen
      ((choice my (dir .macAlgsCtos .macAlgsStoc)
          (inNewkeys mode id (fun _ n => n) chooseMacOrNone)).andThen
        (choice my (dir .compAlgsCtos .compAlgsStoc)
          (inNewkeys mode (·.comp) (fun n c => { n with comp := c }) chooseComp))))) s

/-- The lengths the new keys of one direction need, for `we_need` and `dh_need`. -/
def needs (n : Newkeys) : Except Stop (List Nat × List Nat) :=
  match n.enc.cipher with
  | none => .error .nullRead
  | some c => .ok ([n.enc.keyLen,n.enc.blockSize,n.enc.ivLen,n.mac.keyLen],
      [cipherSeclen c,n.enc.blockSize,n.enc.ivLen,n.mac.keyLen])

/-- The end of the negotiation, which cannot fail. -/
def setNeeds : Step := fun s =>
  match s.kex.newkeys .in_, s.kex.newkeys .out with
  | some i, some o => do
    let (weIn,dhIn) ← needs i
    let (weOut,dhOut) ← needs o
    return (none,{ s with kex := { s.kex with
      weNeed := (weIn ++ weOut).foldl max 0
      dhNeed := (dhIn ++ dhOut).foldl max 0 } })
  | _, _ => .error .nullRead

/-- From the check of `ext-info-c` to the end. -/
def extInfo : Step := fun s =>
  if s.kex.server && s.kex.initial then do
    let ext ← matchProposals (some (cstr "ext-info-c")) (s.peer .kexAlgs)
    return (none,{ s with kex := { s.kex with extInfoC := ext.isSome } })
  else return (none,s)

def negotiate : Step :=
  extInfo.andThen ((choice my .kexAlgs chooseKex).andThen
    ((choice my .serverHostKeyAlgs (chooseHostkeyalg t)).andThen
      ((chooseMode my .in_).andThen ((chooseMode my .out).andThen setNeeds))))

def firstName (s : Bytes) : Bytes := s.takeWhile (· ≠ comma)

def sameFirst (peer : Proposal) (i : ProposalIndex) : Except Stop Bool :=
  match my i, peer i with
  | some m, some p => .ok (firstName m = firstName p)
  | _, _ => .error .nullRead

def proposalsMatch (my peer : Option Proposal) : Except Stop Bool :=
  match my, peer with
  | some my, some peer => do
    if ← sameFirst my peer .kexAlgs then sameFirst my peer .serverHostKeyAlgs else return false
  | _, _ => .error .nullRead

def out (ssh : Ssh) (my peer : Option Proposal) (firstKexFollows : UInt8) (r : Option SshErr) :
    Except Stop (Option SshErr × Ssh) :=
  if firstKexFollows ≠ 0 then do
    if ← proposalsMatch my peer then return (r,ssh)
    else return (r,{ ssh with dispatchSkipPackets := 1 })
  else return (r,ssh)

def kexChooseConf (ssh : Ssh) : Except Stop (Option SshErr × Ssh) :=
  match kexBuf2prop ssh.kex.my with
  | .error r => out ssh none none 0 (some r)
  | .ok (my,_) =>
    match kexBuf2prop ssh.kex.peer with
    | .error r => out ssh (some my) none 0 (some r)
    | .ok (peer,firstKexFollows) => do
      let (r,s) ← negotiate t my ⟨ssh.kex,peer⟩
      out { ssh with kex := s.kex } (some my) (some s.peer) firstKexFollows r

end PkixSsh.Kex
