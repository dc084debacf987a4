import PkixSsh.Match
import PkixSsh.Sshbuf.Basic

/-!
# Requests to the file server

The dispatcher and the handlers of `sftp-server.c`, up to the system calls. A request that goes on
behind its end is noticed when its handler has run. Replies are left out: no call depends on them.
-/

namespace PkixSsh

open List BigEndian

namespace Sshbuf

variable {α β : Type} {p : Get α} {f : α → Get β}

def Get.bind (p : Get α) (f : α → Get β) : Get β := fun b =>
  match p b with
  | .error e => .error e
  | .ok (x,b) => f x b

def Get.pure (x : α) : Get α := fun b => .ok (x,b)

def Get.fail : Get α := fun _ => .error .invalidFormat

/-- What is read depends on the bytes that are taken only. -/
def Local (p : Get α) : Prop :=
  ∀ b x rest, p b = .ok (x,rest) →
    ∃ used, b = used ++ rest ∧ ∀ rest', p (used ++ rest') = .ok (x,rest')

lemma Local.pure (x : α) : Local (Get.pure x) := by
  rintro b _ _ ⟨⟩
  exact ⟨[],rfl,fun _ => rfl⟩

lemma Local.fail : Local (Get.fail : Get α) := by
  rintro b x rest ⟨⟩

lemma Local.bind (hp : Local p) (hf : ∀ x, Local (f x)) : Local (p.bind f) := by
  intro b y rest h
  rw [Get.bind] at h
  split at h
  · cases h
  next x b' hx =>
  obtain ⟨used,rfl,hused⟩ := hp _ _ _ hx
  obtain ⟨used',rfl,hused'⟩ := hf x _ _ _ h
  refine ⟨used ++ used',(append_assoc ..).symm,fun rest' => ?_⟩
  rw [Get.bind,append_assoc,hused]
  exact hused' rest'

lemma Local.ite {c : Prop} [Decidable c] {q : Get α} (hp : Local p) (hq : Local q) :
    Local (if c then p else q) := by
  split
  · exact hp
  · exact hq

lemma Local.u8 : Local getU8 := by
  intro b x rest h
  cases b with
  | nil => cases h
  | cons c b =>
    cases h
    exact ⟨[x],rfl,fun _ => rfl⟩

lemma Local.uint (width : Nat) : Local (getUint width) := by
  intro b x rest h
  obtain ⟨d,hd,hx⟩ := bind_eq_ok.mp h
  cases hx
  rw [get] at hd
  split at hd
  · cases hd
  next hlen =>
  cases hd
  have hw : (b.take width).length = width := by
    rw [length_take]
    omega
  refine ⟨b.take width,(take_append_drop width b).symm,fun rest' => ?_⟩
  have hget := get_append (b.take width) rest'
  rw [hw] at hget
  rw [getUint,hget]
  rfl

lemma Local.string : Local getString := by
  intro b x rest h
  obtain ⟨hl,rfl⟩ := getString_ok h
  exact ⟨framed x,rfl,fun rest' => getString_framed hl rest'⟩

lemma Local.cstring : Local getCstring := by
  intro b x rest h
  obtain ⟨val,hv,hnul,rfl⟩ := getCstring_iff.mp h
  obtain ⟨used,rfl,hused⟩ := Local.string _ _ _ hv
  exact ⟨used,rfl,fun rest' => getCstring_iff.mpr ⟨val,hused rest',hnul,rfl⟩⟩

end Sshbuf

namespace Sftp

open Sshbuf

structure Attrib where
  flags : Nat
  size : Nat
  uid : Nat
  gid : Nat
  perm : Nat
  atime : Nat
  mtime : Nat

def attrSize : Nat := 0x00000001
def attrUidgid : Nat := 0x00000002
def attrPermissions : Nat := 0x00000004
def attrAcmodtime : Nat := 0x00000008
def attrExtended : Nat := 0x80000000

def Attrib.has (a : Attrib) (flag : Nat) : Bool := a.flags &&& flag ≠ 0

/-- A field that is there with its flag, and otherwise left clear. -/
def optional (flags flag : Nat) (p : Get Nat) : Get Nat :=
  if flags &&& flag ≠ 0 then p else .pure 0

def skipExtended : Nat → Get Unit
  | 0 => .pure ()
  | count + 1 => getCstring.bind fun _ => getString.bind fun _ => skipExtended count

def decodeAttrib : Get Attrib :=
  getU32.bind fun flags => (optional flags attrSize getU64).bind fun size =>
  (optional flags attrUidgid getU32).bind fun uid =>
  (optional flags attrUidgid getU32).bind fun gid =>
  (optional flags attrPermissions getU32).bind fun perm =>
  (optional flags attrAcmodtime getU32).bind fun atime =>
  (optional flags attrAcmodtime getU32).bind fun mtime =>
  (optional flags attrExtended getU32).bind fun count => (skipExtended count).bind fun _ =>
  .pure ⟨flags,size,uid,gid,perm,atime,mtime⟩

/-- What a request asks for. A handle is the string that was sent. -/
inductive Request where
  | init (version : Nat)
  /-- One that no handler runs for. -/
  | refused
  | open (name : Bytes) (pflags : Nat) (a : Attrib)
  | close (handle : Bytes)
  | read (handle : Bytes) (off len : Nat)
  | write (handle : Bytes) (off : Nat) (data : Bytes)
  | stat (name : Bytes) (doLstat : Bool)
  | fstat (handle : Bytes)
  | setstat (name : Bytes) (a : Attrib)
  | fsetstat (handle : Bytes) (a : Attrib)
  | opendir (path : Bytes)
  | readdir (handle : Bytes)
  | remove (name : Bytes)
  | mkdir (name : Bytes) (a : Attrib)
  | rmdir (name : Bytes)
  | realpath (path : Bytes)
  | rename (oldpath newpath : Bytes)
  | readlink (path : Bytes)
  | symlink (oldpath newpath : Bytes)
  | posixRename (oldpath newpath : Bytes)
  | statvfs (path : Bytes)
  | fstatvfs (handle : Bytes)
  | hardlink (oldpath newpath : Bytes)
  | fsync (handle : Bytes)
  | lsetstat (name : Bytes) (a : Attrib)

structure Handler where
  name : Bytes
  doesWrite : Bool
  fields : Get Request

variable (request : Bytes → Request)

def onPath : Get Request :=
  getCstring.bind fun path => .pure (request path)

def onHandle : Get Request :=
  getString.bind fun handle => .pure (request handle)

def onPaths (request : Bytes → Bytes → Request) : Get Request :=
  getCstring.bind fun oldpath => getCstring.bind fun newpath => .pure (request oldpath newpath)

def withAttrib (p : Get Bytes) (request : Bytes → Attrib → Request) : Get Request :=
  p.bind fun name => decodeAttrib.bind fun a => .pure (request name a)

def handlers : List (UInt8 × Handler) := [
  (3,⟨cstr "open",false,getCstring.bind fun name => getU32.bind fun pflags =>
    decodeAttrib.bind fun a => .pure (.open name pflags a)⟩),
  (4,⟨cstr "close",false,onHandle .close⟩),
  (5,⟨cstr "read",false,getString.bind fun handle => getU64.bind fun off => getU32.bind fun len =>
    .pure (.read handle off len)⟩),
  (6,⟨cstr "write",true,getString.bind fun handle => getU64.bind fun off =>
    getString.bind fun data => .pure (.write handle off data)⟩),
  (7,⟨cstr "lstat",false,onPath (.stat · true)⟩),
  (8,⟨cstr "fstat",false,onHandle .fstat⟩),
  (9,⟨cstr "setstat",true,withAttrib getCstring .setstat⟩),
  (10,⟨cstr "fsetstat",true,withAttrib getString .fsetstat⟩),
  (11,⟨cstr "opendir",false,onPath .opendir⟩),
  (12,⟨cstr "readdir",false,onHandle .readdir⟩),
  (13,⟨cstr "remove",true,onPath .remove⟩),
  (14,⟨cstr "mkdir",true,withAttrib getCstring .mkdir⟩),
  (15,⟨cstr "rmdir",true,onPath .rmdir⟩),
  (16,⟨cstr "realpath",false,onPath .realpath⟩),
  (17,⟨cstr "stat",false,onPath (.stat · false)⟩),
  (18,⟨cstr "rename",true,onPaths .rename⟩),
  (19,⟨cstr "readlink",false,onPath .readlink⟩),
  (20,⟨cstr "symlink",true,onPaths .symlink⟩)]

def extendedHandlers : List (Bytes × Handler) := [
  (cstr "posix-rename@openssh.com",⟨cstr "posix-rename",true,onPaths .posixRename⟩),
  (cstr "statvfs@openssh.com",⟨cstr "statvfs",false,onPath .statvfs⟩),
  (cstr "fstatvfs@openssh.com",⟨cstr "fstatvfs",false,onHandle .fstatvfs⟩),
  (cstr "hardlink@openssh.com",⟨cstr "hardlink",true,onPaths .hardlink⟩),
  (cstr "fsync@openssh.com",⟨cstr "fsync",true,onHandle .fsync⟩),
  (cstr "lsetstat@openssh.com",⟨cstr "lsetstat",true,withAttrib getCstring .lsetstat⟩)]

inductive HandleUse where
  | unused | dir | file
  deriving DecidableEq

inductive Access where
  | rdonly | wronly | rdwr
  deriving DecidableEq

structure OpenFlags where
  access : Access
  append : Bool
  creat : Bool
  trunc : Bool
  excl : Bool
  deriving DecidableEq

/-- `Handle`, without the counters for the log. -/
structure Handle where
  use : HandleUse
  dirp : Int
  fd : Int
  flags : OpenFlags
  name : Bytes
  nextUnused : Int

structure Server where
  initDone : Bool
  version : Nat
  readonly : Bool
  requestBlacklist : Option Bytes
  requestWhitelist : Option Bytes
  handles : List Handle
  firstUnusedHandle : Int

def flagsFromPortable (pflags : Nat) : OpenFlags where
  access := if pflags &&& 1 ≠ 0 ∧ pflags &&& 2 ≠ 0 then .rdwr else if pflags &&& 1 ≠ 0 then .rdonly
    else if pflags &&& 2 ≠ 0 then .wronly else .rdonly
  append := pflags &&& 4 ≠ 0
  creat := pflags &&& 8 ≠ 0
  trunc := pflags &&& 16 ≠ 0
  excl := pflags &&& 32 ≠ 0

def Server.handleUnused (s : Server) (i : Nat) : Server :=
  { s with
    handles := s.handles.modify i fun h =>
      { h with use := .unused, nextUnused := s.firstUnusedHandle }
    firstUnusedHandle := i }

def Server.handleNew (s : Server) (use : HandleUse) (name : Bytes) (fd : Int) (flags : OpenFlags)
    (dirp : Int) : Server :=
  let s := if s.firstUnusedHandle = -1 then
    { s with
      handles := s.handles ++ [⟨.unused,0,0,flags,[],-1⟩]
      firstUnusedHandle := s.handles.length }
    else s
  let i := s.firstUnusedHandle.toNat
  { s with
    handles := s.handles.modify i fun h => ⟨use,dirp,fd,flags,name,h.nextUnused⟩
    firstUnusedHandle := (s.handles[i]?.map (·.nextUnused)).getD (-1) }

/-- `handle_from_string`, for a handle of one use. -/
def Server.lookup (s : Server) (handle : Bytes) (use : HandleUse) : Option (Nat × Handle) :=
  if handle.length ≠ 4 ∨ decode handle ≥ 2 ^ 31 then none
  else match s.handles[decode handle]? with
    | some h => if h.use = use then some (decode handle,h) else none
    | none => none

def requestPermitted (s : Server) (h : Handler) : Bool :=
  if s.readonly && h.doesWrite then false
  else if s.requestBlacklist.any fun l => (Match.matchList h.name l).1.isSome then false
  else s.requestWhitelist.all fun l => (Match.matchList h.name l).1.isSome

def permitted (s : Server) : Option Handler → Get Request
  | none => .pure .refused
  | some h => if requestPermitted s h then h.fields else .pure .refused

/-- The reads of `process` behind the length and of the handler it calls. -/
def readRequest (s : Server) : Get Request :=
  getU8.bind fun type =>
    if type = 1 then getU32.bind fun version => .pure (.init version)
    else if !s.initDone then .fail
    else getU32.bind fun _ =>
      if type = 200 then
        getCstring.bind fun request =>
          permitted s ((extendedHandlers.find? (·.1 = request)).map (·.2))
      else permitted s ((handlers.find? (·.1 = type)).map (·.2))

/-- What a call is made on: a path, a link itself or a file descriptor. -/
inductive Target where
  | path (name : Bytes)
  | link (name : Bytes)
  | fd (fd : Int)
  deriving DecidableEq

inductive Op where
  | open (name : Bytes) (flags : OpenFlags) (mode : Nat)
  | close (fd : Int)
  | lseek (fd : Int) (off : Nat)
  | read (fd : Int) (len : Nat)
  | write (fd : Int) (data : Bytes)
  | stat (t : Target)
  | truncate (t : Target) (size : Nat)
  | chmod (t : Target) (perm : Nat)
  | utimes (t : Target) (atime mtime : Nat)
  | chown (t : Target) (uid gid : Nat)
  | opendir (path : Bytes)
  | closedir (dirp : Int)
  /-- The loop of `process_readdir`: it stats what the directory has. -/
  | readdir (dirp : Int) (path : Bytes)
  | unlink (name : Bytes)
  | mkdir (name : Bytes) (mode : Nat)
  | rmdir (name : Bytes)
  | realpath (path : Bytes)
  | rename (oldpath newpath : Bytes)
  | link (oldpath newpath : Bytes)
  | symlink (oldpath newpath : Bytes)
  | readlink (path : Bytes)
  | statvfs (t : Target)
  | fsync (fd : Int)
  deriving DecidableEq

/-- The result of a call, as far as the handlers branch on it. -/
structure Result where
  ret : Int
  /-- `S_ISREG` -/
  regular : Bool
  /-- The errors for which `xrename` falls back. -/
  unsupported : Bool

/-- The calls of a handler, and the server it leaves. -/
inductive Prog where
  | done (s : Server)
  | call (op : Op) (k : Result → Prog)

/-- Calls whose results matter for the reply only. -/
def calls (s : Server) (ops : List Op) : Prog :=
  ops.foldr (fun op k => .call op fun _ => k) (.done s)

def setstatOps (t : Target) (a : Attrib) : List Op :=
  (if a.has attrSize then [.truncate t a.size] else []) ++
  (if a.has attrPermissions then [.chmod t (a.perm &&& 0o7777)] else []) ++
  (if a.has attrAcmodtime then [.utimes t a.atime a.mtime] else []) ++
  (if a.has attrUidgid then [.chown t a.uid a.gid] else [])

def onFile (s : Server) (handle : Bytes) (k : Handle → Prog) : Prog :=
  match s.lookup handle .file with
  | none => .done s
  | some (_,h) => if h.fd < 0 then .done s else k h

def xrename (s : Server) (oldpath newpath : Bytes) : Prog :=
  .call (.link oldpath newpath) fun r =>
    if r.ret = -1 then
      if r.unsupported then .call (.stat (.path newpath)) fun r =>
        if r.ret = -1 then calls s [.rename oldpath newpath] else .done s
      else .done s
    else .call (.unlink oldpath) fun r => if r.ret = -1 then calls s [.unlink newpath] else .done s

def perform (s : Server) : Request → Prog
  | .init version => .done { s with version, initDone := true }
  | .refused => .done s
  | .open name pflags a =>
    let flags := flagsFromPortable pflags
    if s.readonly && (flags.access ≠ .rdonly || flags.creat || flags.trunc) then .done s
    else .call (.open name flags (if a.has attrPermissions then a.perm else 0o666)) fun r =>
      if r.ret = -1 then .done s else .done (s.handleNew .file name r.ret flags 0)
  | .close handle =>
    match s.lookup handle .file with
    | some (i,h) => .call (.close h.fd) fun _ => .done (s.handleUnused i)
    | none =>
      match s.lookup handle .dir with
      | some (i,h) => .call (.closedir h.dirp) fun _ => .done (s.handleUnused i)
      | none => .done s
  | .read handle off len => onFile s handle fun h => .call (.lseek h.fd off) fun r =>
      if r.ret = -1 then .done s else calls s [.read h.fd (min len (64 * 1024))]
  | .write handle off data => onFile s handle fun h =>
      if h.flags.append then calls s [.write h.fd data]
      else .call (.lseek h.fd off) fun r =>
        if r.ret = -1 then .done s else calls s [.write h.fd data]
  | .stat name doLstat => calls s [.stat (if doLstat then .link name else .path name)]
  | .fstat handle => onFile s handle fun h => calls s [.stat (.fd h.fd)]
  | .setstat name a => calls s (setstatOps (.path name) a)
  | .fsetstat handle a => onFile s handle fun h => calls s (setstatOps (.fd h.fd) a)
  | .opendir path => .call (.opendir path) fun r =>
      if r.ret = -1 then .done s else .done (s.handleNew .dir path 0 (flagsFromPortable 0) r.ret)
  | .readdir handle =>
    match s.lookup handle .dir with
    | none => .done s
    | some (_,h) => calls s [.readdir h.dirp h.name]
  | .remove name => calls s [.unlink name]
  | .mkdir name a =>
    calls s [.mkdir name (if a.has attrPermissions then a.perm &&& 0o7777 else 0o777)]
  | .rmdir name => calls s [.rmdir name]
  | .realpath path => calls s [.realpath (if path = [] then cstr "." else path)]
  | .rename oldpath newpath => .call (.stat (.link oldpath)) fun r =>
      if r.ret = -1 then .done s
      else if r.regular then xrename s oldpath newpath
      else .call (.stat (.path newpath)) fun r =>
        if r.ret = -1 then calls s [.rename oldpath newpath] else .done s
  | .readlink path => calls s [.readlink path]
  | .symlink oldpath newpath => calls s [.symlink oldpath newpath]
  | .posixRename oldpath newpath => calls s [.rename oldpath newpath]
  | .statvfs path => calls s [.statvfs (.path path)]
  | .fstatvfs handle => onFile s handle fun h => calls s [.statvfs (.fd h.fd)]
  | .hardlink oldpath newpath => calls s [.link oldpath newpath]
  | .fsync handle => onFile s handle fun h => calls s [.fsync h.fd]
  | .lsetstat name a => if a.has attrSize then .done s else calls s (setstatOps (.link name) a)

/-- The calls made when the system answers each by what was called before. -/
def Prog.run (os : List Op → Op → Result) (before : List Op) : Prog → List Op × Server
  | .done s => (before,s)
  | .call op k => (k (os before op)).run os (before ++ [op])

def sftpMaxMsgLength : Nat := 256 * 1024

inductive Exit where
  | fatal | cleanup (i : Nat)

/-- The calls of one turn of `process`, and the server and its queue, if it goes on. -/
structure Turn where
  ops : List Op
  next : Except Exit (Server × Bytes)

def process (os : List Op → Op → Result) (s : Server) (iqueue : Bytes) : Turn :=
  let msgLen := decode (iqueue.take 4)
  if iqueue.length < 5 then ⟨[],.ok (s,iqueue)⟩
  else if msgLen > sftpMaxMsgLength then ⟨[],.error (.cleanup 11)⟩
  else if iqueue.length < msgLen + 4 then ⟨[],.ok (s,iqueue)⟩
  else
    let bufLen := iqueue.length - 4
    match readRequest s (iqueue.drop 4) with
    | .error _ => ⟨[],.error .fatal⟩
    | .ok (req,rest) =>
      let (ops,s) := (perform s req).run os []
      if bufLen < rest.length then ⟨ops,.error (.cleanup 255)⟩
      else if msgLen < bufLen - rest.length then ⟨ops,.error (.cleanup 255)⟩
      else ⟨ops,.ok (s,rest.drop (msgLen - (bufLen - rest.length)))⟩

def Attrib.changes (a : Attrib) : Bool :=
  a.has attrSize || a.has attrPermissions || a.has attrAcmodtime || a.has attrUidgid

def Server.isFile (s : Server) (handle : Bytes) : Bool :=
  (s.lookup handle .file).any fun h => 0 ≤ h.2.fd

def callsSystem (s : Server) : Request → Bool
  | .init _ | .refused => false
  | .open _ pflags _ =>
    let flags := flagsFromPortable pflags
    !(s.readonly && (flags.access ≠ .rdonly || flags.creat || flags.trunc))
  | .close handle => (s.lookup handle .file).isSome || (s.lookup handle .dir).isSome
  | .readdir handle => (s.lookup handle .dir).isSome
  | .read handle _ _ | .write handle _ _ | .fstat handle | .fstatvfs handle | .fsync handle =>
    s.isFile handle
  | .fsetstat handle a => s.isFile handle && a.changes
  | .setstat _ a => a.changes
  | .lsetstat _ a => !a.has attrSize && a.changes
  | _ => true

structure Frame where
  bytes : Bytes
  declared : bytes.length = decode (bytes.take 4) + 4

/-- With these bytes behind the message its fields go on behind its end. -/
def Overreads (s : Server) (f : Frame) (behind : Bytes) (req : Request) : Prop :=
  f.bytes.length ≤ sftpMaxMsgLength + 4 ∧ ∃ rest,
    readRequest s (f.bytes.drop 4 ++ behind) = .ok (req,rest) ∧ rest.length < behind.length

/-- The server takes no request of that length, the fields of the message end inside it, or none of
the requests that it may begin asks for a call. -/
def Contained (s : Server) (f : Frame) : Prop :=
  sftpMaxMsgLength + 4 < f.bytes.length ∨
    (∃ req rest, readRequest s (f.bytes.drop 4) = .ok (req,rest)) ∨
    ∀ behind req rest, readRequest s (f.bytes.drop 4 ++ behind) = .ok (req,rest) →
      callsSystem s req = false

/-- The calls for the message depend on its bytes only, and there are none when its fields go on
behind its end. -/
def Isolated (os : List Op → Op → Result) (s : Server) (f : Frame) : Prop :=
  (∀ behind behind',
    (process os s (f.bytes ++ behind)).ops = (process os s (f.bytes ++ behind')).ops) ∧
  ∀ behind req, Overreads s f behind req → (process os s (f.bytes ++ behind)).ops = []

variable {os : List Op → Op → Result} {s : Server} {f : Frame} {behind rest : Bytes} {req : Request}

lemma local_optional (flags flag : Nat) {p : Get Nat} (hp : Local p) :
    Local (optional flags flag p) := hp.ite (.pure 0)

lemma local_skipExtended (count : Nat) : Local (skipExtended count) := by
  induction count with
  | zero => exact .pure ()
  | succ count ih => exact Local.cstring.bind fun _ => Local.string.bind fun _ => ih

lemma local_decodeAttrib : Local decodeAttrib := by
  have hu32 : Local _ := .uint 4
  refine hu32.bind fun flags => ?_
  refine (local_optional flags _ (.uint 8)).bind fun _ => ?_
  refine (local_optional flags _ hu32).bind fun _ => (local_optional flags _ hu32).bind fun _ => ?_
  refine (local_optional flags _ hu32).bind fun _ => (local_optional flags _ hu32).bind fun _ => ?_
  refine (local_optional flags _ hu32).bind fun _ => (local_optional flags _ hu32).bind fun _ => ?_
  exact (local_skipExtended _).bind fun _ => .pure _

lemma local_onPath : Local (onPath request) :=
  Local.cstring.bind fun _ => .pure _

lemma local_onHandle : Local (onHandle request) :=
  Local.string.bind fun _ => .pure _

lemma local_onPaths (request : Bytes → Bytes → Request) : Local (onPaths request) :=
  Local.cstring.bind fun _ => Local.cstring.bind fun _ => .pure _

lemma local_withAttrib {p : Get Bytes} (hp : Local p) (request : Bytes → Attrib → Request) :
    Local (withAttrib p request) := hp.bind fun _ => local_decodeAttrib.bind fun _ => .pure _

lemma local_handlers : ∀ h ∈ handlers, Local h.2.fields := by
  have hopen : Local (getCstring.bind fun name => getU32.bind fun pflags =>
      decodeAttrib.bind fun a => .pure (Request.open name pflags a)) :=
    Local.cstring.bind fun _ => (Local.uint 4).bind fun _ =>
      local_decodeAttrib.bind fun _ => .pure _
  have hread : Local (getString.bind fun handle => getU64.bind fun off => getU32.bind fun len =>
      .pure (Request.read handle off len)) :=
    Local.string.bind fun _ => (Local.uint 8).bind fun _ => (Local.uint 4).bind fun _ => .pure _
  have hwrite : Local (getString.bind fun handle => getU64.bind fun off =>
      getString.bind fun data => .pure (Request.write handle off data)) :=
    Local.string.bind fun _ => (Local.uint 8).bind fun _ => Local.string.bind fun _ => .pure _
  simp only [handlers,forall_mem_cons,not_mem_nil,IsEmpty.forall_iff,implies_true,
    local_onPath,local_onHandle,local_onPaths,local_withAttrib Local.cstring,
    local_withAttrib Local.string,hopen,hread,hwrite,and_self]

lemma local_extendedHandlers : ∀ h ∈ extendedHandlers, Local h.2.fields := by
  simp only [extendedHandlers,forall_mem_cons,not_mem_nil,IsEmpty.forall_iff,implies_true,
    local_onPath,local_onHandle,local_onPaths,local_withAttrib Local.cstring,and_self]

lemma local_permitted {κ : Type} {hs : List (κ × Handler)} (h : ∀ h ∈ hs, Local h.2.fields)
    (p : κ × Handler → Bool) : Local (permitted s ((hs.find? p).map (·.2))) := by
  cases hf : hs.find? p with
  | none => exact .pure _
  | some x => exact (h x (List.mem_of_find?_eq_some hf)).ite (.pure _)

lemma local_readRequest (s : Server) : Local (readRequest s) := by
  refine Local.u8.bind fun type => .ite ((Local.uint 4).bind fun _ => .pure _) (.ite .fail ?_)
  refine (Local.uint 4).bind fun _ => .ite ?_ (local_permitted local_handlers _)
  exact Local.cstring.bind fun _ => local_permitted local_extendedHandlers _

lemma readRequest_inside {body : Bytes} (h : readRequest s (body ++ behind) = .ok (req,rest))
    (hin : behind.length ≤ rest.length) : ∃ rest', readRequest s body = .ok (req,rest') := by
  obtain ⟨used,hused,hread⟩ := local_readRequest s _ _ _ h
  have hlen := congrArg List.length hused
  rw [length_append,length_append] at hlen
  obtain ⟨tail,rfl⟩ : used <+: body :=
    prefix_of_prefix_length_le (hused ▸ prefix_append used rest)
      (prefix_append body _) (by omega)
  exact ⟨tail,hread _⟩

lemma readRequest_append {body : Bytes} (h : readRequest s body = .ok (req,rest))
    (behind : Bytes) : readRequest s (body ++ behind) = .ok (req,rest ++ behind) := by
  obtain ⟨used,rfl,hread⟩ := local_readRequest s _ _ _ h
  rw [append_assoc]
  exact hread _

def Prog.isDone : Prog → Bool
  | .done _ => true
  | .call _ _ => false

lemma Prog.before_prefix (os : List Op → Op → Result) (before : List Op) (p : Prog) :
    before <+: (p.run os before).1 := by
  induction p generalizing before with
  | done s => exact prefix_rfl
  | call op k ih => exact (prefix_append _ [op]).trans (ih _ _)

lemma Prog.run_nil (os : List Op → Op → Result) (p : Prog) :
    (p.run os []).1 = [] ↔ p.isDone = true := by
  cases p with
  | done s => exact ⟨fun _ => rfl,fun _ => rfl⟩
  | call op k =>
    refine ⟨fun h => ?_,by rintro ⟨⟩⟩
    have hop := before_prefix os [op] (k (os [] op))
    rw [show ((k _).run os [op]).1 = [] from h] at hop
    cases prefix_nil.mp hop

lemma isDone_calls (ops : List Op) : (calls s ops).isDone = ops.isEmpty := by
  cases ops <;> rfl

lemma isEmpty_setstatOps (t : Target) (a : Attrib) :
    (setstatOps t a).isEmpty = !a.changes := by
  simp only [setstatOps,Attrib.changes]
  cases a.has _ <;> cases a.has _ <;> cases a.has _ <;>
    cases a.has _ <;> rfl

lemma isDone_onFile (handle : Bytes) (k : Handle → Prog) (done : Bool)
    (hk : ∀ h, (k h).isDone = done) :
    (onFile s handle k).isDone = (!s.isFile handle || done) := by
  rw [onFile,Server.isFile]
  cases s.lookup _ .file with
  | none => rfl
  | some h =>
    by_cases hfd : h.2.fd < 0
    · simp [hfd,Prog.isDone]
    · simp [hfd,hk]

lemma isDone_perform (s : Server) (req : Request) :
    (perform s req).isDone = !callsSystem s req := by
  cases req with
  | «open» name pflags a =>
    simp only [perform,callsSystem,Bool.not_not]
    split
    · next h => exact h.symm
    · next h => exact (Bool.eq_false_of_not_eq_true h).symm
  | close handle =>
    simp only [perform,callsSystem]
    cases s.lookup _ .file <;> cases s.lookup _ .dir <;> rfl
  | readdir handle =>
    simp only [perform,callsSystem]
    cases s.lookup _ .dir <;> rfl
  | setstat name a => exact (isDone_calls _).trans (isEmpty_setstatOps _ a)
  | lsetstat name a =>
    simp only [perform,callsSystem]
    cases a.has _
    · exact (isDone_calls _).trans (isEmpty_setstatOps _ a)
    · rfl
  | fsetstat handle a =>
    refine (isDone_onFile _ _ _ fun h => ?_).trans (Bool.not_and ..).symm
    exact (isDone_calls _).trans (isEmpty_setstatOps _ a)
  | write handle off data =>
    refine (isDone_onFile _ _ false fun h => ?_).trans (Bool.or_false _)
    split <;> rfl
  | read handle _ _ | fstat handle | fstatvfs handle | fsync handle =>
    exact (isDone_onFile _ _ false fun h => rfl).trans (Bool.or_false _)
  | _ => rfl

def opsOf (os : List Op → Op → Result) (s : Server) : Except SshErr (Request × Bytes) → List Op
  | .error _ => []
  | .ok (req,_) => ((perform s req).run os []).1

lemma process_ops (os : List Op → Op → Result) (s : Server) (f : Frame) (behind : Bytes) :
    (process os s (f.bytes ++ behind)).ops = if f.bytes.length ≤ sftpMaxMsgLength + 4
      then opsOf os s (readRequest s (f.bytes.drop 4 ++ behind)) else [] := by
  have hd := f.declared
  have htake : (f.bytes ++ behind).take 4 = f.bytes.take 4 := take_append_of_le_length (by omega)
  have hdrop : (f.bytes ++ behind).drop 4 = f.bytes.drop 4 ++ behind :=
    drop_append_of_le_length (by omega)
  simp only [process,htake,hdrop]
  split
  · next hshort =>
    -- a message of no bytes, and nothing behind it
    rw [length_append] at hshort
    have hb : f.bytes.drop 4 ++ behind = [] := by
      rw [← length_eq_zero_iff,length_append,length_drop]
      omega
    rw [hb]
    split <;> rfl
  split
  · rw [if_neg (by omega)]
  rw [if_neg (by rw [length_append]; omega),if_pos (by omega)]
  cases readRequest s _ with
  | error e => rfl
  | ok r =>
    rw [opsOf]
    dsimp only
    split
    · rfl
    · split <;> rfl

lemma opsOf_eq_nil : opsOf os s (.ok (req,rest)) = [] ↔ callsSystem s req = false := by
  rw [opsOf,Prog.run_nil,isDone_perform,Bool.not_eq_true']

/-- A message is isolated if it is contained, and no other one is. -/
theorem isolated_iff (os : List Op → Op → Result) (s : Server) (f : Frame) :
    Isolated os s f ↔ Contained s f := by
  constructor
  · rintro ⟨-,hover⟩
    by_cases hl : sftpMaxMsgLength + 4 < f.bytes.length
    · exact .inl hl
    refine .inr (or_iff_not_imp_left.mpr fun hin behind req rest hr => ?_)
    have hlt : rest.length < behind.length :=
      Nat.lt_of_not_le fun hle => hin ⟨req,readRequest_inside hr hle⟩
    have hnone := hover _ req ⟨Nat.not_lt.mp hl,rest,hr,hlt⟩
    rw [process_ops,if_pos (Nat.not_lt.mp hl),hr] at hnone
    exact opsOf_eq_nil.mp hnone
  · intro h
    by_cases hin : ∃ req rest, readRequest s (f.bytes.drop 4) = .ok (req,rest)
    · obtain ⟨req,rest,hr⟩ := hin
      refine ⟨fun b b' => ?_,?_⟩
      · rw [process_ops,process_ops,readRequest_append hr,readRequest_append hr]
        rfl
      · rintro behind req' ⟨-,rest',hr',hlt⟩
        rw [readRequest_append hr] at hr'
        cases hr'
        rw [length_append] at hlt
        omega
    · have hall : ∀ b, (process os s (f.bytes ++ b)).ops = [] := by
        intro b
        rw [process_ops]
        split
        · next hl =>
          have hmute := (h.resolve_left (Nat.not_lt.mpr hl)).resolve_left hin
          cases hr : readRequest s _ with
          | error e => rfl
          | ok r => exact opsOf_eq_nil.mpr (hmute b r.1 r.2 hr)
        · rfl
      exact ⟨fun b b' => (hall b).trans (hall b').symm,fun b _ _ => hall b⟩

def exampleFrame : Frame := ⟨framed [13,0,0,0,9],by decide⟩

def exampleServer : Server := ⟨true,3,false,none,none,[],-1⟩

/-- The name is taken from behind the message, and the file is removed. -/
theorem process_removes_next : let iqueue := exampleFrame.bytes ++ framed (cstr "x")
    let turn := process (fun _ _ => ⟨0,false,false⟩) exampleServer iqueue
    turn.ops = [.unlink (cstr "x")] ∧ turn.next.toOption.isNone ∧
      (process (fun _ _ => ⟨0,false,false⟩) exampleServer exampleFrame.bytes).ops = [] := by
  decide +kernel

end Sftp

end PkixSsh
