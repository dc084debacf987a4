import PkixSsh.Addr.Basic

/-!
# Receiving files with scp

`sink` of `scp.c`, on a stream that the remote side chooses, up to the calls it makes. Messages to
the remote side are left out.
-/

namespace PkixSsh.Scp

open List Option

open Addr (digitsValue strtoul)

def ch (c : Char) : UInt8 := c.toNat.toUInt8

def int64Max : Nat := 2 ^ 63 - 1

/-- `tv`: seconds and microseconds of `mtime` and of `atime`. -/
structure Times where
  mtime : Nat × Int
  atime : Nat × Int
  deriving DecidableEq

/-- The calls, each with its path. A call on a descriptor has the path that was opened; the loop
that copies the data is one `write`. -/
inductive Op where
  | stat (path : Bytes)
  | mkdir (path : Bytes) (mode : Nat)
  | open (path : Bytes) (mode : Nat)
  | fstat (path : Bytes)
  | write (path : Bytes) (data : Bytes)
  | ftruncate (path : Bytes) (size : Nat)
  | fchmod (path : Bytes) (mode : Nat)
  | close (path : Bytes)
  | chmod (path : Bytes) (mode : Nat)
  | utimes (path : Bytes) (tv : Times)
  deriving DecidableEq

def Op.path : Op → Bytes
  | .stat p | .mkdir p _ | .open p _ | .fstat p | .write p _ | .ftruncate p _ | .fchmod p _
  | .close p | .chmod p _ | .utimes p _ => p

/-- The answer to a call, with the type of file for `stat`. -/
structure Answer where
  ok : Bool
  isDir : Bool
  isReg : Bool

/-- The options of the process, and what it finds outside: `os` answers the last of the calls, and
`bufSize` is the size of the buffer of `allocbuf`. -/
structure Env where
  pflag : Bool
  iamrecursive : Bool
  tflag : Bool
  targetshouldbedirectory : Bool
  mask : Nat
  src : Option Bytes
  braceExpand : Bytes → Option (List Bytes)
  fnmatch : Bytes → Bytes → Bool
  bufSize : Nat
  os : List Op → Answer

structure State where
  input : Bytes
  ops : List Op

def State.call (s : State) (op : Op) : State := { s with ops := s.ops ++ [op] }

def State.callIf (s : State) (b : Bool) (op : Op) : State := if b then s.call op else s

/-- The loop that reads a line behind its first character, of `n + 1` characters at most. -/
def readRest : Nat → Bytes → Option (Bytes × Bytes)
  | _,[] => none
  | 0,c :: rest => some ([c],rest)
  | n + 1,c :: rest =>
    if c = ch '\n' then some ([c],rest)
    else (readRest n rest).map fun (l,rest) => (c :: l,rest)

/-- The C string in the buffer, without the newline. -/
def text (l : Bytes) : Bytes :=
  (if l.getLast? = some (ch '\n') then l.dropLast else l).takeWhile (· ≠ 0)

inductive Record where
  | eof
  | screwup
  | line (c : UInt8) (cp : Bytes) (input : Bytes)

def readRecord : Bytes → Record
  | [] => .eof
  | c :: input =>
    if c = ch '\n' then .screwup
    else
      match readRest 2045 input with
      | none => .screwup
      | some (l,input) => .line c (text l) input

def strtol (s : Bytes) : Int × Bytes :=
  let t := s.dropWhile isspace
  let t' := if t.head? = some (ch '-') ∨ t.head? = some (ch '+') then t.drop 1 else t
  let n : Int := digitsValue (t'.takeWhile isdigit)
  if t'.takeWhile isdigit = [] then (0,s)
  else if t.head? = some (ch '-') then (max (-n) (-2 ^ 63),t'.dropWhile isdigit)
  else (min n (2 ^ 63 - 1),t'.dropWhile isdigit)

/-- `*cp++` is the blank. -/
def delimited : Bytes → Option Bytes
  | [] => none
  | c :: cp => if c = ch ' ' then some cp else none

/-- A number that starts with a digit, and the blank behind it. -/
def getNumber (cp : Bytes) : Option (Nat × Bytes) :=
  if cp.head?.any isdigit then (delimited (strtoul cp).2).map fun rest => ((strtoul cp).1,rest)
  else none

def usecValid (n : Int) : Bool := 0 ≤ n ∧ n ≤ 999999

/-- A record of times, which are not set if they are out of range. -/
def parseTimes (cp : Bytes) : Option (Option Times) := do
  let (msec,cp) ← getNumber cp
  let (musec,cp) := strtol cp
  let cp ← delimited cp
  guard (usecValid musec)
  let (asec,cp) ← getNumber cp
  let (ausec,cp) := strtol cp
  guard (cp = [] ∧ usecValid ausec)
  return if msec > int64Max ∨ asec > int64Max then none else some ⟨(msec,musec),(asec,ausec)⟩

def parseFile (cp : Bytes) : Option (Nat × Nat × Bytes) := do
  let digits := cp.take 4
  guard (digits.length = 4 ∧ digits.all fun c => ch '0' ≤ c && c ≤ ch '7')
  let mode := digits.foldl (fun m c => m <<< 3 ||| (c.toNat - 48)) 0
  let cp ← delimited (cp.drop 4)
  let (size,name) ← getNumber cp
  guard (size ≤ int64Max)
  return (mode,size,name)

def expectedName (cp : Bytes) : Bool :=
  cp ≠ [] ∧ ch '/' ∉ cp ∧ cp ≠ cstr "." ∧ cp ≠ cstr ".."

/-- `response`, what is left of the stream if the process goes on. -/
def response : Bytes → Option Bytes
  | [] => none
  | resp :: input =>
    if resp = 0 then some input
    else if resp = 1 then (readRest 2046 input).map (·.2)
    else none

/-- `mode & ~mask` -/
def clearBits (mode mask : Nat) : Nat := mode ^^^ (mode &&& mask)

/-- A path in a directory, as `snprintf` puts it together. -/
def join (targ cp : Bytes) : Bytes := targ ++ (if targ = cstr "/" then [] else cstr "/") ++ cp

section

variable (v : Env)

/-- None where `brace_expand` fails. -/
def patterns : Option (List Bytes) :=
  match v.src with
  | none => some []
  | some src => if !v.iamrecursive && !v.tflag then v.braceExpand src else some []

/-- `sink` up to its loop: whether the target is a directory, unless the process ends. -/
def enter (targ : Bytes) (s : State) : Option Bool × State :=
  let s1 := s.callIf v.targetshouldbedirectory (.stat targ)
  if v.targetshouldbedirectory && !((v.os s1.ops).ok && (v.os s1.ops).isDir) then (none,s1)
  else
    let s2 := s1.call (.stat targ)
    ((patterns v).map fun _ => (v.os s2.ops).ok && (v.os s2.ops).isDir,s2)

/-- What is to be done with a directory: none for `bad`, and otherwise `mod_flag`. -/
def makeDir (np : Bytes) (mode : Nat) (stb : Answer) (s : State) : Option Bool × State :=
  if stb.ok then
    if !stb.isDir then (none,s) else (some v.pflag,s.callIf v.pflag (.chmod np mode))
  else
    let s := s.call (.mkdir np (mode ||| 0o700))
    (if (v.os s.ops).ok then some true else none,s)

/-- How a record, or `sink`, ends: with the times that are left to be set, or with the process. -/
inductive Flow where
  | next (times : Option Times) (s : State)
  | exit (s : State)

def Flow.state : Flow → State
  | .next _ s | .exit s => s

def setTimes (np : Bytes) (times : Option Times) (s : State) : State :=
  match times with
  | none => s
  | some tv => s.call (.utimes np tv)

/-- The data go to the file, which is then closed: `wrerr`, and the calls. -/
def copyData (np : Bytes) (omode size : Nat) (stb : Answer) (data : Bytes) (s : State) :
    Bool × State :=
  let mode := omode ||| 0o200
  let s := s.callIf (size ≠ 0) (.write np data)
  let wrerr := size ≠ 0 && !(v.os s.ops).ok
  let truncate := !wrerr && (!stb.ok || stb.isReg)
  let s := s.callIf truncate (.ftruncate np size)
  let wrerr := wrerr || truncate && !(v.os s.ops).ok
  let setMode := !wrerr && (if v.pflag then stb.ok || omode ≠ mode else !stb.ok && omode ≠ mode)
  let s := s.callIf setMode (.fchmod np (if v.pflag then omode else clearBits omode v.mask))
  let wrerr := wrerr || setMode && !(v.os s.ops).ok
  let s := s.call (.close np)
  (wrerr || !(v.os s.ops).ok,s)

/-- A file, from its opening on. -/
def receive (np : Bytes) (mode size : Nat) (times : Option Times) (stb : Answer)
    (s : State) : Flow :=
  let s := s.call (.open np (mode ||| 0o200))
  if !(v.os s.ops).ok then .next times s
  else
    let s := s.call (.fstat np)
    if !(v.os s.ops).ok then .next times (s.call (.close np))
    else if s.input.length < size then
      -- only whole buffers are written before the stream ends
      let data := s.input.take (s.input.length / v.bufSize * v.bufSize)
      .exit (s.callIf (data ≠ []) (.write np data))
    else
      let (wrerr,s) := copyData v np mode size stb (s.input.take size)
        { s with input := s.input.drop size }
      match response s.input with
      | none => .exit s
      | some input =>
        let s := { s with input := input }
        if wrerr then .next times s else .next none (setTimes np times s)

/-- What a line stands for; `exit` also where the names of the request do not match. -/
inductive Control where
  | note
  | exit
  | done
  | times (tv : Option Times)
  | entry (dir : Bool) (mode size : Nat) (name : Bytes)

def control (c : UInt8) (cp : Bytes) : Control :=
  if c = 1 then .note
  else if c = 2 then .exit
  else if c = ch 'E' then .done
  else if c = ch 'T' then
    match parseTimes cp with
    | none => .exit
    | some tv => .times tv
  else if c ≠ ch 'C' ∧ c ≠ ch 'D' then .exit
  else
    match parseFile cp with
    | none => .exit
    | some (mode,size,cp) =>
      let names := (patterns v).getD []
      if !expectedName cp then .exit
      else if names ≠ [] ∧ !names.any (v.fnmatch · cp) then .exit
      else .entry (c = ch 'D') (if v.pflag then mode else clearBits mode v.mask) size cp

/-- The loop of `sink` over the records, for `n` of them at most, also those of the directories in
it. Every record takes a byte at least. -/
def sinkLoop : Nat → Bytes → Bool → Option Times → State → Flow
  | 0,_,_,_,s => .exit s
  | n + 1,targ,targisdir,times,s =>
    match readRecord s.input with
    | .eof => .next times s
    | .screwup => .exit s
    | .line c cp input =>
      let s := { s with input := input }
      match control v c cp with
      | .note => sinkLoop n targ targisdir times s
      | .exit => .exit s
      | .done => .next times s
      | .times times => sinkLoop n targ targisdir times s
      | .entry dir mode size cp =>
        let np := if targisdir then join targ cp else targ
        let s := s.call (.stat np)
        if !dir then
          match receive v np mode size times (v.os s.ops) s with
          | .exit s => .exit s
          | .next times s => sinkLoop n targ targisdir times s
        else if !v.iamrecursive then .exit s
        else
          match makeDir v np mode (v.os s.ops) s with
          | (none,s) => sinkLoop n targ targisdir times s
          | (some modFlag,s) =>
            match enter v np s with
            | (none,s) => .exit s
            | (some isDir,s) =>
              match sinkLoop n np isDir none s with
              | .exit s => .exit s
              | .next _ s => sinkLoop n targ targisdir none
                  ((setTimes np times s).callIf modFlag (.chmod np mode))

/-- The calls of `sink`, on a stream and for `n` records at most. -/
def sink (n : Nat) (targ stream : Bytes) : List Op :=
  match enter v targ ⟨stream,[]⟩ with
  | (none,s) => s.ops
  | (some isDir,s) => (sinkLoop v n targ isDir none s).state.ops

end

/-- The name of a record of a file or a directory that may be put behind a path. -/
structure Component (stream name : Bytes) : Prop where
  taken : ∃ input c cp rest mode size, input <:+ stream ∧ readRecord input = .line c cp rest ∧
    (c = ch 'C' ∨ c = ch 'D') ∧ parseFile cp = some (mode,size,name)
  nonempty : name ≠ []
  slash : ch '/' ∉ name
  dot : name ≠ cstr "."
  dotdot : name ≠ cstr ".."

inductive Below (stream targ : Bytes) : Bytes → Prop
  | target : Below stream targ targ
  | component {path name : Bytes} :
    Below stream targ path → Component stream name → Below stream targ (join path name)

structure Confined (stream targ : Bytes) (s : State) : Prop where
  input : s.input <:+ stream
  paths : ∀ op ∈ s.ops, Below stream targ op.path

variable {v : Env} {stream targ path : Bytes} {s : State} {times : Option Times}
  (h : Confined stream targ s)

include h

lemma Confined.call (op : Op) (hp : Below stream targ op.path) :
    Confined stream targ (s.call op) := by
  refine ⟨h.input,fun o ho => ?_⟩
  rcases mem_append.mp ho with ho | ho
  · exact h.paths o ho
  · cases mem_singleton.mp ho
    exact hp

lemma Confined.callIf (b : Bool) (op : Op)
    (hp : Below stream targ op.path) : Confined stream targ (s.callIf b op) := by
  unfold State.callIf
  split
  · exact h.call op hp
  · exact h

lemma Confined.rest {input : Bytes} (hi : input <:+ s.input) :
    Confined stream targ { s with input := input } := ⟨hi.trans h.input,h.paths⟩

lemma Confined.setTimes (hp : Below stream targ path) :
    Confined stream targ (setTimes path times s) := by
  cases times with
  | none => exact h
  | some tv => exact h.call _ hp

lemma Confined.enter (hp : Below stream targ path) :
    Confined stream targ (enter v path s).2 := by
  unfold Scp.enter
  dsimp only
  have hdir := h.callIf v.targetshouldbedirectory (.stat path) hp
  split
  · exact hdir
  · exact hdir.call _ hp

lemma Confined.makeDir (hp : Below stream targ path) (mode : Nat)
    (stb : Answer) : Confined stream targ (makeDir v path mode stb s).2 := by
  unfold Scp.makeDir
  split
  · split
    · exact h
    · exact h.callIf _ _ hp
  · exact h.call _ hp

omit h

lemma readRest_eq {n : Nat} {input l rest : Bytes} (h : readRest n input = some (l,rest)) :
    input = l ++ rest := by
  induction input generalizing n l with
  | nil => cases n <;> cases h
  | cons c input ih =>
    cases n with
    | zero =>
      cases h
      rfl
    | succ n =>
      rw [readRest] at h
      split at h
      · cases h
        rfl
      · obtain ⟨⟨l',rest'⟩,hr,heq⟩ := map_eq_some_iff.mp h
        cases heq
        rw [ih hr]
        rfl

lemma response_suffix {input rest : Bytes} (h : response input = some rest) : rest <:+ input := by
  cases input with
  | nil => cases h
  | cons resp input =>
    rw [response] at h
    split at h
    · cases h
      exact suffix_cons ..
    · split at h
      · obtain ⟨⟨l,rest'⟩,hr,heq⟩ := map_eq_some_iff.mp h
        cases heq
        rw [readRest_eq hr]
        exact (suffix_append ..).trans (suffix_cons ..)
      · cases h

lemma Confined.copyData (h : Confined stream targ s) (hp : Below stream targ path)
    (omode size : Nat) (stb : Answer) (data : Bytes) :
    Confined stream targ (copyData v path omode size stb data s).2 := by
  have hwrite := h.callIf (size ≠ 0) (.write path data) hp
  exact ((hwrite.callIf _ (.ftruncate path size) hp).callIf _ (.fchmod path _) hp).call _ hp

lemma Confined.receive (h : Confined stream targ s) (hp : Below stream targ path)
    (mode size : Nat) (times : Option Times) (stb : Answer) :
    Confined stream targ (receive v path mode size times stb s).state := by
  unfold Scp.receive
  dsimp only
  have hopen := h.call (.open path (mode ||| 0o200)) hp
  split
  · exact hopen
  · have hstat := hopen.call (.fstat path) hp
    split
    · exact hstat.call _ hp
    · split
      · exact hstat.callIf _ _ hp
      · have hcopy := (hstat.rest (drop_suffix size _)).copyData hp (v := v) mode size stb
          (s.input.take size)
        split
        · exact hcopy
        · next input hresp =>
          have hrest := hcopy.rest (response_suffix hresp)
          split
          · exact hrest
          · exact hrest.setTimes hp

lemma readRecord_line {input cp rest : Bytes} {c : UInt8}
    (h : readRecord input = .line c cp rest) : rest <:+ input := by
  cases input with
  | nil => cases h
  | cons c' input =>
    rw [readRecord] at h
    split at h
    · cases h
    · split at h
      · cases h
      · next l rest' hr =>
        cases h
        rw [readRest_eq hr]
        exact (suffix_append ..).trans (suffix_cons ..)

lemma control_entry {c : UInt8} {cp name : Bytes} {dir : Bool} {mode size : Nat}
    (h : control v c cp = .entry dir mode size name) : (c = ch 'C' ∨ c = ch 'D') ∧
      (∃ mode, parseFile cp = some (mode,size,name)) ∧ expectedName name = true := by
  unfold control at h
  split at h
  · cases h
  split at h
  · cases h
  split at h
  · cases h
  split at h
  · split at h
    · cases h
    · cases h
  split at h
  · cases h
  rename_i htype
  split at h
  · cases h
  · next hfile =>
    dsimp only at h
    split at h
    · cases h
    · next hname =>
      split at h
      · cases h
      · cases h
        exact ⟨by tauto,⟨_,hfile⟩,by simpa using hname⟩

/-- The loop stays below the target of the first call, on whatever directory it works. -/
lemma Confined.sinkLoop {n : Nat} {isDir : Bool} (h : Confined stream targ s)
    (hp : Below stream targ path) :
    Confined stream targ (sinkLoop v n path isDir times s).state := by
  induction n generalizing path isDir times s with
  | zero => exact h
  | succ n ih =>
    rw [Scp.sinkLoop]
    split
    · exact h
    · exact h
    · next c cp input hread =>
      have hs := h.rest (readRecord_line hread)
      dsimp only
      split
      · exact ih hs hp
      · exact hs
      · exact hs
      · exact ih hs hp
      · next dir mode size name hctl =>
        obtain ⟨hc,⟨m,hfile⟩,hok⟩ := control_entry hctl
        simp only [expectedName,decide_eq_true_eq] at hok
        have hname : Component stream name :=
          ⟨⟨_,c,cp,_,m,size,h.input,hread,hc,hfile⟩,hok.1,hok.2.1,hok.2.2.1,hok.2.2.2⟩
        have hnp : Below stream targ (if isDir then join path name else path) := by
          split
          · exact hp.component hname
          · exact hp
        generalize (if isDir then join path name else path) = np at hnp ⊢
        have hstat := hs.call (.stat np) hnp
        generalize State.call _ _ = s1 at hstat ⊢
        split
        · -- a file
          have hfile := hstat.receive (v := v) hnp mode size times (v.os s1.ops)
          split
          · next heq => exact heq ▸ hfile
          · next heq =>
            rw [heq] at hfile
            exact ih hfile hp
        split
        · exact hstat
        · -- a directory: the records in it, then its times and its mode
          have hmade := hstat.makeDir (v := v) hnp mode (v.os s1.ops)
          split
          · next heq =>
            rw [heq] at hmade
            exact ih hmade hp
          · next heq =>
            rw [heq] at hmade
            have henter := hmade.enter (v := v) hnp
            split
            · next heq =>
              rw [heq] at henter
              exact henter
            · next inner s2 heq =>
              rw [heq] at henter
              have hsub : Confined _ targ (Scp.sinkLoop v n np inner none s2).state := ih henter hnp
              split
              · next heq => exact heq ▸ hsub
              · next heq =>
                rw [heq] at hsub
                exact ih ((hsub.setTimes hnp).callIf _ _ hnp) hp

/-- Every path that is opened, created or changed is the target, or below it by names of the
records. -/
theorem sink_below (v : Env) (n : Nat) (targ stream : Bytes) :
    ∀ op ∈ sink v n targ stream, Below stream targ op.path := by
  have hstart : Confined _ targ ⟨stream,[]⟩ := ⟨suffix_refl _,nofun⟩
  have henter := hstart.enter (v := v) .target
  unfold sink
  split
  · next heq =>
    rw [heq] at henter
    exact henter.paths
  · next heq =>
    rw [heq] at henter
    exact (henter.sinkLoop .target).paths

def calmEnv : Env :=
  ⟨false,false,false,false,0,none,fun _ => none,fun _ _ => false,16384,
    fun ops => ⟨true,ops.length = 1,true⟩⟩

/-- A file that is received into the directory. -/
theorem sink_below_file :
    .open (cstr "d/a") 0o644 ∈ sink calmEnv 2 (cstr "d") (cstr "C0644 0 a\n\x00") ∧
      Below (cstr "C0644 0 a\n\x00") (cstr "d") (cstr "d/a") := by
  exact (and_iff_left_of_imp (sink_below _ _ _ _ _)).mpr (by decide +kernel)

end PkixSsh.Scp
