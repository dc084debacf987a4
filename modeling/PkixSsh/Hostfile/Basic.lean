import PkixSsh.Key.Basic
import PkixSsh.Key.Blob
import PkixSsh.Lib.Lines
import PkixSsh.Match

/-!
# Known hosts

`hostfile.c`: the lines of a file, and the status of a key among those listed for a name.
-/

namespace PkixSsh.Hostfile

open Key X509 Sshbuf Lines Match List

inductive HostkeyMarker where
  | error | none | revoke | ca
  deriving DecidableEq

inductive HostStatus where
  | ok | new | changed | revoked | found
  deriving DecidableEq

structure CertInfo where
  isHost : Bool
  validAfter : Nat
  validBefore : Nat
  principals : List Bytes
  critical : Bytes
  signatureType : Option Bytes
  signatureKey : SshKey

/-- The functions of other files. `sshkeyRead` takes the text of a key off a line; `b64Pton` and
`b64Ntop` decode and encode base64; `hmacSha1` gets the salt and the name. -/
structure Env where
  ssl : Openssl
  sshkeyRead : Bytes → Option (SshKey × Bytes)
  sshkeySize : SshKey → Nat
  certInfo : SshKey → CertInfo
  b64Pton : Bytes → Option Bytes
  b64Ntop : Bytes → Bytes
  hmacSha1 : Bytes → Bytes → Bytes

/-- A file. `stale` is what the buffer of `getline` holds behind the last line if that has no
newline. -/
structure File where
  path : Bytes
  content : Option Bytes
  stale : Bytes
  deriving DecidableEq

def atSign : UInt8 := 64

def numberSign : UInt8 := 35

def hashDelim : UInt8 := 124

def hashMagic : Bytes := cstr "|1|"

def caMarker : Bytes := cstr "@cert-authority"

def revokeMarker : Bytes := cstr "@revoked"

def checkMarkers (cp : Bytes) : HostkeyMarker × Bytes :=
  if cp.head? ≠ some atSign then (.none,cp)
  else
    -- a marker ends at the first space of the line, or at the first tab if it has no space
    let stop := if space ∈ cp then space else tab
    let marker := cp.takeWhile (· ≠ stop)
    if stop ∉ cp ∨ marker.length ≤ 1 ∨ 32 ≤ marker.length then (.error,cp)
    else
      let ret :=
        if marker = caMarker then .ca else if marker = revokeMarker then .revoke else .error
      let rest := skipBlanks (cp.drop marker.length)
      if ret = .error ∨ rest.head? = some atSign then (.error,cp) else (ret,rest)

section

variable (env : Env)

def extractSalt (s : Bytes) : Option Bytes :=
  if ¬ hashMagic <+: s then none
  else
    let s := s.drop hashMagic.length
    let b64 := s.takeWhile (· ≠ hashDelim)
    if hashDelim ∉ s ∨ b64.length = 0 ∨ 1024 < b64.length then none
    else (env.b64Pton b64).filter fun salt => salt.length = 20

def hashWith (host salt : Bytes) : Bytes :=
  hashMagic ++ env.b64Ntop salt ++ hashDelim :: env.b64Ntop (env.hmacSha1 salt host)

def hostHash (host name : Bytes) : Option Bytes := (extractSalt env name).map (hashWith env host)

/-- `match_maybe_hashed`, where `none` stands for a bad hash. -/
def matchMaybeHashed (host names : Bytes) : Option Bool :=
  if names.head? = some hashDelim then (hostHash env host names).map fun h => h = names
  else some (matchHostname host names = 1)

def hostfileReadKey (cp : Bytes) : Option (SshKey × Bytes) :=
  match env.sshkeyRead (skipBlanks cp) with
  | none => none
  | some (key,rest) =>
    -- a key may be only the distinguished name of an X.509 certificate
    if env.sshkeySize key = 0 ∧ !sshkeyIsX509 key then none else some (key,skipBlanks rest)

end

inductive LineStatus where
  | ok | invalid | comment | matched
  deriving DecidableEq

structure ForeachLine where
  path : Bytes
  linenum : Nat
  status : LineStatus
  line : Bytes
  marker : HostkeyMarker
  key : Option SshKey
  deriving DecidableEq

section

variable (env : Env)

/-- What a line is to `hostkeys_foreach` once its hosts are known. -/
def matchHosts (hosts host : Bytes) (ip : Option Bytes) : Option Bool := do
  let byHost ← matchMaybeHashed env host hosts
  let byIp ← match ip with
    | some ip => matchMaybeHashed env ip hosts
    | none => some false
  return byHost || byIp

/-- One line of `hostkeys_foreach` with `HKF_WANT_PARSE_KEY`; `behind` is what the buffer holds
behind the line. `none` is no callback. -/
def foreachLine (host : Bytes) (ip : Option Bytes) (wantMatch : Bool) (info : ForeachLine)
    (behind : Bytes) : Option ForeachLine :=
  let bad (info : ForeachLine) := some { info with status := .invalid }
  let cp := skipBlanks info.line
  if cp.head?.all (· = numberSign) then
    if wantMatch then none else some { info with status := .comment }
  else
    let (marker,cp) := checkMarkers cp
    let info := { info with marker := marker }
    if marker = .error then if wantMatch then none else bad info
    else
      let hosts := cp.takeWhile fun c => !isBlank c
      let cp2 := cp.dropWhile fun c => !isBlank c
      -- behind hosts that reach to the end of the line the buffer is read on
      let cp2 := if cp2 = [] then untilNul behind else cp2.drop 1
      match matchHosts env hosts host ip with
      | none => bad info
      | some matched =>
        let info := { info with status := if matched then .matched else .ok }
        if wantMatch && !matched then none
        else
          let cp2 := skipBlanks cp2
          if cp2.head?.all (· = numberSign) then bad info
          else
            match hostfileReadKey env cp2 with
            | none => bad info
            | some (key,_) => some { info with key := some key }

/-- The lines that the callback gets. `getline` returns a line with its newline, and it ends there
or at a NUL. -/
def hostkeysForeach (file : File) (host : Bytes) (ip : Option Bytes) (wantMatch : Bool) :
    Option (List ForeachLine) :=
  file.content.map fun content =>
    ((lines content).zipIdx 1).filterMap fun (raw,linenum) =>
      let line := (untilNul raw).takeWhile (· ≠ newline)
      foreachLine env host ip wantMatch ⟨file.path,linenum,.ok,line,.none,none⟩
        ((raw ++ [0] ++ file.stale).drop (line.length + 1))

end

structure HostkeyEntry where
  host : Bytes
  file : Bytes
  line : Nat
  key : SshKey
  marker : HostkeyMarker

section

variable (env : Env)

/-- `record_hostkey`; a line that is not invalid has a key. -/
def recordHostkey (host : Bytes) (l : ForeachLine) : Option HostkeyEntry :=
  if l.status = .invalid then none
  else l.key.map fun key => ⟨host,l.path,l.linenum,key,l.marker⟩

/-- `load_hostkeys`: a file that cannot be read has no entries. -/
def loadHostkeys (host : Bytes) (file : File) : List HostkeyEntry :=
  ((hostkeysForeach env file host none true).getD []).filterMap (recordHostkey host)

def loadAll (host : Bytes) (files : List File) : List HostkeyEntry :=
  files.flatMap (loadHostkeys env host)

def checkKeyRevoked (hostkeys : List HostkeyEntry) (k : SshKey) : Bool :=
  hostkeys.any fun entry =>
    entry.marker = .revoke &&
      (sshkeyEqualPublic env.ssl k entry.key ||
        (sshkeyIsCert k && sshkeyEqualPublic env.ssl (env.certInfo k).signatureKey entry.key))

def hostkeyMatch (key found : SshKey) : Bool :=
  if sshkeyIsX509 key || sshkeyIsX509 found then sshkeyEqualPublic env.ssl key found
  else sshkeyEqual env.ssl key found

def lookupKey (k : SshKey) :
    HostStatus × Option HostkeyEntry → List HostkeyEntry → HostStatus × Option HostkeyEntry
  | last, [] => last
  | last, entry :: entries =>
    if sshkeyIsCert k then
      if entry.marker = .ca && sshkeyEqualPublic env.ssl (env.certInfo k).signatureKey entry.key
      then (.ok,some entry)
      else lookupKey k last entries
    else if entry.marker ≠ .none then lookupKey k last entries
    else if hostkeyMatch env k entry.key then (.ok,some entry)
    else lookupKey k (.changed,some entry) entries

def checkKeyInHostkeys (hostkeys : List HostkeyEntry) (k : SshKey) :
    HostStatus × Option HostkeyEntry :=
  if checkKeyRevoked env hostkeys k then (.revoked,none)
  else lookupKey env k (.new,none) hostkeys

end

section

variable (env : Env)

def Listed (hostkeys : List HostkeyEntry) (k : SshKey) : Prop :=
  ∃ entry ∈ hostkeys, entry.marker = .none ∧ hostkeyMatch env k entry.key

/-- The key that signed a certificate is listed as an authority. -/
def CaListed (hostkeys : List HostkeyEntry) (k : SshKey) : Prop :=
  ∃ entry ∈ hostkeys, entry.marker = .ca ∧
    sshkeyEqualPublic env.ssl (env.certInfo k).signatureKey entry.key

def AnyListed (hostkeys : List HostkeyEntry) : Prop := ∃ entry ∈ hostkeys, entry.marker = .none

instance (hostkeys : List HostkeyEntry) (k : SshKey) : Decidable (Listed env hostkeys k) :=
  List.decidableBEx _ _

instance (hostkeys : List HostkeyEntry) (k : SshKey) : Decidable (CaListed env hostkeys k) :=
  List.decidableBEx _ _

instance (hostkeys : List HostkeyEntry) : Decidable (AnyListed hostkeys) := List.decidableBEx _ _

end

section

variable {env : Env} {hostkeys : List HostkeyEntry} {k : SshKey}

lemma lookupKey_cert (hk : sshkeyIsCert k = true) (last : HostStatus × Option HostkeyEntry) :
    (lookupKey env k last hostkeys).1 = if CaListed env hostkeys k then .ok else last.1 := by
  induction hostkeys with
  | nil => simp [lookupKey,CaListed]
  | cons entry entries ih =>
    rw [lookupKey,if_pos hk]
    by_cases h : entry.marker = .ca ∧
        sshkeyEqualPublic env.ssl (env.certInfo k).signatureKey entry.key
    · have hlisted : CaListed env (entry :: entries) k := ⟨entry,mem_cons_self,h⟩
      simp [h,hlisted]
    · have hlisted : CaListed env (entry :: entries) k ↔ CaListed env entries k := by
        simp [CaListed,h]
      rw [if_neg (by simpa using h),ih]
      simp only [hlisted]

lemma lookupKey_plain (hk : sshkeyIsCert k = false) (last : HostStatus × Option HostkeyEntry) :
    (lookupKey env k last hostkeys).1 =
      if Listed env hostkeys k then .ok else if AnyListed hostkeys then .changed else last.1 := by
  induction hostkeys generalizing last with
  | nil => simp [lookupKey,Listed,AnyListed]
  | cons entry entries ih =>
    rw [lookupKey,if_neg (by simp [hk])]
    by_cases hm : entry.marker = .none
    · rw [if_neg (not_not.mpr hm)]
      have hany : AnyListed (entry :: entries) := ⟨entry,mem_cons_self,hm⟩
      by_cases h : hostkeyMatch env k entry.key
      · have hlisted : Listed env (entry :: entries) k := ⟨entry,mem_cons_self,hm,h⟩
        simp [h,hlisted]
      · have hlisted : Listed env (entry :: entries) k ↔ Listed env entries k := by
          simp [Listed,h]
        rw [if_neg h,ih]
        simp [hlisted,hany]
    · have hlisted : Listed env (entry :: entries) k ↔ Listed env entries k := by
        simp [Listed,hm]
      have hany : AnyListed (entry :: entries) ↔ AnyListed entries := by
        simp [AnyListed,hm]
      rw [if_pos hm,ih]
      simp only [hlisted,hany]

lemma checkKeyInHostkeys_cert (hk : sshkeyIsCert k = true) :
    (checkKeyInHostkeys env hostkeys k).1 = if checkKeyRevoked env hostkeys k then .revoked
      else if CaListed env hostkeys k then .ok else .new := by
  rw [checkKeyInHostkeys]
  split_ifs with hr
  · rfl
  · rw [lookupKey_cert hk,if_pos (by assumption)]
  · rw [lookupKey_cert hk,if_neg (by assumption)]

lemma checkKeyInHostkeys_plain (hk : sshkeyIsCert k = false) :
    (checkKeyInHostkeys env hostkeys k).1 = if checkKeyRevoked env hostkeys k then .revoked
      else if Listed env hostkeys k then .ok
      else if AnyListed hostkeys then .changed else .new := by
  rw [checkKeyInHostkeys]
  by_cases hr : checkKeyRevoked env hostkeys k = true
  · rw [if_pos hr,if_pos hr]
  · rw [if_neg hr,if_neg hr,lookupKey_plain hk]

end

end PkixSsh.Hostfile
