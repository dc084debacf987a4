import PkixSsh.Hostfile.Basic

/-!
# Replacing the entries of a host

`hostfile_replace_entries` copies a file without the entries of a host, and adds an entry for
each key that has none.
-/

namespace PkixSsh.Hostfile

open Key X509 Sshbuf Lines Match List

/-- What entries are made of. `keyText` is `Xkey_write_subject` for an X.509 key and
`sshkey_write` for the others, and `fingerprint` what is logged; `salt` are the random bytes for
the entry of a key. -/
structure EntryEnv where
  hosts : Env
  keyText : SshKey → Option Bytes
  fingerprint : SshKey → Option Bytes
  salt : Nat → Bytes

section

variable (w : EntryEnv)

/-- `write_host_entry`, which draws a new salt for a name that is hashed. -/
def writeHostEntry (host : Bytes) (ip : Option Bytes) (key : SshKey) (storeHash : Bool)
    (salt : Bytes) : Option Bytes := do
  let lhost := host.map tolower
  let names :=
    if storeHash then hashWith w.hosts lhost salt
    else
      match ip with
      | some ip => lhost ++ cstr "," ++ ip
      | none => lhost
  let text ← w.keyText key
  return names ++ space :: text ++ [newline]

structure HostDeleteCtx where
  out : Bytes
  skipKeys : List Bool
  modified : Bool

def keyOfLine (keys : List SshKey) (l : ForeachLine) : Option Nat :=
  keys.findIdx? fun k => l.key.any fun key => sshkeyEqual w.hosts.ssl k key

def hostDelete (keys : List SshKey) (ctx : HostDeleteCtx) (l : ForeachLine) : HostDeleteCtx :=
  let kept := { ctx with out := ctx.out ++ (l.line ++ [newline]) }
  if l.status = .matched then
    -- lines of authorities and of revoked keys stay
    if l.marker ≠ .none then kept
    else
      match keyOfLine w keys l with
      | some i => { kept with skipKeys := ctx.skipKeys.set i true }
      | none => { ctx with modified := true }
  else kept

/-- The entry of the key at an index. A key without a fingerprint fails. -/
def newEntry (host : Bytes) (ip : Option Bytes) (storeHash : Bool) (key : SshKey) (i : Nat) :
    Option Bytes :=
  (w.fingerprint key).bind fun _ => writeHostEntry w host ip key storeHash (w.salt i)

def addKeys (host : Bytes) (ip : Option Bytes) (storeHash : Bool) :
    List ((SshKey × Bool) × Nat) → HostDeleteCtx → Option HostDeleteCtx
  | [], ctx => some ctx
  | ((_,true),_) :: keys, ctx => addKeys host ip storeHash keys ctx
  | ((key,false),i) :: keys, ctx =>
    match newEntry w host ip storeHash key i with
    | none => none
    | some entry =>
      addKeys host ip storeHash keys { ctx with out := ctx.out ++ entry, modified := true }

/-- `hostfile_replace_entries`: what the file holds afterwards; `none` is a failure, which leaves
the file as it is. `file` holds what `getline` gives, which ends at a read error, and `disk` all
of it. The temporary file is taken to be made, written and renamed. -/
def hostfileReplaceEntries (file : File) (disk host : Bytes) (ip : Option Bytes)
    (keys : List SshKey) (storeHash : Bool) : Option Bytes := do
  let ls ← hostkeysForeach w.hosts file host ip false
  let ctx := ls.foldl (hostDelete w keys) ⟨[],List.replicate keys.length false,false⟩
  let ctx ← addKeys w host ip storeHash (keys.zip ctx.skipKeys).zipIdx ctx
  return if ctx.modified then ctx.out else disk

def keepsLine (keys : List SshKey) (l : ForeachLine) : Bool :=
  l.status ≠ .matched || l.marker ≠ .none || (keyOfLine w keys l).isSome

/-- The keys at the index that a line without a marker already has. -/
def hasEntry (keys : List SshKey) (ls : List ForeachLine) (i : Nat) : Bool :=
  ls.any fun l => l.status = .matched && l.marker = .none && keyOfLine w keys l = some i

end

section

variable {w : EntryEnv} {keys : List SshKey} {host : Bytes} {ip : Option Bytes} {storeHash : Bool}

lemma foldl_hostDelete (ls : List ForeachLine) (ctx : HostDeleteCtx) :
    ls.foldl (hostDelete w keys) ctx =
      ⟨ctx.out ++ (ls.filter (keepsLine w keys)).flatMap fun l => l.line ++ [newline],
        ctx.skipKeys.mapIdx fun i b => b || hasEntry w keys ls i,
        ctx.modified || !ls.all (keepsLine w keys)⟩ := by
  induction ls generalizing ctx with
  | nil =>
    have hskip : ctx.skipKeys.mapIdx (fun _ b => b) = ctx.skipKeys :=
      ext_getElem (by simp) (by simp)
    simp [hasEntry,hskip]
  | cons l ls ih =>
    rw [foldl_cons,ih]
    by_cases hs : l.status = .matched
    · by_cases hm : l.marker = .none
      · cases hk : keyOfLine w keys l with
        | none => simp [hostDelete,keepsLine,hasEntry,hs,hm,hk]
        | some i =>
          have hskip : (ctx.skipKeys.set i true).mapIdx (fun j b => b || hasEntry w keys ls j) =
              ctx.skipKeys.mapIdx fun j b => b || hasEntry w keys (l :: ls) j := by
            refine ext_getElem (by simp) fun j _ _ => ?_
            rw [getElem_mapIdx,getElem_mapIdx,getElem_set]
            by_cases hij : i = j <;> simp [hasEntry,hs,hm,hk,hij]
          simp [hostDelete,keepsLine,hs,hm,hk,hskip]
      · simp [hostDelete,keepsLine,hasEntry,hs,hm]
    · simp [hostDelete,keepsLine,hasEntry,hs]

lemma addKeys_eq (ks : List ((SshKey × Bool) × Nat)) (ctx : HostDeleteCtx) :
    addKeys w host ip storeHash ks ctx =
      ((ks.filter (!·.1.2)).mapM fun k => newEntry w host ip storeHash k.1.1 k.2).map fun es =>
        { ctx with out := ctx.out ++ es.flatten, modified := ctx.modified || !es.isEmpty } := by
  fun_induction addKeys w host ip _ ks ctx with
  | case1 => simp
  | case2 _ _ _ _ ih => simp [ih]
  | case3 _ _ _ _ he => simp [he]
  | case4 _ _ ks _ _ he ih =>
    rw [ih]
    cases hm : (ks.filter _).mapM fun k => newEntry w host ip _ k.1.1 k.2 <;>
      simp [he,hm]

/-- The lines that stay, in their order, and behind them an entry for each key without one. -/
theorem hostfileReplaceEntries_eq (file : File) (disk : Bytes) :
    hostfileReplaceEntries w file disk host ip keys storeHash =
      (hostkeysForeach w.hosts file host ip false).bind fun ls =>
        let stay := ls.filter (keepsLine w keys)
        let missing := (keys.zip ((range keys.length).map (hasEntry w keys ls))).zipIdx.filter
          (!·.1.2)
        (missing.mapM fun k => newEntry w host ip storeHash k.1.1 k.2).map fun es =>
          if stay = ls ∧ es = [] then disk
          else (stay.flatMap fun l => l.line ++ [newline]) ++ es.flatten := by
  unfold hostfileReplaceEntries
  refine congrArg _ (funext fun ls => ?_)
  have hskip : (replicate keys.length false).mapIdx (fun i b => b || hasEntry w keys ls i) =
      (range keys.length).map (hasEntry w keys ls) := ext_getElem (by simp) (by simp)
  simp only [foldl_hostDelete,hskip,addKeys_eq,Option.bind_eq_bind,Option.bind_map]
  rw [Option.map_eq_bind]
  refine congrArg _ (funext fun es => ?_)
  simp only [Function.comp,filter_eq_self,← all_eq_true]
  cases ls.all _ <;> cases es <;> simp

end

end PkixSsh.Hostfile
