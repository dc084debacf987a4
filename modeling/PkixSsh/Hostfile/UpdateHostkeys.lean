import PkixSsh.Key.Sign
import PkixSsh.Hostfile.Replace
import PkixSsh.Hostfile.StrictChecking

/-!
# Updating known hosts

`UpdateHostkeys` of `clientloop.c`: the client asks for a signature by each key of the server that
it does not know, and replaces the entries of the host.
-/

namespace PkixSsh.Hostfile

open Key X509 Sshbuf Match Lines List

def eachStringLoop {σ : Type} (f : σ → Bytes → Except Stop (Option σ)) :
    Nat → σ → Bytes → Except Stop (Option σ)
  | _, s, [] => .ok (some s)
  | 0, _, _ => .ok none
  | n + 1, s, buf =>
    match getString buf with
    | .error _ => .ok none
    | .ok (blob,buf) =>
      f s blob >>= fun r =>
        match r with
        | none => .ok none
        | some s => eachStringLoop f n s buf

/-- A loop `while (ssh_packet_remaining(ssh) > 0)` that reads a string and may leave with
`goto out`. -/
def eachString {σ : Type} (f : σ → Bytes → Except Stop (Option σ)) (s : σ) (buf : Bytes) :
    Except Stop (Option σ) :=
  eachStringLoop f buf.length s buf

lemma eachString_invariant {σ : Type} {f : σ → Bytes → Except Stop (Option σ)} {P : σ → Prop}
    (hf : ∀ s blob s', P s → f s blob = .ok (some s') → P s') {s s' : σ} {buf : Bytes} (hs : P s)
    (h : eachString f s buf = .ok (some s')) : P s' := by
  rw [eachString] at h
  generalize buf.length = n at h
  induction n generalizing s buf with
  | zero =>
    cases buf with
    | nil =>
      cases h
      exact hs
    | cons b buf => cases h
  | succ n ih =>
    cases buf with
    | nil =>
      cases h
      exact hs
    | cons b buf =>
      rw [eachStringLoop] at h
      · cases hget : getString _ with
        | error e =>
          rw [hget] at h
          cases h
        | ok x =>
          rw [hget] at h
          obtain ⟨r,hr,h⟩ := bind_eq_ok.mp h
          cases r with
          | none => cases h
          | some s1 => exact ih (hf s _ s1 hs hr) h
      · rintro ⟨⟩

def eachBlob {σ : Type} (f : σ → Bytes → Except Stop (Option σ)) :
    σ → List Bytes → Except Stop (Option σ)
  | s, [] => .ok (some s)
  | s, blob :: blobs =>
    f s blob >>= fun r =>
      match r with
      | none => .ok none
      | some s => eachBlob f s blobs

lemma eachString_flatMap {σ : Type} (f : σ → Bytes → Except Stop (Option σ)) {blobs : List Bytes}
    (h : ∀ blob ∈ blobs, blob.length ≤ sshbufSizeMax - 4) (s : σ) :
    eachString f s (blobs.flatMap framed) = eachBlob f s blobs := by
  suffices hloop : ∀ n, (blobs.flatMap _).length ≤ n →
      eachStringLoop f n s _ = eachBlob f s blobs from
    hloop _ (Nat.le_refl _)
  induction blobs generalizing s with
  | nil =>
    intro n _
    cases n <;> rfl
  | cons blob blobs ih =>
    intro n hn
    rw [flatMap_cons,length_append,length_framed] at hn
    cases n with
    | zero => omega
    | succ n =>
      rw [flatMap_cons,eachStringLoop,getString_framed (h blob mem_cons_self),eachBlob]
      · change (f s blob >>= fun r => _) = f s blob >>= fun r => _
        congr 1
        funext r
        cases r with
        | none => rfl
        | some s => exact ih (fun b hb => h b (mem_cons_of_mem _ hb)) s n (by omega)
      · intro hnil
        have := congrArg List.length hnil
        rw [length_append,length_framed,length_nil] at this
        omega

/-- `keys_seen`: 0 and 1. What reads the 2 of a proven key is the log. -/
inductive Seen where
  | unseen | listed
  deriving DecidableEq

structure OfferedKey where
  alg : Bytes
  key : SshKey
  seen : Seen
  deriving DecidableEq

structure UpdateCtx where
  hostStr : Bytes
  ipStr : Option Bytes
  keys : List OfferedKey
  nnew : Nat
  oldKeys : List SshKey
  deriving DecidableEq

/-- What the client works with. `verify` is `Xkey_verify` with an algorithm. A file that cannot
be opened is missing if `enoent` says so; `stat` finds the files that can be replaced. -/
structure UpdateEnv where
  hosts : Env
  conn : Connection
  codec : Codec
  process : Process
  verify : Bytes → SshKey → Bytes → Bytes → Except Stop Unit
  sessionId : Bytes
  port : UInt16
  batchMode : Bool
  hostkeyalgorithms : Bytes
  askPermission : Bool
  enoent : File → Bool
  stat : File → Bool

structure Replacement where
  file : File
  host : Bytes
  ip : Option Bytes
  keys : List SshKey
  deriving DecidableEq

/-- A signature that was verified, by the index of its key. -/
structure Verified where
  index : Nat
  sig : Bytes
  data : Bytes
  deriving DecidableEq

section

variable (env : UpdateEnv)

def receiveKey (keys : List OfferedKey) (blob : Bytes) : Except Stop (Option (List OfferedKey)) :=
  match parseKeyFromBlob env.codec env.process blob with
  | .error (.err _) => .ok (some keys)
  | .error s => .error s
  | .ok (key,pkalg) =>
    if matchPatternList pkalg env.hostkeyalgorithms false ≠ 1 then .ok (some keys)
    else if sshkeyIsCert key then .ok (some keys)
    else if keys.any fun k => sshkeyEqual env.hosts.ssl key k.key then .ok (some keys)
    else .ok (some (keys ++ [⟨pkalg,key,.unseen⟩]))

def firstEqual (key : SshKey) (keys : List SshKey) : Option Nat :=
  keys.findIdx? (sshkeyEqual env.hosts.ssl key)

variable (o : Options) (ctx : UpdateCtx)

def hostkeysFind (l : ForeachLine) : UpdateCtx :=
  match l.status, l.key with
  | .matched, some key =>
    match firstEqual env key (ctx.keys.map OfferedKey.key) with
    | some i => { ctx with keys := ctx.keys.modify i fun k => { k with seen := .listed } }
    | none => { ctx with oldKeys := ctx.oldKeys ++ [key] }
  | _, _ => ctx

def findKeys : List File → UpdateCtx → Option UpdateCtx
  | [], ctx => some ctx
  | file :: files, ctx =>
    match hostkeysForeach env.hosts file ctx.hostStr ctx.ipStr true with
    | some ls => findKeys files (ls.foldl (hostkeysFind env) ctx)
    | none => if env.enoent file then findKeys files ctx else none

def updateKnownHosts : Options × List Replacement :=
  let o :=
    if o.updateHostkeys = .ask && !env.askPermission then { o with updateHostkeys := .no } else o
  if o.updateHostkeys = .no then (o,[])
  else
    -- keys are only added to the first file, for the rest the entries are deleted
    (o,env.conn.userHostfiles.zipIdx.filterMap fun (file,i) =>
      if env.stat file then
        some ⟨file,ctx.hostStr,ctx.ipStr,if i = 0 then ctx.keys.map OfferedKey.key else []⟩
      else none)

def orFatal {α : Type} (x : Except Stop α) : Except Stop α :=
  x.mapError fun s =>
    match s with
    | .err _ => .fatal
    | s => s

def xkeyPutb (c : Codec) (pr : Process) (pkalg : Bytes) (k : SshKey) : Except Stop Bytes :=
  match xkalgByName pr.xkalgs pkalg with
  | none => check (toBlobBuf c k)
  | some xkalg => if xkalg.chain then xkeyToBuf2 c pr xkalg k else check (x509keyToBuf k)

def hostkeysProve : Bytes := cstr "hostkeys-prove-00@openssh.com"

def proveData (c : Codec) (pr : Process) (sessionId pkalg : Bytes) (k : SshKey) :
    Except Stop Bytes := do
  let b ← check (putString hostkeysProve [])
  let b ← check (putString sessionId b)
  xkeyPuts c pr pkalg k b

/-- The request for signatures: the blobs of the keys that were not found. -/
def proveRequest (keys : List OfferedKey) : Except Stop Bytes :=
  (keys.filter fun k => k.seen = .unseen).foldlM (fun buf k => do
    let blob ← orFatal (xkeyPutb env.codec env.process k.alg k.key)
    orFatal (check (putString blob buf))) []

/-- The names under which the host is looked up; the address only with `check_host_ip`. -/
def updateNames : Except Stop (Bytes × Option Bytes) :=
  if o.checkHostIp then do
    let (host,ip) ← getHostfileHostnameIpaddr o env.conn env.port
    return (host,some ip)
  else .ok (o.hostKeyAlias.getD (putHostPort env.conn.hostname env.port),none)

inductive HostkeysOutcome where
  | nothing
  | replaced (calls : List Replacement)
  | asked (ctx : UpdateCtx) (request : Bytes)

/-- `client_input_hostkeys`. The flag for a repeated message is never set. -/
def clientInputHostkeys (msg : Bytes) : Except Stop (Options × HostkeysOutcome) :=
  if o.updateHostkeys = .ask && env.batchMode then .ok (o,.nothing)
  else if o.updateHostkeys = .no || env.conn.userHostfiles.length = 0 then .ok (o,.nothing)
  else do
    match ← eachString (receiveKey env) [] msg with
    | none => return (o,.nothing)
    | some [] => return (o,.nothing)
    | some (k :: ks) =>
      let (host,ip) ← updateNames env o
      match findKeys env env.conn.userHostfiles ⟨host,ip,k :: ks,0,[]⟩ with
      | none => return (o,.nothing)
      | some ctx =>
        let nnew := ctx.keys.countP fun k => k.seen = .unseen
        let ctx := { ctx with nnew := nnew }
        if nnew = 0 && ctx.oldKeys ≠ [] then
          let (o,calls) := updateKnownHosts env o ctx
          return (o,.replaced calls)
        else if nnew ≠ 0 then
          let request ← proveRequest env ctx.keys
          return (o,.asked ctx request)
        else return (o,.nothing)

/-- The loop over the keys in `client_global_hostkeys_private_confirm`, from an index: the
signatures, and what is left of the reply. -/
def proveKeys : Nat → List OfferedKey → Bytes → Except Stop (Option (List Verified × Bytes))
  | _, [], buf => .ok (some ([],buf))
  | i, k :: ks, buf =>
    if k.seen ≠ .unseen then proveKeys (i + 1) ks buf
    else do
      let pkalg := sshkeySshName env.process.xkalgs k.key
      let signdata ← orFatal (proveData env.codec env.process env.sessionId pkalg k.key)
      match getString buf with
      | .error _ => return none
      | .ok (sig,buf) =>
        match env.verify pkalg k.key sig signdata with
        | .error (.err _) => return none
        | .error s => .error s
        | .ok () =>
          match ← proveKeys (i + 1) ks buf with
          | none => return none
          | some (vs,buf) => return some (⟨i,sig,signdata⟩ :: vs,buf)

/-- `client_global_hostkeys_private_confirm`, with the signatures it has verified. -/
def clientGlobalHostkeysPrivateConfirm (success : Bool) (reply : Bytes)
    : Except Stop (Options × List Replacement × List Verified) :=
  if ctx.nnew = 0 then .error .fatal
  else if !success then .ok (o,[],[])
  else if env.sessionId.length = 0 then .error .fatal
  else do
    match ← proveKeys env 0 ctx.keys reply with
    | none => return (o,[],[])
    | some (vs,buf) =>
      if vs.length ≠ ctx.nnew then .error .fatal
      else if buf ≠ [] then return (o,[],vs)
      else
        let (o,calls) := updateKnownHosts env o ctx
        return (o,calls,vs)

/-- A message with host keys, and the reply if signatures are asked for. -/
def hostkeysExchange (msg : Bytes) (success : Bool) (reply : Bytes) :
    Except Stop (List Replacement × List Verified) := do
  let (o,outcome) ← clientInputHostkeys env o msg
  match outcome with
  | .nothing => return ([],[])
  | .replaced calls => return (calls,[])
  | .asked ctx _ =>
    let (_,calls,vs) ← clientGlobalHostkeysPrivateConfirm env o ctx success reply
    return (calls,vs)

end

section

variable (env : UpdateEnv)

def hostLines (host : Bytes) (ip : Option Bytes) : List ForeachLine :=
  env.conn.userHostfiles.flatMap fun file =>
    (hostkeysForeach env.hosts file host ip true).getD []

/-- A line has a key of which the one at the index is the first equal. -/
def Found (keys : List SshKey) (ls : List ForeachLine) (i : Nat) : Prop :=
  ∃ l ∈ ls, l.status = .matched ∧ ∃ key, l.key = some key ∧ firstEqual env key keys = some i

def UnmarkedEntry (ls : List ForeachLine) (key : SshKey) : Prop :=
  ∃ l ∈ ls, l.status = .matched ∧ l.marker = .none ∧
    ∃ k, l.key = some k ∧ sshkeyEqual env.hosts.ssl k key

end

section

variable {env : UpdateEnv}

def SeenBy (env : UpdateEnv) (ls : List ForeachLine) (keys keys' : List OfferedKey) : Prop :=
  keys'.map OfferedKey.key = keys.map OfferedKey.key ∧
    ∀ i k, keys'[i]? = some k → ∃ k0, keys[i]? = some k0 ∧ k.alg = k0.alg ∧
      (Found env (keys.map OfferedKey.key) ls i ∧ k.seen = .listed ∨
        ¬ Found env (keys.map OfferedKey.key) ls i ∧ k.seen = k0.seen)

lemma SeenBy.nil (keys : List OfferedKey) : SeenBy env [] keys keys := by
  refine ⟨rfl,fun i k hk => ⟨k,hk,rfl,.inr ⟨?_,rfl⟩⟩⟩
  rintro ⟨l,hl,-⟩
  cases hl

variable {keys : List OfferedKey}

lemma SeenBy.append {ls ls' : List ForeachLine} {keys' keys'' : List OfferedKey}
    (h : SeenBy env ls keys keys') (h' : SeenBy env ls' keys' keys'') :
    SeenBy env (ls ++ ls') keys keys'' := by
  have hiff : ∀ i, Found env (keys.map OfferedKey.key) (ls ++ ls') i ↔
      Found env (keys.map OfferedKey.key) ls i ∨ Found env (keys.map OfferedKey.key) ls' i := by
    intro i
    simp only [Found,mem_append,or_and_right,exists_or]
  refine ⟨h'.1.trans h.1,fun i k hk => ?_⟩
  obtain ⟨k1,hk1,halg',hfound'⟩ := h'.2 i k hk
  obtain ⟨k0,hk0,halg,hfound⟩ := h.2 i k1 hk1
  rw [h.1] at hfound'
  refine ⟨k0,hk0,halg'.trans halg,?_⟩
  rw [hiff]
  rcases hfound' with ⟨hf',hseen'⟩ | ⟨hf',hseen'⟩
  · exact .inl ⟨.inr hf',hseen'⟩
  · rcases hfound with ⟨hf,hseen⟩ | ⟨hf,hseen⟩
    · exact .inl ⟨.inl hf,hseen'.trans hseen⟩
    · exact .inr ⟨fun h => h.elim hf hf',hseen'.trans hseen⟩

lemma found_singleton {keys : List SshKey} {l : ForeachLine} {i : Nat} : Found env keys [l] i ↔
      l.status = .matched ∧ ∃ key, l.key = some key ∧ firstEqual env key keys = some i := by
  simp [Found]

lemma SeenBy.of_not_found {l : ForeachLine}
    (h : ∀ i, ¬ Found env (keys.map OfferedKey.key) [l] i) : SeenBy env [l] keys keys :=
  ⟨rfl,fun i k hk => ⟨k,hk,rfl,.inr ⟨h i,rfl⟩⟩⟩

lemma SeenBy.of_found {l : ForeachLine} {i : Nat}
    (h : ∀ j, Found env (keys.map OfferedKey.key) [l] j ↔ i = j) :
    SeenBy env [l] keys (keys.modify i fun k => { k with seen := .listed }) := by
  constructor
  · refine ext_getElem? fun j => ?_
    rw [List.getElem?_map,List.getElem?_map,List.getElem?_modify]
    split
    · cases keys[j]? with
      | none => rfl
      | some k => rfl
    · cases keys[j]? with
      | none => rfl
      | some k => rfl
  · intro j k hk
    rw [List.getElem?_modify] at hk
    cases hk0 : keys[j]? with
    | none =>
      rw [hk0] at hk
      cases hk
    | some k0 =>
      rw [hk0] at hk
      rw [h j]
      cases hk
      refine ⟨k0,rfl,?_,?_⟩
      · by_cases hij : i = j <;> simp [hij]
      by_cases hij : i = j
      · exact .inl ⟨hij,by simp [hij]⟩
      · exact .inr ⟨hij,by simp [hij]⟩

lemma hostkeysFind_seenBy (ctx : UpdateCtx) (l : ForeachLine) :
    SeenBy env [l] ctx.keys (hostkeysFind env ctx l).keys ∧
      (hostkeysFind env ctx l).hostStr = ctx.hostStr ∧
      (hostkeysFind env ctx l).ipStr = ctx.ipStr := by
  by_cases hstatus : l.status = .matched
  · cases hkey : l.key with
    | none =>
      rw [show hostkeysFind env ctx l = ctx by simp [hostkeysFind,hkey]]
      refine ⟨.of_not_found fun i => ?_,rfl,rfl⟩
      simp [found_singleton,hkey]
    | some key =>
      cases hfirst : firstEqual env key (ctx.keys.map OfferedKey.key) with
      | none =>
        rw [show hostkeysFind env ctx l = { ctx with oldKeys := ctx.oldKeys ++ [key] } by
          simp [hostkeysFind,hstatus,hkey,hfirst]]
        refine ⟨.of_not_found fun i => ?_,rfl,rfl⟩
        simp [found_singleton,hkey,hfirst]
      | some i =>
        rw [show hostkeysFind env ctx l =
            { ctx with keys := ctx.keys.modify i fun k => { k with seen := .listed } } by
          simp [hostkeysFind,hstatus,hkey,hfirst]]
        refine ⟨.of_found fun j => ?_,rfl,rfl⟩
        simp [found_singleton,hstatus,hkey,hfirst]
  · rw [show hostkeysFind env ctx l = ctx by
      unfold hostkeysFind
      split
      · next h _ => exact absurd h hstatus
      · rfl]
    refine ⟨.of_not_found fun i => ?_,rfl,rfl⟩
    simp [found_singleton,hstatus]

lemma foldl_hostkeysFind_seenBy (ls : List ForeachLine) (ctx : UpdateCtx) :
    SeenBy env ls ctx.keys (ls.foldl (hostkeysFind env) ctx).keys ∧
      (ls.foldl (hostkeysFind env) ctx).hostStr = ctx.hostStr ∧
      (ls.foldl (hostkeysFind env) ctx).ipStr = ctx.ipStr := by
  induction ls generalizing ctx with
  | nil => exact ⟨.nil _,rfl,rfl⟩
  | cons l ls ih =>
    obtain ⟨hl,hhost,hip⟩ := @hostkeysFind_seenBy env ctx l
    obtain ⟨hls,hhost',hip'⟩ := ih _
    exact ⟨hl.append hls,hhost'.trans hhost,hip'.trans hip⟩

lemma findKeys_seenBy {files : List File} {ctx ctx' : UpdateCtx}
    (h : findKeys env files ctx = some ctx') : SeenBy env (files.flatMap fun file =>
        (hostkeysForeach env.hosts file ctx.hostStr ctx.ipStr true).getD []) ctx.keys ctx'.keys ∧
      ctx'.hostStr = ctx.hostStr ∧ ctx'.ipStr = ctx.ipStr := by
  induction files generalizing ctx with
  | nil =>
    cases h
    exact ⟨.nil _,rfl,rfl⟩
  | cons file files ih =>
    rw [findKeys] at h
    cases hls : hostkeysForeach env.hosts file ctx.hostStr ctx.ipStr true with
    | none =>
      simp only [hls] at h
      split_ifs at h
      have := ih h
      simpa [hls] using this
    | some ls =>
      simp only [hls] at h
      obtain ⟨hseen,hhost,hip⟩ := @foldl_hostkeysFind_seenBy env ls ctx
      have := ih h
      rw [hhost,hip] at this
      refine ⟨?_,this.2⟩
      simpa [hls] using hseen.append this.1

lemma orFatal_eq_ok {α : Type} {x : Except Stop α} {a : α} : orFatal x = .ok a ↔ x = .ok a := by
  cases x <;> simp [orFatal,Except.mapError]

/-- A signature over the session id and the key that was verified. -/
def ProvenBy (env : UpdateEnv) (key : SshKey) (v : Verified) : Prop :=
  proveData env.codec env.process env.sessionId (sshkeySshName env.process.xkalgs key) key =
      .ok v.data ∧
    env.verify (sshkeySshName env.process.xkalgs key) key v.sig v.data = .ok ()

lemma proveKeys_spec {ks : List OfferedKey} {n : Nat} {buf rest : Bytes} {vs : List Verified}
    (h : proveKeys env n ks buf = .ok (some (vs,rest))) : (∀ v ∈ vs, n ≤ v.index) ∧
      ∀ i k, ks[i]? = some k →
        (k.seen = .unseen → ∃ v ∈ vs, v.index = n + i ∧ ProvenBy env k.key v) ∧
          (k.seen ≠ .unseen → ∀ v ∈ vs, v.index ≠ n + i) := by
  induction ks generalizing n buf vs with
  | nil =>
    cases h
    exact ⟨fun v hv => (by cases hv),fun i k hk => (by cases hk)⟩
  | cons k ks ih =>
    rw [proveKeys] at h
    split at h
    · next hseen =>
      obtain ⟨hindex,hks⟩ := ih h
      refine ⟨fun v hv => Nat.le_of_succ_le (hindex v hv),fun i k' hk' => ?_⟩
      cases i with
      | zero =>
        cases hk'
        refine ⟨fun h => absurd h hseen,fun _ v hv => ?_⟩
        have := hindex v hv
        omega
      | succ i =>
        rw [show n + (i + 1) = n + 1 + i by omega]
        exact hks i k' hk'
    · next hseen =>
      obtain ⟨data,hdata,h⟩ := bind_eq_ok.mp h
      split at h
      · cases h
      · next sig buf' _ =>
        split at h
        · cases h
        · cases h
        · next hverify =>
          obtain ⟨r,hr,h⟩ := bind_eq_ok.mp h
          cases r with
          | none => cases h
          | some r =>
            cases h
            obtain ⟨hindex,hks⟩ := ih hr
            refine ⟨?_,fun i k' hk' => ?_⟩
            · intro v hv
              rcases mem_cons.mp hv with rfl | hv
              · exact Nat.le_refl _
              · exact Nat.le_of_succ_le (hindex v hv)
            · cases i with
              | zero =>
                cases hk'
                exact ⟨fun _ => ⟨_,mem_cons_self,rfl,orFatal_eq_ok.mp hdata,hverify⟩,
                  fun h => absurd (not_not.mp hseen) h⟩
              | succ i =>
                rw [show n + (i + 1) = n + 1 + i by omega]
                obtain ⟨hunseen,hother⟩ := hks i k' hk'
                refine ⟨fun h => ?_,fun h v hv => ?_⟩
                · obtain ⟨v,hv,hi⟩ := hunseen h
                  exact ⟨v,mem_cons_of_mem _ hv,hi⟩
                · rcases mem_cons.mp hv with rfl | hv
                  · dsimp only
                    omega
                  · exact hother h v hv

lemma receiveKey_unseen {keys' : List OfferedKey} {blob : Bytes}
    (hkeys : ∀ k ∈ keys, k.seen = .unseen)
    (h : receiveKey env keys blob = .ok (some keys')) : ∀ k ∈ keys', k.seen = .unseen := by
  rw [receiveKey] at h
  split at h
  · cases h
    exact hkeys
  · cases h
  · split_ifs at h
    · cases h
      exact hkeys
    · cases h
      exact hkeys
    · cases h
      exact hkeys
    · cases h
      intro k hk
      rcases mem_append.mp hk with hk | hk
      · exact hkeys k hk
      · rw [mem_singleton.mp hk]

/-- A key that may be trusted: the user had an entry for it without a marker, or the server has
proven it. -/
def TrustedKey (env : UpdateEnv) (call : Replacement) (vs : List Verified) (i : Nat)
    (key : SshKey) : Prop :=
  UnmarkedEntry env (hostLines env call.host call.ip) key ∨
    ∃ v ∈ vs, v.index = i ∧ ProvenBy env key v

/-- What a message leads to: nothing, or a context in which the files were searched for its
keys. -/
lemma clientInputHostkeys_ok {o : Options} {msg : Bytes} {r : Options × HostkeysOutcome}
    (h : clientInputHostkeys env o msg = .ok r) :
    r.2 = .nothing ∨ ∃ ctx keys, eachString (receiveKey env) [] msg = .ok (some keys) ∧
      updateNames env o = .ok (ctx.hostStr,ctx.ipStr) ∧
      SeenBy env (hostLines env ctx.hostStr ctx.ipStr) keys ctx.keys ∧
      ctx.nnew = (ctx.keys.countP fun k => k.seen = .unseen) ∧
      (ctx.nnew = 0 ∧ r.2 = .replaced (updateKnownHosts env o ctx).2 ∨
        ctx.nnew ≠ 0 ∧ ∃ request, proveRequest env ctx.keys = .ok request ∧
          r = (o,.asked ctx request)) := by
  rw [clientInputHostkeys] at h
  split_ifs at h
  · cases h
    exact .inl rfl
  · cases h
    exact .inl rfl
  obtain ⟨received,hreceived,h⟩ := bind_eq_ok.mp h
  match received, hreceived, h with
  | none, _, h =>
    cases h
    exact .inl rfl
  | some [], _, h =>
    cases h
    exact .inl rfl
  | some (k :: ks), hreceived, h =>
    obtain ⟨⟨host,ip⟩,hnames,h⟩ := bind_eq_ok.mp h
    cases hfind : findKeys env env.conn.userHostfiles ⟨host,ip,k :: ks,0,[]⟩ with
    | none =>
      simp only [hfind] at h
      cases h
      exact .inl rfl
    | some ctx =>
      simp only [hfind] at h
      obtain ⟨hseen,hhost,hip⟩ := findKeys_seenBy hfind
      have hseen : SeenBy env (hostLines env ctx.hostStr ctx.ipStr) (k :: ks) ctx.keys := by
        rw [hhost,hip]
        exact hseen
      have hnames : updateNames env o = .ok (ctx.hostStr,ctx.ipStr) := by rw [hhost,hip,hnames]
      split_ifs at h with hnone hnew
      · cases h
        simp only [Bool.and_eq_true,decide_eq_true_eq] at hnone
        exact .inr ⟨{ ctx with nnew := ctx.keys.countP _ },k :: ks,hreceived,
          hnames,hseen,rfl,.inl ⟨hnone.1,rfl⟩⟩
      · obtain ⟨request,hrequest,h⟩ := bind_eq_ok.mp h
        cases h
        exact .inr ⟨{ ctx with nnew := ctx.keys.countP _ },k :: ks,hreceived,
          hnames,hseen,rfl,.inr ⟨hnew,request,hrequest,rfl⟩⟩
      · cases h
        exact .inl rfl

/-- The calls of an exchange are those of a context that was searched and whose new keys are
proven. -/
lemma hostkeysExchange_ctx {o : Options} {msg reply : Bytes} {success : Bool}
    {calls : List Replacement} {vs : List Verified}
    (h : hostkeysExchange env o msg success reply = .ok (calls,vs)) (hne : calls ≠ []) :
    ∃ o' ctx keys, (updateKnownHosts env o' ctx).2 = calls ∧
      eachString (receiveKey env) [] msg = .ok (some keys) ∧
      updateNames env o = .ok (ctx.hostStr,ctx.ipStr) ∧
      SeenBy env (hostLines env ctx.hostStr ctx.ipStr) keys ctx.keys ∧
      (∀ k ∈ keys, k.seen = .unseen) ∧ ∀ i k, ctx.keys[i]? = some k →
        (k.seen = .unseen → ∃ v ∈ vs, v.index = i ∧ ProvenBy env k.key v) ∧
          (k.seen ≠ .unseen → ∀ v ∈ vs, v.index ≠ i) := by
  obtain ⟨⟨o',outcome⟩,hinput,h⟩ := bind_eq_ok.mp h
  rcases clientInputHostkeys_ok hinput with rfl | ⟨ctx,keys,hreceived,hnames,hseen,hnnew,hcase⟩
  · cases h
    exact absurd rfl hne
  have hunseen : ∀ x ∈ keys, x.seen = .unseen :=
    eachString_invariant (fun _ _ _ => receiveKey_unseen) (fun x hx => by cases hx) hreceived
  rcases hcase with ⟨hnone,rfl⟩ | ⟨-,request,-,hr⟩
  · -- every key was found, and no signature is asked for
    cases h
    rw [hnnew,countP_eq_zero] at hnone
    refine ⟨o,ctx,keys,rfl,hreceived,hnames,hseen,hunseen,fun i x hx => ⟨fun hx' => ?_,?_⟩⟩
    · exact absurd (decide_eq_true hx') (hnone x (mem_of_getElem? hx))
    · exact fun _ v hv => (by cases hv)
  · cases hr
    obtain ⟨⟨o'',calls',vs'⟩,hconfirm,h⟩ := bind_eq_ok.mp h
    cases h
    rw [clientGlobalHostkeysPrivateConfirm] at hconfirm
    split_ifs at hconfirm
    · cases hconfirm
      exact absurd rfl hne
    obtain ⟨r,hprove,hconfirm⟩ := bind_eq_ok.mp hconfirm
    cases r with
    | none =>
      cases hconfirm
      exact absurd rfl hne
    | some r =>
      dsimp only at hconfirm
      split_ifs at hconfirm
      · cases hconfirm
        exact absurd rfl hne
      · cases hconfirm
        refine ⟨o,ctx,keys,rfl,hreceived,hnames,hseen,hunseen,fun i x hx => ?_⟩
        have := (proveKeys_spec hprove).2 i x hx
        rwa [Nat.zero_add] at this

lemma updateKnownHosts_mem {o : Options} {ctx : UpdateCtx} {call : Replacement}
    (h : call ∈ (updateKnownHosts env o ctx).2) : call.host = ctx.hostStr ∧ call.ip = ctx.ipStr ∧
      (call.keys = ctx.keys.map OfferedKey.key ∨ call.keys = []) := by
  simp only [updateKnownHosts] at h
  generalize (if (decide (o.updateHostkeys = .ask) && !env.askPermission) = true then
    { o with updateHostkeys := .no } else o) = o' at h
  by_cases ho : o'.updateHostkeys = .no
  · rw [if_pos ho] at h
    cases h
  · rw [if_neg ho] at h
    obtain ⟨⟨file,i⟩,-,hfile⟩ := mem_filterMap.mp h
    split_ifs at hfile
    · cases hfile
      exact ⟨rfl,rfl,.inl rfl⟩
    · cases hfile
      exact ⟨rfl,rfl,.inr rfl⟩

/-- Every key of the message that a line for the host or its address has is also on such a line
without a marker. -/
def ListedUnmarked (env : UpdateEnv) (o : Options) (msg : Bytes) : Prop :=
  ∀ keys host ip, eachString (receiveKey env) [] msg = .ok (some keys) →
    updateNames env o = .ok (host,ip) → ∀ i k, keys[i]? = some k →
      Found env (keys.map OfferedKey.key) (hostLines env host ip) i →
        UnmarkedEntry env (hostLines env host ip) k.key

/-- The keys that are written are trusted exactly if none of the keys of the message is found
only on lines with a marker. -/
theorem hostkeysExchange_trusted_iff {o : Options} {msg reply : Bytes} {success : Bool}
    {calls : List Replacement} {vs : List Verified} {call : Replacement}
    (h : hostkeysExchange env o msg success reply = .ok (calls,vs)) (hcall : call ∈ calls)
    (hkeys : call.keys ≠ []) : (∀ i key, call.keys[i]? = some key → TrustedKey env call vs i key) ↔
      ListedUnmarked env o msg := by
  obtain ⟨o',ctx,keys,rfl,hreceived,hnames,hseen,hunseen,hproven⟩ :=
    hostkeysExchange_ctx h (ne_nil_of_mem hcall)
  obtain ⟨hhost,hip,hcallKeys⟩ := updateKnownHosts_mem hcall
  have hcallKeys : call.keys = keys.map _ := (hcallKeys.resolve_right hkeys).trans hseen.1
  have hlisted : ListedUnmarked env o msg ↔ ∀ i k, keys[i]? = some k →
      Found env (keys.map OfferedKey.key) (hostLines env ctx.hostStr ctx.ipStr) i →
        UnmarkedEntry env (hostLines env ctx.hostStr ctx.ipStr) k.key := by
    refine ⟨fun h => h keys _ _ hreceived hnames,fun h keys' host ip hkeys' hnames' => ?_⟩
    cases hreceived.symm.trans hkeys'
    cases hnames.symm.trans hnames'
    exact h
  have hmap : (∀ i key, call.keys[i]? = some key → TrustedKey env call vs i key) ↔
      ∀ i k, keys[i]? = some k → TrustedKey env call vs i k.key := by
    simp only [hcallKeys,List.getElem?_map,Option.map_eq_some_iff,forall_exists_index,and_imp,
      forall_apply_eq_imp_iff₂]
  rw [hmap,hlisted]
  refine forall₃_congr fun i k0 hk0 => ?_
  rw [TrustedKey,hhost,hip]
  -- the key in the context is the one of the message
  have hctx : (ctx.keys.map OfferedKey.key)[i]? = some k0.key := by
    rw [hseen.1,List.getElem?_map,hk0]
    rfl
  obtain ⟨k,hk,hkey⟩ := Option.map_eq_some_iff.mp (List.getElem?_map.symm.trans hctx)
  obtain ⟨k1,hk1,-,hfound⟩ := hseen.2 i k hk
  cases hk0.symm.trans hk1
  rw [← hkey]
  rcases hfound with ⟨hf,hlisted⟩ | ⟨hf,hsame⟩
  · -- a key that was found is not proven
    have hno : ¬ ∃ v ∈ vs, v.index = i ∧ ProvenBy env k.key v := by
      rintro ⟨v,hv,hindex,-⟩
      exact (hproven i k hk).2 (by rw [hlisted]; decide) v hv hindex
    rw [or_iff_left hno]
    exact ⟨fun h _ => h,fun h => h hf⟩
  · have hunseen' : k.seen = .unseen := hsame.trans (hunseen k0 (mem_of_getElem? hk0))
    exact iff_of_true (.inr ((hproven i k hk).1 hunseen')) fun h => absurd h hf

end

def exampleBlobs : Codec where
  d2iX509 _ := none
  x509GetPubkey _ := none
  ecdsaKeyToNid _ := -1
  ecValidatePublic _ := true
  ecPoint _ := .ok []
  sshkeyFromBlob blob :=
    if blob = cstr "key1" then .ok ⟨rsaKey 15 3,rfl,nofun⟩
    else if blob = cstr "key2" then .ok ⟨rsaKey 21 5,rfl,nofun⟩
    else .error .invalidFormat

def exampleUpdate (knownHosts : String) : UpdateEnv where
  hosts := exampleHosts
  conn := exampleConnection knownHosts
  codec := exampleBlobs
  process := ⟨emptyXkalg,false,false⟩
  verify _ _ _ _ := .error (.err .signatureInvalid)
  sessionId := [1]
  port := 22
  batchMode := false
  hostkeyalgorithms := cstr "*"
  askPermission := true
  enoent _ := true
  stat _ := true

def exampleUpdateOptions : Options := { exampleState.options with updateHostkeys := .yes }

def exampleReplacement (knownHosts : String) : Replacement where
  file := ⟨cstr "known_hosts",some (cstr knownHosts),[]⟩
  host := cstr "host"
  ip := some (cstr "1.2.3.4")
  keys := [rsaKey 15 3]

def exampleEntries : EntryEnv where
  hosts := exampleHosts
  keyText key := some (if key = rsaKey 15 3 then cstr "key1" else cstr "key2")
  fingerprint _ := some []
  salt _ := []

example : hostfileReplaceEntries exampleEntries ⟨[],some (cstr "host key2\n"),[]⟩
    (cstr "host key2\n") (cstr "host") none [rsaKey 15 3] false = some (cstr "host key1\n") := by
  decide +kernel

/-- The second key is no longer offered, and the first one has an entry. -/
theorem hostkeysExchange_trusted_listed :
    hostkeysExchange (exampleUpdate "host key1\nhost key2\n") exampleUpdateOptions
        (framed (cstr "key1")) true [] =
      .ok ([exampleReplacement "host key1\nhost key2\n"],[]) ∧
    TrustedKey (exampleUpdate "host key1\nhost key2\n")
      (exampleReplacement "host key1\nhost key2\n") [] 0 (rsaKey 15 3) := by
  have hls : hostLines (exampleUpdate "host key1\nhost key2\n") (cstr "host")
      (some (cstr "1.2.3.4")) =
      [⟨cstr "known_hosts",1,.matched,cstr "host key1",.none,some (rsaKey 15 3)⟩,
        ⟨cstr "known_hosts",2,.matched,cstr "host key2",.none,some (rsaKey 21 5)⟩] := by
    decide +kernel
  refine (and_iff_left_of_imp fun h =>
    (hostkeysExchange_trusted_iff h mem_cons_self (by decide)).mpr ?_ 0 _ rfl).mpr
      (by decide +kernel)
  intro keys host ip hkeys hnames i k hk _
  cases hkeys.symm.trans
    (show _ = .ok (some [⟨cstr "ssh-rsa",rsaKey 15 3,.unseen⟩]) by decide +kernel)
  cases hnames.symm.trans (show _ = .ok (cstr "host",some (cstr "1.2.3.4")) by decide +kernel)
  rw [hls]
  cases i with
  | zero =>
    cases hk
    exact ⟨_,mem_cons_self,rfl,rfl,_,rfl,by decide⟩
  | succ i => cases hk

/-- A key that has only an entry by which it is revoked is written as a trusted one, without a
signature. -/
theorem hostkeysExchange_revoked_key :
    hostkeysExchange (exampleUpdate "@revoked host key1\nhost key2\n") exampleUpdateOptions
        (framed (cstr "key1")) true [] =
      .ok ([exampleReplacement "@revoked host key1\nhost key2\n"],[]) ∧
    ¬ TrustedKey (exampleUpdate "@revoked host key1\nhost key2\n")
      (exampleReplacement "@revoked host key1\nhost key2\n") [] 0 (rsaKey 15 3) ∧
    hostfileReplaceEntries exampleEntries
        ⟨cstr "known_hosts",some (cstr "@revoked host key1\nhost key2\n"),[]⟩
        (cstr "@revoked host key1\nhost key2\n") (cstr "host") (some (cstr "1.2.3.4"))
          [rsaKey 15 3] false =
      some (cstr "@revoked host key1\nhost,1.2.3.4 key1\n") := by
  refine ⟨by decide +kernel,?_,by decide +kernel⟩
  have hls : hostLines (exampleUpdate "@revoked host key1\nhost key2\n") (cstr "host")
      (some (cstr "1.2.3.4")) =
      [⟨cstr "known_hosts",1,.matched,cstr "@revoked host key1",.revoke,some (rsaKey 15 3)⟩,
        ⟨cstr "known_hosts",2,.matched,cstr "host key2",.none,some (rsaKey 21 5)⟩] := by
    decide +kernel
  rintro (⟨l,hl,-,hmarker,k,hk,hequal⟩ | ⟨v,hv,-⟩)
  · change l ∈ hostLines _ (cstr _) (some _) at hl
    rw [hls] at hl
    simp only [mem_cons,not_mem_nil,or_false] at hl
    rcases hl with rfl | rfl
    · cases hmarker
    · cases hk
      exact absurd hequal (by decide)
  · cases hv

end PkixSsh.Hostfile
