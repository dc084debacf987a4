import PkixSsh.Agent.Removal
import PkixSsh.Hostfile.KeyBlobs
import PkixSsh.Hostfile.UpdateHostkeys

/-!
# Proving host keys

`notify_hostkeys` sends the keys of the server under each of their algorithms, and
`server_input_hostkeys_prove` signs for those that the client asks for.
-/

namespace PkixSsh.Hostfile

open Key X509 Sshbuf Match Agent List

/-- A host key of `sensitive_data`. The private key may be with an agent. -/
structure HostKey where
  prv : Option SshKey
  pub : Option SshKey
  cert : Option SshKey

/-- The server. `xsign` is `kex->xsign` with an algorithm, a private key or the public key of
one that an agent has, and the data. -/
structure Server where
  ssl : Openssl
  process : Process
  hostKeys : List HostKey
  xsign : Bytes → SshKey → Bytes → Except Stop Bytes

/-- The X.509 algorithms in `Xkey_algoriths`: one step of the loop over the table. -/
def addXkalg (c : Codec) (k : SshKey) (ret : List Bytes) (p : SshX509KeyAlg) :
    Except Stop (List Bytes) := do
  if !(← checkRsa2048Sha256 c p k) then return ret
  else if p.name ∈ ret then return ret
  else return ret ++ [p.name]

def xkeyAlgoriths (c : Codec) (pr : Process) (k : SshKey) : Except Stop (List Bytes) := do
  let entries := pr.xkalgs.algs.filter fun p =>
    sshkeyTypePlain k.type = p.basetype && !(k.ecdsaNid > 0 && k.ecdsaNid ≠ p.subtype)
  let ret ← if sshkeyIsX509 k then entries.foldlM (addXkalg c k) [] else .ok []
  let ret := ret ++ [sshkeySshNameFromTypeNid k.type k.ecdsaNid]
  return if k.type = .rsa then ret ++ [cstr "rsa-sha2-256",cstr "rsa-sha2-512"] else ret

/-- The algorithms under which a key is sent: those of RSA that share a blob format once. -/
def foldRsaFormat : Bool → List Bytes → List Bytes
  | _, [] => []
  | rsaFormat, pkalg :: algs =>
    if matchPatternList pkalg (cstr "ssh-rsa,rsa-sha2-256,rsa-sha2-512") false = 1 then
      if rsaFormat then foldRsaFormat rsaFormat algs
      else cstr "ssh-rsa" :: foldRsaFormat true algs
    else pkalg :: foldRsaFormat rsaFormat algs

def notifyKey (c : Codec) (pr : Process) (key : SshKey) (buf : Bytes) : Except Stop Bytes := do
  let algs ← xkeyAlgoriths c pr key
  (foldRsaFormat false algs).foldlM (fun buf pkalg => do
    let blob ← orFatal (xkeyPutb c pr pkalg key)
    orFatal (check (putString blob buf))) buf

section

variable (c : Codec) (sessionId : Bytes) (srv : Server)

def notified : List SshKey :=
  (srv.hostKeys.filterMap HostKey.pub).filter fun key =>
    key.type ≠ .unspec && !sshkeyIsCert key

def notifyHostkeys : Except Stop Bytes :=
  if notified srv = [] then .error .fatal
  else (notified srv).foldlM (fun buf key => notifyKey c srv.process key buf) []

def getHostkeyIndex (key : SshKey) : Option Nat :=
  srv.hostKeys.findIdx? fun h =>
    if sshkeyIsCert key then h.cert.any fun k => sshkeyEqual srv.ssl key k
    else
      (h.prv.any fun k => sshkeyEqualPublic srv.ssl key k) ||
        h.pub.any fun k => sshkeyEqualPublic srv.ssl key k

/-- The key that signs: the private one, or the public one for the agent. -/
def signer (key : SshKey) : Option SshKey := do
  let i ← getHostkeyIndex srv key
  let h ← srv.hostKeys[i]?
  h.prv.or h.pub

/-- One step of `server_input_hostkeys_prove`; `none` stands for `goto out`. -/
def proveKey (resp blob : Bytes) : Except Stop (Option Bytes) :=
  let orOut {α : Type} (x : Except Stop α) (f : α → Except Stop (Option Bytes)) :=
    match x with
    | .ok a => f a
    | .error (.err _) => .ok none
    | .error s => .error s
  orOut (parseKeyFromBlob c srv.process blob) fun (key,pkalg) =>
    match signer srv key with
    | none => .ok none
    | some k =>
      orOut (proveData c srv.process sessionId pkalg key) fun sigbuf =>
        orOut (srv.xsign pkalg k sigbuf) fun sig =>
          orOut (check (putString sig resp)) fun resp => .ok (some resp)

def serverInputHostkeysProve (request : Bytes) : Except Stop (Option Bytes) :=
  eachString (proveKey c sessionId srv) [] request

end

/-- The exchange up to the reply with the signatures, for which the context waits. -/
def proofsFor (srv : Server) (env : UpdateEnv) (o : Options) :
    Except Stop (Option (Options × UpdateCtx × Bytes)) := do
  let msg ← notifyHostkeys env.codec srv
  match ← clientInputHostkeys env o msg with
  | (o,.asked ctx request) =>
    match ← serverInputHostkeysProve env.codec env.sessionId srv request with
    | some reply => return some (o,ctx,reply)
    | none => return none
  | _ => return none

/-- The proofs are accepted: there is one for each new key, and the files are updated. -/
def Confirmed (env : UpdateEnv) (o : Options) (ctx : UpdateCtx) (reply : Bytes) : Prop :=
  ∃ o' vs, clientGlobalHostkeysPrivateConfirm env o ctx true reply =
    .ok (o',(updateKnownHosts env o ctx).2,vs) ∧ vs.length = ctx.nnew

section

variable {env : UpdateEnv}

lemma foldlM_putKey {c : Codec} {pr : Process} {ks : List OfferedKey} {buf r : Bytes}
    (h : ks.foldlM (fun buf k => do
      let blob ← orFatal (xkeyPutb c pr k.alg k.key)
      orFatal (check (putString blob buf))) buf = .ok r) :
    ∃ blobs, List.Forall₂ (fun k blob => xkeyPutb c pr k.alg k.key = .ok blob) ks blobs ∧
      r = buf ++ blobs.flatMap framed ∧ ∀ blob ∈ blobs, blob.length ≤ sshbufSizeMax - 4 := by
  induction ks generalizing buf with
  | nil =>
    cases h
    exact ⟨[],.nil,by simp,by simp⟩
  | cons k ks ih =>
    rw [foldlM_cons] at h
    obtain ⟨buf',hbuf,h⟩ := bind_eq_ok.mp h
    obtain ⟨blob,hblob,hbuf⟩ := bind_eq_ok.mp hbuf
    rw [orFatal_eq_ok] at hblob hbuf
    obtain ⟨hl,rfl⟩ := putString_iff.mp (check_eq_ok.mp hbuf)
    obtain ⟨blobs,hblobs,rfl,hlen⟩ := ih h
    refine ⟨blob :: blobs,.cons hblob hblobs,?_,?_⟩
    · rw [flatMap_cons,append_assoc]
    · rintro b (_ | ⟨_,hb⟩)
      · omega
      · exact hlen b hb

def Signs (c : Codec) (sessionId : Bytes) (srv : Server) (blob sig : Bytes) : Prop :=
  ∃ key pkalg k data, parseKeyFromBlob c srv.process blob = .ok (key,pkalg) ∧
    signer srv key = some k ∧ proveData c srv.process sessionId pkalg key = .ok data ∧
    srv.xsign pkalg k data = .ok sig

lemma proveKey_eq_some {c : Codec} {sessionId resp blob resp' : Bytes} {srv : Server}
    (h : proveKey c sessionId srv resp blob = .ok (some resp')) :
    ∃ sig, Signs c sessionId srv blob sig ∧ putString sig resp = .ok resp' := by
  rw [proveKey] at h
  dsimp only at h
  split at h
  · rename_i x hparse
    obtain ⟨key,pkalg⟩ := x
    dsimp only at h
    cases hk : signer srv key with
    | none =>
      simp only [hk] at h
      cases h
    | some k =>
      simp only [hk] at h
      split at h
      · rename_i data hdata
        split at h
        · rename_i sig hsig
          split at h
          · rename_i r hr
            cases h
            exact ⟨sig,⟨key,pkalg,k,data,hparse,hk,hdata,hsig⟩,check_eq_ok.mp hr⟩
          · cases h
          · cases h
        · cases h
        · cases h
      · cases h
      · cases h
  · cases h
  · cases h

lemma eachBlob_proveKey {c : Codec} {sessionId : Bytes} {srv : Server} {blobs : List Bytes}
    {resp resp' : Bytes} (h : eachBlob (proveKey c sessionId srv) resp blobs = .ok (some resp')) :
    ∃ sigs, List.Forall₂ (Signs c sessionId srv) blobs sigs ∧
      resp' = resp ++ sigs.flatMap framed ∧ ∀ sig ∈ sigs, sig.length ≤ sshbufSizeMax - 4 := by
  induction blobs generalizing resp with
  | nil =>
    cases h
    exact ⟨[],.nil,by simp,by simp⟩
  | cons blob blobs ih =>
    obtain ⟨r,hr,h⟩ := bind_eq_ok.mp h
    cases r with
    | none => cases h
    | some resp1 =>
      obtain ⟨sig,hsig,hput⟩ := proveKey_eq_some hr
      obtain ⟨hl,rfl⟩ := putString_iff.mp hput
      obtain ⟨sigs,hsigs,rfl,hlen⟩ := ih h
      refine ⟨sig :: sigs,.cons hsig hsigs,?_,?_⟩
      · rw [flatMap_cons,append_assoc]
      · rintro b (_ | ⟨_,hb⟩)
        · omega
        · exact hlen b hb

def Verifies (env : UpdateEnv) (k : OfferedKey) (sig : Bytes) : Prop :=
  ∃ data, proveData env.codec env.process env.sessionId
      (sshkeySshName env.process.xkalgs k.key) k.key = .ok data ∧
    env.verify (sshkeySshName env.process.xkalgs k.key) k.key sig data = .ok ()

lemma proveKeys_of_verifies {ks : List OfferedKey} {sigs : List Bytes} (i : Nat)
    (h : List.Forall₂ (Verifies env) (ks.filter fun k => k.seen = .unseen) sigs)
    (hlen : ∀ sig ∈ sigs, sig.length ≤ sshbufSizeMax - 4) :
    ∃ vs, proveKeys env i ks (sigs.flatMap framed) = .ok (some (vs,[])) ∧
      vs.length = sigs.length := by
  induction ks generalizing i sigs with
  | nil =>
    cases h
    exact ⟨[],rfl,rfl⟩
  | cons k ks ih =>
    by_cases hk : k.seen = .unseen
    · rw [filter_cons_of_pos (by simpa using hk)] at h
      obtain ⟨sig,sigs,⟨data,hdata,hverify⟩,hrest,rfl⟩ := forall₂_cons_left_iff.mp h
      obtain ⟨vs,hvs,hcount⟩ := ih (i + 1) hrest fun s hs => hlen s (mem_cons_of_mem _ hs)
      refine ⟨⟨i,sig,data⟩ :: vs,?_,by rw [length_cons,length_cons,hcount]⟩
      rw [proveKeys,if_neg (not_not.mpr hk)]
      simp only [orFatal_eq_ok.mpr hdata,flatMap_cons,ok_bind,
        getString_framed (hlen sig mem_cons_self),hverify,hvs,pure_eq_ok]
    · rw [filter_cons_of_neg (by simpa using hk)] at h
      rw [proveKeys,if_pos hk]
      exact ih _ h hlen

lemma verifies_of_proveKeys {ks : List OfferedKey} {sigs : List Bytes} {i : Nat}
    {r : List Verified × Bytes}
    (hcount : (ks.filter fun k => k.seen = .unseen).length = sigs.length)
    (hlen : ∀ sig ∈ sigs, sig.length ≤ sshbufSizeMax - 4)
    (h : proveKeys env i ks (sigs.flatMap framed) = .ok (some r)) :
    List.Forall₂ (Verifies env) (ks.filter fun k => k.seen = .unseen) sigs := by
  induction ks generalizing i sigs r with
  | nil =>
    cases length_eq_zero_iff.mp hcount.symm
    exact .nil
  | cons k ks ih =>
    rw [proveKeys] at h
    by_cases hk : k.seen = .unseen
    · rw [filter_cons_of_pos (by simpa using hk)] at hcount ⊢
      rw [if_neg (not_not.mpr hk)] at h
      cases sigs with
      | nil => cases hcount
      | cons sig sigs =>
        obtain ⟨data,hdata,h⟩ := bind_eq_ok.mp h
        rw [flatMap_cons,getString_framed (hlen sig mem_cons_self)] at h
        dsimp only at h
        split at h
        · cases h
        · cases h
        · rename_i hverify
          obtain ⟨r',hr',-⟩ := bind_eq_ok.mp h
          cases r' with
          | none => simp_all
          | some r' =>
            refine .cons ⟨data,orFatal_eq_ok.mp hdata,hverify⟩ ?_
            exact ih (Nat.succ.inj hcount) (fun s hs => hlen s (mem_cons_of_mem _ hs)) hr'
    · rw [filter_cons_of_neg (by simpa using hk)] at hcount ⊢
      rw [if_pos hk] at h
      exact ih hcount hlen h

lemma confirmed_iff {o : Options} {ctx : UpdateCtx} {sigs : List Bytes} (hid : env.sessionId ≠ [])
    (hnnew : ctx.nnew = ctx.keys.countP fun k => k.seen = .unseen) (hne : ctx.nnew ≠ 0)
    (hcount : (ctx.keys.filter fun k => k.seen = .unseen).length = sigs.length)
    (hlen : ∀ sig ∈ sigs, sig.length ≤ sshbufSizeMax - 4) :
    Confirmed env o ctx (sigs.flatMap framed) ↔
      List.Forall₂ (Verifies env) (ctx.keys.filter fun k => k.seen = .unseen) sigs := by
  have hid : ¬ env.sessionId.length = 0 := fun h => hid (length_eq_zero_iff.mp h)
  rw [Confirmed,clientGlobalHostkeysPrivateConfirm,if_neg hne,if_neg (by simp),if_neg hid]
  constructor
  · rintro ⟨o',vs,h,hvs⟩
    obtain ⟨r,hr,h⟩ := bind_eq_ok.mp h
    cases r with
    | none =>
      simp only [pure_eq_ok,Except.ok.injEq,Prod.mk.injEq] at h
      rw [← h.2.2] at hvs
      exact absurd hvs.symm hne
    | some r => exact verifies_of_proveKeys hcount hlen hr
  · intro h
    obtain ⟨vs,hvs,hvsCount⟩ := proveKeys_of_verifies 0 h hlen
    have hall : vs.length = ctx.nnew := by
      rw [hvsCount,← hcount,hnnew,countP_eq_length_filter]
    refine ⟨(updateKnownHosts env o ctx).1,vs,?_,hall⟩
    rw [hvs,ok_bind]
    simp [hall]

lemma keyBlob_of_xkeyPutb {c : Codec} {pr : Process} {alg blob : Bytes} {k : SshKey}
    (h : xkeyPutb c pr alg k = .ok blob) : keyBlob c pr alg k = .ok blob := by
  rw [xkeyPutb] at h
  rw [keyBlob]
  cases hp : xkalgByName _ alg with
  | none =>
    simp only [hp] at h
    exact h
  | some p =>
    simp only [hp] at h
    by_cases hchain : p.chain = true
    · simpa only [hchain,if_true] using h
    · simp only [hchain,Bool.false_eq_true,if_false,check_eq_ok,x509keyToBuf] at h ⊢
      cases hx : certOf k with
      | none =>
        rw [hx] at h
        cases h
      | some x =>
        rw [hx] at h
        rw [(put_iff.mp h).2]
        rfl

lemma proveData_congr {c : Codec} {pr pr' : Process} {sessionId alg data : Bytes} {k k' : SshKey}
    (hk : ∀ d, keyBlob c pr alg k = .ok d → keyBlob c pr' alg k' = .ok d)
    (h : proveData c pr sessionId alg k = .ok data) :
    proveData c pr' sessionId alg k' = .ok data := by
  obtain ⟨b1,h1,h⟩ := bind_eq_ok.mp h
  obtain ⟨b2,h2,h⟩ := bind_eq_ok.mp h
  rw [xkeyPuts_eq] at h
  obtain ⟨d,hd,h⟩ := bind_eq_ok.mp h
  refine bind_eq_ok.mpr ⟨b1,h1,bind_eq_ok.mpr ⟨b2,h2,?_⟩⟩
  rw [xkeyPuts_eq,hk d hd]
  exact h

/-- A signature verifies for the algorithm, the public key and the data it was made for, and for
no other ones. -/
structure Ideal (sign : Bytes → SshKey → Bytes → Except Stop Bytes)
    (verify : Bytes → SshKey → Bytes → Bytes → Except Stop Unit) : Prop where
  accepts : ∀ alg prv pub data sig, publicKey prv = publicKey pub →
    sign alg prv data = .ok sig → verify alg pub sig data = .ok ()
  binds : ∀ alg alg' prv pub data data' sig, sign alg prv data = .ok sig →
    verify alg' pub sig data' = .ok () → alg = alg' ∧ publicKey prv = publicKey pub ∧ data = data'

/-- The server reads the blob of the key under the name that the client has for the key, and
signs with its private key. -/
def AnsweredAlike (srv : Server) (env : UpdateEnv) (k : OfferedKey) : Prop :=
  ∀ blob key pkalg s, xkeyPutb env.codec env.process k.alg k.key = .ok blob →
    parseKeyFromBlob env.codec srv.process blob = .ok (key,pkalg) → signer srv key = some s →
      pkalg = sshkeySshName env.process.xkalgs k.key ∧ publicKey s = publicKey k.key

/-- The keys that the client records of the message of the server and does not find in its
files are answered alike. -/
def NewKeysAlike (srv : Server) (env : UpdateEnv) (o : Options) : Prop :=
  ∀ msg keys host ip, notifyHostkeys env.codec srv = .ok msg →
    eachString (receiveKey env) [] msg = .ok (some keys) → updateNames env o = .ok (host,ip) →
      ∀ i k, keys[i]? = some k →
        ¬ Found env (keys.map OfferedKey.key) (hostLines env host ip) i → AnsweredAlike srv env k

lemma receiveKey_readAs (hc : Decoders env.codec)
    (hm : env.process.missingKeyIdentifier = false) {msg : Bytes} {keys : List OfferedKey}
    (h : eachString (receiveKey env) [] msg = .ok (some keys)) :
    ∀ k ∈ keys, ReadAs env.codec env.process k.key k.alg ∧ sshkeyIsCert k.key = false := by
  refine eachString_invariant (P := fun keys => ∀ k ∈ keys,
    ReadAs _ _ k.key k.alg ∧ sshkeyIsCert k.key = false) ?_ (by simp) h
  intro keys blob keys' hkeys hstep
  rw [receiveKey] at hstep
  split at hstep
  · cases hstep
    exact hkeys
  · cases hstep
  · rename_i key pkalg hparse
    split_ifs at hstep with _ hcert
    · cases hstep
      exact hkeys
    · cases hstep
      exact hkeys
    · cases hstep
      exact hkeys
    · cases hstep
      intro k hk
      rcases mem_append.mp hk with hk | hk
      · exact hkeys k hk
      · rw [mem_singleton.mp hk]
        exact ⟨parseKeyFromBlob_readAs hc hm hparse,by simpa using hcert⟩

lemma verifies_iff {srv : Server} (hc : Decoders env.codec) (hs : Ideal srv.xsign env.verify)
    (hclient : env.process.missingKeyIdentifier = false)
    (hserver : srv.process.missingKeyIdentifier = false) {k : OfferedKey} {blob sig : Bytes}
    (hread : ReadAs env.codec env.process k.key k.alg) (hcert : sshkeyIsCert k.key = false)
    (hblob : xkeyPutb env.codec env.process k.alg k.key = .ok blob)
    (hlen : blob.length ≤ sshbufSizeMax - 4) (hsig : Signs env.codec env.sessionId srv blob sig) :
    Verifies env k sig ↔ AnsweredAlike srv env k := by
  obtain ⟨key,pkalg,s,data,hparse,hsigner,hdata,hsign⟩ := hsig
  constructor
  · rintro ⟨data',-,hverify⟩ blob' key' pkalg' s' hblob' hparse' hsigner'
    cases hblob.symm.trans hblob'
    cases hparse.symm.trans hparse'
    cases hsigner.symm.trans hsigner'
    obtain ⟨halg,hpub,-⟩ := hs.binds _ _ _ _ _ _ _ hsign hverify
    exact ⟨halg,hpub⟩
  · intro h
    obtain ⟨rfl,hpub⟩ := h blob key pkalg s hblob hparse hsigner
    refine ⟨data,proveData_congr (fun d hd => ?_) hdata,hs.accepts _ _ _ _ _ hpub hsign⟩
    exact keyBlob_readBack (keyBlob_of_xkeyPutb hblob) (by omega) hparse hd hc hclient hserver hread
      hcert

lemma forall₂_trans {α β γ : Type} {R : α → β → Prop} {S : β → γ → Prop} {T : α → γ → Prop}
    {as : List α} {bs : List β} {gs : List γ}
    (hT : ∀ a ∈ as, ∀ b ∈ bs, ∀ g, R a b → S b g → T a g) (hR : List.Forall₂ R as bs)
    (hS : List.Forall₂ S bs gs) : List.Forall₂ T as gs := by
  induction hR generalizing gs with
  | nil =>
    cases hS
    exact .nil
  | cons hab _ ih =>
    obtain ⟨g,gs,hbg,hrest,rfl⟩ := forall₂_cons_left_iff.mp hS
    refine .cons (hT _ mem_cons_self _ mem_cons_self g hab hbg) (ih ?_ hrest)
    exact fun a ha b hb => hT a (mem_cons_of_mem _ ha) b (mem_cons_of_mem _ hb)

lemma forall₂_iff_forall_mem {α β : Type} {R : α → β → Prop} {P : α → Prop} {as : List α}
    {bs : List β} (h : List.Forall₂ (fun a b => R a b ↔ P a) as bs) :
    List.Forall₂ R as bs ↔ ∀ a ∈ as, P a := by
  induction h with
  | nil => simp
  | cons hab _ ih => rw [forall₂_cons,ih,hab,forall_mem_cons]

lemma forall_unseen_iff {keys keys' : List OfferedKey} {ls : List ForeachLine}
    (hseen : SeenBy env ls keys keys') (hunseen : ∀ k ∈ keys, k.seen = .unseen)
    {P : Bytes → SshKey → Prop} : (∀ k ∈ keys'.filter fun k => k.seen = .unseen, P k.alg k.key) ↔
      ∀ i k, keys[i]? = some k → ¬ Found env (keys.map OfferedKey.key) ls i → P k.alg k.key := by
  have hkey : ∀ (i : Nat) (k k0 : OfferedKey), keys'[i]? = some k → keys[i]? = some k0 →
      k.key = k0.key := by
    intro i k k0 hk hk0
    have h := congrArg (fun l => l[i]?) hseen.1
    simp only [List.getElem?_map,hk,hk0,Option.map_some,Option.some.injEq] at h
    exact h
  constructor
  · intro h i k0 hk0 hfound
    have hi : i < keys'.length := by
      have hl := congrArg List.length hseen.1
      rw [length_map,length_map] at hl
      rw [hl]
      exact (List.getElem?_eq_some_iff.mp hk0).1
    obtain ⟨k1,hk1,halg,hcase⟩ := hseen.2 i _ (List.getElem?_eq_getElem hi)
    cases hk0.symm.trans hk1
    rw [← halg,← hkey i _ _ (List.getElem?_eq_getElem hi) hk0]
    refine h _ (mem_filter.mpr ⟨getElem_mem hi,decide_eq_true ?_⟩)
    rcases hcase with ⟨hf,-⟩ | ⟨-,hsame⟩
    · exact absurd hf hfound
    · exact hsame.trans (hunseen k0 (mem_of_getElem? hk0))
  · intro h k hk
    obtain ⟨hmem,hnew⟩ := mem_filter.mp hk
    obtain ⟨i,hi⟩ := mem_iff_getElem?.mp hmem
    obtain ⟨k0,hk0,halg,hcase⟩ := hseen.2 i k hi
    rw [halg,hkey i k k0 hi hk0]
    refine h i k0 hk0 ?_
    rcases hcase with ⟨-,hlisted⟩ | ⟨hf,-⟩
    · rw [hlisted] at hnew
      exact absurd hnew (by decide)
    · exact hf

/-- The proofs of a server that runs the same program are accepted exactly if it reads every new key
under the client's name for it, and signs with its private key. -/
theorem proofsFor_confirmed_iff {srv : Server} {o o' : Options} {ctx : UpdateCtx} {reply : Bytes}
    (hc : Decoders env.codec) (hs : Ideal srv.xsign env.verify)
    (hclient : env.process.missingKeyIdentifier = false)
    (hserver : srv.process.missingKeyIdentifier = false) (hid : env.sessionId ≠ [])
    (h : proofsFor srv env o = .ok (some (o',ctx,reply))) :
    Confirmed env o' ctx reply ↔ NewKeysAlike srv env o := by
  obtain ⟨msg,hmsg,h⟩ := bind_eq_ok.mp h
  obtain ⟨r,hinput,h⟩ := bind_eq_ok.mp h
  rcases clientInputHostkeys_ok hinput with hr | ⟨ctx',keys,hkeys,hnames,hseen,hnnew,hcase⟩
  · obtain ⟨o1,outcome⟩ := r
    cases hr
    cases h
  rcases hcase with ⟨-,hr⟩ | ⟨hne,request,hrequest,rfl⟩
  · obtain ⟨o1,outcome⟩ := r
    cases hr
    cases h
  obtain ⟨resp,hresp,h⟩ := bind_eq_ok.mp h
  cases resp with
  | none => cases h
  | some resp =>
    cases h
    obtain ⟨blobs,hblobs,rfl,hblobLen⟩ := foldlM_putKey hrequest
    rw [nil_append,serverInputHostkeysProve,eachString_flatMap _ hblobLen] at hresp
    obtain ⟨sigs,hsigs,rfl,hsigLen⟩ := eachBlob_proveKey hresp
    have hunseen : ∀ k ∈ keys, k.seen = .unseen :=
      eachString_invariant (fun _ _ _ => receiveKey_unseen) (by simp) hkeys
    have hread := receiveKey_readAs hc hclient hkeys
    have hread' : ∀ k ∈ ctx.keys.filter _,
        ReadAs _ _ k.key k.alg ∧ sshkeyIsCert k.key = false :=
      (forall_unseen_iff (P := fun alg key => ReadAs _ _ key alg ∧
        sshkeyIsCert key = false) hseen hunseen).mpr
          fun i k hk _ => hread k (mem_of_getElem? hk)
    have hpoint : List.Forall₂ (fun k sig => Verifies env k sig ↔ AnsweredAlike srv env k)
        (ctx.keys.filter fun k => k.seen = .unseen) sigs := by
      refine forall₂_trans (fun k hk blob hblob sig hput hsign => ?_) hblobs hsigs
      exact verifies_iff hc hs hclient hserver (hread' k hk).1 (hread' k hk).2 hput
        (hblobLen blob hblob) hsign
    rw [nil_append,confirmed_iff hid hnnew hne
      (hblobs.length_eq.trans hsigs.length_eq) hsigLen,forall₂_iff_forall_mem hpoint]
    refine (forall_unseen_iff (P := fun alg key => AnsweredAlike srv env ⟨alg,key,.unseen⟩)
      hseen hunseen).trans ⟨fun h => ?_,fun h => h msg keys _ _ hmsg hkeys hnames⟩
    intro msg' keys' host ip hmsg' hkeys' hnames'
    cases hmsg.symm.trans hmsg'
    cases hkeys.symm.trans hkeys'
    cases hnames.symm.trans hnames'
    exact h

end

lemma exampleRsaCodec_decoders : Decoders exampleRsaCodec where
  cert := by
    intro b x rest h
    simp only [exampleRsaCodec] at h
    split_ifs at h
    cases h
    exact ⟨by decide,by decide,by decide +kernel⟩
  plain := by
    intro b k h
    simp only [exampleRsaCodec] at h
    split_ifs at h
    cases h
    rfl
  blob := by
    intro k b k' _ h
    simp only [exampleRsaCodec] at h
    split_ifs at h with hb
    cases h
    rw [hb]
    decide +kernel

def exampleSign (alg : Bytes) (prv : SshKey) (data : Bytes) : Except Stop Bytes :=
  if publicKey prv = some (.rsa 3233 17) then .ok ((alg.flatMap fun b => [1,b]) ++ 0 :: data)
  else .error (.err .invalidArgument)

def exampleVerify (alg : Bytes) (pub : SshKey) (sig data : Bytes) : Except Stop Unit :=
  if exampleSign alg pub data = .ok sig then .ok () else .error (.err .signatureInvalid)

lemma spelled_inj {a a' d d' : Bytes}
    (h : (a.flatMap fun b => [1,b]) ++ 0 :: d = (a'.flatMap fun b => [1,b]) ++ 0 :: d') :
    a = a' ∧ d = d' := by
  induction a generalizing a' with
  | nil =>
    cases a' with
    | nil => exact ⟨rfl,tail_eq_of_cons_eq h⟩
    | cons b a' => simp at h
  | cons b a ih =>
    cases a' with
    | nil => simp at h
    | cons b' a' =>
      simp only [flatMap_cons,cons_append,nil_append,List.cons.injEq,true_and] at h
      obtain ⟨rfl,rfl⟩ := ih h.2
      exact ⟨by rw [h.1],rfl⟩

lemma exampleSign_ideal : Ideal exampleSign exampleVerify where
  accepts := by
    intro alg prv pub data sig hpub hsign
    rw [exampleSign,hpub] at hsign
    rw [exampleVerify,exampleSign,if_pos hsign]
  binds := by
    intro alg alg' prv pub data data' sig hsign hverify
    rw [exampleVerify] at hverify
    split_ifs at hverify with hsign'
    rw [exampleSign] at hsign hsign'
    split_ifs at hsign hsign' with hprv hpub
    obtain ⟨halg,hdata⟩ := spelled_inj ((Except.ok.inj hsign).trans (Except.ok.inj hsign').symm)
    exact ⟨halg,hprv.trans hpub.symm,hdata⟩

def exampleServer : Server where
  ssl := asciiOpenssl
  process := defaultProcess
  hostKeys := [⟨some (rsaX509Key 3233 17 "alice"),some (rsaX509Key 3233 17 "alice"),none⟩]
  xsign := exampleSign

def exampleClient (hostkeyalgorithms : String) : UpdateEnv :=
  { exampleUpdate "" with
    codec := exampleRsaCodec
    process := defaultProcess
    verify := exampleVerify
    hostkeyalgorithms := cstr hostkeyalgorithms }

def exampleListKey : SshKey :=
  { rsaKey 3233 17 with
    x509Data := some ⟨some ⟨[commonNameEntry .utf8String "alice"],exampleDer "alice"⟩,some []⟩ }

def exampleCtx (alg : String) (key : SshKey) : UpdateCtx where
  hostStr := cstr "host"
  ipStr := some (cstr "1.2.3.4")
  keys := [⟨cstr alg,key,.unseen⟩]
  nnew := 1
  oldKeys := []

def exampleProof (alg : String) (blob : Bytes) : Bytes :=
  framed (((cstr alg).flatMap fun b => [1,b]) ++
    0 :: (framed hostkeysProve ++ framed [1] ++ framed blob))

/-- A client that admits all algorithms records the first one. -/
theorem proofsFor_confirmed_first :
    proofsFor exampleServer (exampleClient "*") exampleUpdateOptions =
        .ok (some (exampleUpdateOptions, exampleCtx "x509v3-sign-rsa" (rsaX509Key 3233 17 "alice"),
          exampleProof "x509v3-sign-rsa" (exampleDer "alice"))) ∧
      Confirmed (exampleClient "*") exampleUpdateOptions
        (exampleCtx "x509v3-sign-rsa" (rsaX509Key 3233 17 "alice"))
        (exampleProof "x509v3-sign-rsa" (exampleDer "alice")) := by
  refine (and_iff_left_of_imp fun h => (@proofsFor_confirmed_iff (exampleClient "*")
    exampleServer _ _ _ _ exampleRsaCodec_decoders exampleSign_ideal rfl rfl (by decide)
      h).mpr ?_).mpr (by decide +kernel)
  intro msg keys host ip hmsg hkeys _ i k hk _
  have hall : (notifyHostkeys exampleRsaCodec exampleServer >>= fun msg =>
      eachString (receiveKey (exampleClient "*")) [] msg) =
        .ok (some [⟨cstr "x509v3-sign-rsa",rsaX509Key 3233 17 "alice",.unseen⟩]) := by
    decide +kernel
  rw [show notifyHostkeys exampleRsaCodec exampleServer = .ok msg from hmsg,ok_bind] at hall
  cases hkeys.symm.trans hall
  cases i with
  | succ i => cases hk
  | zero =>
    cases hk
    intro blob key pkalg s hblob hparse hsigner
    cases hblob.symm.trans (show _ = .ok (exampleDer "alice") by decide +kernel)
    cases hparse.symm.trans
      (show _ = .ok (rsaX509Key 3233 17 "alice",cstr "x509v3-sign-rsa") by decide +kernel)
    cases hsigner.symm.trans (show _ = some (rsaX509Key 3233 17 "alice") by decide +kernel)
    exact ⟨by decide +kernel,rfl⟩

/-- A client that admits only the second algorithm gets a signature for it, and verifies it with
the first. -/
theorem proofsFor_rejected_second :
    Decoders exampleRsaCodec ∧ Ideal exampleServer.xsign (exampleClient "x509v3-ssh-rsa").verify ∧
    proofsFor exampleServer (exampleClient "x509v3-ssh-rsa") exampleUpdateOptions =
      .ok (some (exampleUpdateOptions,exampleCtx "x509v3-ssh-rsa" exampleListKey,
        exampleProof "x509v3-ssh-rsa"
          (buf2Bytes false (cstr "x509v3-ssh-rsa") (certificates exampleListKey)))) ∧
    ¬ Confirmed (exampleClient "x509v3-ssh-rsa") exampleUpdateOptions
      (exampleCtx "x509v3-ssh-rsa" exampleListKey) (exampleProof "x509v3-ssh-rsa"
        (buf2Bytes false (cstr "x509v3-ssh-rsa") (certificates exampleListKey))) := by
  refine ⟨exampleRsaCodec_decoders,exampleSign_ideal,by decide +kernel,?_⟩
  rintro ⟨o,vs,h,hvs⟩
  have hreject : clientGlobalHostkeysPrivateConfirm (exampleClient "x509v3-ssh-rsa")
      exampleUpdateOptions (exampleCtx "x509v3-ssh-rsa" exampleListKey) true
      (exampleProof "x509v3-ssh-rsa"
        (buf2Bytes false (cstr "x509v3-ssh-rsa") (certificates exampleListKey))) =
        .ok (exampleUpdateOptions,[],[]) := by decide +kernel
  rw [hreject,Except.ok.injEq,Prod.mk.injEq,Prod.mk.injEq] at h
  rw [← h.2.2] at hvs
  cases hvs

end PkixSsh.Hostfile
