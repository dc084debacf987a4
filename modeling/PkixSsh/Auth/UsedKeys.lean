import PkixSsh.Key.Equivalence
import PkixSsh.Auth.Session

/-!
# Keys used in one session

What a message does to the recorded keys and counted steps is said in `dispatch_record`. Over a run
the keys of the counted steps differ, as long as subjects stand for keys.
-/

namespace PkixSsh.Auth

open Key X509 List Option Sshbuf

variable {O : Type} {k : SshKey} {s s' : Authctxt O} {authenticated : Bool} {key : LoadedKey}
  {env : Env O} {req : PubkeyRequest} {options : ServerOptions} {method payload : Bytes}
  {m : Message}

lemma loaded_of_copies {n : SshKey} (h : Loaded k) (hc : Copies k n) : Loaded n := by
  obtain ⟨hpub,hcheck⟩ := h
  refine ⟨by rwa [hc.pub],?_⟩
  simp only [sshkeyIsX509,x509keyCheck] at hcheck ⊢
  rwa [hc.x509Data]

/-- The step recorded a new key, and the key was not used before. -/
def RecordsKey (env : Env O) (s : Authctxt O) (key : LoadedKey) (s' : Authctxt O) : Prop :=
  auth2KeyAlreadyUsed env.ssl s key.1 = false ∧
    ∃ dup, sshkeyFromPrivate key.1 = .ok dup ∧ s'.prevKeys = s.prevKeys ++ [dup] ∧
      s'.authMethodKey = some dup

structure Keeps (s s' : Authctxt O) : Prop where
  sessionInfo : s'.sessionInfo = s.sessionInfo
  prevKeys : s'.prevKeys = s.prevKeys

/-- No step is counted, and only loaded keys are recorded. -/
structure Extends (s s' : Authctxt O) : Prop where
  sessionInfo : s'.sessionInfo = s.sessionInfo
  prevKeys : ∃ more, s'.prevKeys = s.prevKeys ++ more ∧ ∀ k ∈ more, Loaded k

lemma Keeps.toExtends (h : Keeps s s') : Extends s s' :=
  ⟨h.sessionInfo,[],by simpa using h.prevKeys,by simp⟩

lemma Keeps.trans {t u : Authctxt O} (h : Keeps s t) (h' : Keeps t u) : Keeps s u :=
  ⟨h'.sessionInfo.trans h.sessionInfo,h'.prevKeys.trans h.prevKeys⟩

lemma Keeps.refl (s : Authctxt O) : Keeps s s := ⟨rfl,rfl⟩

lemma Extends.refl (s : Authctxt O) : Extends s s := (Keeps.refl s).toExtends

lemma Extends.of_record (h : auth2RecordKey s authenticated key.1 = some s') : Extends s s' := by
  obtain ⟨dup,hd,rfl⟩ := auth2RecordKey_eq h
  refine ⟨rfl,if authenticated then [dup] else [],?_,?_⟩
  · cases authenticated <;> simp
  · intro k hk
    have hkd : k = dup := by
      cases authenticated <;> simp at hk
      exact hk
    rw [hkd]
    exact loaded_of_copies key.2 (sshkeyFromPrivate_copies hd)

lemma offeredKey_spec (h : offeredKey env s req = some key) :
    auth2KeyAlreadyUsed env.ssl s key.1 = false ∧
      env.xkeyFromBlob req.pkalg req.pkblob = .ok (some key) := by
  simp only [offeredKey] at h
  split at h
  · simp at h
  split at h
  · simp at h
  split at h
  · simp at h
  · simp at h
  · rename_i key' hk
    split at h
    · simp at h
    split at h
    · simp at h
    split at h
    · simp at h
    rename_i hu
    split at h
    · simp at h
    simp only [Option.some.injEq] at h
    subst h
    exact ⟨by simpa using hu,hk⟩

lemma pubkeyWithSignature_spec
    (h : pubkeyWithSignature options env s req key = some (s',authenticated)) :
    Extends s s' ∧ (authenticated = true → ∃ dup, sshkeyFromPrivate key.1 = .ok dup ∧
      s'.prevKeys = s.prevKeys ++ [dup] ∧ s'.authMethodKey = some dup) := by
  simp only [pubkeyWithSignature] at h
  split at h
  · simp at h
  obtain ⟨_,_,h⟩ := bind_eq_some_iff.mp h
  split at h
  · cases h
    exact ⟨.refl s,by simp⟩
  split at h
  · obtain ⟨t,ht,h⟩ := bind_eq_some_iff.mp h
    cases h
    exact ⟨.of_record ht,by simp⟩
  · obtain ⟨t,ht,h⟩ := bind_eq_some_iff.mp h
    split at h
    · cases h
      exact ⟨.of_record ht,by simp⟩
    · rename_i hv
      -- the only accepting branch: the key was recorded before the options are merged
      obtain ⟨old,-,rfl⟩ := authActivateOptions_eq h
      have hext := Extends.of_record ht
      obtain ⟨dup,hd,rfl⟩ := auth2RecordKey_eq ht
      exact ⟨⟨hext.sessionInfo,hext.prevKeys⟩,fun _ => ⟨dup,hd,if_pos (by simpa using hv),rfl⟩⟩

lemma pubkeyTest_spec (h : pubkeyTest env s req key = some (s',authenticated)) :
    Extends s s' ∧ authenticated = false := by
  simp only [pubkeyTest] at h
  obtain ⟨_,_,h⟩ := bind_eq_some_iff.mp h
  split at h
  · cases h
    exact ⟨.refl s,rfl⟩
  split at h <;>
    cases h
  · exact ⟨Keeps.toExtends ⟨rfl,rfl⟩,rfl⟩
  · exact ⟨.refl s,rfl⟩

def decodedKey (env : Env O) (payload : Bytes) : Option LoadedKey :=
  match parsePubkeyRequest payload with
  | .error _ => none
  | .ok req =>
    match env.xkeyFromBlob req.pkalg req.pkblob with
    | .ok key => key
    | .error _ => none

lemma userauthPubkey_spec (h : userauthPubkey options env s payload = some (s',authenticated)) :
    Extends s s' ∧ (authenticated = true →
      ∃ key, decodedKey env payload = some key ∧ RecordsKey env s key s') := by
  unfold userauthPubkey at h
  split at h
  · simp at h
  rename_i req hreq
  split at h
  · cases h
    exact ⟨.refl s,by simp⟩
  rename_i key hkey
  obtain ⟨hunused,hdec⟩ := offeredKey_spec hkey
  split at h
  · obtain ⟨hext,hrec⟩ := pubkeyWithSignature_spec h
    exact ⟨hext,fun ha => ⟨key,by simp [decodedKey,hreq,hdec],hunused,hrec ha⟩⟩
  · obtain ⟨hext,ha⟩ := pubkeyTest_spec h
    exact ⟨hext,by simp [ha]⟩

lemma userauthHostbased_extends
    (h : userauthHostbased options env s payload = some (s',authenticated)) : Extends s s' := by
  unfold userauthHostbased at h
  split at h
  · simp at h
  split at h
  · cases h
    exact .refl s
  split at h
  · cases h
    exact .refl s
  · obtain ⟨t,ht,he⟩ := map_eq_some_iff.mp h
    obtain ⟨rfl,_⟩ := Prod.mk.injEq .. ▸ he
    have hext := Extends.of_record ht
    exact ⟨hext.sessionInfo,hext.prevKeys⟩

lemma userauthNone_extends (h : userauthNone options env s payload = some (s',authenticated)) :
    Extends s s' := by
  simp only [userauthNone] at h
  obtain ⟨_,_,h⟩ := bind_eq_some_iff.mp h
  split at h <;> cases h <;>
    exact Keeps.toExtends ⟨rfl,rfl⟩

lemma userauthPasswd_extends (h : userauthPasswd env s payload = some (s',authenticated)) :
    Extends s s' := by
  simp only [userauthPasswd] at h
  split at h
  · simp at h
  obtain ⟨_,_,h⟩ := bind_eq_some_iff.mp h
  cases h
  exact .refl s

lemma auth2ChallengeStart_keeps (env : Env O) (s : Authctxt O) :
    Keeps s (auth2ChallengeStart env s) := by
  unfold auth2ChallengeStart
  split
  · exact ⟨rfl,rfl⟩
  · exact ⟨rfl,rfl⟩

lemma userauthKbdint_extends
    (h : userauthKbdint options env s payload = some (s',authenticated)) :
    Extends s s' := by
  simp only [userauthKbdint] at h
  split at h
  · simp at h
  obtain ⟨_,_,h⟩ := bind_eq_some_iff.mp h
  split at h <;> cases h
  · exact (auth2ChallengeStart_keeps env s).toExtends
  · exact .refl s

lemma userauth_spec {m : Authmethod}
    (h : userauth options env s payload m = some (s',authenticated)) :
    Extends s s' ∧ (authenticated = true → m = .publickey →
      ∃ key, decodedKey env payload = some key ∧ RecordsKey env s key s') := by
  cases m with
  | publickey =>
    obtain ⟨hext,hrec⟩ := userauthPubkey_spec h
    exact ⟨hext,fun ha _ => hrec ha⟩
  | none => exact ⟨userauthNone_extends h,by simp⟩
  | password => exact ⟨userauthPasswd_extends h,by simp⟩
  | keyboardInteractive => exact ⟨userauthKbdint_extends h,by simp⟩
  | hostbased => exact ⟨userauthHostbased_extends h,by simp⟩

lemma normaliseAny_keeps (s : Authctxt O) : Keeps s (normaliseAny s) := by
  unfold normaliseAny
  split <;> exact ⟨rfl,rfl⟩

lemma auth2SetupMethodsLists_keeps (h : auth2SetupMethodsLists options s = some s') :
    Keeps s s' := by
  have hn := normaliseAny_keeps s
  simp only [auth2SetupMethodsLists] at h
  split at h
  · exact Option.some.inj h ▸ hn
  split at h
  · simp at h
  · exact Option.some.inj h ▸ ⟨hn.sessionInfo,hn.prevKeys⟩

lemma setupAuthctxt_keeps {user service : Bytes} {style : Option Bytes}
    (h : setupAuthctxt options env s user service style = some s') : Keeps s s' := by
  simp only [setupAuthctxt] at h
  split at h
  · have hk := auth2SetupMethodsLists_keeps h
    exact ⟨hk.sessionInfo,hk.prevKeys⟩
  split at h
  · simp at h
  · exact Option.some.inj h ▸ ⟨rfl,rfl⟩

lemma finishMethods_spec {authenticated' isPartial : Bool} {submethod : Option Bytes}
    (h : finishMethods s authenticated method submethod = some (s',authenticated',isPartial)) :
    s' = { s with authMethods := s'.authMethods } ∧
      ((authenticated' || isPartial) = true → authenticated = true) := by
  unfold finishMethods at h
  split at h
  · rename_i hc
    split at h
    · simp at h
    all_goals
      cases h
      exact ⟨rfl,fun _ => hc.1⟩
  · cases h
    exact ⟨rfl,by simp⟩

lemma countFailure_keeps (s : Authctxt O) (isPartial : Bool) (method : Bytes) :
    Keeps s (countFailure s isPartial method) := by
  unfold countFailure
  split <;> exact ⟨rfl,rfl⟩

lemma finishReply_keeps {isPartial : Bool}
    (h : finishReply options s authenticated isPartial method = some s') : Keeps s s' := by
  simp only [finishReply] at h
  split at h
  · exact Option.some.inj h ▸ .refl s
  split at h
  · exact Option.some.inj h ▸ ⟨rfl,rfl⟩
  split at h
  · simp at h
  · exact Option.some.inj h ▸ countFailure_keeps s _ _

lemma userauthFinish_spec {submethod : Option Bytes}
    (h : userauthFinish options env s authenticated method submethod = some s') :
    s'.prevKeys = s.prevKeys ∧ (s'.sessionInfo = s.sessionInfo ∨ authenticated = true ∧
      s'.sessionInfo = s.sessionInfo ++ [⟨method,submethod,s.authMethodKey,s.authMethodInfo⟩]) := by
  obtain ⟨⟨t,authenticated',isPartial⟩,hd,h⟩ := bind_eq_some_iff.mp h
  rw [userauthDecide] at hd
  split at hd
  · simp at hd
  split at hd
  · simp at hd
  obtain ⟨verdict,hv,hf⟩ := bind_eq_some_iff.mp hd
  obtain ⟨ht,ha⟩ := finishMethods_spec hf
  obtain ⟨hi,hp⟩ := finishReply_keeps h
  by_cases hc : (authenticated' || isPartial) = true
  · rw [if_pos hc] at hi hp
    have hauth := rootVerdict_true (ha hc ▸ hv)
    refine ⟨by rw [hp,auth2UpdateSessionInfo,ht],.inr ⟨hauth,?_⟩⟩
    rw [hi,auth2UpdateSessionInfo,ht]
  · rw [if_neg hc] at hi hp
    exact ⟨by rw [hp,ht],.inl (by rw [hi,ht])⟩

lemma authmethodLookup_name {name : Bytes} {m : Authmethod}
    (h : authmethodLookup options s name = some m) : name = m.name := by
  have hm := List.find?_some h
  simp only [Bool.and_eq_true,decide_eq_true_eq] at hm
  exact hm.1.2

lemma Authmethod.eq_publickey {m : Authmethod} (h : m.name = cstr "publickey") :
    m = .publickey := by
  cases m with
  | publickey => rfl
  | none | password | keyboardInteractive | hostbased => exact absurd h (by decide)

lemma tryMethod_spec {rest : Bytes}
    (h : tryMethod options env s method rest = some (s',authenticated)) :
    Extends s s' ∧ (authenticated = true → method = cstr "publickey" →
      ∃ key, decodedKey env rest = some key ∧ RecordsKey env s key s') := by
  unfold tryMethod at h
  split at h
  · cases h
    exact ⟨.refl s,by simp⟩
  rename_i m hm
  split at h
  · obtain ⟨hext,hrec⟩ := userauth_spec h
    refine ⟨hext,fun ha hp => hrec ha (Authmethod.eq_publickey ?_)⟩
    rw [← authmethodLookup_name hm,hp]
  · cases h
    exact ⟨.refl s,by simp⟩

lemma respondReplies_keeps (env : Env O) (s : Authctxt O) (replies : List Bytes) :
    Keeps s (respondReplies env s replies).1 := by
  have hstart := auth2ChallengeStart_keeps env s
  unfold respondReplies
  split
  · split
    · exact ⟨rfl,rfl⟩
    · exact hstart
  · split
    · exact ⟨rfl,rfl⟩
    · exact hstart
  · exact hstart

def messageKey (env : Env O) : Message → Option LoadedKey
  | .userauthRequest payload =>
    match parseUserauthRequest payload with
    | .ok (_,_,method,rest) => if method = cstr "publickey" then decodedKey env rest else none
    | .error _ => none
  | _ => none

/-- One message only adds recorded keys and counts at most one step; a counted public key step
recorded its key, which was not used before. -/
structure StepRecord (env : Env O) (s : Authctxt O) (m : Message) (s' : Authctxt O) : Prop where
  prevKeys : ∃ more, s'.prevKeys = s.prevKeys ++ more ∧ ∀ k ∈ more, Loaded k
  sessionInfo : s'.sessionInfo = s.sessionInfo ∨ ∃ i, s'.sessionInfo = s.sessionInfo ++ [i] ∧
    (i.method = cstr "publickey" → ∃ key dup, messageKey env m = some key ∧
      auth2KeyAlreadyUsed env.ssl s key.1 = false ∧ sshkeyFromPrivate key.1 = .ok dup ∧
      i.key = some dup ∧ s'.prevKeys = s.prevKeys ++ [dup])

lemma StepRecord.of_extends (h : Extends s s') : StepRecord env s m s' :=
  ⟨h.prevKeys,.inl h.sessionInfo⟩

lemma inputUserauthRequest_record (h : inputUserauthRequest options env s payload = some s') :
    StepRecord env s (.userauthRequest payload) s' := by
  unfold inputUserauthRequest at h
  split at h
  · simp at h
  rename_i user service method rest hparse
  obtain ⟨t,ht,h⟩ := bind_eq_some_iff.mp h
  obtain ⟨⟨u,authenticated⟩,hu,h⟩ := bind_eq_some_iff.mp h
  have hreset : Keeps s (resetState t) := (setupAuthctxt_keeps ht).trans ⟨rfl,rfl⟩
  obtain ⟨htry,hrec⟩ := tryMethod_spec hu
  obtain ⟨hp,hi⟩ := userauthFinish_spec h
  refine ⟨?_,?_⟩
  · rw [hp,← hreset.prevKeys]
    exact htry.prevKeys
  · rw [htry.sessionInfo,hreset.sessionInfo] at hi
    refine hi.imp_right fun ⟨ha,hi⟩ => ⟨_,hi,fun hm => ?_⟩
    obtain ⟨key,hkey,hunused,dup,hdup,hprev,hmk⟩ := hrec ha hm
    refine ⟨key,dup,?_,?_,hdup,hmk,?_⟩
    · have hm' : method = cstr _ := hm
      simp [messageKey,hparse,hm',hkey]
    · simpa [auth2KeyAlreadyUsed,hreset.prevKeys] using hunused
    · rw [hp,hprev,hreset.prevKeys]

lemma inputUserauthInfoResponse_record
    (h : inputUserauthInfoResponse options env s payload = some s') :
    StepRecord env s (.infoResponse payload) s' := by
  obtain ⟨replies,_,h⟩ := bind_eq_some_iff.mp h
  have hk := respondReplies_keeps env { s with postponed := false } replies
  rcases hr : respondReplies env _ _ with ⟨t,authenticated⟩
  rw [hr] at h hk
  have hkeeps : Keeps s t := ⟨hk.sessionInfo,hk.prevKeys⟩
  obtain ⟨hp,hi⟩ := userauthFinish_spec h
  refine ⟨⟨[],by rw [hp,hkeeps.prevKeys,append_nil],by simp⟩,?_⟩
  rw [hkeeps.sessionInfo] at hi
  have hne : cstr "keyboard-interactive" ≠ cstr "publickey" := by decide
  exact hi.imp_right fun ⟨_,hi⟩ => ⟨_,hi,fun hm => absurd hm hne⟩

lemma inputServiceRequest_keeps (h : inputServiceRequest s payload = some s') : Keeps s s' := by
  unfold inputServiceRequest at h
  split at h
  · simp at h
  obtain ⟨_,_,h⟩ := bind_eq_some_iff.mp h
  split at h
  · exact Option.some.inj h ▸ ⟨rfl,rfl⟩
  · simp at h

lemma dispatch_record (h : dispatch options env s m = some s') : StepRecord env s m s' := by
  cases m with
  | serviceRequest payload =>
    simp only [dispatch] at h
    split at h
    · exact Option.some.inj h ▸ .of_extends (.refl s)
    · exact .of_extends (inputServiceRequest_keeps h).toExtends
  | userauthRequest payload =>
    simp only [dispatch] at h
    split at h
    · exact Option.some.inj h ▸ .of_extends (.refl s)
    · exact inputUserauthRequest_record h
  | infoResponse payload =>
    simp only [dispatch] at h
    split at h
    · exact Option.some.inj h ▸ .of_extends (.refl s)
    · exact inputUserauthInfoResponse_record h

def pubkeySteps (s : Authctxt O) : List SshKey :=
  s.sessionInfo.filterMap fun i => if i.method = cstr "publickey" then i.key else none

/-- Every counted public key step has its key, and no two of them the same parameters. -/
def DifferentKeys (s : Authctxt O) : Prop :=
  (∀ i ∈ s.sessionInfo, i.method = cstr "publickey" → ∃ k, i.key = some k ∧ Loaded k) ∧
    (pubkeySteps s).Pairwise fun a b => publicKey a ≠ publicKey b

/-- No certificate is offered for a key recorded with a certificate whose subject the code takes for
a different one. -/
def SubjectStandsForKey (env : Env O) (s : Authctxt O) (m : Message) : Prop :=
  ∀ key, messageKey env m = some key → ∀ p ∈ s.prevKeys, sshkeyIsX509 key.1 → sshkeyIsX509 p →
    publicKey p = publicKey key.1 → sshX509NameCmp env.ssl (subjectName key.1) (subjectName p) = 0

/-- A condition on the message and the context before it, along a whole session. -/
def AllSteps (P : Env O → Authctxt O → Message → Prop) (options : ServerOptions) :
    Authctxt O → List (Env O × Message) → Prop
  | _, [] => True
  | s, (env,m) :: rest =>
    P env s m ∧ ∀ s', dispatch options env s m = some s' → AllSteps P options s' rest

/-- Recorded keys are loaded, counted steps have recorded keys, and these differ. -/
structure UsedKeysInv (s : Authctxt O) : Prop where
  loaded : ∀ k ∈ s.prevKeys, Loaded k
  recorded : ∀ i ∈ s.sessionInfo, i.method = cstr "publickey" → ∃ k, i.key = some k ∧ k ∈ s.prevKeys
  differ : (pubkeySteps s).Pairwise fun a b => publicKey a ≠ publicKey b

lemma mem_prevKeys_of_step (h : UsedKeysInv s) (hk : k ∈ pubkeySteps s) : k ∈ s.prevKeys := by
  obtain ⟨i,hi,he⟩ := mem_filterMap.mp hk
  split at he
  · rename_i hm
    obtain ⟨k',hk',hp⟩ := h.recorded i hi hm
    rw [hk',Option.some.injEq] at he
    exact he ▸ hp
  · simp at he

/-- A key that was not used before has other parameters than every recorded key, unless
only the subject tells them apart. -/
lemma publicKey_ne_of_unused (hinv : UsedKeysInv s) (hs : SubjectStandsForKey env s m)
    (hm : messageKey env m = some key) (hu : auth2KeyAlreadyUsed env.ssl s key.1 = false)
    {p : SshKey} (hp : p ∈ s.prevKeys) : publicKey p ≠ publicKey key.1 := by
  intro he
  have hne : sshkeyEqualPublic env.ssl key.1 p = false := by
    simpa using (List.any_eq_false.mp hu) p hp
  let q : LoadedKey := ⟨p,hinv.loaded p hp⟩
  have hpub : key.pub = q.pub := by
    have h := he.symm
    rw [key.publicKey_eq,show publicKey p = some q.pub from q.publicKey_eq] at h
    exact Option.some.inj h
  have heq : sshkeyEqualPublic env.ssl key.1 q.1 = true := by
    by_cases hx : sshkeyIsX509 key.1 ∧ sshkeyIsX509 q.1
    · rw [sshkeyEqualPublic_of_x509 _ key q hx.1 hx.2]
      exact ⟨by rw [hpub],hs key hm p hp hx.1 hx.2 he⟩
    · rw [sshkeyEqualPublic_of_not_x509 _ key q hx]
      exact hpub
  rw [hne] at heq
  exact absurd heq (by simp)

lemma StepRecord.inv (h : StepRecord env s m s') (hs : SubjectStandsForKey env s m)
    (hinv : UsedKeysInv s) : UsedKeysInv s' := by
  obtain ⟨more,hp,hmore⟩ := h.prevKeys
  have hkeep : ∀ i ∈ s.sessionInfo, i.method = cstr "publickey" →
      ∃ k, i.key = some k ∧ k ∈ s'.prevKeys := by
    intro i hi hm
    obtain ⟨k,hk,hin⟩ := hinv.recorded i hi hm
    exact ⟨k,hk,by rw [hp]; exact mem_append_left _ hin⟩
  have hloaded : ∀ k ∈ s'.prevKeys, Loaded k := by
    intro k hk
    rw [hp] at hk
    exact (mem_append.mp hk).elim (hinv.loaded k) (hmore k)
  rcases h.sessionInfo with hi | ⟨i,hi,hpk⟩
  · exact ⟨hloaded,by rwa [hi],by rw [pubkeySteps,hi]; exact hinv.differ⟩
  by_cases hm : i.method = cstr "publickey"
  · obtain ⟨key,dup,hmk,hu,hdup,hik,hprev⟩ := hpk hm
    have hpub := (sshkeyFromPrivate_copies hdup).pub
    refine ⟨hloaded,?_,?_⟩
    · rw [hi]
      intro j hj hjm
      rcases mem_append.mp hj with hj | hj
      · exact hkeep j hj hjm
      · rw [mem_singleton.mp hj]
        exact ⟨dup,hik,by simp [hprev]⟩
    · have hsteps : pubkeySteps s' = pubkeySteps s ++ [dup] := by
        simp [pubkeySteps,hi,hm,hik]
      rw [hsteps,pairwise_append]
      refine ⟨hinv.differ,by simp,?_⟩
      intro p hpstep q hq
      rw [mem_singleton.mp hq,hpub]
      exact publicKey_ne_of_unused hinv hs hmk hu (mem_prevKeys_of_step hinv hpstep)
  · refine ⟨hloaded,?_,?_⟩
    · rw [hi]
      intro j hj hjm
      rcases mem_append.mp hj with hj | hj
      · exact hkeep j hj hjm
      · rw [mem_singleton.mp hj] at hjm
        exact absurd hjm hm
    · have hsteps : pubkeySteps s' = pubkeySteps s := by
        simp [pubkeySteps,hi,hm]
      rw [hsteps]
      exact hinv.differ

lemma run_inv {ms : List (Env O × Message)} (hrun : run options s ms = some s')
    (hs : AllSteps SubjectStandsForKey options s ms) (hinv : UsedKeysInv s) : UsedKeysInv s' := by
  induction ms generalizing s with
  | nil =>
    rw [← Option.some.inj hrun]
    exact hinv
  | cons em ms ih =>
    obtain ⟨t,ht,hrest⟩ := bind_eq_some_iff.mp hrun
    exact ih hrest (hs.2 t ht) ((dispatch_record ht).inv hs.1 hinv)

lemma initial_inv (options : ServerOptions) (authOpts : O) :
    UsedKeysInv (initial options authOpts) :=
  ⟨by simp [initial],by simp [initial],by simp [initial,pubkeySteps]⟩

/-- In a session whose steps all meet the condition, the counted public key steps were
made with different keys. -/
theorem run_differentKeys (options : ServerOptions) (authOpts : O) (ms : List (Env O × Message))
    (s : Authctxt O) (hrun : run options (initial options authOpts) ms = some s)
    (hs : AllSteps SubjectStandsForKey options (initial options authOpts) ms) :
    DifferentKeys s := by
  have hinv := run_inv hrun hs (initial_inv _ _)
  refine ⟨fun i hi hm => ?_,hinv.differ⟩
  obtain ⟨k,hk,hp⟩ := hinv.recorded i hi hm
  exact ⟨k,hk,hinv.loaded k hp⟩

def twoKeysOptions : ServerOptions where
  authMethods := [cstr "publickey,publickey"]
  maxAuthtries := 6
  pubkeyAuthentication := true
  passwordAuthentication := false
  kbdInteractiveAuthentication := false
  challengeResponseAuthentication := false
  hostbasedAuthentication := false
  permitEmptyPasswd := false
  permitRootLogin := .no
  sessionId2 := [1,2,3]

def acceptingEnv (decode : Bytes → Option LoadedKey) : Env Unit where
  getpwnamallow _ := some 1000
  fakepwUid := 65534
  sshkeyTypeFromName _ := .rsa
  pubkeyAlgorithmAllowed _ := true
  hostbasedAlgorithmAllowed _ := false
  xkeyFromBlob _ blob := match decode blob with
    | some key => .ok (some key)
    | none => .error .invalidFormat
  bugRsasigmd5 := false
  oldSessionid := false
  sshkeyCheckCertSigtype _ := true
  userXkeyAllowed _ _ := some ()
  hostbasedXkeyAllowed _ _ _ _ := false
  xkeyVerify _ _ _ _ := true
  sshauthoptMerge _ _ := some ()
  forceCommand _ := false
  authPassword _ := false
  challengeStart := none
  respond _ := .failure
  sendInfoRequest := none
  deviceName := []
  ssl := asciiOpenssl

def serviceMessage : Message := .serviceRequest (framed (cstr "ssh-userauth"))

def pubkeyMessage (pkalg pkblob : Bytes) : Message :=
  .userauthRequest (framed (cstr "alice") ++
    framed (cstr "ssh-connection") ++ framed (cstr "publickey") ++
    [1] ++ framed pkalg ++ framed pkblob ++ framed [0])

def decodeCertificate (blob : Bytes) : Option LoadedKey :=
  if blob = exampleDer "alice" then some ⟨rsaX509Key 3233 17 "alice",by decide⟩
  else if blob = exampleDer "bob" then some ⟨rsaX509Key 3233 17 "bob",by decide⟩
  else none

def certificateSession : List (Env Unit × Message) :=
  [(acceptingEnv decodeCertificate,serviceMessage),
   (acceptingEnv decodeCertificate,pubkeyMessage (cstr "x509v3-sign-rsa") (exampleDer "alice")),
   (acceptingEnv decodeCertificate,pubkeyMessage (cstr "x509v3-sign-rsa") (exampleDer "bob"))]

/-- One key with two certificates passes for two keys. -/
theorem run_reuses_key :
    ∃ s, run twoKeysOptions (initial twoKeysOptions ()) certificateSession = some s ∧
      s.success = true ∧ ¬ DifferentKeys s := by
  have hrun : (run twoKeysOptions (initial twoKeysOptions ()) certificateSession).map
      (fun s => (s.success,(pubkeySteps s).map publicKey)) =
      some (true,[some (.rsa 3233 17),some (.rsa 3233 17)]) := by
    decide
  obtain ⟨s,hs,he⟩ := map_eq_some_iff.mp hrun
  obtain ⟨hsucc,hkeys⟩ := Prod.mk.inj he
  refine ⟨s,hs,hsucc,fun h => ?_⟩
  have hpair : ((pubkeySteps s).map _).Pairwise _ := pairwise_map.mpr h.2
  rw [hkeys] at hpair
  exact absurd hpair (by decide)

def decodePlain (blob : Bytes) : Option LoadedKey :=
  if blob = [1] then some ⟨rsaKey 3233 17,rsaKey_loaded⟩
  else if blob = [2] then some ⟨rsaKey 2773 17,by decide⟩
  else none

def plainSession : List (Env Unit × Message) :=
  [(acceptingEnv decodePlain,serviceMessage),
   (acceptingEnv decodePlain,pubkeyMessage (cstr "ssh-rsa") [1]),
   (acceptingEnv decodePlain,pubkeyMessage (cstr "ssh-rsa") [2])]

lemma messageKey_plain (h : messageKey (acceptingEnv decodePlain) m = some key) :
    sshkeyIsX509 key.1 = false := by
  have hdec : ∀ blob, decodePlain blob = some key → sshkeyIsX509 key.1 = false := by
    intro blob hb
    unfold decodePlain at hb
    split at hb
    · rw [← Option.some.inj hb]
      rfl
    split at hb
    · rw [← Option.some.inj hb]
      rfl
    · simp at hb
  cases m with
  | serviceRequest payload | infoResponse payload => simp [messageKey] at h
  | userauthRequest payload =>
    simp only [messageKey] at h
    split at h
    · split at h
      · unfold decodedKey at h
        split at h
        · simp at h
        rename_i req _
        cases hb : decodePlain req.pkblob with
        | none => simp [acceptingEnv,hb] at h
        | some key' =>
          simp only [acceptingEnv,hb] at h
          exact hdec _ (h ▸ hb)
      · simp at h
    · simp at h

theorem run_differentKeys_plain :
    ∃ s, run twoKeysOptions (initial twoKeysOptions ()) plainSession = some s ∧
      (pubkeySteps s).length = 2 ∧ DifferentKeys s := by
  have hrun : (run twoKeysOptions (initial twoKeysOptions ()) plainSession).map
      (fun s => (pubkeySteps s).length) = some 2 := by
    decide
  obtain ⟨s,hs,hlen⟩ := map_eq_some_iff.mp hrun
  have hstep : ∀ t m, SubjectStandsForKey (acceptingEnv decodePlain) t m := by
    intro t m key hk p _ hx
    rw [messageKey_plain hk] at hx
    simp at hx
  exact ⟨s,hs,hlen,run_differentKeys _ () _ s hs
    ⟨hstep _ _,fun _ _ => ⟨hstep _ _,fun _ _ => ⟨hstep _ _,fun _ _ => trivial⟩⟩⟩⟩

end PkixSsh.Auth
