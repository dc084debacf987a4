import Mathlib.Tactic.Common
import PkixSsh.Auth.Monitor
import PkixSsh.Auth.OptionsCodec

/-!
# Active options in two processes

The monitor and the child each merge the options of a key into their own copy; the child is sent
less than the key line says.
-/

namespace PkixSsh.Auth

open Sshbuf Key List Option

/-- The reply to `MONITOR_REQ_KEYALLOWED`, through `sshauthopt_serialise` of untrusted options
and `sshauthopt_deserialise`. -/
def sentOptions (opts : SshAuthOpt) : Except SshErr SshAuthOpt := do
  let m ← sshauthoptSerialise opts true []
  let (opts,_) ← sshauthoptDeserialise m
  return opts

variable (os : List SshAuthOpt) (o : SshAuthOpt)

/-- What `sshauthopt_serialise` writes of untrusted options: strings are replaced and lists are
left out. -/
def SshAuthOpt.untrusted : SshAuthOpt :=
  { o with
    certPrincipals := some (cstr "yes")
    forceCommand := some (cstr "true")
    requiredFromHostCert := none
    requiredFromHostKeys := none
    env := []
    permitopen := []
    permitlisten := [] }

def SshAuthOpt.redacted : SshAuthOpt := o.untrusted.readBack

lemma nulFree_untrusted : o.untrusted.NulFree := by
  constructor
  · show ∀ s ∈ [some _,some _,none,none], ∀ v ∈ s, 0 ∉ v
    decide
  · show ∀ a ∈ [([]),[],[]], ∀ v ∈ a, 0 ∉ v
    decide

lemma fits_serialiseNullableString (s : Option Bytes) :
    Fits (serialiseNullableString s) (1 + ((s.getD []).length + 4)) :=
  (fits_putU8 _).bind (fits_putString _)

lemma fits_serialiseArray_nil : Fits (serialiseArray []) (4 + (([] : Bytes).length + 4)) :=
  (fits_putU32 _).bind (fits_putString _)

lemma fits_serialise_untrusted : ∃ m, sshauthoptSerialise o true [] = .ok m := by
  have h : ∃ n, Fits (sshauthoptSerialise o.untrusted false) n ∧ n ≤ 100 := by
    apply Exists.intro
    apply And.intro
    · iterate 7 apply (fits_putU8 _).bind
      apply (fits_putU64 _).bind
      apply (fits_putU8 _).bind
      apply (fits_putU32 _).bind
      iterate 4 apply (fits_serialiseNullableString _).bind
      iterate 2 apply fits_serialiseArray_nil.bind
      exact fits_serialiseArray_nil
    · simp [SshAuthOpt.untrusted,cstr]
  obtain ⟨n,h,hn⟩ := h
  obtain ⟨m,hm,-⟩ := h [] (Nat.le_trans (by simpa using hn) (by decide))
  exact ⟨m,hm⟩

lemma sentOptions_eq : sentOptions o = .ok o.redacted := by
  obtain ⟨m,hm⟩ := fits_serialise_untrusted o
  obtain ⟨bs,hbs,hread⟩ := sshauthoptSerialise_readsBack (nulFree_untrusted o) [] m hm
  subst hbs
  have hread := hread []
  rw [append_nil] at hread
  rw [sentOptions,hm,ok_bind,hread]
  rfl

/-- An attempt as the monitor sees it: the options of the line that allows the key, and the verdict
on the signature. -/
structure PubkeyAttempt where
  allowed : Option SshAuthOpt
  verified : Bool

variable (authOpts : Option SshAuthOpt) (as : List PubkeyAttempt) (a : PubkeyAttempt)

structure ActiveOptions where
  child : Option SshAuthOpt
  monitor : Option SshAuthOpt
  deriving DecidableEq

/-- `auth_activate_options` on the global itself, none where it reads through a null pointer. -/
def activate (opts : SshAuthOpt) : Option (Option SshAuthOpt) :=
  authOpts.map fun old => (sshauthoptMerge old opts).toOption

def childAttempt : Option (Option SshAuthOpt) :=
  match a.allowed with
  | none => some authOpts
  | some opts =>
    if !a.verified then some authOpts
    else
      match sentOptions opts with
      | .error _ => none
      | .ok opts => activate authOpts opts

/-- The end of `mm_answer_keyverify`, which is asked only for a key that is allowed. -/
def monitorAttempt : Option (Option SshAuthOpt) :=
  match a.allowed with
  | none => some authOpts
  | some opts => activate authOpts opts

def attempt (s : ActiveOptions) (a : PubkeyAttempt) : Option ActiveOptions := do
  let child ← childAttempt s.child a
  let monitor ← monitorAttempt s.monitor a
  return ⟨child,monitor⟩

def ActiveOptions.initial : ActiveOptions :=
  ⟨some sshauthoptNewWithKeysDefaults,some sshauthoptNewWithKeysDefaults⟩

def attempts : Option ActiveOptions := as.foldlM attempt .initial

def acceptedOptions : List SshAuthOpt :=
  as.filterMap fun a => if a.verified then a.allowed else none

def mergeAll : Except String SshAuthOpt :=
  os.foldlM sshauthoptMerge sshauthoptNewWithKeysDefaults

/-- Both processes have the merge of what was accepted, as each of them was given it. -/
structure AcceptedOnly (as : List PubkeyAttempt) (s : ActiveOptions) : Prop where
  child : ∃ o, mergeAll ((acceptedOptions as).map SshAuthOpt.redacted) = .ok o ∧ s.child = some o
  monitor : ∃ o, mergeAll (acceptedOptions as) = .ok o ∧ s.monitor = some o

/-- The options of an accepted key can be merged into the active ones, and those of a key with
a bad signature would not change them. -/
def AttemptConsistent (active : SshAuthOpt) (a : PubkeyAttempt) : Prop :=
  ∀ opts, a.allowed = some opts →
    if a.verified then ∃ merged, sshauthoptMerge active opts = .ok merged
    else sshauthoptMerge active opts = .ok active

def Consistent : Prop :=
  ∀ pre a post, as = pre ++ a :: post → ∀ active, mergeAll (acceptedOptions pre) = .ok active →
    AttemptConsistent active a

/-- An environment whose options are those of key lines. -/
def UsesKeyOptions (env : Env SshAuthOpt) : Prop :=
  ∀ p a, env.sshauthoptMerge p a = (sshauthoptMerge p a).toOption

/-- The environment of the child in an attempt: `mm_user_xkey_allowed` and `mm_sshkey_verify` have
what the monitor answers. -/
def childEnv (env : Env SshAuthOpt) : Env SshAuthOpt :=
  { env with
    userXkeyAllowed := fun _ _ => a.allowed.bind fun opts => (sentOptions opts).toOption
    xkeyVerify := fun _ _ _ _ => a.verified }

variable {s s' : Authctxt SshAuthOpt} {options : ServerOptions} {env : MonitorEnv SshAuthOpt}
  {st st' : Monitor SshAuthOpt} {a}

lemma authActivateOptions_activate {env : Env SshAuthOpt} (he : UsesKeyOptions env)
    {opts : SshAuthOpt} {ok : Bool} (h : authActivateOptions env s opts = some (s',ok)) :
    activate s.authOpts opts = some s'.authOpts := by
  obtain ⟨old,hold,rfl⟩ := authActivateOptions_eq h
  rw [hold,activate,he]
  rfl

lemma pubkeyWithSignature_attempt {env : Env SshAuthOpt} (he : UsesKeyOptions env)
    {req : PubkeyRequest} {key : LoadedKey} {authenticated : Bool} (hv : s.valid = true)
    (hu : s.user ≠ none)
    (h : pubkeyWithSignature options (childEnv a env) s req key = some (s',authenticated)) :
    childAttempt s.authOpts a = some s'.authOpts := by
  rw [pubkeyWithSignature] at h
  split at h
  · cases h
  obtain ⟨⟨⟩,-,h⟩ := bind_eq_some_iff.mp h
  rw [if_neg (by simp [hv,hu])] at h
  cases hallowed : a.allowed with
  | none =>
    have hchild : (childEnv a env).userXkeyAllowed req.pkalg key = none := by
      simp [childEnv,hallowed]
    rw [hchild] at h
    obtain ⟨t,ht,h⟩ := bind_eq_some_iff.mp h
    cases h
    obtain ⟨dup,-,rfl⟩ := auth2RecordKey_eq ht
    simp [childAttempt,hallowed]
  | some opts =>
    have hchild : (childEnv a env).userXkeyAllowed req.pkalg key = some opts.redacted := by
      simp [childEnv,hallowed,sentOptions_eq,Except.toOption]
    rw [hchild] at h
    obtain ⟨t,ht,h⟩ := bind_eq_some_iff.mp h
    obtain ⟨dup,-,rfl⟩ := auth2RecordKey_eq ht
    cases hverified : a.verified with
    | false =>
      rw [if_pos (by simp [childEnv,hverified])] at h
      cases h
      simp [childAttempt,hallowed,hverified]
    | true =>
      rw [if_neg (by simp [childEnv,hverified])] at h
      have hact := authActivateOptions_activate (show UsesKeyOptions _ from he) h
      simpa [childAttempt,hallowed,hverified,sentOptions_eq] using hact

/-- A decision on a key changes no active options. -/
lemma mmAnswerKeyallowed_authOpts {m : Bytes} {ret : Bool}
    (h : mmAnswerKeyallowed options env st m = some (st',ret)) :
    st'.authctxt.authOpts = st.authctxt.authOpts := by
  rw [mmAnswerKeyallowed] at h
  split at h
  · cases h
  split at h
  · cases h
  · cases h
  obtain ⟨⟨st1,allowed⟩,hdec,h⟩ := bind_eq_some_iff.mp h
  obtain ⟨s,hrec,h⟩ := bind_eq_some_iff.mp h
  obtain ⟨⟨method,info,rfl⟩,-⟩ := keyDecision_eq hdec
  obtain ⟨dup,-,rfl⟩ := auth2RecordKey_eq hrec
  cases allowed <;> cases h <;> rfl

/-- The verification of a user key is the attempt of the monitor, with the options that were
kept when the key was allowed. -/
lemma mmAnswerKeyverify_attempt (he : UsesKeyOptions env.toEnv) {m : Bytes} {ret : Bool}
    (htype : st.keyBlobtype = .userKey) (h : mmAnswerKeyverify env st m = some (st',ret)) :
    monitorAttempt st.authctxt.authOpts ⟨st.keyOpts,ret⟩ = some st'.authctxt.authOpts := by
  rw [mmAnswerKeyverify] at h
  split at h
  · cases h
  split at h
  · cases h
  split at h
  · cases h
  · cases h
  split at h
  · cases h
  · cases h
  obtain ⟨s,hrec,h⟩ := bind_eq_some_iff.mp h
  obtain ⟨st1,hact,h⟩ := bind_eq_some_iff.mp h
  cases h
  rw [activateKeyOpts,if_pos htype] at hact
  obtain ⟨opts,hopts,hbind⟩ := bind_eq_some_iff.mp hact
  obtain ⟨⟨s',ok⟩,hmerged,heq⟩ := bind_eq_some_iff.mp hbind
  cases heq
  have hmerged := authActivateOptions_activate he hmerged
  obtain ⟨dup,-,rfl⟩ := auth2RecordKey_eq hrec
  rw [hopts,monitorAttempt]
  exact hmerged

/-- The monitor is asked for a key, and for the signature of a key of the user that it allows. -/
def Answers (options : ServerOptions) (env : MonitorEnv SshAuthOpt) (st st' : Monitor SshAuthOpt)
    (a : PubkeyAttempt) : Prop :=
  ∃ m st1 ret, mmAnswerKeyallowed options env st m = some (st1,ret) ∧
    if st1.keyBlobtype = .userKey then
      a.allowed = st1.keyOpts ∧ ∃ m', mmAnswerKeyverify env st1 m' = some (st',a.verified)
    else a.allowed = none ∧ st' = st1

lemma Answers.attempt (he : UsesKeyOptions env.toEnv) (h : Answers options env st st' a) :
    monitorAttempt st.authctxt.authOpts a = some st'.authctxt.authOpts := by
  obtain ⟨m,st1,ret,hallowed,h⟩ := h
  rw [← mmAnswerKeyallowed_authOpts hallowed]
  split at h
  · next htype =>
    obtain ⟨hopts,m',hverify⟩ := h
    have hattempt := mmAnswerKeyverify_attempt he htype hverify
    rwa [← hopts] at hattempt
  · obtain ⟨hnone,rfl⟩ := h
    rw [monitorAttempt,hnone]

/-- The requests with signatures of a session, in the child and in the monitor. -/
inductive Exchanges (options : ServerOptions) : Authctxt SshAuthOpt → Monitor SshAuthOpt →
    List PubkeyAttempt → Authctxt SshAuthOpt → Monitor SshAuthOpt → Prop
  | nil {s : Authctxt SshAuthOpt} {st : Monitor SshAuthOpt} : Exchanges options s st [] s st
  | cons {env : MonitorEnv SshAuthOpt} {s s1 s' : Authctxt SshAuthOpt}
    {st st1 st' : Monitor SshAuthOpt} {a : PubkeyAttempt} {as : List PubkeyAttempt}
    {req : PubkeyRequest} {key : LoadedKey} {ok : Bool} :
    UsesKeyOptions env.toEnv → s.valid = true → s.user ≠ none → Answers options env st st1 a →
    pubkeyWithSignature options (childEnv a env.toEnv) s req key = some (s1,ok) →
    Exchanges options s1 st1 as s' st' → Exchanges options s st (a :: as) s' st'

/-- The handlers of the two processes make the attempts. -/
lemma Exchanges.attempts {as : List PubkeyAttempt} (h : Exchanges options s st as s' st') :
    as.foldlM attempt ⟨s.authOpts,st.authctxt.authOpts⟩ =
      some ⟨s'.authOpts,st'.authctxt.authOpts⟩ := by
  induction h with
  | nil => rfl
  | cons he hv hu hanswers hchild _ ih =>
    rw [foldlM_cons,attempt,pubkeyWithSignature_attempt he hv hu hchild,hanswers.attempt he]
    exact ih

variable (a)

lemma mergeForceCommand_of_eq {p a : Option Bytes} (h : p = none ∨ p = a) :
    mergeForceCommand p a = .ok a := by
  rcases h with rfl | rfl
  · rfl
  · cases p with
    | none => rfl
    | some c => simp [mergeForceCommand]

lemma sshauthoptMerge_of_command {p a : SshAuthOpt}
    (h : p.forceCommand = none ∨ p.forceCommand = a.forceCommand) :
    ∃ o, sshauthoptMerge p a = .ok o ∧ o.forceCommand = a.forceCommand := by
  have hc := mergeForceCommand_of_eq h
  unfold sshauthoptMerge
  rw [hc]
  exact ⟨_,rfl,rfl⟩

lemma mergeAll_snoc :
    mergeAll (os ++ [o]) = mergeAll os >>= fun active => sshauthoptMerge active o := by
  rw [mergeAll,foldlM_append]
  cases h : os.foldlM sshauthoptMerge _ with
  | error e => simp [mergeAll,h]
  | ok active =>
    rw [ok_bind,foldlM_cons,mergeAll,h,ok_bind]
    cases sshauthoptMerge _ o <;> rfl

lemma mergeAll_redacted : ∃ o, mergeAll (os.map SshAuthOpt.redacted) = .ok o ∧
      (o.forceCommand = none ∨ o.forceCommand = some (cstr "true")) := by
  induction os using List.reverseRecOn with
  | nil => exact ⟨sshauthoptNewWithKeysDefaults,rfl,.inl rfl⟩
  | append_singleton os o ih =>
    obtain ⟨active,hactive,hc⟩ := ih
    obtain ⟨merged,hm,hc'⟩ := sshauthoptMerge_of_command (a := o.redacted) hc
    refine ⟨merged,?_,.inr hc'⟩
    rw [map_append,map_singleton,mergeAll_snoc,hactive]
    exact hm

lemma acceptedOptions_snoc : acceptedOptions (as ++ [a]) =
      acceptedOptions as ++ ((if a.verified then a.allowed else none).toList) := by
  rw [acceptedOptions,filterMap_append]
  obtain ⟨allowed,verified⟩ := a
  cases verified <;> rfl

lemma attempts_snoc : attempts (as ++ [a]) = attempts as >>= fun s => attempt s a := by
  cases h : as.foldlM attempt .initial with
  | none => simp [attempts]
  | some s => simp [attempts]

lemma childAttempt_accepted {o : SshAuthOpt}
    (h : mergeAll ((acceptedOptions as).map SshAuthOpt.redacted) = .ok o) :
    ∃ o', mergeAll ((acceptedOptions (as ++ [a])).map SshAuthOpt.redacted) = .ok o' ∧
      childAttempt (some o) a = some (some o') := by
  rw [acceptedOptions_snoc]
  obtain ⟨allowed,verified⟩ := a
  cases allowed with
  | none => exact ⟨o,by simpa using h,rfl⟩
  | some opts =>
    cases verified with
    | false => exact ⟨o,by simpa using h,rfl⟩
    | true =>
      obtain ⟨o',ho',-⟩ := mergeAll_redacted (acceptedOptions as ++ [opts])
      refine ⟨o',ho',?_⟩
      rw [map_append,map_singleton,mergeAll_snoc,h] at ho'
      have ho' : sshauthoptMerge o _ = .ok o' := ho'
      simp [childAttempt,sentOptions_eq,activate,ho',Except.toOption]

/-- One attempt, in the monitor: it keeps the merge of what was accepted exactly if the attempt
is consistent with it. -/
lemma monitorAttempt_accepted {o : SshAuthOpt} (h : mergeAll (acceptedOptions as) = .ok o) :
    (∃ o', mergeAll (acceptedOptions (as ++ [a])) = .ok o' ∧
      monitorAttempt (some o) a = some (some o')) ↔ AttemptConsistent o a := by
  rw [acceptedOptions_snoc]
  obtain ⟨allowed,verified⟩ := a
  cases allowed with
  | none => simp [AttemptConsistent,monitorAttempt,h]
  | some opts =>
    have hmon : ∀ o', monitorAttempt (some o) ⟨some opts,verified⟩ = some (some o') ↔
        sshauthoptMerge o opts = .ok o' := by
      cases hm : sshauthoptMerge o opts with
      | error e => simp [monitorAttempt,activate,hm,Except.toOption]
      | ok merged => simp [monitorAttempt,activate,hm,Except.toOption]
    simp only [hmon]
    cases verified with
    | false => simp [AttemptConsistent,h]
    | true =>
      have hall : ∀ o', mergeAll (acceptedOptions as ++ [opts]) = .ok o' ↔
          sshauthoptMerge o opts = .ok o' := by
        intro o'
        rw [mergeAll_snoc,h]
        rfl
      simp [AttemptConsistent,hall]

lemma attempts_of_consistent {pre : List PubkeyAttempt} (h : Consistent as) (hpre : pre <+: as) :
    ∃ s, attempts pre = some s ∧ AcceptedOnly pre s := by
  induction pre using List.reverseRecOn with
  | nil => exact ⟨.initial,rfl,⟨_,rfl,rfl⟩,⟨_,rfl,rfl⟩⟩
  | append_singleton pre a ih =>
    obtain ⟨post,has⟩ := hpre
    obtain ⟨⟨child,monitor⟩,hs,⟨oc,hoc,rfl⟩,⟨om,hom,rfl⟩⟩ := ih ⟨a :: post,by simp [← has]⟩
    have hcons := h pre a post (by simp [← has]) om hom
    obtain ⟨oc',hoc',hc⟩ := childAttempt_accepted pre a hoc
    obtain ⟨om',hom',hm⟩ := (monitorAttempt_accepted pre a hom).mpr hcons
    refine ⟨⟨some oc',some om'⟩,?_,⟨oc',hoc',rfl⟩,⟨om',hom',rfl⟩⟩
    rw [attempts_snoc,hs]
    simp [attempt,hc,hm]

/-- In a session of consistent attempts the handlers leave both processes with the merge of what was
accepted. -/
lemma Exchanges.acceptedOnly (h : Exchanges options s st as s' st') (hc : Consistent as)
    (hs : s.authOpts = some sshauthoptNewWithKeysDefaults)
    (hst : st.authctxt.authOpts = some sshauthoptNewWithKeysDefaults) :
    AcceptedOnly as ⟨s'.authOpts,st'.authctxt.authOpts⟩ := by
  obtain ⟨t,ht,haccepted⟩ := attempts_of_consistent as hc (prefix_refl _)
  have hrun := h.attempts
  rw [hs,hst] at hrun
  cases ht.symm.trans hrun
  exact haccepted

/-- Both processes have the merge of what was accepted at every point exactly if the attempts are
consistent. -/
theorem attempts_acceptedOnly_iff (as : List PubkeyAttempt) :
    (∀ pre, pre <+: as → ∃ s, attempts pre = some s ∧ AcceptedOnly pre s) ↔ Consistent as := by
  constructor
  · intro h pre a post has active hactive
    have hpre : pre <+: as := ⟨a :: post,has.symm⟩
    have hnext : pre ++ [a] <+: as := ⟨post,by simp [has]⟩
    obtain ⟨s,hs,-,o,ho,hmon⟩ := h pre hpre
    obtain ⟨s',hs',-,o',ho',hmon'⟩ := h _ hnext
    cases ho.symm.trans hactive
    rw [attempts_snoc,hs] at hs'
    have hs' : attempt s a = some s' := hs'
    obtain ⟨c,hc,hs'⟩ := bind_eq_some_iff.mp hs'
    obtain ⟨m,hm,hs'⟩ := bind_eq_some_iff.mp hs'
    cases hs'
    refine (monitorAttempt_accepted pre a ho).mp ⟨o',ho',?_⟩
    rw [← hmon,hm]
    exact congrArg some hmon'
  · exact fun h pre hpre => attempts_of_consistent as h hpre

def wrongThenRight : List PubkeyAttempt :=
  [⟨some { sshauthoptNewWithKeysDefaults with forceCommand := some (cstr "uptime") },false⟩,
   ⟨some sshauthoptNewWithKeysDefaults,true⟩]

/-- The command of a key whose signature was bad becomes that of the session. -/
theorem attempts_bad_signature :
    ∃ s o, attempts wrongThenRight = some s ∧ ¬ AcceptedOnly wrongThenRight s ∧
      s.monitor = some o ∧ o.forceCommand = some (cstr "uptime") := by
  let o : SshAuthOpt :=
    { sshauthoptNewWithKeysDefaults with forceCommand := some (cstr "uptime") }
  have hrun : attempts wrongThenRight = some ⟨some { sshauthoptNewWithKeysDefaults with
      forceCommand := some (cstr "true") },some o⟩ := by
    decide +kernel
  refine ⟨_,o,hrun,?_,rfl,rfl⟩
  rintro ⟨-,o',ho',heq⟩
  have hmerge : mergeAll (acceptedOptions wrongThenRight) =
      .ok sshauthoptNewWithKeysDefaults := by
    decide +kernel
  cases hmerge.symm.trans ho'
  exact absurd heq (by decide +kernel)

def consistentAttempts : List PubkeyAttempt :=
  [⟨some { sshauthoptNewWithKeysDefaults with permitPtyFlag := 0 },true⟩,
   ⟨some sshauthoptNewWithKeysDefaults,false⟩,
   ⟨some { sshauthoptNewWithKeysDefaults with forceCommand := some (cstr "uptime") },true⟩]

lemma consistent_consistentAttempts : Consistent consistentAttempts := by
  have hnone : mergeAll (acceptedOptions []) = .ok _ := rfl
  have hpty : mergeAll (acceptedOptions (consistentAttempts.take 1)) =
      .ok { sshauthoptNewWithKeysDefaults with permitPtyFlag := 0 } := by
    decide +kernel
  have hsame : mergeAll (acceptedOptions (consistentAttempts.take 2)) =
      .ok { sshauthoptNewWithKeysDefaults with permitPtyFlag := 0 } := by
    decide +kernel
  intro pre a post has active hactive
  rcases pre with _ | ⟨x,_ | ⟨y,_ | ⟨z,pre⟩⟩⟩
  · cases has
    cases hnone.symm.trans hactive
    rintro opts ⟨⟩
    exact ⟨_,rfl⟩
  · cases has
    cases hpty.symm.trans hactive
    rintro opts ⟨⟩
    show sshauthoptMerge _ _ = _
    decide +kernel
  · cases has
    cases hsame.symm.trans hactive
    rintro opts ⟨⟩
    exact ⟨_,rfl⟩
  · simp [consistentAttempts] at has

theorem attempts_acceptedOnly_two_keys :
    ∃ s, attempts consistentAttempts = some s ∧ AcceptedOnly consistentAttempts s :=
  (attempts_acceptedOnly_iff _).mpr consistent_consistentAttempts
    _ (prefix_refl _)

end PkixSsh.Auth
