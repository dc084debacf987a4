import Mathlib.Tactic.Common
import PkixSsh.Auth.ActiveOptions
import PkixSsh.Auth.UsedKeys

/-!
# Progress of authentication in two processes

The child and the monitor each keep the lists of methods and each decide when the user is
authenticated, with the restriction for root in a different place.
-/

namespace PkixSsh.Auth

open List Option

/-- `userauth_finish` without the reply and the counters. -/
def childFinish (options : ServerOptions) (env : Env SshAuthOpt) (s : Authctxt SshAuthOpt)
    (authenticated : Bool) (method : Bytes) (submethod : Option Bytes) :
    Option (Authctxt SshAuthOpt × Bool) := do
  let (s,authenticated,_) ← userauthDecide options env s authenticated method submethod
  return (s,authenticated)

/-- A round of `monitor_child_preauth` after the handler of a request that decides, without the
counters and with the check behind the loop. -/
def monitorFinish (options : ServerOptions) (env : Env SshAuthOpt) (s : Authctxt SshAuthOpt)
    (authenticated : Bool) (method : Bytes) (submethod : Option Bytes) :
    Option (Authctxt SshAuthOpt × Bool) := do
  let (s,authenticated,_) ← monitorDecide options env s authenticated method submethod true
  if authenticated ∧ !s.valid then none else some (s,authenticated)

variable {options : ServerOptions} {c m s s' : Authctxt SshAuthOpt} {authenticated : Bool}
  {env : Env SshAuthOpt}

/-- What a request comes to, as the monitor reports it. The method "none" asks for the empty
password. -/
inductive Outcome where
  | none (ok : Bool)
  | publickey (attempt : PubkeyAttempt)
  | password (isEmpty : Bool) (ok : Bool)
  | keyboardInteractive (device : Bytes) (ok : Bool)
  | hostbased (ok : Bool)

namespace Outcome

def reported : Outcome → Bool
  | none ok => ok
  | publickey a => a.allowed.isSome && a.verified
  | password _ ok => ok
  | keyboardInteractive _ ok => ok
  | hostbased ok => ok

def method : Outcome → Bytes
  | none _ => Authmethod.none.name
  | publickey _ => Authmethod.publickey.name
  | password _ _ => Authmethod.password.name
  | keyboardInteractive _ _ => Authmethod.keyboardInteractive.name
  | hostbased _ => Authmethod.hostbased.name

def submethod : Outcome → Option Bytes
  | keyboardInteractive device _ => some device
  | _ => .none

def asksPassword : Outcome → Bool
  | none _ => true
  | password _ _ => true
  | _ => false

/-- The name the monitor gives to the method: it takes the first password for a request of the
method "none" if it is empty. -/
def monitorMethod (callCount : Nat) : Outcome → Bytes
  | none _ => if callCount = 0 then Authmethod.none.name else Authmethod.password.name
  | password isEmpty _ =>
    if isEmpty ∧ callCount = 0 then Authmethod.none.name else Authmethod.password.name
  | o => o.method

end Outcome

def childOpts (authOpts : Option SshAuthOpt) : Outcome → Option (Option SshAuthOpt)
  | .publickey a => childAttempt authOpts a
  | _ => some authOpts

def monitorOpts (authOpts : Option SshAuthOpt) : Outcome → Option (Option SshAuthOpt)
  | .publickey a => monitorAttempt authOpts a
  | _ => some authOpts

/-- A failed merge takes the success back in the child. -/
def childStep (options : ServerOptions) (env : Env SshAuthOpt) (s : Authctxt SshAuthOpt)
    (o : Outcome) : Option (Authctxt SshAuthOpt × Bool) := do
  let authOpts ← childOpts s.authOpts o
  childFinish options env { s with authOpts := authOpts } (o.reported && authOpts.isSome) o.method
    o.submethod

def monitorStep (options : ServerOptions) (env : Env SshAuthOpt) (s : Authctxt SshAuthOpt)
    (callCount : Nat) (o : Outcome) : Option (Authctxt SshAuthOpt × Bool) := do
  let authOpts ← monitorOpts s.authOpts o
  monitorFinish options env { s with authOpts := authOpts } o.reported
    (o.monitorMethod callCount) o.submethod

/-- The two processes: none for one that has ended, and else its context and whether it takes
the user for authenticated. -/
structure Privsep where
  child : Option (Authctxt SshAuthOpt × Bool)
  monitor : Option (Authctxt SshAuthOpt × Bool)
  callCount : Nat

def unlessDone (process : Option (Authctxt SshAuthOpt × Bool))
    (step : Authctxt SshAuthOpt → Option (Authctxt SshAuthOpt × Bool)) :
    Option (Authctxt SshAuthOpt × Bool) :=
  match process with
  | none => none
  | some (s,true) => some (s,true)
  | some (s,false) => step s

def privsepStep (options : ServerOptions) (env : Env SshAuthOpt) (p : Privsep) (o : Outcome) :
    Privsep where
  child := unlessDone p.child fun s => childStep options env s o
  monitor := unlessDone p.monitor fun s => monitorStep options env s p.callCount o
  callCount := if o.asksPassword then p.callCount + 1 else p.callCount

/-- Both ended, or both with the same lists left and of one mind about the user. -/
def Privsep.Agree (p : Privsep) : Prop :=
  (p.child = none ∧ p.monitor = none) ∨
    ∃ c m authenticated, p.child = some (c,authenticated) ∧ p.monitor = some (m,authenticated) ∧
      c.authMethods = m.authMethods

/-- The processes after the first request: both have set up their lists. A child without lists
disconnects. -/
def Privsep.start (options : ServerOptions) (env : Env SshAuthOpt) (user service : Bytes)
    (style : Option Bytes) : Option Privsep := do
  let s := initial options sshauthoptNewWithKeysDefaults
  let child ← setupAuthctxt options env s user service style
  return { child := some (child,false)
           monitor := some (pwnamAuthctxt options env s user,false)
           callCount := 0 }

lemma mmAnswerAuthpassword_method {env : MonitorEnv SshAuthOpt} {st st' : Monitor SshAuthOpt}
    {m raw : Bytes} {ok : Bool} (h : mmAnswerAuthpassword options env st m = some (st',ok))
    (hraw : Sshbuf.peekStringDirect m = .ok raw) :
    st'.authMethod = (Outcome.password raw.isEmpty ok).monitorMethod st.callCount ∧
      st'.callCount = st.callCount + 1 := by
  rw [mmAnswerAuthpassword] at h
  split at h
  · cases h
  · rw [hraw] at h
    split at h
    · rename_i passwd rest raw' hpasswd hraw'
      cases hraw'
      cases h
      simp [Outcome.monitorMethod,Authmethod.name]
    · cases h

def withOpts (s : Authctxt SshAuthOpt) (authOpts : Option (Option SshAuthOpt)) :
    Authctxt SshAuthOpt := { s with authOpts := authOpts.getD none }

/-- The restriction for root is the same for both without lists; with lists it stops no step of the
child, nor the last one of a list in the monitor. -/
def RootSafe (options : ServerOptions) (env : Env SshAuthOpt) (c m : Authctxt SshAuthOpt)
    (o : Outcome) : Prop :=
  if c.configured = [] then
    rootVerdict options env c true o.method = rootVerdict options env m true o.method
  else
    rootVerdict options env c true o.method = some true ∧
      ((∃ list ∈ c.authMethods, removeMethod list o.method o.submethod = some []) →
        rootVerdict options env m true o.method = some true)

/-- The monitor can read its options when it verifies a key, and for a success the child takes
the user for valid, both have one name for the method, and root is safe. -/
def ProgressSafe (options : ServerOptions) (env : Env SshAuthOpt) (c m : Authctxt SshAuthOpt)
    (callCount : Nat) (o : Outcome) : Prop :=
  (∀ a opts, o = .publickey a → a.allowed = some opts → m.authOpts ≠ none) ∧
    (o.reported = true → c.valid = true ∧ o.monitorMethod callCount = o.method ∧
      RootSafe options env (withOpts c (childOpts c.authOpts o))
        (withOpts m (monitorOpts m.authOpts o)) o)

/-- Every outcome is safe in the state it is reported in. -/
def SafeRun (options : ServerOptions) (env : Env SshAuthOpt) : Privsep → List Outcome → Prop
  | _, [] => True
  | p, o :: os =>
    (∀ c m, p.child = some (c,false) → p.monitor = some (m,false) →
      ProgressSafe options env c m p.callCount o) ∧
    SafeRun options env (privsepStep options env p o) os

variable {method : Bytes} {submethod : Option Bytes}

lemma rootVerdict_of_uid (h : s.pwUid ≠ 0) :
    rootVerdict options env s authenticated method = some authenticated := by
  rw [rootVerdict,if_neg (fun hroot => h hroot.2)]

variable {o : Outcome} {p : Privsep}

/-- For another user than root a step is safe if the child takes the user for valid, both name the
method alike, and no merge of the monitor has failed. -/
lemma progressSafe_of_uid {callCount : Nat} (hc : c.pwUid ≠ 0) (hm : m.pwUid ≠ 0)
    (hv : c.valid = true) (hopts : m.authOpts ≠ none) (hname : o.monitorMethod callCount = o.method)
    : ProgressSafe options env c m callCount o := by
  refine ⟨fun _ _ _ _ => hopts,fun _ => ⟨hv,hname,?_⟩⟩
  have hchild : ∀ opts, rootVerdict options env (withOpts c opts) true o.method = some true :=
    fun opts => rootVerdict_of_uid hc
  have hmonitor : ∀ opts, rootVerdict options env (withOpts m opts) true o.method = some true :=
    fun opts => rootVerdict_of_uid hm
  rw [RootSafe]
  split
  · rw [hchild,hmonitor]
  · exact ⟨hchild _,fun _ => hmonitor _⟩

structure Paired (c m : Authctxt SshAuthOpt) : Prop where
  idle : c.postponed = false
  lists : c.authMethods = m.authMethods
  configured : c.configured = m.configured
  valid : c.valid = true → m.valid = true
  opts : ∃ o, c.authOpts = some o ∧
    (o.forceCommand = none ∨ o.forceCommand = some (cstr "true"))

def Privsep.Together (p : Privsep) : Prop :=
  (p.child = none ∧ p.monitor = none) ∨
    ∃ c m authenticated, p.child = some (c,authenticated) ∧ p.monitor = some (m,authenticated) ∧
      Paired c m

lemma Privsep.Together.agree (h : p.Together) : p.Agree := by
  rcases h with h | ⟨c,m,authenticated,hc,hm,h⟩
  · exact .inl h
  · exact .inr ⟨c,m,authenticated,hc,hm,h.lists⟩

lemma rootVerdict_false : rootVerdict options env s false method = some false := by
  rw [rootVerdict,if_neg (by simp)]

lemma finishMethods_false : finishMethods s false method submethod = some (s,false,false) := by
  rw [finishMethods,if_neg (by simp)]

lemma childFinish_false : childFinish options env s false method submethod = some (s,false) := by
  simp [childFinish,userauthDecide,rootVerdict_false,finishMethods_false]

lemma monitorFinish_false :
    monitorFinish options env s false method submethod = some (s,false) := by
  simp [monitorFinish,monitorDecide,finishMethods_false,rootVerdict_false]

lemma finishMethods_of_nil (h : s.configured = []) :
    finishMethods s authenticated method submethod = some (s,authenticated,false) := by
  rw [finishMethods,if_neg (by simp [h])]

lemma finishMethods_of_lists (h : s.configured ≠ []) : finishMethods s true method submethod =
      (auth2UpdateMethodsLists s.authMethods method submethod).map fun (methods,complete) =>
        ({ s with authMethods := methods },complete,!complete) := by
  rw [finishMethods,if_pos ⟨rfl,h⟩]
  cases auth2UpdateMethodsLists _ _ _ with
  | none => rfl
  | some r =>
    obtain ⟨methods,complete⟩ := r
    cases complete <;> rfl

lemma childFinish_true (hv : s.valid = true) (hp : s.postponed = false) :
    childFinish options env s true method submethod = do
      let authenticated ← rootVerdict options env s true method
      let (s,authenticated,_) ← finishMethods s authenticated method submethod
      return (s,authenticated) := by
  rw [childFinish,userauthDecide,if_neg (by simp [hv]),if_neg (by simp [hp]),LawfulMonad.bind_assoc]

lemma monitorFinish_eq : monitorFinish options env s authenticated method submethod =
    (do let (s,authenticated,_) ← finishMethods s authenticated method submethod
        let authenticated ← rootVerdict options env s authenticated method
        if authenticated ∧ !s.valid then none else some (s,authenticated)) := by
  simp [monitorFinish,monitorDecide,Option.bind_assoc]

lemma updateMethodsLoop_complete {ls : List Bytes}
    (h : (updateMethodsLoop method submethod ls).2.2 = true) :
    ∃ list ∈ ls, removeMethod list method submethod = some [] := by
  fun_induction updateMethodsLoop _ _ ls with
  | case1 => cases h
  | case2 l ls hl ls' found complete hls ih =>
    rw [hls] at ih
    obtain ⟨list,hmem,hlist⟩ := ih h
    exact ⟨list,mem_cons_of_mem l hmem,hlist⟩
  | case3 l ls hl => exact ⟨l,mem_cons_self,hl⟩
  | case4 l ls l' hl hne ls' found complete hls ih =>
    rw [hls] at ih
    obtain ⟨list,hmem,hlist⟩ := ih h
    exact ⟨list,mem_cons_of_mem l hmem,hlist⟩

lemma auth2UpdateMethodsLists_complete {methods lists : List Bytes}
    (h : auth2UpdateMethodsLists methods method submethod = some (lists,true)) :
    ∃ list ∈ methods, removeMethod list method submethod = some [] := by
  apply updateMethodsLoop_complete
  rw [auth2UpdateMethodsLists] at h
  dsimp only at h
  split at h
  · assumption
  · split at h <;> cases h

lemma finish_together (hp : Paired c m) (hv : c.valid = true) (hr : RootSafe options env c m o)
    (callCount : Nat) : Privsep.Together ⟨childFinish options env c true o.method o.submethod,
      monitorFinish options env m true o.method o.submethod,callCount⟩ := by
  have hv' := hp.valid hv
  rw [childFinish_true hv hp.idle,monitorFinish_eq]
  by_cases hconf : c.configured = []
  · rw [RootSafe,if_pos hconf] at hr
    rw [finishMethods_of_nil (hp.configured ▸ hconf),hr]
    cases hroot : rootVerdict _ env m true _ with
    | none =>
      left
      simp [hroot]
    | some v =>
      right
      refine ⟨c,m,v,?_,?_,hp⟩
      · simp [finishMethods_of_nil hconf]
      · simp [hroot,hv']
  · rw [RootSafe,if_neg hconf] at hr
    obtain ⟨hchild,hmonitor⟩ := hr
    rw [finishMethods_of_lists (hp.configured ▸ hconf),hchild,← hp.lists]
    cases hup : auth2UpdateMethodsLists _ _ _ with
    | none =>
      left
      simp [finishMethods_of_lists hconf,hup]
    | some r =>
      obtain ⟨lists,complete⟩ := r
      right
      refine ⟨{ c with authMethods := lists },{ m with authMethods := lists },complete,?_,?_,
        hp.idle,rfl,hp.configured,hp.valid,hp.opts⟩
      · simp [finishMethods_of_lists hconf,hup]
      · cases complete with
        | false => simp [rootVerdict_false]
        | true =>
          have hroot : rootVerdict _ env { m with authMethods := lists } true _ =
              some true := hmonitor (auth2UpdateMethodsLists_complete hup)
          show (rootVerdict _ env _ true _ >>= _) = _
          rw [hroot]
          simp [hv']

lemma childOpts_some {authOpts : Option SshAuthOpt} (o : Outcome)
    (h : ∃ p, authOpts = some p ∧ (p.forceCommand = none ∨ p.forceCommand = some (cstr "true"))) :
    ∃ p, childOpts authOpts o = some (some p) ∧
      (p.forceCommand = none ∨ p.forceCommand = some (cstr "true")) := by
  obtain ⟨p,rfl,hp⟩ := h
  cases o with
  | publickey a =>
    obtain ⟨allowed,verified⟩ := a
    cases allowed with
    | none => exact ⟨p,rfl,hp⟩
    | some opts =>
      cases verified with
      | false => exact ⟨p,rfl,hp⟩
      | true =>
        obtain ⟨merged,hm,hc⟩ := sshauthoptMerge_of_command (a := opts.redacted) hp
        refine ⟨merged,?_,.inr hc⟩
        simp [childOpts,childAttempt,sentOptions_eq,activate,hm,Except.toOption]
  | none _ | password _ _ | keyboardInteractive _ _ | hostbased _ => exact ⟨p,rfl,hp⟩

lemma monitorOpts_some {authOpts : Option SshAuthOpt}
    (h : ∀ a opts, o = .publickey a → a.allowed = some opts → authOpts ≠ none) :
    ∃ p, monitorOpts authOpts o = some p := by
  cases o with
  | publickey a =>
    cases ha : a.allowed with
    | none => exact ⟨authOpts,by simp [monitorOpts,monitorAttempt,ha]⟩
    | some opts =>
      obtain ⟨old,hold⟩ := ne_none_iff_exists'.mp (h a opts rfl ha)
      exact ⟨_,by simp [monitorOpts,monitorAttempt,ha,hold]; rfl⟩
  | none _ | password _ _ | keyboardInteractive _ _ | hostbased _ => exact ⟨authOpts,rfl⟩

lemma step_together {callCount : Nat} (hp : Paired c m)
    (h : ProgressSafe options env c m callCount o) (callCount' : Nat) :
    Privsep.Together ⟨childStep options env c o,monitorStep options env m callCount o,
      callCount'⟩ := by
  obtain ⟨hread,hsafe⟩ := h
  obtain ⟨p,hc,hcommand⟩ := childOpts_some o hp.opts
  obtain ⟨q,hm⟩ := monitorOpts_some hread
  have hp' : Paired { c with authOpts := some p } { m with authOpts := q } :=
    ⟨hp.idle,hp.lists,hp.configured,hp.valid,p,rfl,hcommand⟩
  rw [childStep,monitorStep,hc,hm]
  cases hrep : o.reported with
  | false =>
    right
    refine ⟨{ c with authOpts := some p },{ m with authOpts := q },false,?_,?_,hp'⟩
    · simp [childFinish_false]
    · simp [monitorFinish_false]
  | true =>
    obtain ⟨hv,hname,hroot⟩ := hsafe hrep
    rw [hc,hm] at hroot
    rw [hname]
    exact finish_together hp' hv hroot _

lemma Privsep.Together.step (hp : p.Together)
    (h : ∀ c m, p.child = some (c,false) → p.monitor = some (m,false) →
      ProgressSafe options env c m p.callCount o)
    : (privsepStep options env p o).Together := by
  rcases hp with ⟨hc,hm⟩ | ⟨c,m,authenticated,hc,hm,hp⟩
  · left
    simp [privsepStep,unlessDone,hc,hm]
  · cases authenticated with
    | true =>
      right
      exact ⟨c,m,true,by simp [privsepStep,unlessDone,hc],by simp [privsepStep,unlessDone,hm],hp⟩
    | false =>
      have := step_together hp (h c m hc hm)
        (if o.asksPassword then p.callCount + 1 else p.callCount)
      simpa [privsepStep,unlessDone,hc,hm] using this

lemma normaliseAny_keeps_others (s : Authctxt SshAuthOpt) :
    (normaliseAny s).authMethods = s.authMethods ∧ (normaliseAny s).noneEnabled = s.noneEnabled ∧
      (normaliseAny s).valid = s.valid ∧ (normaliseAny s).authOpts = s.authOpts ∧
      (normaliseAny s).postponed = s.postponed := by
  rw [normaliseAny]
  split
  · exact ⟨rfl,rfl,rfl,rfl,rfl⟩
  · exact ⟨rfl,rfl,rfl,rfl,rfl⟩

lemma normaliseAny_configured (h : s.configured = m.configured) :
    (normaliseAny s).configured = (normaliseAny m).configured := by
  simp only [normaliseAny,h]
  split
  · rfl
  · exact h

lemma auth2SetupMethodsLists_or (hc : s.configured = m.configured)
    (hn : s.noneEnabled = m.noneEnabled) (ha : s.authMethods = m.authMethods)
    (h : auth2SetupMethodsLists options s = some s') :
    s'.authMethods = (setupListsOrNone options m).authMethods ∧
      s'.configured = (setupListsOrNone options m).configured ∧ s'.valid = s.valid ∧
      s'.authOpts = s.authOpts ∧ s'.postponed = s.postponed ∧
      (setupListsOrNone options m).valid = m.valid := by
  have hconf := normaliseAny_configured hc
  obtain ⟨hsl,hsn,hsv,hso,hsp⟩ := normaliseAny_keeps_others s
  obtain ⟨hml,hmn,hmv,-,-⟩ := normaliseAny_keeps_others m
  have hen : methodEnabled options (normaliseAny s) = methodEnabled options (normaliseAny m) := by
    funext method
    cases method with
    | none => exact hsn.trans (hn.trans hmn.symm)
    | publickey | password | keyboardInteractive | hostbased => rfl
  rw [auth2SetupMethodsLists] at h
  rw [setupListsOrNone,auth2SetupMethodsLists]
  dsimp only at h ⊢
  rw [hconf,hen] at h
  split at h
  · rename_i hnil
    cases h
    rw [if_pos hnil]
    exact ⟨hsl.trans (ha.trans hml.symm),hconf,hsv,hso,hsp,hmv⟩
  · rename_i hnil
    split at h
    · cases h
    · rename_i hmethods
      cases h
      rw [if_neg hnil,if_neg hmethods]
      exact ⟨rfl,rfl,hsv,hso,hsp,hmv⟩

lemma start_together {user service : Bytes} {style : Option Bytes}
    (h : Privsep.start options env user service style = some p) : p.Together := by
  obtain ⟨child,hchild,h⟩ := bind_eq_some_iff.mp h
  cases h
  have hset := fun m hc hn ha => auth2SetupMethodsLists_or (m := m) hc hn ha hchild
  obtain ⟨hlists,hconf,hvalid,hopts,hidle,hvalid'⟩ := hset
    { initial _ _ with
      attempt := 1
      user := some user
      pwUid := (env.getpwnamallow user).getD _
      valid := false || (env.getpwnamallow user).isSome } rfl rfl rfl
  right
  refine ⟨child,_,false,rfl,rfl,hidle,hlists,hconf,?_,_,hopts,.inl rfl⟩
  intro hv
  refine hvalid'.trans ?_
  rw [hvalid] at hv
  simp only [initial,Bool.false_or,Bool.and_eq_true] at hv ⊢
  exact hv.1

def privsepRun (options : ServerOptions) (env : Env SshAuthOpt) (p : Privsep)
    (os : List Outcome) : Privsep := os.foldl (privsepStep options env) p

lemma privsepRun_together {os pre : List Outcome} (hp : p.Together) (h : SafeRun options env p os)
    (hpre : pre <+: os) : (privsepRun options env p pre).Together := by
  induction os generalizing p pre with
  | nil =>
    rw [prefix_nil.mp hpre]
    exact hp
  | cons o os ih =>
    cases pre with
    | nil => exact hp
    | cons o' pre =>
      obtain ⟨rfl,hpre'⟩ := cons_prefix_cons.mp hpre
      show (privsepRun _ env _ pre).Together
      exact ih (hp.step h.1) h.2 hpre'

/-- After every step of a session with safe outcomes both processes have the same lists left and
agree whether the user is authenticated. -/
theorem privsepRun_agree {options : ServerOptions} {env : Env SshAuthOpt}
    {user service : Bytes} {style : Option Bytes} {p : Privsep} {os : List Outcome}
    (hstart : Privsep.start options env user service style = some p)
    (h : SafeRun options env p os) : ∀ pre, pre <+: os → (privsepRun options env p pre).Agree := by
  intro pre hpre
  exact (privsepRun_together (start_together hstart) h hpre).agree

def progressEnv (uid : Nat) : Env SshAuthOpt :=
  { acceptingEnv decodePlain with
    getpwnamallow := fun _ => some uid
    userXkeyAllowed := fun _ _ => some sshauthoptNewWithKeysDefaults
    sshauthoptMerge := fun a b => (sshauthoptMerge a b).toOption
    forceCommand := fun o => o.forceCommand.isSome }

def keyThenPassword : ServerOptions :=
  { twoKeysOptions with
    authMethods := [cstr "publickey,password"]
    passwordAuthentication := true }

def goodKey : Outcome := .publickey ⟨some sshauthoptNewWithKeysDefaults,true⟩

def Privsep.progress (p : Privsep) : Option (List Bytes × Bool) × Option (List Bytes × Bool) :=
  (p.child.map fun s => (s.1.authMethods,s.2),p.monitor.map fun s => (s.1.authMethods,s.2))

lemma Privsep.Agree.progress (h : p.Agree) : p.progress.1 = p.progress.2 := by
  rcases h with ⟨hc,hm⟩ | ⟨c,m,authenticated,hc,hm,hlists⟩
  · simp [Privsep.progress,hc,hm]
  · simp [Privsep.progress,hc,hm,hlists]

/-- Where root may not log in, a good key of root is progress for the monitor and none for the
child. -/
theorem privsepRun_root_key :
    ∃ p, Privsep.start keyThenPassword (progressEnv 0) (cstr "root") (cstr "ssh-connection") none =
        some p ∧ (privsepRun keyThenPassword (progressEnv 0) p [goodKey]).progress =
        (some ([cstr "publickey,password"],false),some ([cstr "password"],false)) ∧
      ¬ (privsepRun keyThenPassword (progressEnv 0) p [goodKey]).Agree := by
  have hrun : (Privsep.start keyThenPassword (progressEnv 0) (cstr "root")
      (cstr "ssh-connection") none).map
        (fun p => (privsepRun keyThenPassword (progressEnv 0) p [goodKey]).progress) =
      some (some ([cstr "publickey,password"],false),some ([cstr "password"],false)) := by
    decide +kernel
  obtain ⟨p,hp,hprogress⟩ := map_eq_some_iff.mp hrun
  refine ⟨p,hp,hprogress,fun h => ?_⟩
  have := h.progress
  rw [hprogress] at this
  exact absurd this (by decide +kernel)

def Privsep.ordinary (p : Privsep) : Bool :=
  p.child.all (fun s => s.1.pwUid ≠ 0 ∧ s.1.valid) ∧
    p.monitor.all (fun s => s.1.pwUid ≠ 0 ∧ s.1.authOpts.isSome)

lemma Privsep.ordinary_safe (h : p.ordinary = true)
    (hname : o.monitorMethod p.callCount = o.method) (hc : p.child = some (c,false))
    (hm : p.monitor = some (m,false)) : ProgressSafe options env c m p.callCount o := by
  simp only [Privsep.ordinary,hc,hm,all_some,decide_eq_true_eq] at h
  obtain ⟨⟨huid,hv⟩,huid',hopts⟩ := h
  exact progressSafe_of_uid huid huid' hv (by simpa using isSome_iff_ne_none.mp hopts) hname

/-- A user with a key and a password. -/
theorem privsepRun_agree_alice :
    ∃ p, Privsep.start keyThenPassword (progressEnv 1000) (cstr "alice") (cstr "ssh-connection")
        none = some p ∧ (∀ pre, pre <+: [goodKey,.password false true] →
        (privsepRun keyThenPassword (progressEnv 1000) p pre).Agree) ∧
      (privsepRun keyThenPassword (progressEnv 1000) p [goodKey,.password false true]).progress =
        (some ([[]],true),some ([[]],true)) := by
  have hsafe : (Privsep.start keyThenPassword (progressEnv 1000) (cstr "alice")
      (cstr "ssh-connection") none).map (fun p =>
        (p.ordinary,(privsepRun keyThenPassword (progressEnv 1000) p [goodKey]).ordinary)) =
      some (true,true) := by
    decide +kernel
  have hprogress : (Privsep.start keyThenPassword (progressEnv 1000) (cstr "alice")
      (cstr "ssh-connection") none).map (fun p =>
        (privsepRun keyThenPassword (progressEnv 1000) p [goodKey,.password false true]).progress) =
      some (some ([[]],true),some ([[]],true)) := by
    decide +kernel
  obtain ⟨p,hp,hordinary⟩ := map_eq_some_iff.mp hsafe
  rw [hp] at hprogress
  obtain ⟨h0,h1⟩ := Prod.mk.inj hordinary
  refine ⟨p,hp,privsepRun_agree hp ⟨fun c m hc hm => ?_,fun c m hc hm => ?_,trivial⟩,
    Option.some.inj hprogress⟩
  · exact Privsep.ordinary_safe h0 rfl hc hm
  · exact Privsep.ordinary_safe h1 (by simp [Outcome.monitorMethod,Outcome.method]) hc hm

end PkixSsh.Auth
