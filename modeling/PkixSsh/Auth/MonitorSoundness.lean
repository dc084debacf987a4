import Mathlib.Data.List.Count
import PkixSsh.Auth.Monitor
import PkixSsh.Auth.UsedKeys

/-!
# A compromised child

The child may send any requests in any order. The invariant says what they were for the monitor to
be in its state; at the end this is the history of the key that was verified.
-/

namespace PkixSsh.Auth

open Key X509 List Option Sshbuf

section

variable {O : Type}

def MonitorRequest.Is (req : MonitorRequest O) (type : MonitorReq) : Prop := req.type = type.code

instance (req : MonitorRequest O) (type : MonitorReq) : Decidable (req.Is type) :=
  inferInstanceAs (Decidable (req.type = type.code))

lemma MonitorReq.code_injective {a b : MonitorReq} (h : a.code = b.code) : a = b := by
  cases a <;> cases b <;> first | rfl | cases h

/-- The parts of the state that the decision of the loop and the table do not touch. -/
structure Frame (st st' : Monitor O) : Prop where
  attempt : st'.authctxt.attempt = st.authctxt.attempt
  valid : st'.authctxt.valid = st.authctxt.valid
  user : st'.authctxt.user = st.authctxt.user
  sessionId2 : st'.sessionId2 = st.sessionId2
  keyBlob : st'.keyBlob = st.keyBlob
  keyBlobtype : st'.keyBlobtype = st.keyBlobtype

lemma Frame.refl (st : Monitor O) : Frame st st := ⟨rfl,rfl,rfl,rfl,rfl,rfl⟩

lemma Frame.trans {a b c : Monitor O} (h : Frame a b) (h' : Frame b c) : Frame a c :=
  ⟨h'.attempt.trans h.attempt,h'.valid.trans h.valid,h'.user.trans h.user,
    h'.sessionId2.trans h.sessionId2,h'.keyBlob.trans h.keyBlob,
    h'.keyBlobtype.trans h.keyBlobtype⟩

lemma frame_resetMethod (st : Monitor O) : Frame st (resetMethod st) :=
  ⟨rfl,rfl,rfl,rfl,rfl,rfl⟩

structure SameUser (s s' : Authctxt O) : Prop where
  attempt : s'.attempt = s.attempt
  valid : s'.valid = s.valid
  user : s'.user = s.user

variable {st st' : Monitor O} {s : Authctxt O} {authenticated ret : Bool} {options : ServerOptions}
  {env : MonitorEnv O} {req : MonitorRequest O} {m : Bytes} {hist : List (MonitorRequest O)}
  {type : MonitorReq}

lemma SameUser.frame (h : SameUser st.authctxt s) :
    Frame st { st with authctxt := s } := ⟨h.attempt,h.valid,h.user,rfl,rfl,rfl⟩

lemma finishMethods_sameUser {s' : Authctxt O} {authenticated' isPartial : Bool} {method : Bytes}
    {submethod : Option Bytes}
    (h : finishMethods s authenticated method submethod = some (s',authenticated',isPartial)) :
    SameUser s s' ∧ (authenticated' = true → authenticated = true) := by
  rw [finishMethods] at h
  split at h
  · rename_i hc
    split at h
    · cases h
    · cases h
      exact ⟨⟨rfl,rfl,rfl⟩,fun _ => hc.1⟩
    · cases h
      exact ⟨⟨rfl,rfl,rfl⟩,fun _ => hc.1⟩
  · cases h
    exact ⟨⟨rfl,rfl,rfl⟩,id⟩

lemma setupListsOrNone_sameUser (options : ServerOptions) (s : Authctxt O) :
    SameUser s (setupListsOrNone options s) := by
  have hany : SameUser s (normaliseAny s) := by
    rw [normaliseAny]
    split
    · exact ⟨rfl,rfl,rfl⟩
    · exact ⟨rfl,rfl,rfl⟩
  rw [setupListsOrNone,auth2SetupMethodsLists]
  split
  · exact hany
  · dsimp only
    split
    · exact ⟨hany.attempt,hany.valid,hany.user⟩
    · exact ⟨hany.attempt,hany.valid,hany.user⟩

lemma preauthDecide_frame {ent : MonTable}
    (h : preauthDecide options env st ret ent = some (st',authenticated)) :
    Frame st st' ∧ (authenticated = true → ret = true) := by
  obtain ⟨⟨s,auth,isPartial⟩,hd,h⟩ := bind_eq_some_iff.mp h
  obtain ⟨⟨s1,auth1,isPartial1⟩,hf,hd⟩ := bind_eq_some_iff.mp hd
  obtain ⟨hsame,hauth⟩ := finishMethods_sameUser hf
  dsimp only at hd
  split at hd
  · cases hd
  · obtain ⟨verdict,hv,hd⟩ := bind_eq_some_iff.mp hd
    cases hd
    cases h
    refine ⟨?_,fun ht => hauth (rootVerdict_true (ht ▸ hv))⟩
    apply SameUser.frame
    split <;> split <;> exact ⟨hsame.attempt,hsame.valid,hsame.user⟩

lemma preauthStep_ok (h : preauthStep options st req = some (st',authenticated)) :
    ∃ type st1 ret, req.Is type ∧ answer options (resetMethod st) req type = some (st1,ret) ∧
      Frame st1 st' ∧ (authenticated = true → ret = true) := by
  obtain ⟨⟨st2,ret,ent⟩,hread,h⟩ := bind_eq_some_iff.mp h
  obtain ⟨hframe,hauth⟩ := preauthDecide_frame h
  rw [monitorRead] at hread
  split at hread
  · cases hread
  · rename_i ent' hfind
    split at hread
    · cases hread
    · obtain ⟨⟨st1,ret'⟩,hans,hread⟩ := bind_eq_some_iff.mp hread
      cases hread
      have htype : ent.type.code = req.type := by simpa using List.find?_some hfind
      refine ⟨ent.type,st1,ret,htype.symm,hans,?_,hauth⟩
      refine Frame.trans ?_ hframe
      split
      · exact ⟨rfl,rfl,rfl,rfl,rfl,rfl⟩
      · exact Frame.refl st1

lemma mmAnswerModuli_frame (h : mmAnswerModuli st m = some (st',ret)) : Frame st st' := by
  rw [mmAnswerModuli] at h
  split at h
  · cases h
  · split at h
    · cases h
    · cases h
      exact Frame.refl st

lemma mmAnswerAuthserv_frame (h : mmAnswerAuthserv st m = some (st',ret)) : Frame st st' := by
  rw [mmAnswerAuthserv] at h
  split at h
  · cases h
  · cases h
    exact ⟨rfl,rfl,rfl,rfl,rfl,rfl⟩

lemma mmAnswerAuthpassword_frame (h : mmAnswerAuthpassword options env st m = some (st',ret)) :
    Frame st st' := by
  rw [mmAnswerAuthpassword] at h
  split at h
  · cases h
  · split at h
    · cases h
      exact ⟨rfl,rfl,rfl,rfl,rfl,rfl⟩
    · cases h

lemma mmAnswerSign_ok (h : mmAnswerSign env st m = some (st',ret)) :
    ∃ keyid p alg, parseSign m = .ok (keyid,p,alg) ∧ st'.sessionId2 = some (st.sessionId2.getD p) ∧
      Frame { st with sessionId2 := st'.sessionId2 } st' := by
  rw [mmAnswerSign] at h
  split at h
  · cases h
  · rename_i keyid p alg hp
    split at h
    · cases h
    · split at h
      · cases h
      · split at h
        · cases h
        · cases h
          exact ⟨keyid,p,alg,hp,rfl,rfl,rfl,rfl,rfl,rfl,rfl⟩

lemma mmAnswerPwnamallow_ok (h : mmAnswerPwnamallow options env st m = some (st',ret)) :
    ∃ user rest, getCstring m = .ok (user,rest) ∧ st.authctxt.attempt = 0 ∧
      st'.authctxt.attempt = 1 ∧ st'.authctxt.user = some user ∧
      st'.authctxt.valid = (st.authctxt.valid || (env.getpwnamallow user).isSome) ∧
      st'.sessionId2 = st.sessionId2 ∧ st'.keyBlob = st.keyBlob ∧
      st'.keyBlobtype = st.keyBlobtype := by
  rw [mmAnswerPwnamallow] at h
  split at h
  · cases h
  · rename_i hattempt
    rw [not_not] at hattempt
    split at h
    · cases h
    · rename_i user rest hparse
      cases h
      have hsame := setupListsOrNone_sameUser options { st.authctxt with
        attempt := st.authctxt.attempt + 1
        user := some user
        pwUid := (env.getpwnamallow user).getD env.fakepwUid
        valid := st.authctxt.valid || (env.getpwnamallow user).isSome }
      refine ⟨user,rest,hparse,hattempt,?_,hsame.user,hsame.valid,rfl,rfl,rfl⟩
      exact hsame.attempt.trans (by rw [hattempt])

structure AllowsUserKey (req : MonitorRequest O) (blob : Bytes) : Prop where
  is : req.Is .keyallowed
  allowed : ∃ r key opts, parseKeyallowed req.payload = .ok r ∧ r.type = 2 ∧ r.blob = blob ∧
    req.env.xkeyFromBlob r.pkalg blob = .ok (some key) ∧
    req.env.userXkeyAllowed r.pkalg key = some opts

lemma mmAnswerKeyallowed_ok (hhost : options.hostbasedAuthentication = false)
    (his : req.Is .keyallowed)
    (h : mmAnswerKeyallowed options req.env st req.payload = some (st',ret)) :
    Frame { st with keyBlob := st'.keyBlob, keyBlobtype := st'.keyBlobtype } st' ∧
      ∀ blob, st'.keyBlob = some blob → AllowsUserKey req blob ∧ st'.keyBlobtype = .userKey := by
  rw [mmAnswerKeyallowed] at h
  split at h
  · cases h
  rename_i r hr
  split at h
  · cases h
  · cases h
  rename_i key hkey
  obtain ⟨⟨st1,allowed⟩,hdec,h⟩ := bind_eq_some_iff.mp h
  obtain ⟨s,hrec,h⟩ := bind_eq_some_iff.mp h
  obtain ⟨⟨method,info,rfl⟩,hallowed⟩ := keyDecision_eq hdec
  obtain ⟨dup,-,rfl⟩ := auth2RecordKey_eq hrec
  cases allowed with
  | none =>
    cases h
    exact ⟨⟨rfl,rfl,rfl,rfl,rfl,rfl⟩,nofun⟩
  | some a =>
    obtain ⟨type,opts⟩ := a
    cases h
    refine ⟨⟨rfl,rfl,rfl,rfl,rfl,rfl⟩,?_⟩
    rintro blob heq
    cases heq
    rcases hallowed type opts rfl with ⟨-,hyes⟩ | ⟨rfl,htwo,rfl,hsome⟩
    · rw [hhost] at hyes
      cases hyes
    · obtain ⟨o,ho⟩ := ne_none_iff_exists'.mp hsome
      exact ⟨⟨his,r,key,o,hr,htwo,rfl,hkey,ho⟩,rfl⟩

lemma activateKeyOpts_frame (h : activateKeyOpts env st = some st') : Frame st st' := by
  rw [activateKeyOpts] at h
  split at h
  · obtain ⟨opts,-,h⟩ := bind_eq_some_iff.mp h
    obtain ⟨⟨s,ok⟩,hact,h⟩ := bind_eq_some_iff.mp h
    cases h
    obtain ⟨old,-,rfl⟩ := authActivateOptions_eq hact
    exact ⟨rfl,rfl,rfl,rfl,rfl,rfl⟩
  · cases h
    exact Frame.refl st

lemma mmAnswerKeyverify_ok (h : mmAnswerKeyverify env st m = some (st',ret)) :
    ∃ v key method, parseKeyverify m = .ok v ∧ st.keyBlob = some v.blob ∧
      env.xkeyFromBlob v.pkalg v.blob = .ok (some key) ∧
      validData env st v.data = .ok (method,true) ∧
      ret = env.xkeyVerify v.pkalg key v.signature v.data ∧
      Frame (monitorResetKeyState st) st' := by
  rw [mmAnswerKeyverify] at h
  split at h
  · cases h
  rename_i v hv
  split at h
  · cases h
  rename_i hallowed
  split at h
  · cases h
  · cases h
  rename_i key hkey
  split at h
  · cases h
  · cases h
  rename_i method hdata
  obtain ⟨s,hrec,h⟩ := bind_eq_some_iff.mp h
  obtain ⟨st1,hact,h⟩ := bind_eq_some_iff.mp h
  cases h
  obtain ⟨dup,-,rfl⟩ := auth2RecordKey_eq hrec
  have hframe := activateKeyOpts_frame hact
  refine ⟨v,key,method,hv,?_,hkey,hdata,rfl,?_⟩
  · simp only [not_or,monitorAllowedKey,Bool.not_eq_true',decide_eq_false_iff_not,not_not]
      at hallowed
    exact hallowed.2.2
  · exact ⟨hframe.attempt,hframe.valid,hframe.user,hframe.sessionId2,rfl,rfl⟩

/-- The latest decision on a key allowed this blob. -/
def LatestAllowed (hist : List (MonitorRequest O)) (blob : Bytes) : Prop :=
  ∃ pre req post, hist = pre ++ req :: post ∧ AllowsUserKey req blob ∧
    ∀ r ∈ post, ¬ r.Is .keyallowed ∧ ¬ r.Is .keyverify

def FirstSigned (hist : List (MonitorRequest O)) (sid : Bytes) : Prop :=
  ∃ pre req post keyid alg, hist = pre ++ req :: post ∧ req.Is .sign ∧
    parseSign req.payload = .ok (keyid,sid,alg) ∧ ∀ r ∈ pre, ¬ r.Is .sign

def AskedFor (hist : List (MonitorRequest O)) (user : Bytes) : Prop :=
  ∃ req ∈ hist, req.Is .pwnam ∧ (∃ rest, getCstring req.payload = .ok (user,rest)) ∧
    (req.env.getpwnamallow user).isSome

variable {hist : List (MonitorRequest O)} {req : MonitorRequest O}

lemma LatestAllowed.snoc {blob : Bytes} (h : LatestAllowed hist blob) (ha : ¬ req.Is .keyallowed)
    (hv : ¬ req.Is .keyverify) : LatestAllowed (hist ++ [req]) blob := by
  obtain ⟨pre,r,post,rfl,hr,hpost⟩ := h
  refine ⟨pre,r,post ++ [req],by simp,hr,?_⟩
  intro r' hr'
  rcases mem_append.mp hr' with hr' | hr'
  · exact hpost r' hr'
  · rw [mem_singleton.mp hr']
    exact ⟨ha,hv⟩

lemma FirstSigned.snoc {sid : Bytes}
    (h : FirstSigned hist sid) (req : MonitorRequest O) : FirstSigned (hist ++ [req]) sid := by
  obtain ⟨pre,r,post,keyid,alg,rfl,hr⟩ := h
  exact ⟨pre,r,post ++ [req],keyid,alg,by simp,hr⟩

lemma AskedFor.snoc {user : Bytes} (h : AskedFor hist user)
    (req : MonitorRequest O) : AskedFor (hist ++ [req]) user := by
  obtain ⟨r,hr,h⟩ := h
  exact ⟨r,mem_append_left _ hr,h⟩

/-- The account is asked for once, and a valid user is the one asked for. -/
structure UserInv (hist : List (MonitorRequest O)) (st : Monitor O) : Prop where
  attempt : st.authctxt.attempt = hist.countP fun r => r.Is .pwnam
  once : st.authctxt.attempt ≤ 1
  user : st.authctxt.valid = true → ∃ user, st.authctxt.user = some user ∧ AskedFor hist user

/-- The identifier of the session is what was signed first. -/
structure SessionInv (hist : List (MonitorRequest O)) (st : Monitor O) : Prop where
  session : ∀ sid, st.sessionId2 = some sid → FirstSigned hist sid
  noSession : st.sessionId2 = none → ∀ r ∈ hist, ¬ r.Is .sign

/-- The key that may be verified is the one allowed last. -/
def KeyInv (hist : List (MonitorRequest O)) (st : Monitor O) : Prop :=
  ∀ blob, st.keyBlob = some blob → LatestAllowed hist blob ∧ st.keyBlobtype = .userKey

/-- What the requests so far were, seen from the state. -/
structure PreauthInv (hist : List (MonitorRequest O)) (st : Monitor O) : Prop where
  user : UserInv hist st
  session : SessionInv hist st
  key : KeyInv hist st

lemma PreauthInv.initial (options : ServerOptions) (authOpts : O) :
    PreauthInv [] (Monitor.initial options authOpts) :=
  ⟨⟨rfl,Nat.zero_le 1,nofun⟩,⟨nofun,by simp⟩,nofun⟩

lemma PreauthInv.frame (hi : PreauthInv hist st) (h : Frame st st') : PreauthInv hist st' := by
  obtain ⟨⟨hattempt,honce,huser⟩,⟨hsession,hno⟩,hkey⟩ := hi
  refine ⟨⟨?_,?_,?_⟩,⟨?_,?_⟩,?_⟩
  · rw [h.attempt,hattempt]
  · rwa [h.attempt]
  · rwa [h.valid,h.user]
  · rwa [h.sessionId2]
  · rwa [h.sessionId2]
  · unfold KeyInv
    rwa [h.keyBlob,h.keyBlobtype]

lemma MonitorRequest.Is.not {type' : MonitorReq} (h : req.Is type) (hne : type ≠ type') :
    ¬ req.Is type' :=
  fun h' => hne (MonitorReq.code_injective (h.symm.trans h'))

variable {st : Monitor O}

lemma UserInv.snoc (hi : UserInv hist st) (h : ¬ req.Is .pwnam) : UserInv (hist ++ [req]) st := by
  refine ⟨?_,hi.once,?_⟩
  · rw [hi.attempt]
    simp [h]
  · intro hv
    obtain ⟨user,hu,ha⟩ := hi.user hv
    exact ⟨user,hu,ha.snoc req⟩

lemma SessionInv.snoc (hi : SessionInv hist st) (h : ¬ req.Is .sign) :
    SessionInv (hist ++ [req]) st := by
  refine ⟨fun sid hs => (hi.session sid hs).snoc req,?_⟩
  intro hs r hr
  rcases mem_append.mp hr with hr | hr
  · exact hi.noSession hs r hr
  · rw [mem_singleton.mp hr]
    exact h

lemma KeyInv.snoc (hi : KeyInv hist st) (ha : ¬ req.Is .keyallowed) (hv : ¬ req.Is .keyverify) :
    KeyInv (hist ++ [req]) st := by
  intro blob hb
  obtain ⟨hl,htype⟩ := hi blob hb
  exact ⟨hl.snoc ha hv,htype⟩

lemma PreauthInv.other (hi : PreauthInv hist st) (his : req.Is type) (hs : type ≠ .sign)
    (hp : type ≠ .pwnam) (ha : type ≠ .keyallowed) (hv : type ≠ .keyverify) :
    PreauthInv (hist ++ [req]) st :=
  ⟨hi.user.snoc (his.not hp),hi.session.snoc (his.not hs),hi.key.snoc (his.not ha) (his.not hv)⟩

lemma PreauthInv.sign (hi : PreauthInv hist st) (his : req.Is .sign)
    (h : mmAnswerSign req.env st req.payload = some (st',ret)) :
    PreauthInv (hist ++ [req]) st' := by
  obtain ⟨keyid,p,alg,hparse,hsid,hframe⟩ := mmAnswerSign_ok h
  have hi' : PreauthInv (hist ++ [req]) { st with sessionId2 := st'.sessionId2 } := by
    refine ⟨?_,⟨?_,?_⟩,?_⟩
    · obtain ⟨hattempt,honce,huser⟩ := hi.user.snoc (his.not (by decide))
      exact ⟨hattempt,honce,huser⟩
    · intro sid heq
      rw [hsid,Option.some.injEq] at heq
      cases hst : st.sessionId2 with
      | none =>
        -- the first signature
        rw [hst] at heq
        subst heq
        exact ⟨hist,req,[],keyid,alg,rfl,his,hparse,hi.session.noSession hst⟩
      | some sid' =>
        rw [hst] at heq
        subst heq
        exact (hi.session.session sid' hst).snoc req
    · intro heq
      rw [hsid] at heq
      cases heq
    · exact hi.key.snoc (his.not (by decide)) (his.not (by decide))
  exact hi'.frame hframe

lemma PreauthInv.pwnam (hi : PreauthInv hist st) (his : req.Is .pwnam)
    (h : mmAnswerPwnamallow options req.env st req.payload = some (st',ret)) :
    PreauthInv (hist ++ [req]) st' := by
  obtain ⟨user,rest,hparse,hzero,hone,huser,hvalid,hsid,hblob,htype⟩ := mmAnswerPwnamallow_ok h
  have hcount : hist.countP (fun r => r.Is .pwnam) = 0 := by rw [← hi.user.attempt,hzero]
  refine ⟨⟨?_,by rw [hone],?_⟩,?_,?_⟩
  · rw [hone,countP_append,hcount]
    simp [his]
  · intro hv
    rw [hvalid] at hv
    refine ⟨user,huser,?_⟩
    -- nobody was valid before the account was asked for
    have hnot : st.authctxt.valid = false := by
      rw [← Bool.not_eq_true]
      intro hv'
      obtain ⟨-,-,r,hr,hpw,-⟩ := hi.user.user hv'
      exact countP_eq_zero.mp hcount r hr (decide_eq_true hpw)
    rw [hnot] at hv
    exact ⟨req,by simp,his,⟨rest,hparse⟩,hv⟩
  · obtain ⟨hsession,hno⟩ := hi.session.snoc (his.not (by decide))
    exact ⟨by rwa [hsid],by rwa [hsid]⟩
  · have hkey := hi.key.snoc (his.not (by decide)) (his.not (by decide))
    unfold KeyInv at hkey ⊢
    rwa [hblob,htype]

lemma PreauthInv.keyallowed (hhost : options.hostbasedAuthentication = false)
    (hi : PreauthInv hist st) (his : req.Is .keyallowed)
    (h : mmAnswerKeyallowed options req.env st req.payload = some (st',ret)) :
    PreauthInv (hist ++ [req]) st' := by
  obtain ⟨hframe,hallowed⟩ := mmAnswerKeyallowed_ok hhost his h
  obtain ⟨hattempt,honce,huser⟩ := hi.user.snoc (his.not (by decide))
  obtain ⟨hsession,hno⟩ := hi.session.snoc (his.not (by decide))
  refine PreauthInv.frame ?_ hframe
  refine ⟨⟨hattempt,honce,huser⟩,⟨hsession,hno⟩,?_⟩
  intro blob hb
  obtain ⟨hallows,htype⟩ := hallowed blob hb
  exact ⟨⟨hist,req,[],rfl,hallows,by simp⟩,htype⟩

lemma PreauthInv.keyverify (hi : PreauthInv hist st) (his : req.Is .keyverify)
    (h : mmAnswerKeyverify req.env st req.payload = some (st',ret)) :
    PreauthInv (hist ++ [req]) st' := by
  obtain ⟨v,key,method,-,-,-,-,-,hframe⟩ := mmAnswerKeyverify_ok h
  obtain ⟨hattempt,honce,huser⟩ := hi.user.snoc (his.not (by decide))
  obtain ⟨hsession,hno⟩ := hi.session.snoc (his.not (by decide))
  refine PreauthInv.frame ?_ hframe
  exact ⟨⟨hattempt,honce,huser⟩,⟨hsession,hno⟩,nofun⟩

variable (hhost : options.hostbasedAuthentication = false)

include hhost

lemma answer_inv (hi : PreauthInv hist st)
    (his : req.Is type) (h : answer options st req type = some (st',ret)) :
    PreauthInv (hist ++ [req]) st' := by
  cases type with
  | moduli =>
    exact (hi.other his (by decide) (by decide) (by decide) (by decide)).frame
      (mmAnswerModuli_frame h)
  | sign => exact hi.sign his h
  | pwnam => exact hi.pwnam his h
  | authserv =>
    exact (hi.other his (by decide) (by decide) (by decide) (by decide)).frame
      (mmAnswerAuthserv_frame h)
  | auth2ReadBanner =>
    cases h
    exact hi.other his (by decide) (by decide) (by decide) (by decide)
  | authpassword =>
    exact (hi.other his (by decide) (by decide) (by decide) (by decide)).frame
      (mmAnswerAuthpassword_frame h)
  | keyallowed => exact hi.keyallowed hhost his h
  | keyverify => exact hi.keyverify his h

lemma preauthStep_inv (hi : PreauthInv hist st)
    (h : preauthStep options st req = some (st',authenticated)) :
    PreauthInv (hist ++ [req]) st' := by
  obtain ⟨type,st1,ret,his,hans,hframe,-⟩ := preauthStep_ok h
  exact (answer_inv hhost (hi.frame (frame_resetMethod st)) his hans).frame hframe

lemma monitorChildPreauth_left {reqs rest : List (MonitorRequest O)} (hi : PreauthInv hist st)
    (h : monitorChildPreauth options st reqs = .authenticated st' rest) :
    ∃ more req st0, reqs = more ++ req :: rest ∧ PreauthInv (hist ++ more) st0 ∧
      preauthStep options st0 req = some (st',true) ∧ st'.authctxt.valid = true := by
  induction reqs generalizing st hist with
  | nil => cases h
  | cons req reqs ih =>
    rw [monitorChildPreauth] at h
    split at h
    · cases h
    · rename_i st1 hstep
      obtain ⟨more,r,st0,rfl,hinv,hlast,hvalid⟩ := ih (preauthStep_inv hhost hi hstep) h
      refine ⟨req :: more,r,st0,rfl,?_,hlast,hvalid⟩
      rwa [append_assoc] at hinv
    · rename_i st1 hstep
      split at h
      · cases h
      · rename_i hvalid
        cases h
        refine ⟨[],req,st,rfl,?_,hstep,?_⟩
        · rwa [append_nil]
        · simp only [not_or,Bool.not_eq_true',Bool.not_eq_false] at hvalid
          exact hvalid.1

structure SignedRequest where
  type : UInt8
  user : Bytes
  service : Bytes
  method : Bytes
  haveSig : UInt8
  pkalg : Bytes
  pkblob : Bytes

def parseSignedRequest (b : Bytes) : Except SshErr (SignedRequest × Bytes) := do
  let (type,b) ← getU8 b
  let (user,b) ← getCstring b
  let (service,b) ← getString b
  let (method,b) ← getCstring b
  let (haveSig,b) ← getU8 b
  let (pkalg,b) ← getString b
  let (pkblob,b) ← getString b
  return (⟨type,user,service,method,haveSig,pkalg,pkblob⟩,b)

/-- The data is the identifier and a public key request of the user, with a signature and maybe a
style, and nothing else. -/
def SignedFor (oldSessionid : Bool) (sid user data : Bytes) : Prop :=
  ∃ b r, data = (if oldSessionid then sid else framed sid) ++ b ∧
    parseSignedRequest b = .ok (r,[]) ∧ r.type = msgUserauthRequest ∧
    r.method = cstr "publickey" ∧ r.haveSig ≠ 0 ∧
    (r.user = user ∨ ∃ style, r.user = user ++ colon :: style)

omit hhost

lemma takeSessionId_ok {old : Bool} {sid : Option Bytes} {data b : Bytes}
    (h : takeSessionId old sid data = .ok (true,b)) :
    ∃ p, sid = some p ∧ data = (if old then p else framed p) ++ b := by
  rw [takeSessionId] at h
  split at h
  · rename_i hold
    obtain ⟨⟨p,b'⟩,hget,h⟩ := bind_eq_ok.mp h
    simp only [pure_eq_ok,Except.ok.injEq,Prod.mk.injEq,decide_eq_true_eq] at h
    obtain ⟨hsid,rfl⟩ := h
    refine ⟨p,hsid,?_⟩
    unfold Sshbuf.get at hget
    split at hget
    · cases hget
    · cases hget
      rw [if_pos hold,take_append_drop]
  · rename_i hold
    obtain ⟨⟨p,b'⟩,hget,h⟩ := bind_eq_ok.mp h
    simp only [pure_eq_ok,Except.ok.injEq,Prod.mk.injEq,decide_eq_true_eq] at h
    obtain ⟨hsid,rfl⟩ := h
    refine ⟨p,hsid,?_⟩
    rw [if_neg hold]
    exact (getString_ok hget).2

lemma monitorValidUserblob_ok {data user : Bytes} (hu : st.authctxt.user = some user)
    (h : monitorValidUserblob env st data = .ok true) :
    ∃ sid, st.sessionId2 = some sid ∧ SignedFor env.oldSessionid sid user data := by
  rw [monitorValidUserblob] at h
  obtain ⟨⟨found,b⟩,hsid,h⟩ := bind_eq_ok.mp h
  obtain ⟨⟨type,b1⟩,h1,h⟩ := bind_eq_ok.mp h
  obtain ⟨⟨name,b2⟩,h2,h⟩ := bind_eq_ok.mp h
  obtain ⟨⟨service,b3⟩,h3,h⟩ := bind_eq_ok.mp h
  obtain ⟨⟨method,b4⟩,h4,h⟩ := bind_eq_ok.mp h
  obtain ⟨⟨haveSig,b5⟩,h5,h⟩ := bind_eq_ok.mp h
  obtain ⟨⟨pkalg,b6⟩,h6,h⟩ := bind_eq_ok.mp h
  obtain ⟨⟨pkblob,b7⟩,h7,h⟩ := bind_eq_ok.mp h
  simp only [pure_eq_ok,Except.ok.injEq,Bool.and_eq_true,decide_eq_true_eq,List.isEmpty_iff] at h
  obtain ⟨⟨⟨⟨⟨rfl,htype⟩,hname⟩,hmethod⟩,hsig⟩,rfl⟩ := h
  obtain ⟨sid,hs,rfl⟩ := takeSessionId_ok hsid
  refine ⟨sid,hs,b,⟨type,name,service,method,haveSig,pkalg,pkblob⟩,rfl,?_,htype,hmethod,hsig,?_⟩
  · simp [parseSignedRequest,h1,h2,h3,h4,h5,h6,h7]
  · rw [userstyle,hu] at hname
    cases hstyle : st.authctxt.style with
    | none =>
      rw [hstyle] at hname
      exact .inl (by simpa using hname)
    | some style =>
      rw [hstyle] at hname
      exact .inr ⟨style,hname⟩

/-- What stands behind a verified key: the account was asked for once and found, the latest request
about a key allowed this one, and its signature is good and over data of this session that names the
user. -/
structure KeyverifySound (hist : List (MonitorRequest O)) (req : MonitorRequest O) : Prop where
  once : (hist.countP fun r => r.Is .pwnam) = 1
  verified : ∃ v key user sid, parseKeyverify req.payload = .ok v ∧ AskedFor hist user ∧
    LatestAllowed hist v.blob ∧ req.env.xkeyFromBlob v.pkalg v.blob = .ok (some key) ∧
    req.env.xkeyVerify v.pkalg key v.signature v.data = true ∧ FirstSigned hist sid ∧
    SignedFor req.env.oldSessionid sid user v.data

theorem monitorChildPreauth_keyverify {options : ServerOptions} {authOpts : O}
    {reqs rest : List (MonitorRequest O)} {st : Monitor O}
    (hhost : options.hostbasedAuthentication = false)
    (h : monitorChildPreauth options (Monitor.initial options authOpts) reqs =
      .authenticated st rest) :
    ∃ hist req, reqs = hist ++ req :: rest ∧ (req.Is .keyverify → KeyverifySound hist req) := by
  obtain ⟨hist,req,st0,rfl,hi,hstep,hvalid⟩ :=
    monitorChildPreauth_left hhost (PreauthInv.initial _ _) h
  rw [nil_append] at hi
  refine ⟨hist,req,rfl,?_⟩
  intro his
  obtain ⟨type,st1,ret,his',hans,hframe,hret⟩ := preauthStep_ok hstep
  obtain rfl := MonitorReq.code_injective (his'.symm.trans his)
  obtain ⟨v,key,method,hparse,hblob,hkey,hdata,hver,hframe'⟩ := mmAnswerKeyverify_ok hans
  -- the verdict on the signature is the verdict of the handler
  rw [hret rfl] at hver
  have hval : st0.authctxt.valid = true := by
    rw [← hvalid,hframe.valid,hframe'.valid]
    rfl
  obtain ⟨user,huser,hasked⟩ := hi.user.user hval
  obtain ⟨hlatest,htype⟩ := hi.key _ hblob
  have hblobdata : monitorValidUserblob req.env (resetMethod st0) v.data = .ok true := by
    have htype : (resetMethod st0).keyBlobtype = .userKey := htype
    rw [validData,htype] at hdata
    obtain ⟨good,hgood,heq⟩ := bind_eq_ok.mp hdata
    cases heq
    exact hgood
  obtain ⟨sid,hsid,hsigned⟩ := monitorValidUserblob_ok huser hblobdata
  refine ⟨?_,v,key,user,sid,hparse,hasked,hlatest,hkey,hver.symm,
    hi.session.session sid hsid,hsigned⟩
  obtain ⟨r,hr,hpw,-⟩ := hasked
  have hpos : 0 < hist.countP fun r => r.Is .pwnam := countP_pos_iff.mpr ⟨r,hr,by simpa using hpw⟩
  have hle := hi.user.once
  rw [hi.user.attempt] at hle
  omega

end

def keyOnlyOptions : ServerOptions := { twoKeysOptions with authMethods := [] }

def aliceSession : Bytes := List.replicate 32 5

def aliceData : Bytes :=
  framed aliceSession ++ [msgUserauthRequest] ++ framed (cstr "alice") ++
    framed (cstr "ssh-connection") ++ framed (cstr "publickey") ++ [1] ++
    framed (cstr "ssh-rsa") ++ framed [1]

def aliceEnv : MonitorEnv Unit :=
  { acceptingEnv decodePlain with
    getpwnamallow := fun user => if user = cstr "alice" then some 1000 else none
    userXkeyAllowed := fun _ key => if key.1 = rsaKey 3233 17 then some () else none
    xkeyVerify := fun _ key sig data =>
      key.1 = rsaKey 3233 17 ∧ sig = [7] ∧ data = aliceData
    hostkeyPuts := fun _ _ => none
    hostkeySigns := fun _ _ _ => true }

def aliceRequest (type : MonitorReq) (payload : Bytes) : MonitorRequest Unit :=
  ⟨aliceEnv,type.code,payload⟩

def aliceRequests : List (MonitorRequest Unit) := [
  aliceRequest .sign ([0,0,0,0] ++ framed aliceSession ++
    framed (cstr "ssh-rsa") ++ [0,0,0,0,0,0,0,0]),
  aliceRequest .pwnam (framed (cstr "alice")),
  aliceRequest .authserv (framed (cstr "ssh-connection") ++ framed []),
  aliceRequest .keyallowed ([0,0,0,2] ++ framed [] ++ framed [] ++
    framed (cstr "ssh-rsa") ++ framed [1] ++ [0,0,0,1])]

def aliceVerify : MonitorRequest Unit :=
  aliceRequest .keyverify (framed (cstr "ssh-rsa") ++ framed [1] ++
    framed [7] ++ framed aliceData)

theorem monitorChildPreauth_keyverify_alice :
    ∃ st, monitorChildPreauth keyOnlyOptions (Monitor.initial keyOnlyOptions ())
        (aliceRequests ++ [aliceVerify]) = .authenticated st [] ∧
      KeyverifySound aliceRequests aliceVerify := by
  have hrun : (match monitorChildPreauth keyOnlyOptions (Monitor.initial keyOnlyOptions ())
      (aliceRequests ++ [aliceVerify]) with
      | .authenticated _ rest => rest.isEmpty
      | _ => false) = true := by
    decide +kernel
  cases h : monitorChildPreauth _ _ _ with
  | waiting st =>
    rw [h] at hrun
    cases hrun
  | dead =>
    rw [h] at hrun
    cases hrun
  | authenticated st rest =>
    rw [h] at hrun
    obtain rfl := List.isEmpty_iff.mp hrun
    refine ⟨st,rfl,?_⟩
    obtain ⟨hist,req,heq,hsound⟩ := monitorChildPreauth_keyverify (by rfl) h
    obtain ⟨rfl,hreq⟩ := append_inj' heq rfl
    cases hreq
    exact hsound rfl

end PkixSsh.Auth
