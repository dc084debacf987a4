import Mathlib.Data.List.Basic
import PkixSsh.Key.Basic

/-!
# Certificate status over OCSP

`ssh-ocsp.c`: the responders that a certificate names in its authority information access
extensions are asked one after the other, until one answers.
-/

namespace PkixSsh.Store

open Key List Option

abbrev OcspCertid := Bytes

inductive OcspCertStatus where
  | good | revoked | unknown

/-- A verified or unverified basic response. `checkNonce` is the result of `OCSP_check_nonce`,
`basicVerify` that of `OCSP_basic_verify` with the certificates given, and `findStatus` the
status of a certificate with the result of `OCSP_check_validity` for its times. -/
structure OcspBasicresp where
  checkNonce : Int
  basicVerify : Option (List X509Cert) → Int
  findStatus : OcspCertid → Option (OcspCertStatus × Bool)

structure OcspResponse where
  status : Nat
  basic : Option OcspBasicresp

structure OcspConn where
  url : Bytes
  useSsl : Bool
  host : Bytes
  port : Bytes
  path : Option Bytes

/-- `GENERAL_NAME`, as far as its type is asked for. -/
inductive GeneralName where
  | uri (data : Bytes)
  | other

structure AccessDescription where
  method : Nat
  location : GeneralName

/-- `VAOptions`, where an unknown type cannot be set. -/
inductive VaType where
  | none | ocspCert | ocspSpec

/-- What the validation works with. `getCertBySubject` finds the issuer of a certificate in the
store, `certificateFile` is the file of trusted responder certificates and what reading it
gives, `infoAccess` the values of the extensions with `NID_info_access` in their order. The
responder of the n-th query, counted from 0, answers with `getResponse n`. -/
structure OcspEnv where
  vaType : VaType
  certificateFile : Option (Option (List X509Cert))
  responderUrl : Option Bytes
  withSslocsp : Bool
  getIssuer : X509Cert → Option X509Cert
  certToId : X509Cert → X509Cert → Option OcspCertid
  infoAccess : X509Cert → List Bytes
  d2iAuthorityInfoAccess : Bytes → Option (List AccessDescription)
  getResponse : Nat → OcspConn → List OcspCertid → Option OcspResponse

def nidAdOcsp : Nat := 178

structure OcspQuery where
  conn : OcspConn
  result : Int

section

variable (env : OcspEnv)

def sshOcspSetProtocol (protocol : Bytes) : Option Bool :=
  if protocol = cstr "http" then some false
  else if env.withSslocsp && protocol = cstr "https" then some true
  else none

def colon : UInt8 := 58

def sshOcspConnNew (url : Bytes) : Option OcspConn := do
  let url := url.takeWhile (· ≠ 0)
  guard (colon ∈ url)
  let useSsl ← sshOcspSetProtocol env (url.takeWhile (· ≠ colon))
  match (url.dropWhile (· ≠ colon)).drop 1 with
  | c1 :: c2 :: rest =>
    guard (c1 = slash ∧ c2 = slash ∧ rest ≠ [])
    let host := rest.takeWhile (· ≠ slash)
    let path := rest.dropWhile (· ≠ slash)
    -- the last colon of the host starts the port, which may be empty
    let afterColon := (host.reverse.takeWhile (· ≠ colon)).reverse
    let port := if colon ∈ host then afterColon else []
    return {
      url := url
      useSsl := useSsl
      host := if colon ∈ host then host.take (host.length - afterColon.length - 1) else host
      port := if port ≠ [] then port else if useSsl then cstr "443" else cstr "80"
      path := if 1 < path.length then some path else none }
  | _ => none

def sshOcspreqAddcert (cert : X509Cert) (ids : List OcspCertid) : Option (List OcspCertid) := do
  let issuer ← env.getIssuer cert
  let id ← env.certToId cert issuer
  return ids ++ [id]

def sshOcspGetBasicresp (resp : OcspResponse) (vacrts : Option (List X509Cert)) :
    Option OcspBasicresp := do
  let br ← resp.basic
  guard (0 < br.checkNonce ∨ br.checkNonce = -1)
  let flag :=
    match vacrts with
    | some (c :: cs) => br.basicVerify (some (c :: cs))
    | _ => -1
  let flag := if flag < 0 then br.basicVerify none else flag
  guard (0 < flag)
  return br

def checkStatuses (br : OcspBasicresp) : List OcspCertid → Int
  | [] => 1
  | id :: ids =>
    match br.findStatus id with
    | none => -1
    | some (_,false) => -1
    | some (.good,true) => checkStatuses br ids
    | some (.unknown,true) => -1
    | some (.revoked,true) => 0

/-- `ssh_ocsp_check_validity`; there are as many subjects as ids. -/
def sshOcspCheckValidity (br : OcspBasicresp) (ids : List OcspCertid) : Int :=
  if ids.length = 0 then -1 else checkStatuses br ids

/-- The responder certificates that `ssh_ocsp_validate2` loads, if it loads any. -/
def loadVacrts : Option (Option (List X509Cert)) :=
  match env.vaType, env.certificateFile with
  | .ocspSpec, some file => file.map some
  | _, _ => some none

def sshOcspValidate2 (n : Nat) (cert : X509Cert) (conn : OcspConn) : Int :=
  (do
    let vacrts ← loadVacrts env
    let ids ← sshOcspreqAddcert env cert []
    let resp ← env.getResponse n conn ids
    guard (resp.status = 0)
    let br ← sshOcspGetBasicresp resp vacrts
    return sshOcspCheckValidity br ids).getD (-1)

/-- What the two loops carry: `ret`, the flag of a responder's URL, and the queries made. -/
structure OcspState where
  ret : Int
  found : Bool
  log : List OcspQuery

def aiaocspLoop (cert : X509Cert) : List AccessDescription → OcspState → OcspState
  | [], st => st
  | ad :: aia, st =>
    if ad.method ≠ nidAdOcsp then aiaocspLoop cert aia st
    else
      match ad.location with
      | .other => aiaocspLoop cert aia st
      | .uri data =>
        let st := { st with found := true }
        match sshOcspConnNew env data with
        | none => aiaocspLoop cert aia st
        | some conn =>
          let ret := sshOcspValidate2 env st.log.length cert conn
          let st := { st with ret := ret, log := st.log ++ [⟨conn,ret⟩] }
          if 0 ≤ ret then st else aiaocspLoop cert aia st

def sshAiaocspValidate (cert : X509Cert) (aia : List AccessDescription) (log : List OcspQuery) :
    OcspState :=
  let st := aiaocspLoop env cert aia ⟨-1,false,log⟩
  { st with ret := if st.found then st.ret else 1 }

def validate4certLoop (cert : X509Cert) : List Bytes → OcspState → OcspState
  | [], st => st
  | ext :: exts, st =>
    match env.d2iAuthorityInfoAccess ext with
    | none => validate4certLoop cert exts st
    | some aia =>
      let st := sshAiaocspValidate env cert aia st.log
      if 0 ≤ st.ret then st else validate4certLoop cert exts st

def sshOcspValidate4cert (cert : Option X509Cert) : Int × List OcspQuery :=
  match cert with
  | none => (0,[])
  | some cert =>
    let st := validate4certLoop env cert (env.infoAccess cert) ⟨-1,false,[]⟩
    (if st.found then st.ret else 1,st.log)

end

section

variable (env : OcspEnv) (cert : X509Cert)

def AccessDescription.responder (ad : AccessDescription) : Option Bytes :=
  match ad.location with
  | .uri data => if ad.method = nidAdOcsp then some data else none
  | .other => none

variable (aia : List AccessDescription)

def namesResponder : Bool := aia.any fun ad => ad.responder.isSome

def responders : List OcspConn :=
  aia.filterMap fun ad => ad.responder.bind (sshOcspConnNew env)

def results (n : Nat) (conns : List OcspConn) : List Int :=
  (conns.zipIdx n).map fun x => sshOcspValidate2 env x.2 cert x.1

def answer (n : Nat) (conns : List OcspConn) : Option Int :=
  (results env cert n conns).find? fun r => 0 ≤ r

def decoded : List (List AccessDescription) :=
  (env.infoAccess cert).filterMap env.d2iAuthorityInfoAccess

end

section

variable {env : OcspEnv} {cert : X509Cert} {n : Nat} {conns : List OcspConn}
  {aia : List AccessDescription}

lemma results_cons {conn : OcspConn} :
    results env cert n (conn :: conns) =
      sshOcspValidate2 env n cert conn :: results env cert (n + 1) conns := rfl

lemma results_append {a b : List OcspConn} : results env cert n (a ++ b) =
      results env cert n a ++ results env cert (n + a.length) b := by
  rw [results,zipIdx_append,map_append]
  rfl

@[simp] lemma length_results : (results env cert n conns).length = conns.length := by
  rw [results,length_map,length_zipIdx]

lemma answer_eq_none :
    answer env cert n conns = none ↔ ∀ r ∈ results env cert n conns, r < 0 := by
  simp [answer]

lemma answer_append {a b : List OcspConn} : answer env cert n (a ++ b) =
      (answer env cert n a).or (answer env cert (n + a.length) b) := by
  rw [answer,results_append,List.find?_append]
  rfl

lemma responders_eq_nil (h : namesResponder aia = false) : responders env aia = [] := by
  refine filterMap_eq_nil_iff.mpr fun ad had => ?_
  have hnone := List.any_eq_false.mp h ad had
  rw [Bool.not_eq_true,isSome_eq_false_iff,isNone_iff_eq_none] at hnone
  rw [hnone]
  rfl

lemma aiaocspLoop_cons (ad : AccessDescription) (st : OcspState) :
    aiaocspLoop env cert (ad :: aia) st = match ad.responder with
      | none => aiaocspLoop env cert aia st
      | some data => match sshOcspConnNew env data with
        | none => aiaocspLoop env cert aia { st with found := true }
        | some conn => let ret := sshOcspValidate2 env st.log.length cert conn
          let st' := OcspState.mk ret true (st.log ++ [⟨conn,ret⟩])
          if 0 ≤ ret then st' else aiaocspLoop env cert aia st' := by
  rw [aiaocspLoop,AccessDescription.responder]
  by_cases hm : ad.method = nidAdOcsp
  · rw [if_neg (not_not.mpr hm)]
    cases ad.location with
    | other => rfl
    | uri data =>
      dsimp only
      rw [if_pos hm]
  · rw [if_pos hm]
    cases ad.location with
    | other => rfl
    | uri data =>
      dsimp only
      rw [if_neg hm]

/-- The loop over the descriptions stops at the first answer. Without one it goes through all
of them, with a failure for result. -/
lemma aiaocspLoop_spec (st : OcspState) (hret : st.ret < 0) :
    match answer env cert st.log.length (responders env aia) with
    | some r => (aiaocspLoop env cert aia st).ret = r ∧ (aiaocspLoop env cert aia st).found ∧
        ∃ q ∈ (aiaocspLoop env cert aia st).log, q.result = r
    | none => (aiaocspLoop env cert aia st).ret < 0 ∧
        (aiaocspLoop env cert aia st).found = (st.found || namesResponder aia) ∧
        (aiaocspLoop env cert aia st).log.map OcspQuery.result =
          st.log.map OcspQuery.result ++ results env cert st.log.length (responders env aia) := by
  induction aia generalizing st with
  | nil => simp [responders,answer,results,aiaocspLoop,namesResponder,hret]
  | cons ad aia ih =>
    have hnames : namesResponder (ad :: aia) = (ad.responder.isSome || namesResponder aia) := rfl
    have hresponders : responders env (ad :: aia) =
        (ad.responder.bind (sshOcspConnNew env)).toList ++ responders env aia := by
      rw [responders,filterMap_cons]
      cases ad.responder.bind _ with
      | none => rfl
      | some conn => rfl
    rw [aiaocspLoop_cons,hnames,hresponders]
    cases hresp : ad.responder with
    | none => exact ih st hret
    | some data =>
      simp only [bind_some]
      cases hconn : sshOcspConnNew env data with
      | none =>
        simpa using ih { st with found := true } hret
      | some conn =>
        simp only [toList_some,singleton_append,answer,results_cons]
        by_cases hr : 0 ≤ sshOcspValidate2 env st.log.length cert conn
        · simp [hr]
        · -- the query has failed, and the loop goes on behind it
          have := ih ⟨sshOcspValidate2 env _ cert conn,true,
            st.log ++ [⟨conn,sshOcspValidate2 env st.log.length cert conn⟩]⟩ (by simpa using hr)
          simpa [hr,answer] using this

lemma sshAiaocspValidate_spec (log : List OcspQuery) :
    match answer env cert log.length (responders env aia) with
    | some r => (sshAiaocspValidate env cert aia log).ret = r ∧
        (sshAiaocspValidate env cert aia log).found ∧
        ∃ q ∈ (sshAiaocspValidate env cert aia log).log, q.result = r
    | none => (sshAiaocspValidate env cert aia log).found = namesResponder aia ∧
        (if namesResponder aia then (sshAiaocspValidate env cert aia log).ret < 0
          else (sshAiaocspValidate env cert aia log).ret = 1) ∧
        (sshAiaocspValidate env cert aia log).log.map OcspQuery.result =
          log.map OcspQuery.result ++ results env cert log.length (responders env aia) := by
  have h := @aiaocspLoop_spec env cert aia ⟨-1,false,log⟩ (by simp)
  simp only [sshAiaocspValidate]
  cases hans : answer env cert _ _ with
  | some r =>
    simp only [hans] at h
    simpa [h.2.1] using ⟨h.1,h.2.2⟩
  | none =>
    simp only [hans] at h
    cases hnames : namesResponder aia with
    | true => simpa [h.2.1,hnames] using ⟨h.1,h.2.2⟩
    | false => simpa [h.2.1,hnames] using h.2.2

/-- An extension that the loop comes to unless it stops at one that names no responder. -/
def Reached (env : OcspEnv) (cert : X509Cert) (n : Nat) (aias : List (List AccessDescription))
    (aia : List AccessDescription) : Prop :=
  ∃ before after, aias = before ++ aia :: after ∧
    answer env cert n (before.flatMap (responders env)) = none

lemma reached_cons {a : List AccessDescription} {aias : List (List AccessDescription)} :
    Reached env cert n (aia :: aias) a ↔ a = aia ∨ answer env cert n (responders env aia) = none ∧
        Reached env cert (n + (responders env aia).length) aias a := by
  constructor
  · rintro ⟨before,after,heq,hnone⟩
    cases before with
    | nil =>
      rw [nil_append,List.cons.injEq] at heq
      exact .inl heq.1.symm
    | cons b before =>
      obtain ⟨rfl,rfl⟩ := heq
      rw [flatMap_cons,answer_append,or_eq_none_iff] at hnone
      exact .inr ⟨hnone.1,before,after,rfl,hnone.2⟩
  · rintro (rfl | ⟨hnone,before,after,rfl,hnone'⟩)
    · exact ⟨[],aias,rfl,rfl⟩
    · refine ⟨aia :: before,after,rfl,?_⟩
      rw [flatMap_cons,answer_append,hnone,hnone']
      rfl

inductive Ends (env : OcspEnv) (cert : X509Cert) (aias : List (List AccessDescription))
    (st out : OcspState) : Prop
  | silent (aia : List AccessDescription) (reached : Reached env cert st.log.length aias aia)
      (unnamed : namesResponder aia = false) (found : out.found = false)
      (failed : (∀ q ∈ st.log, q.result < 0) → ∀ q ∈ out.log, q.result < 0)
  | answered (named : ∀ aia, Reached env cert st.log.length aias aia → namesResponder aia)
      (settled : answer env cert st.log.length (aias.flatMap (responders env)) = some out.ret)
      (found : out.found) (asked : ∃ q ∈ out.log, q.result = out.ret)
  | failed (named : ∀ aia, Reached env cert st.log.length aias aia → namesResponder aia)
      (unsettled : answer env cert st.log.length (aias.flatMap (responders env)) = none)
      (found : out.found) (ret : out.ret < 0) (nonempty : aias ≠ [])
  | untouched (empty : aias = []) (same : out = st)

lemma answer_nonneg {r : Int} (h : answer env cert n conns = some r) : 0 ≤ r := by
  simpa using List.find?_some h

lemma namesResponder_of_answer {r : Int} (h : answer env cert n (responders env aia) = some r) :
    namesResponder aia := by
  by_contra hnames
  rw [responders_eq_nil (Bool.eq_false_of_not_eq_true hnames)] at h
  cases h

lemma log_failed {log log' : List OcspQuery} {rs : List Int}
    (hlog : log'.map OcspQuery.result = log.map OcspQuery.result ++ rs) (hrs : ∀ r ∈ rs, r < 0)
    (h : ∀ q ∈ log, q.result < 0) : ∀ q ∈ log', q.result < 0 := by
  intro q hq
  have hmem : q.result ∈ log'.map _ := List.mem_map_of_mem hq
  rw [hlog,mem_append,List.mem_map] at hmem
  rcases hmem with ⟨q',hq',heq⟩ | hmem
  · exact heq ▸ h q' hq'
  · exact hrs _ hmem

lemma Ends.cons {aia : List AccessDescription} {aias : List (List AccessDescription)}
    {st st' out : OcspState} (h : Ends env cert aias st' out)
    (hnone : answer env cert st.log.length (responders env aia) = none)
    (hnames : namesResponder aia) (hfound : st'.found) (hret : st'.ret < 0)
    (hlog : st'.log.map OcspQuery.result =
      st.log.map OcspQuery.result ++ results env cert st.log.length (responders env aia)) :
    Ends env cert (aia :: aias) st out := by
  have hlength : st'.log.length = st.log.length + (responders env aia).length := by
    have := congrArg List.length hlog
    simpa using this
  have hnamed : (∀ a, Reached env cert st'.log.length aias a → namesResponder a) →
      ∀ a, Reached env cert st.log.length (aia :: aias) a → namesResponder a := by
    intro hreached a ha
    rcases reached_cons.mp ha with rfl | ⟨-,ha⟩
    · exact hnames
    · exact hreached a (hlength ▸ ha)
  have hanswer : answer env cert st.log.length ((aia :: aias).flatMap (responders env)) =
      answer env cert st'.log.length (aias.flatMap (responders env)) := by
    rw [flatMap_cons,answer_append,hnone,none_or,hlength]
  cases h with
  | silent a reached unnamed found failed =>
    refine .silent a (reached_cons.mpr (.inr ⟨hnone,hlength ▸ reached⟩)) unnamed found ?_
    exact fun hst => failed (log_failed hlog (answer_eq_none.mp hnone) hst)
  | answered named settled found asked =>
    exact .answered (hnamed named) (hanswer.trans settled) found asked
  | failed named unsettled found ret nonempty =>
    exact .failed (hnamed named) (hanswer.trans unsettled) found ret (cons_ne_nil _ _)
  | untouched empty same =>
    subst empty same
    have hreached : ∀ a, ¬ Reached env cert out.log.length [] a := by
      rintro a ⟨before,after,heq,-⟩
      simp at heq
    exact .failed (hnamed fun a ha => absurd ha (hreached a)) hanswer hfound hret (cons_ne_nil _ _)

lemma validate4certLoop_ends (exts : List Bytes) (st : OcspState) :
    Ends env cert (exts.filterMap env.d2iAuthorityInfoAccess) st
      (validate4certLoop env cert exts st) := by
  induction exts generalizing st with
  | nil => exact .untouched rfl rfl
  | cons ext exts ih =>
    rw [filterMap_cons,validate4certLoop]
    cases env.d2iAuthorityInfoAccess ext with
    | none => exact ih st
    | some aia =>
      have hspec := @sshAiaocspValidate_spec env cert aia st.log
      dsimp only
      cases hans : answer env cert st.log.length (responders env aia) with
      | some r =>
        simp only [hans] at hspec
        obtain ⟨hret,hfound,q,hq,hresult⟩ := hspec
        rw [if_pos (hret ▸ answer_nonneg hans)]
        refine .answered (fun a ha => ?_) ?_ hfound ⟨q,hq,hresult.trans hret.symm⟩
        · rcases reached_cons.mp ha with rfl | ⟨hnone,-⟩
          · exact namesResponder_of_answer hans
          · rw [hans] at hnone
            cases hnone
        · rw [flatMap_cons,answer_append,hans,hret]
          rfl
      | none =>
        simp only [hans] at hspec
        obtain ⟨hfound,hret,hlog⟩ := hspec
        cases hnames : namesResponder aia with
        | true =>
          rw [hnames] at hfound hret
          rw [if_neg (not_le.mpr hret)]
          exact (ih _).cons hans hnames hfound hret hlog
        | false =>
          rw [hnames] at hfound hret
          rw [if_pos (by rw [hret]; exact Int.zero_le_ofNat 1)]
          exact .silent aia (reached_cons.mpr (.inl rfl)) hnames hfound
            (log_failed hlog (answer_eq_none.mp hans))

end

section

variable (env : OcspEnv) (cert : X509Cert)

/-- A certificate that names a responder passes only with its word, and one with an extension that
cannot be decoded does not. -/
structure FailsClosed : Prop where
  named : (∃ aia ∈ decoded env cert, namesResponder aia) →
    (sshOcspValidate4cert env (some cert)).1 = 1 →
    ∃ q ∈ (sshOcspValidate4cert env (some cert)).2, q.result = 1
  undecoded : (∃ ext ∈ env.infoAccess cert, env.d2iAuthorityInfoAccess ext = none) →
    (sshOcspValidate4cert env (some cert)).1 ≠ 1

/-- Either there is nothing to ask, or each extension up to the first answer names a responder,
and where some extension cannot be decoded that answer is not 1. -/
def RespondersDecide : Prop :=
  (∀ ext ∈ env.infoAccess cert, env.d2iAuthorityInfoAccess ext ≠ none) ∧
      (∀ aia ∈ decoded env cert, ¬ namesResponder aia) ∨
    decoded env cert ≠ [] ∧ (∀ aia, Reached env cert 0 (decoded env cert) aia →
      namesResponder aia) ∧
      ((∀ ext ∈ env.infoAccess cert, env.d2iAuthorityInfoAccess ext ≠ none) ∨
        answer env cert 0 ((decoded env cert).flatMap (responders env)) ≠ some 1)

end

section

variable {env : OcspEnv} {cert : X509Cert}

lemma failsClosed_of_one (h : (sshOcspValidate4cert env (some cert)).1 = 1) :
    FailsClosed env cert ↔ (∀ ext ∈ env.infoAccess cert, env.d2iAuthorityInfoAccess ext ≠ none) ∧
        ((∃ aia ∈ decoded env cert, namesResponder aia) →
          ∃ q ∈ (sshOcspValidate4cert env (some cert)).2, q.result = 1) :=
  ⟨fun hc => ⟨fun ext hext hnone => hc.undecoded ⟨ext,hext,hnone⟩ h,fun hn => hc.named hn h⟩,
    fun ⟨hdec,hn⟩ => ⟨fun hnamed _ => hn hnamed,fun ⟨ext,hext,hnone⟩ => absurd hnone
      (hdec ext hext)⟩⟩

lemma failsClosed_of_ne_one (h : (sshOcspValidate4cert env (some cert)).1 ≠ 1) :
    FailsClosed env cert := ⟨fun _ h1 => absurd h1 h,fun _ => h⟩

/-- The validation fails closed exactly where the responders decide. -/
theorem failsClosed_iff_respondersDecide (env : OcspEnv) (cert : X509Cert) :
    FailsClosed env cert ↔ RespondersDecide env cert := by
  rw [RespondersDecide]
  have hends := @validate4certLoop_ends env cert (env.infoAccess cert) ⟨-1,false,[]⟩
  obtain ⟨out,hout⟩ : ∃ out, validate4certLoop env cert (env.infoAccess cert) ⟨-1,false,[]⟩ = out :=
    ⟨_,rfl⟩
  have hresult : sshOcspValidate4cert env (some cert) =
      (if out.found then out.ret else 1,out.log) := hout ▸ rfl
  rw [hout] at hends
  cases hends with
  | silent aia reached unnamed found failed =>
    rw [found] at hresult
    have hlog : ∀ q ∈ out.log, q.result < 0 := failed fun q hq => absurd hq not_mem_nil
    rw [failsClosed_of_one (congrArg _ hresult),hresult]
    constructor
    · rintro ⟨hdec,hnamed⟩
      refine .inl ⟨hdec,fun a ha hn => ?_⟩
      obtain ⟨q,hq,hq1⟩ := hnamed ⟨a,ha,hn⟩
      have := hlog q hq
      omega
    · rintro (⟨hdec,hnone⟩ | ⟨-,hreached,-⟩)
      · exact ⟨hdec,fun ⟨a,ha,hn⟩ => absurd hn (hnone a ha)⟩
      · have := hreached aia reached
        rw [unnamed] at this
        cases this
  | answered named settled found asked =>
    rw [found] at hresult
    have hne : decoded env cert ≠ [] := by
      intro hnil
      change answer env cert 0 ((decoded env cert).flatMap _) = _ at settled
      rw [hnil] at settled
      cases settled
    by_cases hr : out.ret = 1
    · rw [failsClosed_of_one ((congrArg _ hresult).trans hr),hresult]
      have hasked : ∃ q ∈ out.log, q.result = 1 := hr ▸ asked
      constructor
      · exact fun ⟨hdec,_⟩ => .inr ⟨hne,named,.inl hdec⟩
      · rintro (⟨hdec,-⟩ | ⟨-,-,hdec | hans⟩)
        · exact ⟨hdec,fun _ => hasked⟩
        · exact ⟨hdec,fun _ => hasked⟩
        · exact absurd (settled.trans (congrArg some hr)) hans
    · refine iff_of_true (failsClosed_of_ne_one ?_) (.inr ⟨hne,named,.inr ?_⟩)
      · rw [hresult]
        exact hr
      · exact fun h => hr (Option.some.inj (settled.symm.trans h))
  | failed named unsettled found ret nonempty =>
    rw [found,if_pos rfl] at hresult
    refine iff_of_true (failsClosed_of_ne_one ?_) (.inr ⟨nonempty,named,.inr ?_⟩)
    · rw [hresult]
      omega
    · exact fun h => (by cases unsettled.symm.trans h)
  | untouched empty same =>
    subst same
    have hnil : decoded env cert = [] := empty
    rw [failsClosed_of_one (congrArg _ hresult),hnil]
    constructor
    · exact fun ⟨hdec,_⟩ => .inl ⟨hdec,fun a ha => absurd ha not_mem_nil⟩
    · rintro (⟨hdec,-⟩ | ⟨hne,-⟩)
      · exact ⟨hdec,fun ⟨a,ha,_⟩ => absurd ha not_mem_nil⟩
      · exact absurd rfl hne

end

def exampleResponder (url : String) : AccessDescription := ⟨nidAdOcsp,.uri (cstr url)⟩

def exampleOcsp (aias : List (Option (List AccessDescription))) : OcspEnv :=
  { vaType := .ocspCert
    certificateFile := none
    responderUrl := none
    withSslocsp := false
    getIssuer := fun _ => none
    certToId := fun _ _ => none
    infoAccess := fun _ => (List.range aias.length).map fun i => [i.toUInt8]
    d2iAuthorityInfoAccess := fun ext => (aias[ext.headD 0 |>.toNat]?).join
    getResponse := fun _ _ _ => none }

/-- The failure to ask a responder is forgotten at the next extension, which names none; and a
certificate whose only extension cannot be decoded passes. -/
theorem failsClosed_not :
    (sshOcspValidate4cert (exampleOcsp [some [exampleResponder "http://ocsp.example/"],some []])
        (some ⟨[],[]⟩)).1 = 1 ∧
      ¬ FailsClosed (exampleOcsp [some [exampleResponder "http://ocsp.example/"],some []]) ⟨[],[]⟩ ∧
      ¬ FailsClosed (exampleOcsp [none]) ⟨[],[]⟩ := by
  refine ⟨by decide +kernel,fun h => ?_,fun h => ?_⟩
  · obtain ⟨q,hq,hresult⟩ := h.named (by decide +kernel) (by decide +kernel)
    have hlog : ∀ q ∈ (sshOcspValidate4cert (exampleOcsp
        [some [exampleResponder "http://ocsp.example/"],some []]) (some ⟨[],[]⟩)).2,
        q.result = -1 := by decide +kernel
    have := hlog q hq
    omega
  · exact h.undecoded (by decide +kernel) (by decide +kernel)

end PkixSsh.Store
