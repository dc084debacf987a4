import PkixSsh.Key.Equivalence
import PkixSsh.Hostfile.CheckHostKey

/-!
# What strict checking of host keys guarantees

An accepted key is listed under the name of the host. Its address is compared only for plain keys
not offered as certificates, and a key revoked for the address is let through.
-/

namespace PkixSsh.Hostfile

open Key X509 Sshbuf Match Except

section

variable {env : Env} {conn : Connection} {o : Options} {flag flag' : Bool} {readonly : Readonly}
  {k key : SshKey} {inner : StrictCall} {port : UInt16} {host : Bytes} {hostStatus : HostStatus}

lemma verdictOf_eq_accept {ipStatus : HostStatus} {found : Option SshKey} :
    verdictOf env conn o flag readonly hostStatus ipStatus found key = .accept k ↔
      ¬ (flag ∧ ipStatus = .changed) ∧
        (hostStatus = .ok ∧ k = key ∧ (sshkeyIsCert key → certAccepted env conn o key) ∨
          hostStatus = .new ∧ (found = some k ∨ found = none ∧ k = key ∧ readonly = .rdrw ∧
            ¬ sshkeyIsCert key ∧ o.strictHostKeyChecking ≠ .yes)) := by
  cases hostStatus with
  | ok =>
    simp only [verdictOf,Bool.or_eq_true,Bool.and_eq_true,Bool.not_eq_true',decide_eq_true_eq,
      reduceCtorEq,false_and,or_false,true_and]
    split_ifs with h
    · grind
    · rw [Verdict.accept.injEq]
      grind
  | new =>
    cases found with
    | some k' =>
      simp only [verdictOf,Bool.and_eq_true,decide_eq_true_eq,reduceCtorEq,false_and,or_false,
        false_or,true_and,Option.some.injEq]
      split_ifs with h
      · grind
      · rw [Verdict.accept.injEq]
        grind
    | none =>
      simp only [verdictOf,Bool.or_eq_true,Bool.and_eq_true,decide_eq_true_eq,reduceCtorEq,
        false_and,false_or,true_and]
      split_ifs with h
      · grind
      · rw [Verdict.accept.injEq]
        grind
  | revoked => simp [verdictOf]
  | changed => simp [verdictOf]
  | found => simp [verdictOf]

lemma verdictOf_eq_fail {ipStatus status : HostStatus} {found : Option SshKey}
    (h : verdictOf env conn o flag readonly hostStatus ipStatus found key = .fail status) :
    status = hostStatus := by
  cases hostStatus with
  | ok =>
    simp only [verdictOf] at h
    split_ifs at h
    exact (Verdict.fail.inj h).symm
  | new =>
    simp only [verdictOf] at h
    split at h
    · split_ifs at h
      exact (Verdict.fail.inj h).symm
    · split_ifs at h
      exact (Verdict.fail.inj h).symm
  | revoked => exact (Verdict.fail.inj h).symm
  | changed => exact (Verdict.fail.inj h).symm
  | found => exact (Verdict.fail.inj h).symm

lemma rawKey_ok {raw : SshKey} (h : rawKey key = .ok raw) :
    sshkeyIsCert key = true ∧ sshkeyIsCert raw = false := by
  rw [rawKey] at h
  cases hcopy : sshkeyFromPrivate key with
  | error e =>
    rw [hcopy] at h
    cases h
  | ok n =>
    rw [hcopy,ok_bind,Krl.sshkeyDropCert,(sshkeyFromPrivate_copies hcopy).type] at h
    have hplain : ∀ type, sshkeyTypeIsCert (sshkeyTypePlain type) = false := by
      intro type
      cases type <;> rfl
    split at h
    · cases h
    · next hcert =>
      cases h
      exact ⟨by simpa [sshkeyIsCert] using hcert,hplain _⟩

/-- What lets a key through under a name: a plain key that is listed and not revoked, or a
certificate accepted for the host, whose authority is listed and not revoked. -/
def TrustedUnder (env : Env) (conn : Connection) (o : Options) (name : Bytes) (key k : SshKey) :
    Prop :=
  checkKeyRevoked env (loadAll env name conn.hostfiles) k = false ∧
    (sshkeyIsCert k = false ∧ (k = key ∨ rawKey key = .ok k) ∧
        Listed env (loadAll env name conn.hostfiles) k ∨
      sshkeyIsCert k = true ∧ k = key ∧ CaListed env (loadAll env name conn.hostfiles) k ∧
        certAccepted env conn o k)

lemma trustedUnder_of_ok {name : Bytes}
    (h : (checkKeyInHostkeys env (loadAll env name conn.hostfiles) key).1 = .ok)
    (hcert : sshkeyIsCert key → certAccepted env conn o key) :
    TrustedUnder env conn o name key key := by
  cases hk : sshkeyIsCert key with
  | true =>
    rw [checkKeyInHostkeys_cert hk] at h
    split_ifs at h with hrev hca
    exact ⟨Bool.eq_false_of_not_eq_true hrev,.inr ⟨hk,rfl,hca,hcert hk⟩⟩
  | false =>
    rw [checkKeyInHostkeys_plain hk] at h
    split_ifs at h with hrev hlisted
    exact ⟨Bool.eq_false_of_not_eq_true hrev,.inl ⟨hk,.inl rfl,hlisted⟩⟩

lemma TrustedUnder.of_raw {name : Bytes} {raw : SshKey} (h : TrustedUnder env conn o name raw k)
    (hraw : rawKey key = .ok raw) : TrustedUnder env conn o name key k := by
  obtain ⟨-,hplain⟩ := rawKey_ok hraw
  obtain ⟨hrev,⟨hk,rfl | hk',hlisted⟩ | ⟨hk,rfl,-⟩⟩ := h
  · exact ⟨hrev,.inl ⟨hk,.inr hraw,hlisted⟩⟩
  · rw [(rawKey_ok hk').1] at hplain
    cases hplain
  · rw [hk] at hplain
    cases hplain

lemma strictPass_eq_ok {hostHostkeys : List HostkeyEntry}
    {ipHostkeys : Option (List HostkeyEntry)} {verdict : Verdict} :
    strictPass env conn o inner port readonly hostHostkeys ipHostkeys key flag =
        .ok (verdict,flag') ↔
      ∃ found, (if triesWithoutPort o port (checkKeyInHostkeys env hostHostkeys key).1 then
          inner key flag else .ok (none,flag)) = .ok (found,flag') ∧
        verdictOf env conn o flag' readonly (checkKeyInHostkeys env hostHostkeys key).1
          (ipStatusOf env ipHostkeys (checkKeyInHostkeys env hostHostkeys key).1 key) found key =
            verdict := by
  simp only [strictPass]
  split
  · simp [bind_eq_ok]
  · simp only [ok_bind,pure_eq_ok,ok.injEq,Prod.mk.injEq]
    constructor
    · rintro ⟨h,rfl⟩
      exact ⟨none,⟨rfl,rfl⟩,h⟩
    · rintro ⟨_,⟨rfl,rfl⟩,h⟩
      exact ⟨h,rfl⟩

lemma strictPass_sound (hyes : o.strictHostKeyChecking = .yes)
    {ipHostkeys : Option (List HostkeyEntry)}
    (h : strictPass env conn o inner port readonly (loadAll env host conn.hostfiles)
      ipHostkeys key flag = .ok (.accept k,flag'))
    : TrustedUnder env conn o host key k ∨ inner key flag = .ok (some k,flag') := by
  obtain ⟨found,hfound,hv⟩ := strictPass_eq_ok.mp h
  rcases verdictOf_eq_accept.mp hv with ⟨-,⟨hok,rfl,hcert⟩ | ⟨-,rfl | ⟨-,-,-,-,hno⟩⟩⟩
  · exact .inl (trustedUnder_of_ok hok hcert)
  · split at hfound
    · exact .inr hfound
    · cases hfound
  · exact absurd hyes hno

lemma strictCallWith_sound (hyes : o.strictHostKeyChecking = .yes) {P : SshKey → SshKey → Prop}
    (hinner : ∀ key k flag flag', inner key flag = .ok (some k,flag') → P key k)
    (hraw : ∀ key raw k, rawKey key = .ok raw → P raw k → P key k) {ip : Bytes}
    (h : strictCallWith env conn o inner port readonly host ip key flag = .ok (some k,flag')) :
    TrustedUnder env conn o host key k ∨ P key k := by
  obtain ⟨⟨verdict,flag1⟩,hpass,h⟩ := bind_eq_ok.mp h
  cases verdict with
  | accept k' =>
    cases h
    exact (strictPass_sound hyes hpass).imp_right (hinner key k _ _)
  | fail status =>
    dsimp only at h
    split at h
    · obtain ⟨raw,hrawkey,h⟩ := bind_eq_ok.mp h
      obtain ⟨⟨verdict,flag2⟩,hpass',h⟩ := bind_eq_ok.mp h
      cases verdict with
      | accept k' =>
        cases h
        rcases strictPass_sound hyes hpass' with htrusted | hin
        · exact .inl (htrusted.of_raw hrawkey)
        · exact .inr (hraw key raw k hrawkey (hinner raw k _ _ hin))
      | fail status => cases h
    · cases h

def hostfileName (conn : Connection) (o : Options) (port : UInt16) : Bytes :=
  o.hostKeyAlias.getD (putHostPort conn.hostname port)

/-- Where the call without the port has its names, the one with the port has them. -/
lemma names_of_ok {names : Bytes × Bytes} (h : getHostfileHostnameIpaddr o conn port = .ok names)
    : ∃ ip0, Names conn o port (hostfileName conn o port) names.2 (hostfileName conn o 0) ip0 := by
  have h0 := h
  rw [getHostfileHostnameIpaddr] at h0
  cases hproxy : o.proxyCommand with
  | none =>
    cases hntop : conn.ntop with
    | none => simp [hproxy,hntop] at h0
    | some ntop =>
      simp only [hproxy,hntop,ok_bind,pure_eq_ok,ok.injEq] at h0
      refine ⟨putHostPort ntop 0,?_,?_⟩
      · rw [h,← h0]
        rfl
      · simp [getHostfileHostnameIpaddr,hproxy,hntop,hostfileName]
  | some command =>
    simp only [hproxy,ok_bind,pure_eq_ok,ok.injEq] at h0
    refine ⟨cstr "<no hostip for proxy command>",?_,?_⟩
    · rw [h,← h0]
      rfl
    · simp [getHostfileHostnameIpaddr,hproxy,hostfileName]

lemma checkHostKey_strict (hs : o.Strict) (hexempt : exempt conn o = false) {ip host0 ip0 : Bytes}
    (hnames : Names conn o port host ip host0 ip0) {k : Option SshKey} {st : State}
    (hst : st.options = o) : (∃ st', checkHostKey env conn port readonly key st = .ok (k,st')) ↔
      ∃ flag, strictCallWith env conn o (strictCallWithoutPort env conn o host0 ip0) port readonly
        host ip key o.checkHostIp = .ok (k,flag) := by
  subst hst
  have h := @checkHostKey_simulates env conn _ hs hexempt port host ip _ ip0 hnames readonly
    key st (.refl _)
  revert h
  generalize strictCallWith env conn _ _ port _ host ip key _ = y
  intro h
  match y, h with
  | .error e, h =>
    have h : checkHostKey env conn port _ key st = .error e := h
    simp [h]
  | .ok (k',flag), ⟨st',h,_⟩ => simp [h]

/-- Strict checking is sound. -/
theorem checkHostKey_strict_sound {port : UInt16} {readonly : Readonly} {key k : SshKey}
    {st st' : State} (hyes : st.options.strictHostKeyChecking = .yes)
    (hexempt : exempt conn st.options = false)
    (h : checkHostKey env conn port readonly key st = .ok (some k,st')) :
    TrustedUnder env conn st.options (hostfileName conn st.options port) key k ∨
      TrustedUnder env conn st.options (hostfileName conn st.options 0) key k := by
  obtain ⟨names,hn⟩ : ∃ names, getHostfileHostnameIpaddr _ conn port = .ok names := by
    simp only [checkHostKey,checkHostKeyWith,hexempt,Bool.false_eq_true,if_false] at h
    obtain ⟨names,hn,-⟩ := bind_eq_ok.mp h
    exact ⟨names,hn⟩
  obtain ⟨ip0,hnames⟩ := names_of_ok hn
  obtain ⟨flag,hcall⟩ := (checkHostKey_strict (.inl hyes) hexempt hnames rfl).mp ⟨st',h⟩
  -- the call without the port trusts only what is trusted under the bare name
  refine strictCallWith_sound hyes (fun key k flag flag' hin => ?_)
    (fun key raw k hraw hk => hk.of_raw hraw) hcall
  refine (strictCallWith_sound (P := fun _ _ => False) hyes ?_ (fun _ _ _ _ => id)
    hin).resolve_right id
  intro _ _ _ _ hnone
  cases hnone

end

def exampleHosts : Env where
  ssl := asciiOpenssl
  sshkeyRead text :=
    if cstr "key1" <+: text then some (rsaKey 15 3,text.drop 4)
    else if cstr "key2" <+: text then some (rsaKey 21 5,text.drop 4)
    else none
  sshkeySize _ := 4
  certInfo _ := ⟨true,0,10,[],[],some (cstr "ssh-rsa"),rsaKey 33 7⟩
  b64Pton _ := none
  b64Ntop := id
  hmacSha1 _ _ := []

def exampleConnection (knownHosts : String) : Connection where
  hostname := cstr "host"
  ntop := some (cstr "1.2.3.4")
  isLocal := false
  userHostfiles := [⟨cstr "known_hosts",some (cstr knownHosts),[]⟩]
  systemHostfiles := []
  now := 5
  confirm _ := false
  addHost _ _ := true

def exampleState : State where
  options :=
    { noHostAuthenticationForLocalhost := false
      hostKeyAlias := none
      checkHostIp := true
      proxyCommand := none
      strictHostKeyChecking := .yes
      hashKnownHosts := false
      updateHostkeys := .no
      caSignAlgorithms := some (cstr "*")
      passwordAuthentication := true
      kbdInteractiveAuthentication := true
      challengeResponseAuthentication := true
      forwardAgent := false
      forwardX11 := false
      numLocalForwards := 0
      numRemoteForwards := 0
      tunOpen := false
      exitOnForwardFailure := false }
  added := []

example : (checkKeyInHostkeys exampleHosts (loadAll exampleHosts (cstr "host")
    (exampleConnection "host key2\n").hostfiles) (rsaKey 15 3)).1 = .changed := by
  decide +kernel

theorem checkHostKey_strict_sound_host :
    checkHostKey exampleHosts (exampleConnection "host,1.2.3.4 key1\n") 22 .rdrw (rsaKey 15 3)
        exampleState = .ok (some (rsaKey 15 3),exampleState) ∧
      TrustedUnder exampleHosts (exampleConnection "host,1.2.3.4 key1\n") exampleState.options
        (cstr "host") (rsaKey 15 3) (rsaKey 15 3) := by
  refine (and_iff_left_of_imp fun h => ?_).mpr (by decide +kernel)
  exact (checkHostKey_strict_sound rfl rfl h).elim id id

section

variable (env : Env) (conn : Connection)

def nameStatus (name : Bytes) (k : SshKey) : HostStatus :=
  (checkKeyInHostkeys env (loadAll env name conn.hostfiles) k).1

/-- The ways of a plain key through a pass, apart from the address: it is listed, or the name is
new and it is listed without the port, or it may be added. -/
def PassesPlain (o : Options) (port : UInt16) (readonly : Readonly) (host host0 ip0 : Bytes)
    (bare : Bool) (k : SshKey) : Prop :=
  nameStatus env conn host k = .ok ∨
    nameStatus env conn host k = .new ∧
      (triesWithoutPort o port .new ∧ nameStatus env conn host0 k = .ok ∧
          ¬ (bare ∧ nameStatus env conn ip0 k = .changed) ∨
        readonly = .rdrw ∧ o.strictHostKeyChecking ≠ .yes)

end

section

variable {env : Env} {conn : Connection} {c k key : SshKey} {o : Options} {status : HostStatus}
  {port : UInt16} {inner : StrictCall} {readonly : Readonly} {flag : Bool} {address host ip : Bytes}

lemma nameStatus_eq {name : Bytes} :
    (checkKeyInHostkeys env (loadAll env name conn.hostfiles) k).1 =
      nameStatus env conn name k := rfl

lemma triesWithoutPort_zero : triesWithoutPort o 0 status = false := by
  simp [triesWithoutPort]

lemma triesWithoutPort_iff : triesWithoutPort o port status = true ↔
      status = .new ∧ triesWithoutPort o port .new = true := by
  simp [triesWithoutPort,and_assoc]

lemma strictPass_of_not_tries {hostHostkeys : List HostkeyEntry}
    {ipHostkeys : Option (List HostkeyEntry)}
    (h : triesWithoutPort o port (checkKeyInHostkeys env hostHostkeys key).1 = false) :
    strictPass env conn o inner port readonly hostHostkeys ipHostkeys key flag =
      .ok (verdictOf env conn o flag readonly (checkKeyInHostkeys env hostHostkeys key).1
        (ipStatusOf env ipHostkeys (checkKeyInHostkeys env hostHostkeys key).1 key) none key,
          flag) := by
  simp only [strictPass,h,Bool.false_eq_true,if_false,ok_bind,pure_eq_ok]

lemma verdictOf_roquiet {ipStatus : HostStatus} :
    verdictOf env conn o flag .roquiet hostStatus ipStatus none key =
      if hostStatus = .ok ∧ (sshkeyIsCert key → certAccepted env conn o key) ∧
        ¬ (flag ∧ ipStatus = .changed) then .accept key else .fail hostStatus := by
  by_cases h : hostStatus = .ok ∧ (sshkeyIsCert key → certAccepted env conn o key) ∧
      ¬ (flag ∧ ipStatus = .changed)
  · rw [if_pos h,verdictOf_eq_accept.mpr ⟨h.2.2,.inl ⟨h.1,rfl,h.2.1⟩⟩]
  · rw [if_neg h]
    cases hv : verdictOf env conn o flag _ _ _ none key with
    | fail status => rw [verdictOf_eq_fail hv]
    | accept k =>
      rcases verdictOf_eq_accept.mp hv with ⟨hd,⟨hok,-,hcert⟩ | ⟨-,hnone | ⟨-,-,hro,-⟩⟩⟩
      · exact absurd ⟨hok,hcert,hd⟩ h
      · cases hnone
      · cases hro

lemma strictCallWith_plain (hk : sshkeyIsCert key = false) :
    strictCallWith env conn o inner port readonly host ip key flag =
      (strictPass env conn o inner port readonly (loadAll env host conn.hostfiles)
        (if flag && comparesAddress conn o ip then some (loadAll env ip conn.hostfiles) else none)
        key (flag && comparesAddress conn o ip)).map fun x => (x.1.accepted,x.2) := by
  simp only [strictCallWith,hk,Bool.not_false,Bool.true_and,Bool.false_and,Bool.false_eq_true,
    if_false]
  cases strictPass env conn o inner port _ _ _ key _ with
  | error e => rfl
  | ok x =>
    obtain ⟨verdict,flag'⟩ := x
    cases verdict with
    | accept k => rfl
    | fail status => rfl

lemma ipStatusOf_flag (hk : sshkeyIsCert k = false) :
    (flag = true ∧ ipStatusOf env (if flag then some (loadAll env ip conn.hostfiles) else none)
        hostStatus k = .changed) ↔ flag = true ∧ nameStatus env conn ip k = .changed := by
  cases flag with
  | true => simp [ipStatusOf,hk,nameStatus]
  | false => simp

lemma strictCallWithoutPort_plain (hk : sshkeyIsCert k = false) :
    strictCallWithoutPort env conn o host ip k flag = .ok (if nameStatus env conn host k = .ok ∧
          ¬ ((flag && comparesAddress conn o ip) ∧ nameStatus env conn ip k = .changed) then some k
        else none,flag && comparesAddress conn o ip) := by
  rw [strictCallWithoutPort,strictCallWith_plain hk,strictPass_of_not_tries triesWithoutPort_zero]
  simp only [Except.map,verdictOf_roquiet,hk,Bool.false_eq_true,false_imp_iff,true_and,
    ipStatusOf_flag hk,nameStatus_eq]
  split_ifs <;> rfl

lemma strictCallWithoutPort_cert {o : Options} {host ip : Bytes} {c : SshKey} {flag : Bool}
    (hc : sshkeyIsCert c = true) : strictCallWithoutPort env conn o host ip c flag =
      if nameStatus env conn host c = .ok ∧ certAccepted env conn o c then
        .ok (some c,flag && comparesAddress conn o ip)
      else if nameStatus env conn host c = .revoked then
        .ok (none,flag && comparesAddress conn o ip) else
        rawKey c >>= fun raw => .ok (if nameStatus env conn host raw = .ok then some raw else none,
            flag && comparesAddress conn o ip) := by
  have hpass : ∀ key flag, strictPass env conn o (fun _ flag => .ok (none,flag)) 0 .roquiet
      (loadAll env host conn.hostfiles) none key flag =
        .ok (if nameStatus env conn host key = .ok ∧
          (sshkeyIsCert key → certAccepted env conn o key) then .accept key
          else .fail (nameStatus env conn host key),flag) := by
    intro key flag
    rw [strictPass_of_not_tries triesWithoutPort_zero,verdictOf_roquiet]
    -- without keys of the address its status is that of the name
    have hiff : ∀ a : HostStatus, ∀ p : Prop,
        (a = .ok ∧ p ∧ ¬ (flag = true ∧ a = .changed)) ↔ a = .ok ∧ p := by
      intro a p
      cases a <;> simp
    simp only [ipStatusOf,hiff,nameStatus_eq]
  simp only [strictCallWithoutPort,strictCallWith,hc,Bool.not_true,Bool.false_and,
    Bool.false_eq_true,if_false,hpass,ok_bind,true_imp_iff,Bool.true_and]
  by_cases hok : nameStatus env conn host c = .ok ∧ certAccepted env conn o c = true
  · rw [if_pos hok,if_pos hok]
    rfl
  · rw [if_neg hok,if_neg hok]
    dsimp only
    by_cases hrev : nameStatus env conn host c = .revoked
    · simp [hrev]
    · simp only [hrev,ne_eq,not_false_eq_true,decide_true,if_true,if_false]
      cases hraw : rawKey c with
      | error e => rfl
      | ok raw =>
        have hplain := (rawKey_ok hraw).2
        simp only [ok_bind,hplain,Bool.false_eq_true,false_imp_iff,and_true,pure_eq_ok]
        split_ifs <;> rfl

lemma strictPass_plain {o : Options} {port : UInt16} {readonly : Readonly}
    {host host0 ip0 : Bytes} {ipHostkeys : Option (List HostkeyEntry)} {k k' : SshKey}
    {flag bare : Bool} (hk : sshkeyIsCert k = false)
    (hbare : (flag && comparesAddress conn o ip0) = bare) :
    (∃ flag', strictPass env conn o (strictCallWithoutPort env conn o host0 ip0) port readonly
        (loadAll env host conn.hostfiles) ipHostkeys k flag = .ok (.accept k',flag')) ↔
      k' = k ∧ PassesPlain env conn o port readonly host host0 ip0 bare k ∧
        ¬ ((if triesWithoutPort o port (nameStatus env conn host k) then bare else flag) ∧
          ipStatusOf env ipHostkeys (nameStatus env conn host k) k = .changed) := by
  simp only [strictPass_eq_ok,verdictOf_eq_accept,PassesPlain,hk,Bool.false_eq_true,false_imp_iff,
    and_true,not_false_eq_true,nameStatus_eq,true_and]
  by_cases htries : triesWithoutPort o port (nameStatus env conn host k) = true
  · simp only [if_pos htries,strictCallWithoutPort_plain hk,hbare]
    obtain ⟨hnew,hport⟩ := triesWithoutPort_iff.mp htries
    simp only [hnew,hport,ok.injEq,Prod.mk.injEq]
    constructor
    · rintro ⟨_,_,⟨rfl,rfl⟩,hd,hfound⟩
      grind
    · rintro ⟨rfl,hpasses,hd⟩
      exact ⟨bare,_,⟨rfl,rfl⟩,hd,by grind⟩
  · have hnot : ¬ (nameStatus env conn host k = .new ∧ triesWithoutPort o port .new = true) :=
      fun h => htries (triesWithoutPort_iff.mpr h)
    simp only [Bool.eq_false_of_not_eq_true htries,Bool.false_eq_true,if_false,ok.injEq,
      Prod.mk.injEq]
    constructor
    · rintro ⟨_,_,⟨rfl,rfl⟩,hd,hfound⟩
      grind
    · rintro ⟨rfl,hpasses,hd⟩
      exact ⟨flag,none,⟨rfl,rfl⟩,hd,by grind⟩

lemma strictPass_raw {host0 ip0 : Bytes} {bare : Bool}
    (hbare : (flag && comparesAddress conn o ip0) = bare) : (∃ flag', (rawKey c >>= fun raw =>
        strictPass env conn o (strictCallWithoutPort env conn o host0 ip0) port readonly
          (loadAll env host conn.hostfiles) none raw flag >>= fun x =>
            pure (x.1.accepted,x.2)) = .ok (some k,flag')) ↔
      rawKey c = .ok k ∧ PassesPlain env conn o port readonly host host0 ip0 bare k := by
  have hchanged : ∀ raw, PassesPlain env conn o port readonly host host0 ip0 bare raw →
      nameStatus env conn host raw ≠ .changed := by
    rintro raw (h | ⟨h,-⟩) <;> rw [h] <;> decide
  constructor
  · rintro ⟨flag',h⟩
    obtain ⟨raw,hraw,h⟩ := bind_eq_ok.mp h
    obtain ⟨⟨verdict,flag1⟩,hpass,h⟩ := bind_eq_ok.mp h
    cases verdict with
    | fail status => cases h
    | accept k' =>
      cases h
      obtain ⟨rfl,hpasses,-⟩ := (strictPass_plain (rawKey_ok hraw).2 hbare).mp ⟨_,hpass⟩
      exact ⟨hraw,hpasses⟩
  · rintro ⟨hraw,hpasses⟩
    obtain ⟨flag',hpass⟩ := (@strictPass_plain env conn o port _ host _ ip0 none k k flag
      bare (rawKey_ok hraw).2 hbare).mpr ⟨rfl,hpasses,fun h => hchanged k hpasses h.2⟩
    refine ⟨flag',?_⟩
    rw [hraw,ok_bind,hpass]
    rfl

/-- The address of the connection is compared: `check_host_ip` is set and is not turned off. -/
structure ComparesIp (conn : Connection) (o : Options) (port : UInt16) (address : Bytes) :
    Prop where
  on : o.checkHostIp = true
  remote : conn.isLocal = false
  noProxy : o.proxyCommand = none
  ntop : conn.ntop = some address
  differs : conn.hostname ≠ putHostPort address port

variable (h : ComparesIp conn o port address)

include h

lemma ComparesIp.names :
    Names conn o port (hostfileName conn o port) (putHostPort address port)
      (hostfileName conn o 0) (putHostPort address 0) := by
  constructor <;> simp [getHostfileHostnameIpaddr,h.noProxy,h.ntop,hostfileName]

lemma ComparesIp.exempt : exempt conn o = false := by
  simp [Hostfile.exempt,h.remote]

lemma ComparesIp.compares :
    comparesAddress conn o (putHostPort address port) = true := by
  simp [comparesAddress,h.remote,h.differs,h.noProxy]

/-- Where the call without the port turns the comparison off, the name is the address. -/
lemma ComparesIp.name_eq (htries : triesWithoutPort o port status = true)
    (hbare : comparesAddress conn o (putHostPort address 0) = false) :
    hostfileName conn o port = putHostPort address port := by
  have halias : o.hostKeyAlias = none := by
    simp only [triesWithoutPort,Bool.and_eq_true,Option.isNone_iff_eq_none] at htries
    exact htries.1.1.2
  have hname : conn.hostname = address := by
    simpa [comparesAddress,h.remote,h.noProxy,putHostPort] using hbare
  rw [hostfileName,halias,hname]
  rfl

lemma strictCall_plain_iff (hk : sshkeyIsCert key = false) : (∃ flag', strictCallWith env conn o
        (strictCallWithoutPort env conn o (hostfileName conn o 0) (putHostPort address 0)) port
        readonly (hostfileName conn o port) (putHostPort address port) key true =
          .ok (some k,flag')) ↔
      k = key ∧ PassesPlain env conn o port readonly (hostfileName conn o port)
        (hostfileName conn o 0) (putHostPort address 0)
        (comparesAddress conn o (putHostPort address 0)) key ∧
        nameStatus env conn (putHostPort address port) key ≠ .changed := by
  have hmap : ∀ x : Except Stop (Verdict × Bool),
      (∃ flag', (x.map fun x => (x.1.accepted,x.2)) = .ok (some k,flag')) ↔
        ∃ flag', x = .ok (.accept k,flag') := by
    rintro (e | ⟨verdict,flag⟩)
    · simp [Except.map]
    · cases verdict <;> simp [Except.map,Verdict.accepted]
  rw [strictCallWith_plain hk,Bool.true_and,h.compares,if_pos rfl,hmap,strictPass_plain hk rfl,
    Bool.true_and]
  have hstatus : ipStatusOf env (some (loadAll env (putHostPort address port) conn.hostfiles))
      (nameStatus env conn (hostfileName conn o port) key) key =
        nameStatus env conn (putHostPort address port) key := by
    simp [ipStatusOf,hk,nameStatus]
  rw [hstatus]
  refine and_congr_right fun _ => and_congr_right fun _ => not_congr ?_
  split
  · next htries =>
    cases hbare : comparesAddress conn o _ with
    | true => simp
    | false =>
      -- the status of the address is that of the name, which is new
      rw [← h.name_eq htries hbare,(triesWithoutPort_iff.mp htries).1]
      simp
  · simp

/-- The ways of a certificate that is not trusted, by which its plain key is let through. -/
def FallsBack (env : Env) (conn : Connection) (o : Options) (port : UInt16) (readonly : Readonly)
    (host host0 ip0 : Bytes) (bare : Bool) (c k : SshKey) : Prop :=
  nameStatus env conn host c ≠ .revoked ∧
    ¬ (nameStatus env conn host c = .ok ∧ certAccepted env conn o c) ∧
    ¬ (triesWithoutPort o port (nameStatus env conn host c) ∧
      nameStatus env conn host0 c = .ok ∧ certAccepted env conn o c) ∧
    (triesWithoutPort o port (nameStatus env conn host c) ∧
        nameStatus env conn host0 c ≠ .revoked ∧ nameStatus env conn host0 k = .ok ∨
      PassesPlain env conn o port readonly host host0 ip0 bare k)

omit h

lemma strictCallWith_cert (hc : sshkeyIsCert c = true) (hip : comparesAddress conn o ip = true) :
    strictCallWith env conn o inner port readonly host ip c true =
      strictPass env conn o inner port readonly (loadAll env host conn.hostfiles) none c true >>=
        fun x => match x.1 with
          | .accept k => .ok (some k,x.2)
          | .fail status => if status ≠ .revoked then
              rawKey c >>= fun raw =>
                strictPass env conn o inner port readonly (loadAll env host conn.hostfiles) none raw
                  x.2 >>= fun x => pure (x.1.accepted,x.2) else .ok (none,x.2) := by
  simp only [strictCallWith,hc,hip,Bool.not_true,Bool.false_and,Bool.false_eq_true,if_false,
    Bool.true_and,Bool.and_self,decide_eq_true_eq]
  congr

lemma nameStatus_cert (env : Env) (conn : Connection) (host : Bytes) (hc : sshkeyIsCert c = true)
    : nameStatus env conn host c = .revoked ∨ nameStatus env conn host c = .ok ∨
      nameStatus env conn host c = .new := by
  rw [nameStatus,checkKeyInHostkeys_cert hc]
  split_ifs <;> simp

section

variable {o : Options} {port : UInt16} {readonly : Readonly} {host host0 ip0 : Bytes}
  {c k : SshKey}

lemma strictPass_cert_of_not_tries {inner : StrictCall} (hc : sshkeyIsCert c = true)
    (htries : triesWithoutPort o port (nameStatus env conn host c) = false) :
    strictPass env conn o inner port readonly (loadAll env host conn.hostfiles) none c true =
      .ok (if nameStatus env conn host c = .ok ∧ certAccepted env conn o c then .accept c
        else .fail (nameStatus env conn host c),true) := by
  rw [strictPass_of_not_tries htries]
  simp only [nameStatus_eq,ipStatusOf]
  rcases nameStatus_cert env conn host hc with h | h | h
  · simp [verdictOf,h]
  · by_cases hacc : certAccepted env conn o c = true <;> simp [verdictOf,h,hc,hacc]
  · simp [verdictOf,h,hc]

lemma strictPass_cert_of_tries {inner : StrictCall} {found : Option SshKey} {flag' : Bool}
    (hc : sshkeyIsCert c = true)
    (htries : triesWithoutPort o port (nameStatus env conn host c) = true)
    (hfound : inner c true = .ok (found,flag')) :
    strictPass env conn o inner port readonly (loadAll env host conn.hostfiles) none c true =
      .ok (match found with | some k => .accept k | none => .fail .new,flag') := by
  refine strictPass_eq_ok.mpr ⟨found,?_,?_⟩
  · rw [nameStatus_eq,if_pos htries,hfound]
  · simp only [nameStatus_eq,ipStatusOf,(triesWithoutPort_iff.mp htries).1]
    cases found <;> simp [verdictOf,hc]

lemma strictCall_cert_iff {ip : Bytes} (hc : sshkeyIsCert c = true)
    (hip : comparesAddress conn o ip = true) :
    ((∃ flag', strictCallWith env conn o (strictCallWithoutPort env conn o host0 ip0) port readonly
        host ip c true = .ok (some k,flag')) ∧ sshkeyIsCert k = false) ↔
      rawKey c = .ok k ∧ FallsBack env conn o port readonly host host0 ip0
        (comparesAddress conn o ip0) c k := by
  rw [strictCallWith_cert hc hip,FallsBack]
  have hretry : ∀ flag, (flag && comparesAddress conn o ip0) = comparesAddress conn o ip0 →
      (((∃ flag', (rawKey c >>= fun raw =>
        strictPass env conn o (strictCallWithoutPort env conn o host0 ip0) port readonly
          (loadAll env host conn.hostfiles) none raw flag >>= fun x =>
            pure (x.1.accepted,x.2)) = .ok (some k,flag')) ∧ sshkeyIsCert k = false) ↔
        rawKey c = .ok k ∧ PassesPlain env conn o port readonly host host0 ip0
          (comparesAddress conn o ip0) k) := by
    intro flag hflag
    rw [strictPass_raw hflag]
    exact ⟨fun h => h.1,fun h => ⟨h,(rawKey_ok h.1).2⟩⟩
  have hne : c = k → ¬ sshkeyIsCert k = false := by
    rintro rfl
    simp [hc]
  by_cases htries : triesWithoutPort o port (nameStatus env conn host c) = true
  · have hnew := (triesWithoutPort_iff.mp htries).1
    have hcall := @strictCallWithoutPort_cert env conn o host0 ip0 c true hc
    rw [Bool.true_and] at hcall
    by_cases hacc : nameStatus env conn host0 c = .ok ∧ certAccepted env conn o c = true
    · rw [if_pos hacc] at hcall
      rw [strictPass_cert_of_tries hc htries hcall]
      simpa [htries,hacc] using hne
    · rw [if_neg hacc] at hcall
      by_cases hrev : nameStatus env conn host0 c = .revoked
      · rw [if_pos hrev] at hcall
        rw [strictPass_cert_of_tries hc htries hcall]
        simpa [htries,hnew,hrev] using hretry _ (Bool.and_self _)
      · rw [if_neg hrev] at hcall
        cases hraw : rawKey c with
        | error e =>
          rw [hraw,error_bind] at hcall
          simp [strictPass,nameStatus_eq,htries,hcall]
        | ok raw =>
          rw [hraw,ok_bind] at hcall
          by_cases h0 : nameStatus env conn host0 raw = .ok
          · rw [if_pos h0] at hcall
            rw [strictPass_cert_of_tries hc htries hcall]
            have hplain := (rawKey_ok hraw).2
            simp only [ok_bind,ok.injEq,Prod.mk.injEq,Option.some.injEq]
            constructor
            · rintro ⟨⟨_,rfl,-⟩,-⟩
              exact ⟨rfl,by simp [hnew],by simp [hnew],fun h => hacc h.2,.inl ⟨htries,hrev,h0⟩⟩
            · rintro ⟨rfl,-⟩
              exact ⟨⟨_,rfl,rfl⟩,hplain⟩
          · rw [if_neg h0] at hcall
            rw [strictPass_cert_of_tries hc htries hcall]
            have := hretry _ (Bool.and_self _)
            rw [hraw] at this
            refine this.trans (and_congr_right fun heq => ?_)
            cases heq
            exact ⟨fun h => ⟨by simp [hnew],by simp [hnew],fun h' => hacc h'.2,.inr h⟩,
              fun h => h.2.2.2.resolve_left fun h' => h0 h'.2.2⟩
  · rw [Bool.not_eq_true] at htries
    rw [strictPass_cert_of_not_tries hc htries,htries]
    rcases nameStatus_cert env conn host hc with hrev | hok | hnew
    · simp [hrev]
    · by_cases hacc : certAccepted env conn o c = true
      · simpa [hok,hacc] using hne
      · simpa [hok,hacc] using hretry true (Bool.true_and _)
    · simpa [hnew] using hretry true (Bool.true_and _)

end

/-- The ways by which a plain key is let through, from the statuses under the names of the host
and, without the port, of the address. -/
def PlainRoute (env : Env) (conn : Connection) (o : Options) (port : UInt16) (readonly : Readonly)
    (address : Bytes) (key k : SshKey) : Prop :=
  if sshkeyIsCert key then
    rawKey key = .ok k ∧ FallsBack env conn o port readonly (hostfileName conn o port)
      (hostfileName conn o 0) (putHostPort address 0)
      (comparesAddress conn o (putHostPort address 0)) key k
  else
    k = key ∧ PassesPlain env conn o port readonly (hostfileName conn o port)
      (hostfileName conn o 0) (putHostPort address 0)
      (comparesAddress conn o (putHostPort address 0)) key

lemma accepts_plain_iff {st : State} (hs : st.options.Strict)
    (h : ComparesIp conn st.options port address) :
    ((∃ st', checkHostKey env conn port readonly key st = .ok (some k,st')) ∧
        sshkeyIsCert k = false) ↔ PlainRoute env conn st.options port readonly address key k ∧
        (sshkeyIsCert key = false →
          nameStatus env conn (putHostPort address port) k ≠ .changed) := by
  rw [checkHostKey_strict hs h.exempt h.names rfl,h.on,PlainRoute]
  cases hk : sshkeyIsCert key with
  | true =>
    rw [strictCall_cert_iff hk h.compares]
    simp
  | false =>
    rw [strictCall_plain_iff h hk]
    constructor
    · rintro ⟨⟨rfl,hpasses,hstatus⟩,-⟩
      exact ⟨⟨rfl,hpasses⟩,fun _ => hstatus⟩
    · rintro ⟨⟨rfl,hpasses⟩,hstatus⟩
      exact ⟨⟨rfl,hpasses,hstatus rfl⟩,hk⟩

/-- A plain key that is not revoked for an address, and is listed for it if any is. -/
def AddressAgrees (env : Env) (conn : Connection) (ip : Bytes) (k : SshKey) : Prop :=
  checkKeyRevoked env (loadAll env ip conn.hostfiles) k = false ∧
    (AnyListed (loadAll env ip conn.hostfiles) → Listed env (loadAll env ip conn.hostfiles) k)

lemma nameStatus_changed (hk : sshkeyIsCert k = false) : nameStatus env conn ip k = .changed ↔
      checkKeyRevoked env (loadAll env ip conn.hostfiles) k = false ∧
        ¬ Listed env (loadAll env ip conn.hostfiles) k ∧
          AnyListed (loadAll env ip conn.hostfiles) := by
  rw [nameStatus,checkKeyInHostkeys_plain hk]
  split_ifs with hrev hlisted hany <;> simp [*]

/-- The address is compared for every accepted plain key exactly where none that is let through is
revoked for it, and none left of a certificate differs from those listed. -/
theorem checkHostKey_address_iff {port : UInt16} {address : Bytes} {readonly : Readonly}
    {key : SshKey} {st : State} (hs : st.options.Strict)
    (h : ComparesIp conn st.options port address) :
    (∀ k st', checkHostKey env conn port readonly key st = .ok (some k,st') →
        sshkeyIsCert k = false → AddressAgrees env conn (putHostPort address port) k) ↔
      ∀ k, PlainRoute env conn st.options port readonly address key k →
        checkKeyRevoked env (loadAll env (putHostPort address port) conn.hostfiles) k = false ∧
          (sshkeyIsCert key → AddressAgrees env conn (putHostPort address port) k) := by
  constructor
  · intro hall k hroute
    have hagrees : (sshkeyIsCert key = false →
        nameStatus env conn (putHostPort address port) k ≠ .changed) →
        AddressAgrees env conn (putHostPort address port) k := by
      intro hstatus
      obtain ⟨⟨st',hcall⟩,hk⟩ := (accepts_plain_iff hs h).mpr ⟨hroute,hstatus⟩
      exact hall k st' hcall hk
    cases hkey : sshkeyIsCert key with
    | true =>
      have := hagrees fun hfalse => absurd (hkey.symm.trans hfalse) (by decide)
      exact ⟨this.1,fun _ => this⟩
    | false =>
      refine ⟨?_,nofun⟩
      by_cases hstatus : nameStatus env conn (putHostPort address port) k = .changed
      · -- a key that differs from those listed is not revoked
        have hk : sshkeyIsCert k = false := by
          rw [PlainRoute,if_neg (by simp [hkey])] at hroute
          rw [hroute.1,hkey]
        exact ((nameStatus_changed hk).mp hstatus).1
      · exact (hagrees fun _ => hstatus).1
  · intro hall k st' hcall hk
    obtain ⟨hroute,hstatus⟩ := (accepts_plain_iff hs h).mp ⟨⟨st',hcall⟩,hk⟩
    obtain ⟨hrev,hagrees⟩ := hall k hroute
    cases hkey : sshkeyIsCert key with
    | true => exact hagrees hkey
    | false =>
      refine ⟨hrev,fun hany => ?_⟩
      by_contra hlisted
      exact hstatus hkey ((nameStatus_changed hk).mpr ⟨hrev,hlisted,hany⟩)

end

lemma comparesIp_example (knownHosts : String) :
    ComparesIp (exampleConnection knownHosts) exampleState.options 22 (cstr "1.2.3.4") :=
  ⟨rfl,rfl,rfl,rfl,by change cstr _ ≠ putHostPort _ 22; decide +kernel⟩

/-- A key that is listed for the name and for the address. -/
theorem checkHostKey_address_host :
    (checkHostKey exampleHosts (exampleConnection "host,1.2.3.4 key1\n") 22 .rdrw (rsaKey 15 3)
        exampleState).map Prod.fst = .ok (some (rsaKey 15 3)) ∧
      AddressAgrees exampleHosts (exampleConnection "host,1.2.3.4 key1\n")
        (putHostPort (cstr "1.2.3.4") 22) (rsaKey 15 3) := by
  refine (and_iff_left_of_imp fun hcall => ?_).mpr (by decide +kernel)
  cases hr : checkHostKey _ _ 22 .rdrw _ _ with
  | error e =>
    rw [hr] at hcall
    cases hcall
  | ok r =>
    obtain ⟨k,st'⟩ := r
    rw [hr] at hcall
    obtain rfl : k = some _ := ok.inj hcall
    refine (checkHostKey_address_iff (.inl rfl) (comparesIp_example _)).mpr
      (fun k hroute => ?_) _ st' hr rfl
    rw [PlainRoute,if_neg (by decide)] at hroute
    rw [hroute.1]
    exact ⟨by decide +kernel,nofun⟩

/-- A key revoked for the address is accepted, and so is the plain key of a certificate where
the address is known with another key. -/
theorem checkHostKey_address_ignored :
    ((checkHostKey exampleHosts (exampleConnection "host key1\n@revoked 1.2.3.4 key1\n") 22 .rdrw
        (rsaKey 15 3) exampleState).map Prod.fst = .ok (some (rsaKey 15 3)) ∧
      ¬ AddressAgrees exampleHosts (exampleConnection "host key1\n@revoked 1.2.3.4 key1\n")
        (putHostPort (cstr "1.2.3.4") 22) (rsaKey 15 3)) ∧
    ((checkHostKey exampleHosts (exampleConnection "host key1\n1.2.3.4 key2\n") 22 .rdrw
        { rsaKey 15 3 with type := .rsaCert, cert := some ⟨[1]⟩ } exampleState).map Prod.fst =
          .ok (some (rsaKey 15 3)) ∧
      ¬ AddressAgrees exampleHosts (exampleConnection "host key1\n1.2.3.4 key2\n")
        (putHostPort (cstr "1.2.3.4") 22) (rsaKey 15 3)) := by
  refine ⟨⟨by decide +kernel,fun h => ?_⟩,by decide +kernel,fun h => ?_⟩
  · exact absurd h.1 (by decide +kernel)
  · exact absurd (h.2 (by decide +kernel)) (by decide +kernel)

end PkixSsh.Hostfile
