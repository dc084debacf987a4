import PkixSsh.Kex.Choose

/-!
# Reads of the proposals

A failed choice takes one list out of the proposal of the peer, and the comparison of the guess
reads two lists of it once more.
-/

namespace PkixSsh.Kex

open X509 Key Match Sshbuf List Option

def commonKex (c s : Bytes) : Option Kexalg := (matchList c s).1.bind kexAlgByName

def commonHostkey (t : XkalgTable) (c s : Bytes) : Option Bytes :=
  (matchList c s).1.filter fun name => sshkeyTypeFromName t name ≠ .unspec

def commonEnc (c s : Bytes) : Option Sshenc :=
  (matchList c s).1.bind fun name => (cipherByName name).map fun cipher =>
    ⟨some name,some cipher,cipherIvlen cipher,cipher.keyLen,cipher.blockSize⟩

/-- An authenticated cipher makes the code needless. -/
def commonMac (enc : Sshenc) (c s : Bytes) : Option Sshmac :=
  if enc.cipher.any fun cipher => cipher.authLen ≠ 0 then some {}
  else (matchList c s).1.bind fun name => (macs.find? fun m => m.name = name).map fun m =>
    { macSetupByAlg m {} with name := some name }

def commonComp (c s : Bytes) : Option Sshcomp :=
  (matchList c s).1.bind fun name =>
    if name = cstr "zlib@openssh.com" then some ⟨.delayed,some name⟩
    else if name = cstr "zlib" then some ⟨.zlib,some name⟩
    else if name = cstr "none" then some ⟨.none,some name⟩
    else none

def commonNewkeys (c s : ProposalIndex → Bytes) (enc mac comp : ProposalIndex) :
    Option Newkeys := do
  let e ← commonEnc (c enc) (s enc)
  let m ← commonMac e (c mac) (s mac)
  let p ← commonComp (c comp) (s comp)
  return ⟨e,m,p⟩

def Newkeys.weNeeds (n : Newkeys) : List Nat :=
  [n.enc.keyLen,n.enc.blockSize,n.enc.ivLen,n.mac.keyLen]

def Newkeys.dhNeeds (n : Newkeys) : List Nat :=
  [(n.enc.cipher.map cipherSeclen).getD 0,n.enc.blockSize,n.enc.ivLen,n.mac.keyLen]

def dirNewkeys (server : Bool) (mode : Mode) (c s : ProposalIndex → Bytes) : Option Newkeys :=
  let dir (a b : ProposalIndex) := if ctos server mode then a else b
  commonNewkeys c s (dir .encAlgsCtos .encAlgsStoc) (dir .macAlgsCtos .macAlgsStoc)
    (dir .compAlgsCtos .compAlgsStoc)

def Picks {α β : Type} (o : Option α) (set : α → β) (r : Except Stop (Option SshErr × β)) : Prop :=
  match o with
  | some a => r = .ok (none,set a)
  | none => ∃ e b, r = .ok (some e,b)

/-- A step that makes a choice, or fails and takes a list out of the proposal of the peer. -/
def Chooses {α : Type} (P : ProposalIndex → Prop) (o : Option α) (set : α → KexState)
    (peer : Proposal) (r : Except Stop (Option SshErr × Conf)) : Prop :=
  match o with
  | some a => r = .ok (none,⟨set a,peer⟩)
  | none => ∃ e k i, P i ∧ r = .ok (some e,⟨k,Function.update peer i none⟩)

section

variable {α β : Type} {P Q : ProposalIndex → Prop} {o : Option α} {v : α → KexState}
  {peer : Proposal} {f g : Step} {c s : Bytes} {k : KexState} {mode : Mode}

lemma Chooses.andThen {o' : α → Option β} {v' : β → KexState} {s : Conf}
    (hf : Chooses P o v peer (f s))
    (hg : ∀ a, o = some a → Chooses P (o' a) v' peer (g ⟨v a,peer⟩)) :
    Chooses P (o.bind o') v' peer ((f.andThen g) s) := by
  unfold Step.andThen
  cases o with
  | none =>
    obtain ⟨e,k,i,hi,hf⟩ := hf
    exact ⟨e,k,i,hi,by rw [hf]; rfl⟩
  | some a =>
    rw [show f s = _ from hf]
    exact hg a rfl

lemma Chooses.mono {r : Except Stop (Option SshErr × Conf)} (h : Chooses P o v peer r)
    (hPQ : ∀ i, P i → Q i) : Chooses Q o v peer r := by
  cases o with
  | none =>
    obtain ⟨e,k,i,hi,h⟩ := h
    exact ⟨e,k,i,hPQ i hi,h⟩
  | some a => exact h

lemma Chooses.return {v' : β → KexState} {f : α → β} {r : Except Stop (Option SshErr × Conf)}
    (h : Chooses P o (fun a => v' (f a)) peer r) :
    Chooses P (o.bind fun a => some (f a)) v' peer r := by
  cases o <;> exact h

lemma matchProposals_present (c s : Bytes) :
    matchProposals (some c) (some s) = .ok (matchList c s).1 := rfl

lemma kexAlgByName_name {n : Bytes} {a : Kexalg} (h : kexAlgByName n = some a) : a.name = n := by
  simpa using find?_some h

lemma chooseKex_picks (k : KexState) (c s : Bytes) : Picks (commonKex c s)
    (fun a => { k with name := some a.name, kexType := a.type, hashAlg := a.hashAlg
                       ecNid := a.ecNid }) (chooseKex k (some c) (some s)) := by
  unfold chooseKex commonKex
  rw [matchProposals_present,ok_bind]
  cases (matchList c s).1 with
  | none => exact ⟨_,_,rfl⟩
  | some n =>
    dsimp only [bind_some]
    cases ha : kexAlgByName n with
    | none => exact ⟨_,_,rfl⟩
    | some a =>
      rw [← kexAlgByName_name ha]
      rfl

lemma chooseHostkeyalg_picks (t : XkalgTable) (k : KexState) (c s : Bytes) :
    Picks (commonHostkey t c s) (fun n => { k with hostkeyAlg := some n })
      (chooseHostkeyalg t k (some c) (some s)) := by
  unfold chooseHostkeyalg commonHostkey
  rw [matchProposals_present]
  cases (matchList c s).1 with
  | none => exact ⟨_,_,rfl⟩
  | some n =>
    by_cases hu : sshkeyTypeFromName t n = .unspec
    · rw [filter_some_neg (by simp [hu])]
      exact ⟨_,_,if_pos hu⟩
    · rw [filter_some_pos (by simp [hu])]
      exact if_neg hu

lemma chooseEnc_picks (enc : Sshenc) (c s : Bytes) :
    Picks (commonEnc c s) id (chooseEnc enc (some c) (some s)) := by
  unfold chooseEnc commonEnc
  rw [matchProposals_present,ok_bind]
  cases (matchList c s).1 with
  | none => exact ⟨_,_,rfl⟩
  | some n =>
    dsimp only [bind_some]
    cases cipherByName n with
    | none => exact ⟨_,_,rfl⟩
    | some cipher => rfl

lemma chooseMacOrNone_picks {n : Newkeys} (hcipher : ∃ cipher, n.enc.cipher = some cipher)
    (hmac : n.mac = {}) (c s : Bytes) :
    Picks (commonMac n.enc c s) (fun m => { n with mac := m })
      (chooseMacOrNone n (some c) (some s)) := by
  obtain ⟨cipher,hcipher⟩ := hcipher
  unfold chooseMacOrNone commonMac
  rw [hcipher]
  dsimp only [any_some]
  by_cases ha : cipher.authLen ≠ 0
  · rw [if_pos ha,if_pos (decide_eq_true ha)]
    exact congrArg (fun m => Except.ok (none,{ n with mac := m })) hmac
  · rw [if_neg ha,if_neg (by simpa using ha),chooseMac,matchProposals_present,ok_bind]
    cases (matchList c s).1 with
    | none => exact ⟨_,_,rfl⟩
    | some name =>
      dsimp only [bind_some]
      cases macs.find? _ with
      | none => exact ⟨_,_,rfl⟩
      | some m => rfl

lemma chooseComp_picks (comp : Sshcomp) (c s : Bytes) :
    Picks (commonComp c s) id (chooseComp comp (some c) (some s)) := by
  unfold chooseComp commonComp
  rw [matchProposals_present,ok_bind]
  cases (matchList c s).1 with
  | none => exact ⟨_,_,rfl⟩
  | some name =>
    dsimp only [bind_some]
    split
    · rfl
    split
    · rfl
    split
    · rfl
    · exact ⟨_,_,rfl⟩

lemma commonEnc_cipher {e : Sshenc} (h : commonEnc c s = some e) :
    ∃ cipher, e.cipher = some cipher := by
  obtain ⟨name,-,h⟩ := bind_eq_some_iff.mp h
  obtain ⟨cipher,-,rfl⟩ := map_eq_some_iff.mp h
  exact ⟨cipher,rfl⟩

lemma dirNewkeys_cipher {server : Bool} {c s : ProposalIndex → Bytes}
    {n : Newkeys} (h : dirNewkeys server mode c s = some n) :
    ∃ cipher, n.enc.cipher = some cipher := by
  obtain ⟨e,he,h⟩ := bind_eq_some_iff.mp h
  obtain ⟨m,-,h⟩ := bind_eq_some_iff.mp h
  obtain ⟨p,-,h⟩ := bind_eq_some_iff.mp h
  cases h
  exact commonEnc_cipher he

end

variable (t : XkalgTable) (server : Bool) (my peer : ProposalIndex → Bytes) (kexAlg : String)

def clientList (i : ProposalIndex) : Bytes :=
  if server then peer i else my i

def serverList (i : ProposalIndex) : Bytes :=
  if server then my i else peer i

/-- What is chosen, in the order of the code. -/
def choices (c s : ProposalIndex → Bytes) : Option (Kexalg × Bytes × Newkeys × Newkeys) := do
  let kexalg ← commonKex (c .kexAlgs) (s .kexAlgs)
  let hostkeyAlg ← commonHostkey t (c .serverHostKeyAlgs) (s .serverHostKeyAlgs)
  let i ← dirNewkeys server .in_ c s
  let o ← dirNewkeys server .out c s
  return (kexalg,hostkeyAlg,i,o)

def install (k : KexState) : Kexalg × Bytes × Newkeys × Newkeys → KexState
  | (kexalg,hostkeyAlg,i,o) =>
    { k with name := some kexalg.name, kexType := kexalg.type, hashAlg := kexalg.hashAlg
             ecNid := kexalg.ecNid, hostkeyAlg := some hostkeyAlg
             newkeysIn := some i, newkeysOut := some o
             weNeed := (i.weNeeds ++ o.weNeeds).foldl max 0
             dhNeed := (i.dhNeeds ++ o.dhNeeds).foldl max 0 }

/-- There is a common key exchange method, and the first one is supported. -/
def KexAgreed : Prop :=
  ∃ name, (matchList (clientList server my peer .kexAlgs)
    (serverList server my peer .kexAlgs)).1 = some name ∧ (kexAlgByName name).isSome

/-- There is a common host key algorithm, and the first one is supported. -/
def HostkeyAgreed : Prop :=
  ∃ name, (matchList (clientList server my peer .serverHostKeyAlgs)
    (serverList server my peer .serverHostKeyAlgs)).1 = some name ∧
    sshkeyTypeFromName t name ≠ .unspec

section

variable {my peer : ProposalIndex → Bytes} {k : KexState} {P : ProposalIndex → Prop}

lemma chooses_choice {α : Type} {o : Option α} {set : α → KexState} {i : ProposalIndex}
    {choose : KexState → Option Bytes → Option Bytes → Except Stop (Option SshErr × KexState)}
    (hP : o = none → P i) (h : Picks o set (choose k (some (clientList k.server my peer i))
      (some (serverList k.server my peer i)))) :
    Chooses P o set (present peer) (choice (present my) i choose ⟨k,present peer⟩) := by
  have hc : cprop k.server (present my) (present peer) i =
      some (clientList k.server my peer i) := by
    cases hk : k.server <;> simp [cprop,clientList,present]
  have hs : sprop k.server (present my) (present peer) i =
      some (serverList k.server my peer i) := by
    cases hk : k.server <;> simp [sprop,serverList,present]
  unfold choice
  rw [hc,hs]
  cases o with
  | none =>
    obtain ⟨e,k',h⟩ := h
    exact ⟨e,_,i,hP rfl,by rw [h]; rfl⟩
  | some a =>
    rw [show choose _ _ _ = _ from h]
    rfl

lemma extInfo_present (k : KexState) (peer : ProposalIndex → Bytes) :
    ∃ k', extInfo ⟨k,present peer⟩ = .ok (none,⟨k',present peer⟩) ∧ k'.server = k.server := by
  rw [extInfo]
  split
  · exact ⟨_,rfl,rfl⟩
  · exact ⟨k,rfl,rfl⟩

def modeIndexes : List ProposalIndex :=
  [.encAlgsCtos,.encAlgsStoc,.macAlgsCtos,.macAlgsStoc,.compAlgsCtos,.compAlgsStoc]

lemma chooses_inMode {α β : Type} {mode : Mode} {o : Option α} {f : α → β} {i : ProposalIndex}
    {n : Newkeys} {member : Newkeys → β} {set : Newkeys → β → Newkeys}
    {choose : β → Option Bytes → Option Bytes → Except Stop (Option SshErr × β)}
    (hP : o = none → P i) (h : Picks o f (choose (member n) (some (clientList k.server my peer i))
      (some (serverList k.server my peer i)))) :
    Chooses P o (fun a => k.setNewkeys mode (set n (f a))) (present peer)
      (choice (present my) i (inNewkeys mode member set choose)
        ⟨k.setNewkeys mode n,present peer⟩) := by
  have hset : ∀ n', (k.setNewkeys mode n).setNewkeys mode n' = k.setNewkeys mode n' := by
    cases mode <;> exact fun _ => rfl
  refine chooses_choice hP ?_
  rw [show (k.setNewkeys mode n).server = k.server by cases mode <;> rfl]
  unfold inNewkeys
  rw [show (k.setNewkeys mode n).newkeys mode = some n by cases mode <;> rfl]
  simp only [hset]
  cases o with
  | none =>
    obtain ⟨e,b,h⟩ := h
    exact ⟨e,_,by rw [h]; rfl⟩
  | some a =>
    rw [show choose _ _ _ = _ from h]
    rfl

lemma andThen_ok {f g : Step} {s s' : Conf} (h : f s = .ok (none,s')) :
    (f.andThen g) s = g s' := by
  rw [Step.andThen,h]
  rfl

lemma chooseMode_chooses (mode : Mode) {server : Bool} (hk : k.server = server) :
    Chooses (· ∈ modeIndexes)
      (dirNewkeys server mode (clientList server my peer) (serverList server my peer))
      (k.setNewkeys mode) (present peer) (chooseMode (present my) mode ⟨k,present peer⟩) := by
  subst hk
  unfold chooseMode
  rw [andThen_ok rfl]
  refine .andThen (chooses_inMode (fun _ => ?_) (chooseEnc_picks _ _ _)) fun e he =>
    .andThen (v := fun m => k.setNewkeys mode { enc := e, mac := m }) ?_ fun m _ => .return ?_
  · split <;> decide
  · exact chooses_inMode (fun _ => by split <;> decide)
      (chooseMacOrNone_picks (n := { enc := e }) (commonEnc_cipher he) rfl _ _)
  · exact chooses_inMode (fun _ => by split <;> decide) (chooseComp_picks _ _ _)

lemma setNeeds_ok {s : Conf} {i o : Newkeys} (hi : s.kex.newkeysIn = some i)
    (ho : s.kex.newkeysOut = some o) (hci : ∃ c, i.enc.cipher = some c)
    (hco : ∃ c, o.enc.cipher = some c) :
    setNeeds s = .ok (none,{ s with kex := { s.kex with
      weNeed := (i.weNeeds ++ o.weNeeds).foldl max 0
      dhNeed := (i.dhNeeds ++ o.dhNeeds).foldl max 0 } }) := by
  obtain ⟨ci,hci⟩ := hci
  obtain ⟨co,hco⟩ := hco
  unfold setNeeds KexState.newkeys
  rw [hi,ho]
  simp only [needs,hci,hco,Newkeys.weNeeds,Newkeys.dhNeeds]
  rfl

lemma kexAgreed_iff {server : Bool} : KexAgreed server my peer ↔
    (commonKex (clientList server my peer .kexAlgs)
      (serverList server my peer .kexAlgs)).isSome := by
  unfold KexAgreed commonKex
  generalize (matchList _ _).1 = m
  cases m <;> simp

lemma hostkeyAgreed_iff {t : XkalgTable} {server : Bool} : HostkeyAgreed t server my peer ↔
    (commonHostkey t (clientList server my peer .serverHostKeyAlgs)
      (serverList server my peer .serverHostKeyAlgs)).isSome := by
  unfold HostkeyAgreed commonHostkey
  generalize (matchList _ _).1 = m
  cases m <;> simp

/-- The negotiation ends, and a failure takes out the list that nothing could be chosen from. -/
lemma negotiate_chooses (t : XkalgTable) (my peer : ProposalIndex → Bytes) (k : KexState) :
    ∃ k1, k1.server = k.server ∧ Chooses (fun i => ¬ KexAgreed k.server my peer ∧ i = .kexAlgs ∨
        KexAgreed k.server my peer ∧ (¬ HostkeyAgreed t k.server my peer ∧ i = .serverHostKeyAlgs ∨
          HostkeyAgreed t k.server my peer ∧ i ∈ modeIndexes))
      (choices t k.server (clientList k.server my peer) (serverList k.server my peer)) (install k1)
      (present peer) (negotiate t (present my) ⟨k,present peer⟩) := by
  obtain ⟨k1,hext,hk1⟩ := extInfo_present k peer
  refine ⟨k1,hk1,?_⟩
  rw [negotiate,andThen_ok hext,← hk1]
  refine .andThen (chooses_choice (fun h => .inl ⟨fun hk => ?_,rfl⟩) (chooseKex_picks k1 _ _))
    fun a ha => ?_
  · simp [kexAgreed_iff,h] at hk
  have hk : KexAgreed k1.server my peer := by simp [kexAgreed_iff,ha]
  refine .andThen (chooses_choice (fun h => .inr ⟨hk,.inl ⟨fun hh => ?_,rfl⟩⟩)
    (chooseHostkeyalg_picks t _ _ _)) fun n hn => ?_
  · simp [hostkeyAgreed_iff,h] at hh
  have hh : HostkeyAgreed t k1.server my peer := by simp [hostkeyAgreed_iff,hn]
  refine .andThen (.mono (chooseMode_chooses .in_ rfl) fun i hi => .inr ⟨hk,.inr ⟨hh,hi⟩⟩)
    fun i hi => .andThen (.mono (chooseMode_chooses .out rfl) fun i hi => .inr ⟨hk,.inr ⟨hh,hi⟩⟩)
      fun o ho => ?_
  exact setNeeds_ok rfl rfl (dirNewkeys_cipher hi) (dirNewkeys_cipher ho)

end

/-- The comparison of the guess reads no missing list: method and host key algorithm are agreed on,
or the first methods differ. -/
def GuessReadable : Prop :=
  KexAgreed server my peer ∧
    (HostkeyAgreed t server my peer ∨
      firstName (my .kexAlgs) ≠ firstName (peer .kexAlgs))

lemma out_ok_iff (ssh : Ssh) (my : ProposalIndex → Bytes) (peer : Proposal)
    (firstKexFollows : UInt8) (r : Option SshErr) :
    (∃ r' ssh', out ssh (some (present my)) (some peer) firstKexFollows r = .ok (r',ssh')) ↔
      (firstKexFollows ≠ 0 → (peer .kexAlgs).isSome ∧ ((peer .serverHostKeyAlgs).isSome ∨
          ∀ p, peer .kexAlgs = some p → firstName (my .kexAlgs) ≠ firstName p)) := by
  rw [out]
  by_cases hf : firstKexFollows = 0
  · rw [if_neg (by simpa using hf)]
    exact ⟨fun _ h => absurd hf h,fun _ => ⟨_,_,rfl⟩⟩
  rw [if_pos hf]
  -- the reads of the comparison, one after the other
  cases hk : peer _ with
  | none => simp [proposalsMatch,sameFirst,hk,hf]
  | some p =>
    by_cases hfirst : firstName (my .kexAlgs) = firstName p
    · cases hh : peer _ with
      | none => simp [proposalsMatch,sameFirst,present,hk,hh,hf,hfirst]
      | some q =>
        refine ⟨fun _ _ => ⟨rfl,.inl rfl⟩,fun _ => ?_⟩
        simp only [proposalsMatch,sameFirst,present,hk,hh,hfirst,ok_bind,decide_true,if_true]
        split
        · exact ⟨_,_,rfl⟩
        · exact ⟨_,_,rfl⟩
    · refine ⟨fun _ _ => ⟨rfl,.inr ?_⟩,fun _ => ?_⟩
      · rintro p' hp'
        cases hp'
        exact hfirst
      · simp only [proposalsMatch,sameFirst,present,hk,hfirst]
        exact ⟨_,_,rfl⟩

lemma present_inj {a b : ProposalIndex → Bytes} (h : present a = present b) : a = b := by
  funext i
  have hi := congrFun h i
  simpa [present] using hi

/-- The function returns a code, except when the peer announces a guess and a list the guess is
compared with is gone. -/
theorem kexChooseConf_total_iff (t : XkalgTable) (ssh : Ssh) :
    (∃ r ssh', kexChooseConf t ssh = .ok (r,ssh')) ↔
      ∀ my peer v firstKexFollows, kexBuf2prop ssh.kex.my = .ok (present my,v) →
        kexBuf2prop ssh.kex.peer = .ok (present peer,firstKexFollows) → firstKexFollows ≠ 0 →
        GuessReadable t ssh.kex.server my peer := by
  rw [kexChooseConf]
  cases hm : kexBuf2prop _ with
  | error r =>
    refine ⟨fun _ my peer v f h => ?_,fun _ => ⟨_,_,rfl⟩⟩
    cases h
  | ok pv =>
    obtain ⟨p,v⟩ := pv
    obtain ⟨my,rfl⟩ := kexBuf2prop_ok hm
    cases hp : kexBuf2prop _ with
    | error r =>
      refine ⟨fun _ my peer v f _ h => ?_,fun _ => ⟨_,_,rfl⟩⟩
      cases h
    | ok qf =>
      obtain ⟨q,f⟩ := qf
      obtain ⟨peer,rfl⟩ := kexBuf2prop_ok hp
      have hcond : (∀ my' peer' v' f',
          (Except.ok (present my,v) : Except SshErr _) = .ok (present my',v') →
          (Except.ok (present peer,f) : Except SshErr _) = .ok (present peer',f') → f' ≠ 0 →
          GuessReadable t ssh.kex.server my' peer') ↔
          (f ≠ 0 → GuessReadable t ssh.kex.server my peer) := by
        constructor
        · intro h hf
          exact h my peer v f rfl rfl hf
        · intro h my' peer' v' f' hmy hpeer hf
          simp only [Except.ok.injEq,Prod.mk.injEq] at hmy hpeer
          rw [← present_inj hmy.1,← present_inj hpeer.1]
          exact h (hpeer.2 ▸ hf)
      obtain ⟨k1,-,hneg⟩ := negotiate_chooses t my peer _
      rw [hcond]
      cases hc : choices t _ _ _ with
      | some x =>
        rw [hc] at hneg
        obtain ⟨a,ha,hc⟩ := bind_eq_some_iff.mp hc
        obtain ⟨n,hn,-⟩ := bind_eq_some_iff.mp hc
        dsimp only
        rw [show negotiate _ _ _ = _ from hneg,ok_bind,out_ok_iff]
        simp [GuessReadable,kexAgreed_iff,hostkeyAgreed_iff,ha,hn,present]
      | none =>
        rw [hc] at hneg
        obtain ⟨e,k2,i,hi,hneg⟩ := hneg
        dsimp only
        rw [hneg,ok_bind,out_ok_iff]
        rcases hi with ⟨hno,rfl⟩ | ⟨hk,⟨hno,rfl⟩ | ⟨hh,hi⟩⟩
        · simp [GuessReadable,hno]
        · simp [GuessReadable,hk,hno,present]
        · have hik : i ≠ .kexAlgs ∧ i ≠ .serverHostKeyAlgs := by
            clear hneg
            revert i
            decide
          simp [GuessReadable,hk,hh,present,hik.1.symm,hik.2.symm]

def exampleLists : ProposalIndex → Bytes
  | .kexAlgs => cstr kexAlg
  | .serverHostKeyAlgs => cstr "ssh-ed25519"
  | .encAlgsCtos | .encAlgsStoc => cstr "aes128-ctr"
  | .macAlgsCtos | .macAlgsStoc => cstr "hmac-sha1"
  | .compAlgsCtos | .compAlgsStoc => cstr "none"
  | .langCtos | .langStoc => []

def exampleGuess : Bytes :=
  List.replicate kexCookieLen 0 ++
    (proposalIndexes.flatMap fun i => framed (exampleLists kexAlg i)) ++ [1,0,0,0,0]

def exampleSsh : Ssh :=
  ⟨{ server := server
     initial := true
     my := ((kexProp2buf (exampleLists "curve25519-sha256")).toOption).getD []
     peer := exampleGuess kexAlg },0⟩

/-- A client and a server read through a null pointer when the peer announces a guess and
has no key exchange method in common with them. -/
theorem kexChooseConf_null_read : (kexBuf2prop (exampleGuess "x")).toOption.map (fun p =>
      (proposalIndexes.map p.1,p.2)) =
        some (proposalIndexes.map fun i => some (exampleLists "x" i),1) ∧
    kexChooseConf defaultXkalg (exampleSsh false "x") = .error .nullRead ∧
    kexChooseConf defaultXkalg (exampleSsh true "x") = .error .nullRead := by
  decide +kernel

/-- With the method in common the algorithms are chosen. -/
example :
    (kexChooseConf defaultXkalg (exampleSsh true "curve25519-sha256")).toOption.map
      (fun r => (r.1,r.2.kex.name,r.2.kex.weNeed,r.2.dispatchSkipPackets)) =
        some (none,some (cstr "curve25519-sha256"),20,0) := by
  decide +kernel

end PkixSsh.Kex
