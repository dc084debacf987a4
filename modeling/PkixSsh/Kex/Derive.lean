import PkixSsh.Kex.Agreement

/-!
# Keys of both directions

`kex_derive_keys` expands the secret into six keys; the two ends number the directions the other
way round.
-/

namespace PkixSsh.Kex

open Sshbuf X509 Key

/-- The digests as functions, with results of the length of the digest. -/
structure Hash where
  digest : SshDigest → Bytes → Bytes
  length_digest : ∀ alg v, (digest alg v).length = alg.bytes

section

variable (h : Hash) (alg : SshDigest)

/-- The loop of `derive_key` that expands the key, over a bound on its rounds; `have_` is the
variable `have`. -/
def expandKey (secret : Bytes) (need : Nat) : Nat → Nat → Bytes → Bytes
  | 0, _, digest => digest
  | rounds + 1, have_, digest =>
    if need > have_ then
      expandKey secret need rounds (have_ + alg.bytes) (digest ++ h.digest alg (secret ++ digest))
    else digest

/-- `derive_key`. A round adds a byte at least, so that `need` rounds are enough. -/
def deriveKey (id : UInt8) (need : Nat) (hash sharedSecret sessionId : Bytes) : Bytes :=
  expandKey h alg (sharedSecret ++ hash) need need alg.bytes
    (h.digest alg (sharedSecret ++ hash ++ [id] ++ sessionId))

end

structure DirectionKeys where
  iv : Bytes
  key : Bytes
  macKey : Bytes

/-- `kex_derive_keys`: the session id and the keys of each mode. The first exchange hash becomes
the session id, and the new keys must be there. -/
def kexDeriveKeys (h : Hash) (k : KexState) (sessionId : Option Bytes)
    (hash sharedSecret : Bytes) : Except Stop (Bytes × (Mode → DirectionKeys)) :=
  let sessionId := sessionId.getD hash
  let keys (i : UInt8) := deriveKey h k.hashAlg (65 + i) k.weNeed hash sharedSecret sessionId
  if k.newkeysIn = none ∨ k.newkeysOut = none then .error .nullRead
  else .ok (sessionId,fun mode =>
    if ctos k.server mode then ⟨keys 0,keys 2,keys 4⟩ else ⟨keys 1,keys 3,keys 5⟩)

def Mode.flip : Mode → Mode
  | .in_ => .out
  | .out => .in_

lemma ctos_flip (server : Bool) (mode : Mode) : ctos (!server) mode = ctos server mode.flip := by
  cases server <;> cases mode <;> rfl

/-- Two ends with the same choices, each sending with what the other receives with. -/
structure SameChoices (k k' : KexState) : Prop where
  name : k'.name = k.name
  kexType : k'.kexType = k.kexType
  hashAlg : k'.hashAlg = k.hashAlg
  ecNid : k'.ecNid = k.ecNid
  hostkeyAlg : k'.hostkeyAlg = k.hostkeyAlg
  newkeys : ∀ mode, k'.newkeys mode = k.newkeys mode.flip
  present : ∀ mode, (k.newkeys mode).isSome
  weNeed : k'.weNeed = k.weNeed
  dhNeed : k'.dhNeed = k.dhNeed

section

variable {t : XkalgTable} {k k' : KexState}

lemma Agreement.Installed.sameChoices {a : Agreement} (h : a.Installed k) (h' : a.Installed k')
    (hs : k'.server = !k.server) : SameChoices k k' := by
  refine ⟨h'.name.trans h.name.symm,h'.kexType.trans h.kexType.symm,
    h'.hashAlg.trans h.hashAlg.symm,h'.ecNid.trans h.ecNid.symm,
    h'.hostkeyAlg.trans h.hostkeyAlg.symm,fun mode => ?_,fun mode => ?_,
    h'.weNeed.trans h.weNeed.symm,h'.dhNeed.trans h.dhNeed.symm⟩
  · rw [h'.newkeys,h.newkeys,hs]
    unfold Agreement.newkeys
    rw [ctos_flip]
  · rw [h.newkeys]
    rfl

lemma kexDeriveKeys_ok (h : Hash) (hin : (k.newkeys .in_).isSome)
    (hout : (k.newkeys .out).isSome) (sessionId : Option Bytes) (hash sharedSecret : Bytes) :
    ∃ keys, kexDeriveKeys h k sessionId hash sharedSecret = .ok (sessionId.getD hash,keys) := by
  have hin : k.newkeysIn ≠ none := Option.isSome_iff_ne_none.mp hin
  have hout : k.newkeysOut ≠ none := Option.isSome_iff_ne_none.mp hout
  unfold kexDeriveKeys
  rw [if_neg (not_or.mpr ⟨hin,hout⟩)]
  exact ⟨_,rfl⟩

lemma kexDeriveKeys_mirror {h : Hash} (hs : SameChoices k k') (hserver : k'.server = !k.server)
    {sessionId : Option Bytes} {hash sharedSecret sid sid' : Bytes}
    {keys keys' : Mode → DirectionKeys}
    (hk : kexDeriveKeys h k sessionId hash sharedSecret = .ok (sid,keys))
    (hk' : kexDeriveKeys h k' sessionId hash sharedSecret = .ok (sid',keys')) :
    sid' = sid ∧ ∀ mode, keys' mode = keys mode.flip := by
  unfold kexDeriveKeys at hk hk'
  split at hk
  · cases hk
  split at hk'
  · cases hk'
  cases hk
  cases hk'
  refine ⟨rfl,fun mode => ?_⟩
  dsimp only
  rw [hserver,ctos_flip,hs.hashAlg,hs.weNeed]

/-- When one end chooses its configuration, the other end chooses the same one from the same
payloads, and both derive the same keys for each direction. -/
theorem kexChooseConf_mirror (h : Hash) {ssh ssh' peer : Ssh} (hm : Mirrors ssh.kex peer.kex)
    (hok : kexChooseConf t ssh = .ok (none,ssh')) :
    ∃ peer', kexChooseConf t peer = .ok (none,peer') ∧ SameChoices ssh'.kex peer'.kex ∧
      ∀ sessionId hash sharedSecret, ∃ sid keys keys',
        kexDeriveKeys h ssh'.kex sessionId hash sharedSecret = .ok (sid,keys) ∧
        kexDeriveKeys h peer'.kex sessionId hash sharedSecret = .ok (sid,keys') ∧
        ∀ mode, keys' mode = keys mode.flip := by
  obtain ⟨a,ha,hinst,hserver⟩ := kexChooseConf_none hok
  obtain ⟨peer',hok'⟩ := kexChooseConf_of_agrees (ha.mirror hm)
  obtain ⟨a',ha',hinst',hserver'⟩ := kexChooseConf_none hok'
  have hsame : a' = a := ha'.unique (ha.mirror hm)
  subst hsame
  have hrole : peer'.kex.server = !ssh'.kex.server := by
    rw [hserver',hserver,hm.server]
  have hchoices := hinst.sameChoices hinst' hrole
  refine ⟨peer',hok',hchoices,fun sessionId hash sharedSecret => ?_⟩
  obtain ⟨keys,hk⟩ := kexDeriveKeys_ok h (hchoices.present .in_) (hchoices.present .out) _ hash _
  have hpresent : ∀ mode, (peer'.kex.newkeys mode).isSome := by
    intro mode
    rw [hchoices.newkeys]
    exact hchoices.present _
  obtain ⟨keys',hk'⟩ := kexDeriveKeys_ok h (hpresent .in_) (hpresent .out) _ hash _
  exact ⟨_,keys,keys',hk,hk',(kexDeriveKeys_mirror hchoices hrole hk hk').2⟩

end

def exampleEnd (server : Bool) : Ssh :=
  let p := ((kexProp2buf (exampleLists "curve25519-sha256")).toOption).getD []
  ⟨{ server, initial := true, my := p, peer := p },0⟩

def zeroHash : Hash := ⟨fun alg _ => List.replicate alg.bytes 0,fun _ _ => List.length_replicate⟩

theorem kexChooseConf_mirror_example :
    ∃ ssh' peer', kexChooseConf defaultXkalg (exampleEnd false) = .ok (none,ssh') ∧
      kexChooseConf defaultXkalg (exampleEnd true) = .ok (none,peer') ∧
      SameChoices ssh'.kex peer'.kex ∧ ∀ sessionId hash sharedSecret, ∃ sid keys keys',
        kexDeriveKeys zeroHash ssh'.kex sessionId hash sharedSecret = .ok (sid,keys) ∧
        kexDeriveKeys zeroHash peer'.kex sessionId hash sharedSecret = .ok (sid,keys') ∧
        ∀ mode, keys' mode = keys mode.flip := by
  have hcode : (kexChooseConf defaultXkalg (exampleEnd false)).toOption.map Prod.fst =
      some none := by decide +kernel
  obtain ⟨⟨code,ssh'⟩,hok⟩ :=
    exists_ok (show (kexChooseConf defaultXkalg (exampleEnd false)).isOk = true by decide +kernel)
  rw [hok] at hcode
  obtain rfl : code = none := Option.some.inj hcode
  obtain ⟨peer',h⟩ := kexChooseConf_mirror zeroHash
    (show Mirrors (exampleEnd false).kex (exampleEnd true).kex from ⟨rfl,rfl,rfl⟩) hok
  exact ⟨ssh',peer',hok,h⟩

end PkixSsh.Kex
