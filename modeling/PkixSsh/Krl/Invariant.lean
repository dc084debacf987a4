import PkixSsh.Krl.Basic

/-!
# Lists built by revocations

After any calls no entry is found under the key of a later one, the keys are public copies, and
every entry revokes something.
-/

namespace PkixSsh.Krl

open Key X509 Sshbuf IntervalList SortedTree List

lemma sshkeyEqual_self {k : SshKey} (ssl : Openssl) (hx : k.x509Data = none)
    (hl : (publicKey k).isSome) : sshkeyEqual ssl k k = true := by
  have hcert : certCompare k.cert k.cert = true := by
    cases k.cert <;> simp [certCompare]
  have hnot : ¬ (sshkeyIsX509 k ∧ sshkeyIsX509 k) := by simp [sshkeyIsX509,hx]
  rw [sshkeyEqual,hcert,sshkeyEqualPublic,if_neg hnot,(equalMaterial_iff rfl hl).mpr rfl]
  simp

variable {ca : Option SshKey}

lemma copyCa_ok {k : Option SshKey} (h : copyCa ca = .ok k) : (ca = none ∧ k = none) ∨
      ∃ a n, ca = some a ∧ k = some n ∧ sshkeyFromPrivate a = .ok n := by
  cases ca with
  | none =>
    cases h
    exact .inl ⟨rfl,rfl⟩
  | some a =>
    rw [copyCa] at h
    cases hc : sshkeyFromPrivate a with
    | error e =>
      rw [hc] at h
      cases h
    | ok n =>
      rw [hc] at h
      cases h
      exact .inr ⟨a,n,rfl,rfl,hc⟩

lemma matchesCa_copy {k : Option SshKey} (h : copyCa ca = .ok k) (ssl : Openssl)
    (a : Option SshKey) : matchesCa ssl a k = matchesCa ssl a ca := by
  rcases copyCa_ok h with ⟨rfl,rfl⟩ | ⟨ca,n,rfl,rfl,hcopy⟩
  · rfl
  · cases a with
    | none => rfl
    | some a => exact (sshkeyFromPrivate_copies hcopy).equal ssl a

lemma copyCa_copy {k : Option SshKey} (h : copyCa ca = .ok k) : copyCa k = .ok k := by
  rcases copyCa_ok h with ⟨rfl,rfl⟩ | ⟨ca,n,rfl,rfl,hcopy⟩
  · rfl
  · rw [copyCa,(sshkeyFromPrivate_copies hcopy).again]
    rfl

def RevokedCerts.fresh (caKey : Option SshKey) : RevokedCerts := ⟨caKey,.empty,.empty⟩

section

variable {ssl : Openssl} {ca : Option SshKey} {f : RevokedCerts → RevokedCerts}

lemma updateCa_ok {rcs rcs' : List RevokedCerts} (h : updateCa ssl ca f rcs = .ok rcs') :
    (∃ l rc r, rcs = l ++ rc :: r ∧ rcs' = l ++ f rc :: r ∧ matchesCa ssl rc.caKey ca = true) ∨
      ∃ k, copyCa ca = .ok k ∧ (∀ rc ∈ rcs, matchesCa ssl rc.caKey ca = false) ∧
        rcs' = rcs ++ [f (.fresh k)] := by
  induction rcs generalizing rcs' with
  | nil =>
    obtain ⟨k,hk,h⟩ := bind_eq_ok.mp h
    cases h
    exact .inr ⟨k,hk,fun rc hrc => (by cases hrc),rfl⟩
  | cons rc rcs ih =>
    rw [updateCa] at h
    split at h
    · rename_i hm
      cases h
      exact .inl ⟨[],rc,rcs,rfl,rfl,hm⟩
    · rename_i hm
      obtain ⟨rcs1,hrec,h⟩ := bind_eq_ok.mp h
      cases h
      rcases ih hrec with ⟨l,rc',r,rfl,rfl,hm'⟩ | ⟨k,hk,hno,rfl⟩
      · exact .inl ⟨rc :: l,rc',r,rfl,rfl,hm'⟩
      · refine .inr ⟨k,hk,fun x hx => ?_,rfl⟩
        rcases List.mem_cons.mp hx with rfl | hx
        · simpa using hm
        · exact hno x hx

lemma updateCa_append {l : List RevokedCerts}
    (hl : ∀ rc ∈ l, matchesCa ssl rc.caKey ca = false) (rcs : List RevokedCerts) :
    updateCa ssl ca f (l ++ rcs) = (updateCa ssl ca f rcs).map (l ++ ·) := by
  induction l with
  | nil =>
    cases h : updateCa ssl ca f rcs <;> simp [h,Except.map]
  | cons rc l ih =>
    have hno := hl rc mem_cons_self
    rw [cons_append,updateCa,hno,ih fun x hx => hl x (mem_cons_of_mem _ hx)]
    cases h : updateCa ssl ca f rcs <;> rfl

lemma foldlM_updateCa {l : List RevokedCerts} {fs : List (RevokedCerts → RevokedCerts)}
    (hl : ∀ rc ∈ l, matchesCa ssl rc.caKey ca = false) (hca : matchesCa ssl ca ca = true)
    (hcopy : copyCa ca = .ok ca) (hf : ∀ f ∈ fs, ∀ rc, (f rc).caKey = rc.caKey) :
    fs.foldlM (fun rcs f => updateCa ssl ca f rcs) l =
      .ok (l ++ if fs = [] then [] else [fs.foldl (fun rc f => f rc) (.fresh ca)]) := by
  have hmore : ∀ (gs : List _) (rc : RevokedCerts), rc.caKey = ca →
      (∀ g ∈ gs, ∀ rc, (g rc).caKey = rc.caKey) →
      gs.foldlM (fun rcs f => updateCa ssl ca f rcs) (l ++ [rc]) =
        .ok (l ++ [gs.foldl (fun rc f => f rc) rc]) := by
    intro gs
    induction gs with
    | nil => exact fun rc _ _ => rfl
    | cons g gs ih =>
      intro rc hrc hg
      have hstep : updateCa ssl ca g [rc] = .ok [g rc] := by
        rw [updateCa,hrc,if_pos hca]
      rw [foldlM_cons,updateCa_append hl,hstep]
      exact ih _ ((hg g mem_cons_self rc).trans hrc) fun g' hg' => hg g' (mem_cons_of_mem _ hg')
  cases fs with
  | nil => simp
  | cons f fs =>
    have hnew : updateCa ssl ca f [] = .ok [f (.fresh ca)] := by
      rw [updateCa,hcopy]
      rfl
    have hfirst := updateCa_append (f := f) hl []
    rw [append_nil,hnew] at hfirst
    rw [foldlM_cons,hfirst]
    exact hmore fs _ (hf f mem_cons_self _) fun g hg => hf g (mem_cons_of_mem _ hg)

end

structure EntriesInv (ssl : Openssl) (rcs : List RevokedCerts) : Prop where
  apart : rcs.Pairwise fun a b => matchesCa ssl a.caKey b.caKey = false
  copied : ∀ rc ∈ rcs, copyCa rc.caKey = .ok rc.caKey
  nonempty : ∀ rc ∈ rcs, rc.revokedSerials.ranges ≠ [] ∨ rc.revokedKeyIds.keyIds ≠ []

/-- A change of an entry that leaves something revoked for the same key. -/
def Revokes (f : RevokedCerts → RevokedCerts) : Prop :=
  ∀ rc, (f rc).caKey = rc.caKey ∧
    ((f rc).revokedSerials.ranges ≠ [] ∨ (f rc).revokedKeyIds.keyIds ≠ [])

lemma insertSerials_revokes (rs : RevokedSerial) (h : 0 < rs.lo ∧ rs.hi < 2 ^ 64) :
    Revokes (.insertSerials rs h) := by
  refine fun rc => ⟨rfl,.inl fun hnil => ?_⟩
  have hin : (insertSerialRange rc.revokedSerials rs h).Contains rs.lo :=
    (insertSerialRange_contains _ _ _ _).mpr (.inr ⟨Nat.le_refl _,rs.le⟩)
  obtain ⟨a,ha,-⟩ := hin
  change a ∈ (RevokedCerts.insertSerials rs h rc).revokedSerials.ranges at ha
  rw [hnil] at ha
  cases ha

lemma insertKeyId_revokes (keyId : CString) : Revokes (.insertKeyId keyId) := by
  refine fun rc => ⟨rfl,.inr fun hnil => ?_⟩
  have hin : keyId ∈ SortedTree.insert keyIdCmp keyId rc.revokedKeyIds.keyIds :=
    mem_insert.mpr (.inl rfl)
  change SortedTree.insert _ keyId _ = [] at hnil
  rw [hnil] at hin
  cases hin

variable {ssl : Openssl}

lemma EntriesInv.updateCa
    {f : RevokedCerts → RevokedCerts} (hf : Revokes f) {rcs rcs' : List RevokedCerts}
    (h : EntriesInv ssl rcs) (hu : updateCa ssl ca f rcs = .ok rcs') : EntriesInv ssl rcs' := by
  rcases updateCa_ok hu with ⟨l,rc,r,rfl,rfl,-⟩ | ⟨k,hk,hno,rfl⟩
  · -- only the entry changes, and it keeps its key
    have hkey := (hf rc).1
    refine ⟨?_,fun x hx => ?_,fun x hx => ?_⟩
    · have hp := h.apart
      rw [pairwise_append,pairwise_cons] at hp ⊢
      refine ⟨hp.1,⟨fun x hx => hkey ▸ hp.2.1.1 x hx,hp.2.1.2⟩,fun x hx y hy => ?_⟩
      rcases List.mem_cons.mp hy with rfl | hy
      · rw [hkey]
        exact hp.2.2 x hx rc mem_cons_self
      · exact hp.2.2 x hx y (mem_cons_of_mem _ hy)
    · have hx' : x = f rc ∨ x ∈ l ++ rc :: r := by simp at hx ⊢; tauto
      rcases hx' with rfl | hx'
      · rw [hkey]
        exact h.copied rc (by simp)
      · exact h.copied x hx'
    · have hx' : x = f rc ∨ x ∈ l ++ rc :: r := by simp at hx ⊢; tauto
      rcases hx' with rfl | hx'
      · exact (hf rc).2
      · exact h.nonempty x hx'
  · have hkey := (hf (.fresh k)).1
    refine ⟨?_,fun x hx => ?_,fun x hx => ?_⟩
    · refine pairwise_append.mpr ⟨h.apart,pairwise_singleton _ _,fun x hx y hy => ?_⟩
      obtain rfl := mem_singleton.mp hy
      rw [hkey]
      exact (matchesCa_copy hk ssl _).trans (hno x hx)
    · rcases List.mem_append.mp hx with hx | hx
      · exact h.copied x hx
      · obtain rfl := mem_singleton.mp hx
        rw [hkey]
        exact copyCa_copy hk
    · rcases List.mem_append.mp hx with hx | hx
      · exact h.nonempty x hx
      · obtain rfl := mem_singleton.mp hx
        exact (hf _).2

lemma revokeCertBySerialRange_inv {krl krl' : SshKrl}
    {lo hi : UInt64} (h : EntriesInv ssl krl.revokedCerts)
    (hr : sshKrlRevokeCertBySerialRange ssl krl ca lo hi = .ok krl') :
    EntriesInv ssl krl'.revokedCerts := by
  rw [sshKrlRevokeCertBySerialRange] at hr
  split at hr
  · cases hr
  · obtain ⟨rcs,hu,hr⟩ := bind_eq_ok.mp hr
    cases hr
    exact h.updateCa (insertSerials_revokes _ _) hu

lemma revoke_inv {c : Codec} {krl krl' : SshKrl} {r : Revocation}
    (h : EntriesInv ssl krl.revokedCerts) (hr : revoke ssl c krl r = .ok krl') :
    EntriesInv ssl krl'.revokedCerts := by
  cases r with
  | certBySerialRange ca lo hi => exact revokeCertBySerialRange_inv h hr
  | certBySerial ca serial => exact revokeCertBySerialRange_inv h hr
  | certByKeyId ca keyId =>
    obtain ⟨rcs,hu,hr⟩ := bind_eq_ok.mp hr
    cases hr
    exact h.updateCa (insertKeyId_revokes _) hu
  | keyExplicit key =>
    obtain ⟨blob,-,hr⟩ := bind_eq_ok.mp hr
    cases hr
    exact h
  | keySha1 p =>
    rw [revoke,sshKrlRevokeKeySha1] at hr
    split at hr
    · cases hr
      exact h
    · cases hr
  | keySha256 p =>
    rw [revoke,sshKrlRevokeKeySha256] at hr
    split at hr
    · cases hr
      exact h
    · cases hr

lemma revokeAll_inv {c : Codec} {krl : SshKrl} {rs : List Revocation}
    (h : revokeAll ssl c rs = .ok krl) : EntriesInv ssl krl.revokedCerts := by
  have hrun : ∀ (rs : List _) (krl0 : SshKrl), EntriesInv ssl krl0.revokedCerts →
      rs.foldlM (revoke ssl c) krl0 = .ok krl → EntriesInv ssl krl.revokedCerts := by
    intro rs
    induction rs with
    | nil =>
      intro krl0 h0 hr
      cases hr
      exact h0
    | cons r rs ih =>
      intro krl0 h0 hr
      obtain ⟨krl1,hstep,hr⟩ := bind_eq_ok.mp hr
      exact ih _ (revoke_inv h0 hstep) hr
  exact hrun rs _ ⟨.nil,fun rc hrc => (by cases hrc),fun rc hrc => (by cases hrc)⟩ h

end PkixSsh.Krl
