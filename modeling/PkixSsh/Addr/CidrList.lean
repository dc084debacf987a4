import PkixSsh.Addr.Netmatch

/-!
# Lists of networks

Characters that are not permitted in an entry do not end the loop of `addr_match_cidr_list`, and a
network that matches later hides the error.
-/

namespace PkixSsh.Addr

open List

section

variable (host : Host) (getaddrinfo : Bytes → Option Sockaddr)

def Readable (cp : Bytes) : Prop :=
  cp ≠ [] ∧ cp.length ≤ inet6Addrstrlen + 3 ∧ ∃ r, addrPtonCidr host getaddrinfo cp = .ok r

def Permitted (cp : Bytes) : Prop := cp.all (· ∈ validCidrChars) = true

instance (cp : Bytes) : Decidable (Permitted cp) := inferInstanceAs (Decidable (_ = _))

def Covers (a : Xaddr) (cp : Bytes) : Prop :=
  ∃ net l, addrPtonCidr host getaddrinfo cp = .ok (net,l) ∧ addrNetmatch host a net l = 0

def Sound (cp : Bytes) : Prop := Readable host getaddrinfo cp ∧ Permitted cp

/-- The list is looked at: there is no address, or one that can be read. -/
def Looked (addr : Option Bytes) : Prop :=
  ∀ text, addr = some text → (addrPton getaddrinfo text).isSome

def ErrorsRefuse (addr : Option Bytes) (list : Bytes) : Prop :=
  (addrMatchCidrList host getaddrinfo addr list = 1 →
    ∀ cp ∈ splitCommas list, Sound host getaddrinfo cp) ∧
  (Looked getaddrinfo addr → (∃ cp ∈ splitCommas list, ¬ Sound host getaddrinfo cp) →
    addrMatchCidrList host getaddrinfo addr list = -1)

/-- The address matches at or behind the last entry with characters that are not permitted, and no
entry ends the loop. -/
def MatchesBehind (addr : Option Bytes) (list : Bytes) : Prop :=
  ∃ text a pre cp post, addr = some text ∧ addrPton getaddrinfo text = some a ∧
    splitCommas list = pre ++ cp :: post ∧ (∀ e ∈ splitCommas list, Readable host getaddrinfo e) ∧
    ¬ Permitted cp ∧ (∀ e ∈ post, Permitted e) ∧ ∃ e ∈ cp :: post, Covers host getaddrinfo a e

end

section

variable {host : Host} {getaddrinfo : Bytes → Option Sockaddr} {addr : Option Xaddr} {ret : Int}

lemma cidrLoop_unreadable {cp : Bytes} (h : ¬ Readable host getaddrinfo cp) (rest : List Bytes) :
    cidrLoop host getaddrinfo addr ret (cp :: rest) = -1 := by
  rw [cidrLoop]
  split
  · rfl
  next hne =>
  split
  · rfl
  next hlen =>
  cases hr : addrPtonCidr host _ cp with
  | error e => rfl
  | ok r => exact absurd ⟨hne,Nat.not_lt.mp hlen,r,hr⟩ h

open Classical in
/-- What an entry that is read does to the result. -/
noncomputable def entryResult (host : Host) (getaddrinfo : Bytes → Option Sockaddr)
    (addr : Option Xaddr) (ret : Int) (cp : Bytes) : Int :=
  if ∃ a, addr = some a ∧ Covers host getaddrinfo a cp then 1 else if Permitted cp then ret else -1

lemma cidrLoop_readable {cp : Bytes} (h : Readable host getaddrinfo cp) (rest : List Bytes) :
    cidrLoop host getaddrinfo addr ret (cp :: rest) =
      cidrLoop host getaddrinfo addr (entryResult host getaddrinfo addr ret cp) rest := by
  obtain ⟨hne,hlen,⟨net,l⟩,hr⟩ := h
  rw [cidrLoop,if_neg hne,if_neg (Nat.not_lt.mpr hlen),hr]
  have hcover : ∀ a, Covers host getaddrinfo a cp ↔ addrNetmatch host a net l = 0 := by
    intro a
    constructor
    · rintro ⟨net',l',hr',hm⟩
      cases hr.symm.trans hr'
      exact hm
    · exact fun hm => ⟨net,l,hr,hm⟩
  cases addr with
  | none => simp [entryResult,Permitted]
  | some a => simp [entryResult,Permitted,hcover]

lemma cidrLoop_append_readable (addr : Option Xaddr) (ret : Int) {pre : List Bytes}
    (h : ∀ e ∈ pre, Readable host getaddrinfo e)
    (rest : List Bytes) : ∃ ret', cidrLoop host getaddrinfo addr ret (pre ++ rest) =
      cidrLoop host getaddrinfo addr ret' rest := by
  induction pre generalizing ret with
  | nil => exact ⟨ret,rfl⟩
  | cons cp pre ih =>
    rw [cons_append,cidrLoop_readable (h cp mem_cons_self)]
    exact ih _ fun e he => h e (mem_cons_of_mem cp he)

variable (host getaddrinfo) in
/-- A look through `es` that began with `ret` ends with `r`: 1 when an entry covers the address. -/
def Answers (addr : Option Xaddr) (es : List Bytes) (ret r : Int) : Prop :=
  r = ret ∧ (¬ ∃ a, addr = some a ∧ ∃ e ∈ es, Covers host getaddrinfo a e) ∨
    r = 1 ∧ ∃ a, addr = some a ∧ ∃ e ∈ es, Covers host getaddrinfo a e

lemma cidrLoop_cons (ret : Int) {cp : Bytes} {post : List Bytes}
    (hcp : Readable host getaddrinfo cp)
    (hpost : ∀ ret, Answers host getaddrinfo addr post ret
      (cidrLoop host getaddrinfo addr ret post)) :
    Answers host getaddrinfo addr (cp :: post) (if Permitted cp then ret else -1)
      (cidrLoop host getaddrinfo addr ret (cp :: post)) := by
  rw [cidrLoop_readable hcp]
  rcases hpost _ with ⟨hloop,hno⟩ | ⟨hloop,a,ha,e,he,hc⟩
  · rw [hloop,entryResult]
    by_cases hcov : ∃ a, addr = some a ∧ Covers host getaddrinfo a cp
    · rw [if_pos hcov]
      obtain ⟨a,ha,hc⟩ := hcov
      exact .inr ⟨rfl,a,ha,cp,mem_cons_self,hc⟩
    · rw [if_neg hcov]
      refine .inl ⟨rfl,?_⟩
      rintro ⟨a,ha,e,he,hc⟩
      rcases mem_cons.mp he with rfl | he
      · exact hcov ⟨a,ha,hc⟩
      · exact hno ⟨a,ha,e,he,hc⟩
  · exact .inr ⟨hloop,a,ha,e,mem_cons_of_mem cp he,hc⟩

lemma cidrLoop_sound (addr : Option Xaddr) (ret : Int) {post : List Bytes}
    (h : ∀ e ∈ post, Sound host getaddrinfo e) :
    Answers host getaddrinfo addr post ret (cidrLoop host getaddrinfo addr ret post) := by
  induction post generalizing ret with
  | nil =>
    refine .inl ⟨rfl,?_⟩
    rintro ⟨a,-,e,he,-⟩
    cases he
  | cons cp post ih =>
    have hcp := h cp mem_cons_self
    have hcons := cidrLoop_cons ret hcp.1 fun ret => ih ret fun e he => h e (mem_cons_of_mem cp he)
    rwa [if_pos hcp.2] at hcons

lemma exists_last {p : Bytes → Prop} {es : List Bytes} (h : ∃ e ∈ es, p e) :
    ∃ pre e post, es = pre ++ e :: post ∧ p e ∧ ∀ x ∈ post, ¬ p x := by
  induction es with
  | nil =>
    obtain ⟨e,he,-⟩ := h
    cases he
  | cons x es ih =>
    by_cases hes : ∃ e ∈ es, p e
    · obtain ⟨pre,e,post,rfl,hp,hpost⟩ := ih hes
      exact ⟨x :: pre,e,post,rfl,hp,hpost⟩
    · obtain ⟨e,he,hp⟩ := h
      rcases mem_cons.mp he with rfl | he
      · exact ⟨[],e,es,rfl,hp,fun y hy hpy => hes ⟨y,hy,hpy⟩⟩
      · exact absurd ⟨e,he,hp⟩ hes

/-- The last entry with characters that are not permitted, and those behind it, decide. -/
lemma cidrLoop_last (addr : Option Xaddr) (ret : Int) {pre post : List Bytes} {cp : Bytes}
    (hread : ∀ e ∈ pre ++ cp :: post, Readable host getaddrinfo e) (hbad : ¬ Permitted cp)
    (hpost : ∀ e ∈ post, Permitted e) :
    Answers host getaddrinfo addr (cp :: post) (-1)
      (cidrLoop host getaddrinfo addr ret (pre ++ cp :: post)) := by
  have hsound : ∀ x ∈ post, Sound host _ x := fun x hx => ⟨hread x (by simp [hx]),hpost x hx⟩
  obtain ⟨ret',hret⟩ := cidrLoop_append_readable addr ret
    (fun x hx => hread x (mem_append_left _ hx)) _
  have hcons := cidrLoop_cons ret' (hread cp (by simp)) fun ret => cidrLoop_sound addr ret hsound
  rwa [if_neg hbad,← hret] at hcons

lemma cidrLoop_not_readable {es : List Bytes} (h : ¬ ∀ e ∈ es, Readable host getaddrinfo e) :
    cidrLoop host getaddrinfo addr ret es = -1 := by
  induction es generalizing ret with
  | nil => exact absurd nofun h
  | cons x es ih =>
    by_cases hx : Readable host getaddrinfo x
    · rw [cidrLoop_readable hx]
      refine ih fun hes => h fun e he => ?_
      rcases mem_cons.mp he with rfl | he
      · exact hx
      · exact hes e he
    · exact cidrLoop_unreadable hx es

lemma cidrLoop_error (addr : Option Xaddr) (ret : Int) {es : List Bytes}
    (h : ∃ cp ∈ es, ¬ Sound host getaddrinfo cp) :
    cidrLoop host getaddrinfo addr ret es = -1 ∨ (∀ e ∈ es, Readable host getaddrinfo e) ∧
        ∃ a pre cp post, addr = some a ∧ es = pre ++ cp :: post ∧ ¬ Permitted cp ∧
          (∀ e ∈ post, Permitted e) ∧ ∃ e ∈ cp :: post, Covers host getaddrinfo a e := by
  by_cases hall : ∀ e ∈ es, Readable host getaddrinfo e
  · obtain ⟨cp,hcp,hns⟩ := h
    obtain ⟨pre,e,post,rfl,hbad,hpost⟩ := exists_last (p := fun e => ¬ Permitted e)
      ⟨cp,hcp,fun hperm => hns ⟨hall cp hcp,hperm⟩⟩
    have hpost' : ∀ x ∈ post, Permitted x := fun x hx => not_not.mp (hpost x hx)
    rcases cidrLoop_last addr ret hall hbad hpost' with hr | ⟨-,a,ha,hcov⟩
    · exact .inl hr.1
    · exact .inr ⟨hall,a,pre,e,post,ha,rfl,hbad,hpost',hcov⟩
  · exact .inl (cidrLoop_not_readable hall)

end

/-- A list with an error does not authorize, unless the address matches at or behind the last
entry with characters that are not permitted. -/
theorem addrMatchCidrList_refuses_iff (host : Host) (getaddrinfo : Bytes → Option Sockaddr)
    (addr : Option Bytes) (list : Bytes) :
    ErrorsRefuse host getaddrinfo addr list ↔ ¬ MatchesBehind host getaddrinfo addr list := by
  constructor
  · rintro ⟨hone,-⟩ ⟨text,a,pre,cp,post,rfl,ha,hsplit,hread,hbad,hpost,hcov⟩
    rw [addrMatchCidrList,ha] at hone
    rw [hsplit] at hone hread
    rcases cidrLoop_last _ 0 hread hbad hpost with ⟨-,hno⟩ | ⟨hr,-⟩
    · exact hno ⟨a,rfl,hcov⟩
    · exact hbad (hone hr cp (by simp)).2
  · intro h
    -- with an error in the list the result is that of the error
    have herror : Looked getaddrinfo addr → (∃ cp ∈ splitCommas list, ¬ Sound host getaddrinfo cp) →
        addrMatchCidrList host getaddrinfo addr list = -1 := by
      intro hlook hns
      cases addr with
      | none =>
        rcases cidrLoop_error none 0 hns with hr | ⟨-,a,-,-,-,ha,-⟩
        · exact hr
        · cases ha
      | some text =>
        obtain ⟨a,ha⟩ := Option.isSome_iff_exists.mp (hlook text rfl)
        rw [addrMatchCidrList,ha]
        rcases cidrLoop_error _ 0 hns with hr | ⟨hall,a',pre,cp,post,ha',hrest⟩
        · exact hr
        · cases ha'
          exact absurd ⟨text,a,pre,cp,post,rfl,ha,hrest.1,hall,hrest.2⟩ h
    refine ⟨fun hone => ?_,herror⟩
    have hlook : Looked getaddrinfo addr := by
      rintro text rfl
      rw [addrMatchCidrList] at hone
      cases ha : addrPton _ text with
      | none =>
        rw [ha] at hone
        cases hone
      | some a => rfl
    by_contra hns
    have hns : ∃ cp ∈ splitCommas list, ¬ Sound host getaddrinfo cp := by
      by_contra hno
      exact hns fun cp hcp => not_not.mp fun hs => hno ⟨cp,hcp,hs⟩
    rw [herror hlook hns] at hone
    cases hone

/-- A plus sign before the length of the mask. -/
theorem addrMatchCidrList_plus : ¬ Permitted (cstr "10.0.0.0/+8") ∧
      addrMatchCidrList .littleEndian exampleGetaddrinfo (some (cstr "10.0.0.1"))
        (cstr "10.0.0.0/+8") = 1 := by
  decide +kernel

end PkixSsh.Addr
