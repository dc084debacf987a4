import PkixSsh.Hostfile.StrictChecking

/-!
# Lines of known hosts

Which marker a line is taken to have, and what of the buffer a line is read from.
-/

namespace PkixSsh.Hostfile

open Key Sshbuf Lines List

def markerText : HostkeyMarker → Option Bytes
  | .ca => some caMarker
  | .revoke => some revokeMarker
  | _ => none

section

variable {ret : HostkeyMarker} {m ws rest : Bytes}

lemma markerText_ok (h : markerText ret = some m) : m.head? = some atSign ∧
    (∀ c ∈ m, isBlank c = false) ∧ ¬ (m.length ≤ 1 ∨ 32 ≤ m.length) ∧ ret ≠ .error ∧
      (if m = caMarker then .ca else if m = revokeMarker then .revoke else .error) = ret := by
  cases ret <;> cases h <;> decide +kernel

lemma checkMarkers_cut (hm : markerText ret = some m) (stop : UInt8)
    (hstop : (if space ∈ m ++ stop :: rest then space else tab) = stop)
    (hat : (skipBlanks (stop :: rest)).head? ≠ some atSign) :
    checkMarkers (m ++ stop :: rest) = (ret,skipBlanks (stop :: rest)) := by
  obtain ⟨hhead,hplain,hlen,hret,htext⟩ := markerText_ok hm
  have hcut : (m ++ stop :: rest).takeWhile (· ≠ stop) = m := by
    rw [takeWhile_append_of_pos]
    · simp
    · intro c hc
      simp only [decide_eq_true_eq]
      rintro rfl
      have hblank := hplain c hc
      rw [← hstop] at hblank
      split at hblank <;> cases hblank
  rw [checkMarkers,if_neg (by simp [hhead])]
  dsimp only
  rw [hstop,hcut,htext]
  simp [hlen,hret,hat]

lemma checkMarkers_tab (hm : markerText ret = some m) (hspace : space ∈ rest) :
    (checkMarkers (m ++ tab :: rest)).1 = .error := by
  obtain ⟨hhead,hplain,-⟩ := markerText_ok hm
  have htab : tab ∈ (m ++ tab :: rest).takeWhile (· ≠ space) := by
    rw [takeWhile_append_of_pos]
    · simp [tab,space]
    · intro c hc
      simp only [decide_eq_true_eq]
      rintro rfl
      cases hplain space hc
  rw [checkMarkers,if_neg (by simp [hhead])]
  dsimp only
  rw [if_pos (by simp [hspace] : space ∈ m ++ tab :: rest)]
  generalize (m ++ tab :: rest).takeWhile _ = marker at htab
  -- neither marker has a tab in it
  have hca : marker ≠ caMarker := by
    rintro rfl
    revert htab
    decide
  have hrevoke : marker ≠ revokeMarker := by
    rintro rfl
    revert htab
    decide
  simp [hca,hrevoke]

/-- A marker is recognised if a space follows it, or if the line has no space at all. -/
theorem checkMarkers_recognises_iff (ret : HostkeyMarker) (m ws rest : Bytes)
    (hm : markerText ret = some m) (hne : ws ≠ []) (hws : ∀ c ∈ ws, isBlank c)
    (hrest : ∀ c ∈ rest.head?, isBlank c = false ∧ c ≠ atSign) :
    checkMarkers (m ++ ws ++ rest) = (ret,rest) ↔ ws.head? = some space ∨ space ∉ ws ++ rest := by
  have hskip : skipBlanks (ws ++ rest) = rest := by
    rw [skipBlanks,dropWhile_append_of_pos hws]
    cases rest with
    | nil => rfl
    | cons c rest => simp [(hrest c rfl).1]
  have hat : (skipBlanks (ws ++ rest)).head? ≠ some atSign := by
    rw [hskip]
    exact fun h => (hrest _ h).2 rfl
  obtain ⟨-,hplain,-,hret,-⟩ := markerText_ok hm
  have hnot : space ∉ m := fun h => (by cases hplain space h)
  obtain ⟨w,ws,rfl⟩ := exists_cons_of_ne_nil hne
  rw [append_assoc]
  constructor
  · intro h
    by_contra hno
    obtain ⟨hw,hspace⟩ := not_or.mp hno
    have hw : w ≠ space := fun h => hw (congrArg some h)
    obtain rfl : w = tab := by simpa [isBlank,hw] using hws w mem_cons_self
    have hspace : space ∈ ws ++ rest := by simpa [tab,space] using not_not.mp hspace
    have herror := checkMarkers_tab hm hspace
    exact hret ((congrArg _ h).symm.trans herror)
  · intro h
    refine (checkMarkers_cut hm w ?_ hat).trans (congrArg _ hskip)
    have hmem : space ∈ m ++ w :: (ws ++ rest) ↔ space ∈ w :: ws ++ rest := by simp [hnot]
    rcases h with h | h
    · cases h
      simp
    · have hw : w ≠ space := fun hw => h (hw ▸ mem_cons_self)
      refine (if_neg (mt hmem.mp h)).trans ?_
      simpa [isBlank,hw,eq_comm] using hws w mem_cons_self

end

example : checkMarkers (cstr "@revoked host") = (.revoke,cstr "host") := by decide +kernel

theorem checkMarkers_two_spaces :
    checkMarkers (revokeMarker ++ cstr "  " ++ cstr "host key") = (.revoke,cstr "host key") :=
  (checkMarkers_recognises_iff _ _ _ _ rfl (by decide +kernel) (by decide +kernel)
    (by decide +kernel)).mpr (.inl rfl)

/-- Behind a tab the marker reaches to the first space, and a line that revokes a key is skipped. -/
theorem checkMarkers_tab_skipped :
    (checkMarkers (revokeMarker ++ [tab] ++ cstr "host key")).1 = .error ∧
      foreachLine exampleHosts (cstr "host") none true
        ⟨[],1,.ok,revokeMarker ++ [tab] ++ cstr "host key",.none,none⟩ [] = none :=
  ⟨rfl,rfl⟩

/-- The line of a text that `getline` returned, as the source cuts it. -/
def lineOf (raw : Bytes) : Bytes := (untilNul raw).takeWhile (· ≠ newline)

/-- The line behind its marker. -/
def fieldsOf (line : Bytes) : Bytes := (checkMarkers (skipBlanks line)).2

def hostsOf (line : Bytes) : Bytes := (fieldsOf line).takeWhile fun c => !isBlank c

/-- `getline` puts a line and a NUL in front of what the buffer holds. -/
def getline (buf raw : Bytes) : Bytes := raw ++ 0 :: buf.drop (raw.length + 1)

/-- The NULs that `hostkeys_foreach` writes: for the newline, and behind the hosts. -/
def cutLine (line buf : Bytes) : Bytes :=
  let buf := buf.set line.length 0
  if (skipBlanks line).head?.all (· = numberSign) ∨ (checkMarkers (skipBlanks line)).1 = .error
  then buf
  else buf.set (line.length - (fieldsOf line).length + (hostsOf line).length) 0

section

variable (env : Env) (host : Bytes) (ip : Option Bytes) (wantMatch : Bool) (path : Bytes)

/-- What the callback learns of a line: its record, and how the name and the address match. -/
def reportLine (raw behind : Bytes) (linenum : Nat) :
    Option (ForeachLine × Option Bool × Option Bool × Bool) :=
  let hosts := hostsOf (lineOf raw)
  (foreachLine env host ip wantMatch ⟨path,linenum,.ok,lineOf raw,.none,none⟩ behind).map fun l =>
    (l,matchMaybeHashed env host hosts,ip.bind fun ip => matchMaybeHashed env ip hosts,
      hosts.head? = some hashDelim)

/-- `hostkeys_foreach` with the one buffer that all lines are read into. -/
def foreachInBuffer :
    Bytes → List Bytes → Nat → List (Option (ForeachLine × Option Bool × Option Bool × Bool))
  | _, [], _ => []
  | buf, raw :: raws, linenum =>
    let buf := getline buf raw
    let line := lineOf raw
    reportLine env host ip wantMatch path raw (buf.drop (line.length + 1)) linenum ::
      foreachInBuffer (cutLine line buf) raws (linenum + 1)

end

section

variable {env : Env} {host : Bytes} {ip : Option Bytes} {wantMatch : Bool} {path buf raw : Bytes}
  {raws : List Bytes}

/-- Nothing is read behind the line: it is a comment, has a bad marker or a blank behind its hosts,
or these are bad or not wanted. -/
def Settled (env : Env) (host : Bytes) (ip : Option Bytes) (wantMatch : Bool)
    (line : Bytes) : Prop :=
  (skipBlanks line).head?.all (· = numberSign) ∨ (checkMarkers (skipBlanks line)).1 = .error ∨
    (∃ c ∈ fieldsOf line, isBlank c) ∨
    ∀ matched, matchHosts env (hostsOf line) host ip = some matched → wantMatch && !matched

/-- The line ends in the text itself, or is settled before its end. -/
def Closed (env : Env) (host : Bytes) (ip : Option Bytes) (wantMatch : Bool) (raw : Bytes) : Prop :=
  newline ∈ raw ∨ 0 ∈ raw ∨ Settled env host ip wantMatch (lineOf raw)

def ReadsKey (env : Env) : Prop :=
  ∃ text, 0 ∉ text ∧ (skipBlanks text).head?.all (· = numberSign) = false ∧
    (hostfileReadKey env (skipBlanks text)).isSome

lemma foreachLine_behind {info : ForeachLine} {behind behind' : Bytes}
    (h : untilNul behind = untilNul behind' ∨ Settled env host ip wantMatch info.line) :
    foreachLine env host ip wantMatch info behind =
      foreachLine env host ip wantMatch info behind' := by
  rcases h with h | hcomment | hmarker | ⟨c,hc,hblank⟩ | hhosts
  · simp only [foreachLine,h]
  · simp only [foreachLine,hcomment,if_true]
  · simp only [foreachLine,hmarker,if_true]
  · have hrest : (checkMarkers (skipBlanks info.line)).2.dropWhile (fun c => !isBlank c) ≠ [] := by
      intro hnil
      have hnot := dropWhile_eq_nil_iff.mp hnil c hc
      rw [hblank] at hnot
      cases hnot
    simp only [foreachLine,hrest,if_false]
  · have hhosts := hhosts
    simp only [hostsOf,fieldsOf] at hhosts
    simp only [foreachLine]
    cases hm : matchHosts env _ host ip with
    | none => rfl
    | some matched => simp only [hhosts _ hm,if_true]

/-- A line that is not settled gets the key that stands behind it. -/
lemma foreachLine_open {info : ForeachLine} (h : ¬ Settled env host ip wantMatch info.line)
    (behind : Bytes) : (foreachLine env host ip wantMatch info behind).map (·.key) =
      some (if (skipBlanks (untilNul behind)).head?.all (· = numberSign) then info.key
        else match hostfileReadKey env (skipBlanks (untilNul behind)) with
          | none => info.key
          | some (key,_) => some key) := by
  simp only [Settled,not_or,not_forall,hostsOf,fieldsOf] at h
  obtain ⟨hcomment,hmarker,hblank,matched,hm,hwant⟩ := h
  have hend : (checkMarkers (skipBlanks info.line)).2.dropWhile (fun c => !isBlank c) = [] := by
    refine dropWhile_eq_nil_iff.mpr fun c hc => ?_
    simpa using fun hb => hblank ⟨c,hc,hb⟩
  simp only [foreachLine,hcomment,hmarker,hend,hm,hwant,if_true,if_false,Bool.false_eq_true]
  split
  · rfl
  · cases hostfileReadKey env _ <;> rfl

lemma untilNul_append_nul (s behind : Bytes) : untilNul (s ++ 0 :: behind) = untilNul s := by
  induction s with
  | nil => rfl
  | cons c s ih => by_cases hc : c = 0 <;> simp_all [untilNul]

/-- A line that is shorter than its text is followed by the rest of the text. -/
lemma untilNul_getline (h : newline ∈ raw ∨ 0 ∈ raw) :
    untilNul ((getline buf raw).drop ((lineOf raw).length + 1)) =
      untilNul (raw.drop ((lineOf raw).length + 1)) := by
  have hsub : lineOf raw <+: raw := (List.takeWhile_prefix _).trans (List.takeWhile_prefix _)
  have hlt : (lineOf raw).length < raw.length := by
    refine lt_of_le_of_ne hsub.length_le fun hlen => ?_
    rw [← hsub.eq_of_length hlen] at h
    rcases h with h | h
    · simpa using mem_takeWhile_imp h
    · simpa using mem_takeWhile_imp ((List.takeWhile_prefix _).subset h)
  rw [getline,drop_append_of_le_length hlt,untilNul_append_nul]

lemma reportLine_own (h : Closed env host ip wantMatch raw) (linenum : Nat) :
    reportLine env host ip wantMatch path raw ((getline buf raw).drop ((lineOf raw).length + 1))
      linenum =
    reportLine env host ip wantMatch path raw (raw.drop ((lineOf raw).length + 1)) linenum := by
  unfold reportLine
  rw [foreachLine_behind]
  rcases h with h | h | h
  · exact .inl (untilNul_getline (.inl h))
  · exact .inl (untilNul_getline (.inr h))
  · exact .inr h

lemma foreachInBuffer_own (h : ∀ raw ∈ raws, Closed env host ip wantMatch raw) (buf : Bytes)
    (linenum : Nat) : foreachInBuffer env host ip wantMatch path buf raws linenum =
      (raws.zipIdx linenum).map fun (raw,linenum) =>
        reportLine env host ip wantMatch path raw (raw.drop ((lineOf raw).length + 1)) linenum := by
  induction raws generalizing buf linenum with
  | nil => rfl
  | cons raw raws ih =>
    obtain ⟨hraw,hraws⟩ := forall_mem_cons.mp h
    rw [foreachInBuffer]
    exact congrArg₂ _ (reportLine_own hraw _) (ih hraws _ _)

lemma lineOf_eq_self (hn : newline ∉ raw) (h0 : 0 ∉ raw) : lineOf raw = raw := by
  rw [lineOf,untilNul_of_not_mem h0,takeWhile_eq_self_iff]
  intro c hc
  simp only [decide_eq_true_eq]
  rintro rfl
  exact hn hc

/-- The key that an open line gets from the buffer. -/
lemma closed_of_own (hread : ReadsKey env)
    (h : ∀ buf, reportLine env host ip wantMatch path raw
      ((getline buf raw).drop ((lineOf raw).length + 1)) 1 =
        reportLine env host ip wantMatch path raw (raw.drop ((lineOf raw).length + 1)) 1) :
    Closed env host ip wantMatch raw := by
  by_contra hno
  simp only [Closed,not_or] at hno
  obtain ⟨hn,h0,hopen⟩ := hno
  obtain ⟨text,htext,hsign,hkey⟩ := hread
  have hkeys := congrArg (Option.map fun l => l.1.key) (h (replicate (raw.length + 1) 0 ++ text))
  have hbehind : (getline (replicate (raw.length + 1) 0 ++ text) raw).drop (raw.length + 1) =
      text := by
    simp [getline,drop_append]
  simp only [reportLine,Option.map_map,lineOf_eq_self hn h0] at hkeys hopen
  rw [hbehind,drop_of_length_le (Nat.le_succ _)] at hkeys
  have hopen : ¬ Settled env host ip _ _ := hopen
  have hkeys := (foreachLine_open hopen text).symm.trans (hkeys.trans (foreachLine_open hopen []))
  obtain ⟨⟨key,rest⟩,hk⟩ := Option.isSome_iff_exists.mp hkey
  rw [untilNul_of_not_mem htext,hsign,hk] at hkeys
  cases hkeys

/-- The lines of a file stand for themselves, whichever of them are there and whatever the buffer
held, if each of them is closed: an open line reads on behind its end. -/
theorem foreachInBuffer_own_iff (hread : ReadsKey env) :
    (∀ raws' ⊆ raws, ∀ buf linenum, foreachInBuffer env host ip wantMatch path buf raws' linenum =
      (raws'.zipIdx linenum).map fun (raw,linenum) =>
        reportLine env host ip wantMatch path raw (raw.drop ((lineOf raw).length + 1)) linenum) ↔
      ∀ raw ∈ raws, Closed env host ip wantMatch raw := by
  refine ⟨fun h raw hraw => ?_,fun h raws' hsub =>
    foreachInBuffer_own fun raw hraw => h raw (hsub hraw)⟩
  exact closed_of_own hread fun buf =>
    (List.cons.inj (h [raw] (by simpa using hraw) buf 1)).1

end

theorem foreachInBuffer_own_newlines :
    (foreachInBuffer exampleHosts (cstr "b") none false [] [] (lines (cstr "a key1\nb key2\n#c"))
      1).map (·.map fun l => (l.1.status,l.1.key)) =
        [some (.ok,some (rsaKey 15 3)),some (.matched,some (rsaKey 21 5)),
          some (.comment,none)] := by
  have hread : ReadsKey exampleHosts := ⟨cstr "key1",by decide +kernel⟩
  refine (congrArg _ ((foreachInBuffer_own_iff hread).mpr ?_ _ (List.Subset.refl _) _ _)).trans
    (by decide +kernel)
  unfold Closed Settled
  decide +kernel

/-- The key of the first line is reported for the second. -/
theorem foreachInBuffer_leftover :
    (foreachInBuffer exampleHosts (cstr "b") none false [] [] (lines (cstr "a key1\nb")) 1).map
      (·.map fun l => (l.1.status,l.1.key)) =
        [some (.ok,some (rsaKey 15 3)),some (.matched,some (rsaKey 15 3))] ∧
    (foreachInBuffer exampleHosts (cstr "b") none false [] [] (lines (cstr "a key2\nb")) 1).map
      (·.map fun l => (l.1.status,l.1.key)) =
        [some (.ok,some (rsaKey 21 5)),some (.matched,some (rsaKey 21 5))] := by
  decide +kernel

section

variable (env : Env) (hostkeys : List HostkeyEntry) (k : SshKey)

/-- An entry revokes the key, or the key that signed it. -/
def RevokedListed : Prop :=
  ∃ entry ∈ hostkeys, entry.marker = .revoke ∧ (sshkeyEqualPublic env.ssl k entry.key ∨
    sshkeyIsCert k ∧ sshkeyEqualPublic env.ssl (env.certInfo k).signatureKey entry.key)

def WantedListed : Prop := if sshkeyIsCert k then CaListed env hostkeys k else Listed env hostkeys k

lemma checkKeyRevoked_iff :
    checkKeyRevoked env hostkeys k = true ↔ RevokedListed env hostkeys k := by
  simp [checkKeyRevoked,RevokedListed]

open Classical in
/-- What is listed decides the status, and in which order it stands does not. -/
theorem checkKeyInHostkeys_exact (hostkeys' : List HostkeyEntry) (h : hostkeys.Perm hostkeys') :
    (checkKeyInHostkeys env hostkeys k).1 =
        (if RevokedListed env hostkeys k then .revoked else if WantedListed env hostkeys k then .ok
          else if sshkeyIsCert k = false ∧ AnyListed hostkeys then .changed else .new) ∧
      (checkKeyInHostkeys env hostkeys' k).1 = (checkKeyInHostkeys env hostkeys k).1 := by
  have hstatus : ∀ entries, (checkKeyInHostkeys env entries k).1 =
      if RevokedListed env entries k then .revoked else if WantedListed env entries k then .ok
        else if sshkeyIsCert k = false ∧ AnyListed entries then .changed else .new := by
    intro entries
    simp only [← checkKeyRevoked_iff]
    cases hk : sshkeyIsCert k with
    | true => simp [checkKeyInHostkeys_cert hk,WantedListed,hk]
    | false => simp [checkKeyInHostkeys_plain hk,WantedListed,hk]
  refine ⟨hstatus hostkeys,?_⟩
  rw [hstatus,hstatus]
  refine if_congr ?_ rfl (if_congr ?_ rfl (if_congr ?_ rfl rfl)) <;>
    simp only [RevokedListed,WantedListed,CaListed,Listed,AnyListed,h.mem_iff]

end

def swappedEntries : List HostkeyEntry :=
  [⟨cstr "b",[],2,rsaKey 21 5,.none⟩,⟨cstr "a",[],1,rsaKey 15 3,.none⟩]

open Classical in
theorem checkKeyInHostkeys_swapped :
    (checkKeyInHostkeys exampleHosts swappedEntries (rsaKey 21 5)).1 = .ok ∧
      (checkKeyInHostkeys exampleHosts swappedEntries (rsaKey 21 5)).1 =
        (if RevokedListed exampleHosts swappedEntries (rsaKey 21 5) then .revoked
          else if WantedListed exampleHosts swappedEntries (rsaKey 21 5) then .ok
          else if sshkeyIsCert (rsaKey 21 5) = false ∧ AnyListed swappedEntries then .changed
          else .new) ∧
      (checkKeyInHostkeys exampleHosts swappedEntries.reverse (rsaKey 21 5)).1 =
        (checkKeyInHostkeys exampleHosts swappedEntries (rsaKey 21 5)).1 :=
  ⟨by decide +kernel,checkKeyInHostkeys_exact _ _ _ _ (reverse_perm _).symm⟩

end PkixSsh.Hostfile
