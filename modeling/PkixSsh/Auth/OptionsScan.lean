import Mathlib.Tactic.Common
import PkixSsh.Auth.OptionsParse

/-!
# One grammar for the options of a key

The scanner and the parser have their own rules for quotes. Every step of the parser is one of the
scanner, outside quotes at both ends, so that they stop at one place.
-/

namespace PkixSsh.Auth

open List Option

/-- The scanner outside quotes comes from the first position to the second. -/
structure Skips (opts rest : Bytes) : Prop where
  ends : advanceLoop false opts = advanceLoop false rest
  length_le : rest.length ≤ opts.length

lemma Skips.refl (opts : Bytes) : Skips opts opts := ⟨rfl,Nat.le_refl _⟩

lemma Skips.trans {a b c : Bytes} (h : Skips a b) (h' : Skips b c) : Skips a c :=
  ⟨h.ends.trans h'.ends,Nat.le_trans h'.length_le h.length_le⟩

/-- A character the scanner passes without notice. -/
def isPlain (c : UInt8) : Bool := c ≠ 0 && !isBlank c && c ≠ quote && c ≠ backslash

lemma advanceLoop_plain {c : UInt8} (h : isPlain c = true) (s : Bytes) :
    advanceLoop false (c :: s) = advanceLoop false s := by
  simp only [isPlain,Bool.and_eq_true,Bool.not_eq_true',decide_eq_true_eq] at h
  obtain ⟨⟨⟨-,hb⟩,hq⟩,hs⟩ := h
  cases s with
  | nil => simp [advanceLoop,hb,hq]
  | cons d s => simp [advanceLoop,hb,hq,hs]

lemma skips_plain {pre : Bytes} (h : ∀ c ∈ pre, isPlain c = true) (s : Bytes) :
    Skips (pre ++ s) s := by
  induction pre with
  | nil => exact Skips.refl s
  | cons c pre ih =>
    have ih := ih fun d hd => h d (mem_cons_of_mem c hd)
    refine ⟨?_,by rw [length_append]; omega⟩
    rw [cons_append,advanceLoop_plain (h c mem_cons_self),ih.ends]

lemma isPlain_tolower {c : UInt8} (h : isPlain (tolower c) = true) : isPlain c = true := by
  rw [tolower] at h
  split at h
  · rename_i hc
    simp only [UInt8.le_iff_toNat_le] at hc
    have hne : ∀ k, k.toNat < 65 ∨ 90 < k.toNat → c ≠ k := by
      rintro k hk rfl
      simp at hc
      omega
    simp [isPlain,isBlank,space,tab,quote,backslash,hne]
  · exact h

variable {opts rest s term : Bytes} {env : ParseEnv} {st : ParseState}

lemma plain_of_strncasecmp (hp : ∀ c ∈ term, isPlain (tolower c) = true)
    (h : strncasecmp term.length (opts ++ [0]) term = 0) :
    ∀ c ∈ opts.take term.length, isPlain c = true := by
  induction term generalizing opts with
  | nil => simp
  | cons t term ih =>
    cases opts with
    | nil => simp
    | cons c opts =>
      rw [cons_append,length_cons,strncasecmp] at h
      by_cases hc : tolower c = tolower t
      · rw [if_pos hc] at h
        have hplain : isPlain c = true := by
          apply isPlain_tolower
          rw [hc]
          exact hp t mem_cons_self
        have h0 : c ≠ 0 := by
          rintro rfl
          cases hplain
        rw [if_neg h0] at h
        intro d hd
        rcases mem_cons.mp hd with rfl | hd
        · exact hplain
        · exact ih (fun e he => hp e (mem_cons_of_mem t he)) h d hd
      · rw [if_neg hc,byteDiff_eq_zero] at h
        exact absurd h hc

lemma startsWithTerm_skips (hp : ∀ c ∈ term, isPlain (tolower c) = true)
    (h : startsWithTerm term opts = true) : Skips opts (opts.drop term.length) := by
  have hpre := plain_of_strncasecmp hp (of_decide_eq_true h)
  have := skips_plain hpre (opts.drop term.length)
  rwa [take_append_drop] at this

lemma optFlag_skips {opt : Bytes} {allowNegate : Bool} {r : Int32}
    (hp : ∀ c ∈ opt, isPlain (tolower c) = true)
    (h : optFlag opt allowNegate opts = some (r,rest)) :
    Skips opts rest := by
  have hno : ∀ c ∈ cstr "no-", isPlain (tolower c) = true := List.all_eq_true.mp (by decide +kernel)
  rw [optFlag] at h
  split at h
  · rename_i hneg
    split at h
    · rename_i hopt
      cases h
      exact (startsWithTerm_skips hno (Bool.and_eq_true_iff.mp hneg).2).trans
        (startsWithTerm_skips hp hopt)
    · cases h
  · split at h
    · rename_i hopt
      cases h
      exact startsWithTerm_skips hp hopt
    · cases h

lemma optMatch_skips (hp : ∀ c ∈ term, isPlain (tolower c) = true)
    (h : optMatch term opts = some rest) : Skips opts rest := by
  rw [optMatch] at h
  split at h
  · rename_i hm
    cases h
    obtain ⟨hlt,heq⟩ := List.getElem?_eq_some_iff.mp hm.2
    have hs := startsWithTerm_skips hp hm.1
    rw [drop_eq_getElem_cons hlt,heq] at hs
    have heq : ∀ c ∈ ([61]), isPlain c = true := List.all_eq_true.mp (by decide)
    exact hs.trans (skips_plain heq _)
  · cases h

lemma dequoteLoop_skips {v : Bytes} (h : dequoteLoop s = some (v,rest)) :
    advanceLoop true s = advanceLoop false rest ∧ rest.length ≤ s.length := by
  fun_induction dequoteLoop s generalizing v rest with
  | case1 => cases h
  | case2 =>
    cases h
    exact ⟨rfl,by simp⟩
  | case3 c hc => cases h
  | case4 d s =>
    cases h
    exact ⟨by simp [advanceLoop,quote,backslash],by simp⟩
  | case5 c d s hc hd ih =>
    obtain ⟨⟨v',rest'⟩,hv,heq⟩ := map_eq_some_iff.mp h
    cases heq
    obtain ⟨he,hl⟩ := ih hv
    refine ⟨?_,by simp; omega⟩
    rw [← he]
    simp [advanceLoop,hd]
  | case6 c d s hc hd ih =>
    obtain ⟨⟨v',rest'⟩,hv,heq⟩ := map_eq_some_iff.mp h
    cases heq
    obtain ⟨he,hl⟩ := ih hv
    refine ⟨?_,by simp at hl ⊢; omega⟩
    rw [← he]
    simp [advanceLoop,hc,hd]

lemma advanceLoop_quote (s : Bytes) : advanceLoop false (quote :: s) = advanceLoop true s := by
  cases s with
  | nil => rfl
  | cons d s => simp [advanceLoop,isBlank,space,tab,quote,backslash]

lemma optDequote_skips {v : Bytes} (h : optDequote opts = .ok (v,rest)) : Skips opts rest := by
  cases opts with
  | nil => cases h
  | cons c s =>
    rw [optDequote] at h
    split at h
    · cases h
    · rename_i hc
      rw [not_not] at hc
      subst hc
      cases hs : dequoteLoop s with
      | none =>
        rw [hs] at h
        cases h
      | some r =>
        rw [hs] at h
        cases h
        obtain ⟨he,hl⟩ := dequoteLoop_skips hs
        refine ⟨?_,by simp; omega⟩
        rw [advanceLoop_quote,he]

/-- A handler that succeeds has passed its text as the scanner does. -/
def Handler.Follows (handle : Handler) : Prop :=
  ∀ st opts st' rest, handle st opts = .ok (st',rest) → Skips opts rest

def Branch.Follows (branch : Branch) : Prop :=
  ∀ st opts st' rest, branch st opts = some (.ok (st',rest)) → Skips opts rest

lemma quoted_follows (store : SshAuthOpt → Bytes → Except String SshAuthOpt) :
    Handler.Follows (quoted store) := by
  intro st opts st' rest h
  rw [quoted] at h
  cases hd : optDequote opts with
  | error e =>
    rw [hd] at h
    cases h
  | ok r =>
    rw [hd] at h
    dsimp only at h
    split at h
    · cases h
    · cases h
      exact optDequote_skips hd

lemma quotedOnce_follows (name : String) (old : SshAuthOpt → Option Bytes)
    (set : SshAuthOpt → Bytes → SshAuthOpt) : Handler.Follows (quotedOnce name old set) := by
  intro st opts st' rest h
  rw [quotedOnce] at h
  split at h
  · cases h
  · exact quoted_follows _ _ _ _ _ h

lemma handleEnvironment_follows : Handler.Follows handleEnvironment := by
  intro st opts st' rest h
  rw [handleEnvironment] at h
  split at h
  · cases h
  · exact quoted_follows _ _ _ _ _ h

lemma handlePermit_follows (env : ParseEnv) (allowBarePort : Bool)
    (permits : SshAuthOpt → List Bytes) (set : SshAuthOpt → List Bytes → SshAuthOpt) :
    Handler.Follows (handlePermit env allowBarePort permits set) := by
  intro st opts st' rest h
  rw [handlePermit] at h
  split at h
  · cases h
  · cases hd : optDequote opts with
    | error e =>
      rw [hd] at h
      cases h
    | ok r =>
      rw [hd] at h
      dsimp only at h
      split at h
      · cases h
      · cases h
        exact optDequote_skips hd

lemma flagOption_follows {opt : String} (hp : ∀ c ∈ cstr opt, isPlain (tolower c) = true)
    (allowNegate : Bool) (set : Int32 → SshAuthOpt → SshAuthOpt) :
    Branch.Follows (flagOption opt allowNegate set) := by
  intro st opts st' rest h
  obtain ⟨⟨r,rest'⟩,hr,heq⟩ := map_eq_some_iff.mp h
  cases heq
  exact optFlag_skips hp hr

lemma matchOption_follows {term : String} {handle : Handler}
    (hp : ∀ c ∈ cstr term, isPlain (tolower c) = true) (hh : handle.Follows) :
    Branch.Follows (matchOption term handle) := by
  intro st opts st' rest h
  obtain ⟨rest',hr,heq⟩ := map_eq_some_iff.mp h
  exact (optMatch_skips hp hr).trans (hh _ _ _ _ heq)

lemma optionBranches_follow (env : ParseEnv) :
    ∀ branch ∈ optionBranches env, Branch.Follows branch := by
  intro branch hb
  simp only [optionBranches,mem_cons,not_mem_nil,or_false] at hb
  rcases hb with rfl | rfl | rfl | rfl | rfl | rfl | rfl | rfl | rfl | rfl | rfl | rfl | rfl |
    rfl | rfl
  iterate 7 exact flagOption_follows (List.all_eq_true.mp (by decide +kernel)) _ _
  iterate 3
    exact matchOption_follows (List.all_eq_true.mp (by decide +kernel)) (quotedOnce_follows _ _ _)
  · exact matchOption_follows (List.all_eq_true.mp (by decide +kernel)) (quoted_follows _)
  · exact matchOption_follows (List.all_eq_true.mp (by decide +kernel)) handleEnvironment_follows
  iterate 2
    exact matchOption_follows (List.all_eq_true.mp (by decide +kernel))
      (handlePermit_follows _ _ _ _)
  · exact matchOption_follows (List.all_eq_true.mp (by decide +kernel)) (quoted_follows _)

lemma parseOption_ok {st' : ParseState} (h : parseOption env st opts = .ok (st',rest)) :
    (st' = st ∧ rest = opts) ∨
      ∃ branch ∈ optionBranches env, branch st opts = some (.ok (st',rest)) := by
  rw [parseOption] at h
  cases hb : (optionBranches env).findSome? _ with
  | none =>
    rw [hb] at h
    cases h
    exact .inl ⟨rfl,rfl⟩
  | some r =>
    rw [hb] at h
    subst h
    exact .inr (List.exists_of_findSome?_eq_some hb)

lemma parseOption_skips {st' : ParseState} (h : parseOption env st opts = .ok (st',rest)) :
    Skips opts rest := by
  rcases parseOption_ok h with ⟨-,rfl⟩ | ⟨branch,hmem,hb⟩
  · exact Skips.refl rest
  · exact optionBranches_follow env _ hmem _ _ _ _ hb

lemma advanceLoop_atEnd (h : atEnd s = true) : advanceLoop false s = (false,s) := by
  match s with
  | [] => rfl
  | [c] =>
    have hc : isBlank c = true := h
    simp [advanceLoop,hc]
  | c :: d :: s =>
    have hc : isBlank c = true := h
    simp [advanceLoop,hc]

/-- One round of the loop: it parses an option, unless it is at the end already, and then it
ends or goes on behind a comma. -/
lemma parseLoop_step {n : Nat} {ret : SshAuthOpt}
    (h : parseLoop env (n + 1) st opts = .ok (ret,rest)) :
    ∃ st' opts', ((st' = st ∧ opts' = opts) ∨ parseOption env st opts = .ok (st',opts')) ∧
      ((atEnd opts' = true ∧ ret = st'.ret ∧ rest = opts') ∨
        ∃ o, opts' = comma :: o ∧ parseLoop env n st' o = .ok (ret,rest)) := by
  rw [parseLoop] at h
  split at h
  · rename_i hend
    cases h
    exact ⟨st,opts,.inl ⟨rfl,rfl⟩,.inl ⟨hend,rfl,rfl⟩⟩
  · cases ho : parseOption env st opts with
    | error e =>
      rw [ho] at h
      cases h
    | ok r =>
      obtain ⟨st',opts'⟩ := r
      rw [ho] at h
      dsimp only at h
      refine ⟨st',opts',.inr rfl,?_⟩
      split at h
      · rename_i hend
        cases h
        exact .inl ⟨hend,rfl,rfl⟩
      · cases opts' with
        | nil => cases h
        | cons c o =>
          dsimp only at h
          split at h
          · cases h
          · rename_i hc
            rw [not_not] at hc
            split at h
            · cases h
            · exact .inr ⟨o,by rw [hc],h⟩

lemma parseLoop_end {n : Nat} {ret : SshAuthOpt} (h : parseLoop env n st opts = .ok (ret,rest)) :
    advanceLoop false opts = (false,rest) := by
  induction n generalizing st opts with
  | zero => cases h
  | succ n ih =>
    obtain ⟨st',opts',ho,hend⟩ := parseLoop_step h
    have hs : Skips opts opts' := by
      rcases ho with ⟨-,rfl⟩ | ho
      · exact Skips.refl opts'
      · exact parseOption_skips ho
    rw [hs.ends]
    rcases hend with ⟨hend,-,rfl⟩ | ⟨o,rfl,h'⟩
    · exact advanceLoop_atEnd hend
    · rw [advanceLoop_plain (by decide),ih h']

lemma advanceLoop_text {q q' : Bool} (h : advanceLoop q s = (q',rest)) :
    ∃ text, s = text ++ rest ∧ advanceLoop q text = (q',[]) := by
  fun_induction advanceLoop q s with
  | case1 q =>
    cases h
    exact ⟨[],rfl,rfl⟩
  | case2 q c hc =>
    cases h
    exact ⟨[],rfl,rfl⟩
  | case3 q c hc =>
    cases h
    exact ⟨[c],rfl,by simp [advanceLoop,hc]⟩
  | case4 q c d s hc =>
    cases h
    exact ⟨[],rfl,rfl⟩
  | case5 q c d s hc hd ih =>
    obtain ⟨text,rfl,ht⟩ := ih h
    refine ⟨c :: d :: text,rfl,?_⟩
    rw [advanceLoop,if_neg hc,if_pos hd,ht]
  | case6 q c d s hc hd ih =>
    obtain ⟨text,hs,ht⟩ := ih h
    refine ⟨c :: text,by rw [hs,cons_append],?_⟩
    cases text with
    | nil =>
      rw [advanceLoop,if_neg hc]
      exact ht
    | cons d' text =>
      cases hs
      rw [advanceLoop,if_neg hc,if_neg hd,ht]

/-- The key and the options that `check_authkey_line` takes from a line, before it compares
the key. -/
def readAuthkeyLine {K : Type} (env : ParseEnv) (sshkeyRead : Bytes → Option (K × Bytes))
    (cp : Bytes) : Option (K × SshAuthOpt) :=
  match sshkeyRead cp with
  | some (found,_) => (sshauthoptParse env none).toOption.map fun (keyopts,_) => (found,keyopts)
  | none =>
    let (cp',ok) := sshkeyAdvancePastOptions cp
    if !ok then none
    else
      match sshkeyRead (skipBlanks cp') with
      | none => none
      | some (found,_) =>
        (sshauthoptParse env (some cp)).toOption.map fun (keyopts,_) => (found,keyopts)

/-- A text that the scanner leaves in front of the key is read to its end by the parser if it
accepts it; on the line both stop at the same place, and the key is read from there. -/
theorem sshauthoptParse_stops (env : ParseEnv) (line : Bytes) :
    ∃ text, line = text ++ (sshkeyAdvancePastOptions line).1 ∧
      (∀ opts rest, sshauthoptParse env (some text) = .ok (opts,rest) →
        rest = [] ∧ (sshkeyAdvancePastOptions line).2 = true) ∧
      (∀ opts rest, sshauthoptParse env (some line) = .ok (opts,rest) →
        rest = (sshkeyAdvancePastOptions line).1 ∧ (sshkeyAdvancePastOptions line).2 = true) ∧
      ∀ (K : Type) (sshkeyRead : Bytes → Option (K × Bytes)) found opts,
        sshkeyRead line = none → readAuthkeyLine env sshkeyRead line = some (found,opts) →
        ∃ rest cp, sshauthoptParse env (some line) = .ok (opts,rest) ∧
          sshkeyRead (skipBlanks rest) = some (found,cp) := by
  have hscan : advanceLoop false line =
      ((advanceLoop false line).1,(advanceLoop false line).2) := rfl
  obtain ⟨text,hline,htext⟩ := advanceLoop_text hscan
  have hend : ∀ opts rest, sshauthoptParse env (some line) = .ok (opts,rest) →
      rest = (sshkeyAdvancePastOptions line).1 ∧ (sshkeyAdvancePastOptions line).2 = true := by
    intro opts rest h
    have := parseLoop_end h
    simp [sshkeyAdvancePastOptions,this]
  refine ⟨text,hline,?_,hend,?_⟩
  · intro opts rest h
    have := parseLoop_end h
    rw [htext,Prod.mk.injEq] at this
    simp [sshkeyAdvancePastOptions,this.1,← this.2]
  · intro K sshkeyRead found opts hnone h
    rw [readAuthkeyLine,hnone] at h
    dsimp only at h
    split at h
    · cases h
    · cases hk : sshkeyRead _ with
      | none =>
        rw [hk] at h
        cases h
      | some r =>
        rw [hk] at h
        obtain ⟨found',cp⟩ := r
        cases hp : sshauthoptParse env _ with
        | error e =>
          rw [hp] at h
          cases h
        | ok r =>
          obtain ⟨opts',rest⟩ := r
          rw [hp] at h
          cases h
          refine ⟨rest,cp,rfl,?_⟩
          rw [(hend _ _ hp).1]
          exact hk

def quotedLine : Bytes := cstr "command=\"echo \\\"a, b\\\"\",No-pty ssh-ed25519 AAAA"

def quotedLineText : Bytes := cstr "command=\"echo \\\"a, b\\\"\",No-pty"

def noEnv : ParseEnv where
  parseAbsoluteTime := fun _ => none
  getservbyname := fun _ => none

def readEd25519 (cp : Bytes) : Option (Unit × Bytes) :=
  if startsWithTerm (cstr "ssh-ed25519 ") cp then some ((),cp.drop 16) else none

theorem sshauthoptParse_stops_quoted :
    ∃ opts rest, sshauthoptParse noEnv (some quotedLineText) = .ok (opts,[]) ∧
      sshauthoptParse noEnv (some quotedLine) = .ok (opts,rest) ∧
      opts.forceCommand = some (cstr "echo \"a, b\"") ∧ opts.permitPtyFlag = 0 ∧
      rest = (sshkeyAdvancePastOptions quotedLine).1 ∧
      (sshkeyAdvancePastOptions quotedLine).2 = true ∧
      readEd25519 (skipBlanks rest) = some ((),[]) := by
  let opts : SshAuthOpt := { sshauthoptNewWithKeysDefaults with
    forceCommand := some (cstr "echo \"a, b\"")
    permitPtyFlag := 0 }
  have htext : sshauthoptParse noEnv (some quotedLineText) = .ok (opts,[]) := by decide +kernel
  have hline : sshauthoptParse noEnv (some quotedLine) = .ok (opts,cstr " ssh-ed25519 AAAA") := by
    decide +kernel
  have hread : readAuthkeyLine noEnv readEd25519 quotedLine = some ((),opts) := by decide +kernel
  have hsplit : quotedLine = quotedLineText ++ (sshkeyAdvancePastOptions quotedLine).1 := by
    decide +kernel
  obtain ⟨text,hcut,hall,hend,hkey⟩ := sshauthoptParse_stops noEnv quotedLine
  obtain rfl := append_cancel_right (hcut.symm.trans hsplit)
  obtain ⟨rest,cp,hrest,hcp⟩ := hkey Unit readEd25519 () opts (by decide +kernel) hread
  refine ⟨opts,rest,htext,hrest,rfl,rfl,(hend opts rest hrest).1,(hall opts [] htext).2,?_⟩
  rw [hline] at hrest
  cases hrest
  decide +kernel

/-- A line of principals without the white space at its end. The first character always stays. -/
def trimLine : Bytes → Bytes
  | [] => []
  | c :: s => c :: (s.reverse.dropWhile fun c => c = 10 || isBlank c).reverse

/-- The text for `sshauthopt_parse`, and the name behind the last space, or the last tab of a line
without a space. -/
def cutPrincipal (cp : Bytes) : Option Bytes × Bytes :=
  let sep : UInt8 := if 32 ∈ cp then 32 else 9
  if sep ∈ cp then (some cp,skipBlanks (cp.reverse.takeWhile (· ≠ sep)).reverse) else (none,cp)

def checkPrincipalsLine (env : ParseEnv) (cp : Bytes) (principals : List Bytes) :
    Option SshAuthOpt :=
  let (lineOpts,cp) := cutPrincipal (trimLine cp)
  match sshauthoptParse env lineOpts with
  | .error _ => none
  | .ok (opts,_) => if cp ∈ principals then some opts else none

/-- The options are those of a run of the parser that leaves only white space in front of the
name. -/
def Reflected (env : ParseEnv) (line : Bytes) (opts : SshAuthOpt) : Prop :=
  ∀ text, (cutPrincipal line).1 = some text → ∃ rest,
    sshauthoptParse env (some text) = .ok (opts,rest) ∧
      (skipBlanks rest).length ≤ (cutPrincipal line).2.length

/-- The first white space outside quotes is that in front of the name. -/
def OneGap (line : Bytes) : Prop :=
  ∀ text, (cutPrincipal line).1 = some text →
    (skipBlanks (sshkeyAdvancePastOptions text).1).length ≤ (cutPrincipal line).2.length

theorem checkPrincipalsLine_reflected_iff (env : ParseEnv) (cp : Bytes) (principals : List Bytes)
    (opts : SshAuthOpt) (h : checkPrincipalsLine env cp principals = some opts) :
    Reflected env (trimLine cp) opts ↔ OneGap (trimLine cp) := by
  refine forall₂_congr fun text htext => ?_
  simp only [checkPrincipalsLine,htext] at h
  cases hp : sshauthoptParse env _ with
  | error e =>
    rw [hp] at h
    cases h
  | ok r =>
    obtain ⟨opts',rest⟩ := r
    rw [hp] at h
    dsimp only at h
    split_ifs at h
    cases h
    have hstop : (sshkeyAdvancePastOptions text).1 = rest := by
      rw [sshkeyAdvancePastOptions,parseLoop_end hp]
    rw [hstop]
    constructor
    · rintro ⟨rest',heq,hle⟩
      cases heq
      exact hle
    · exact fun hle => ⟨rest,rfl,hle⟩

theorem checkPrincipalsLine_reflected_alice :
    ∃ opts, checkPrincipalsLine noEnv (cstr "no-pty,command=\"a b\" alice\n") [cstr "alice"] =
        some opts ∧ opts.forceCommand = some (cstr "a b") ∧
      Reflected noEnv (trimLine (cstr "no-pty,command=\"a b\" alice\n")) opts := by
  let opts : SshAuthOpt := { sshauthoptNewWithKeysDefaults with
    forceCommand := some (cstr "a b")
    permitPtyFlag := 0 }
  refine ⟨opts,by decide +kernel,rfl,?_⟩
  refine (checkPrincipalsLine_reflected_iff _ _ [cstr "alice"] _ (by decide +kernel)).mpr ?_
  intro text h
  cases h.symm.trans (show _ = some (cstr "no-pty,command=\"a b\" alice") by decide +kernel)
  decide +kernel

/-- A command between two blanks is neither parsed nor refused. -/
theorem checkPrincipalsLine_drops_command :
    ∃ opts, checkPrincipalsLine noEnv (cstr "no-pty command=\"a\" alice\n") [cstr "alice"] =
        some opts ∧ opts.permitPtyFlag = 0 ∧ opts.forceCommand = none ∧
      ¬ Reflected noEnv (trimLine (cstr "no-pty command=\"a\" alice\n")) opts := by
  refine ⟨{ sshauthoptNewWithKeysDefaults with permitPtyFlag := 0 },by decide +kernel,rfl,rfl,?_⟩
  intro h
  obtain ⟨rest,hrest,hle⟩ := h (cstr "no-pty command=\"a\" alice") (by decide +kernel)
  have hstop := parseLoop_end hrest
  cases hstop.symm.trans (show _ = (false,cstr " command=\"a\" alice") by decide +kernel)
  revert hle
  decide +kernel

end PkixSsh.Auth
