import PkixSsh.Sshbuf.Basic

/-!
# Argument vectors as text

`argv_split` and `argv_assemble` of `misc.c`. An empty argument is written as nothing and so is
lost; every other argument comes back.
-/

namespace PkixSsh.Misc

open List

def doubleQuote : UInt8 := 34

def isEscapable (c : UInt8) : Bool := c = 39 || c = doubleQuote || c = backslash

/-- The token that is being copied: its quote, and the characters so far. -/
abbrev Token := Option UInt8 × Bytes

def Token.endsAt : Token → UInt8 → Bool
  | (none,_), c => isBlank c
  | (some quote,_), c => c = quote

def Token.copy (t : Token) (c : UInt8) : Token := (t.1,t.2 ++ [c])

/-- Both loops of `argv_split`, outside of a token and in one. -/
def splitLoop : Option Token → Bytes → Except SshErr (List Bytes)
  | none, [] => .ok []
  | some (none,arg), [] => .ok [arg]
  | some (some _,_), [] => .error .invalidFormat
  | none, c :: s =>
    if isBlank c then splitLoop none s
    else if c = backslash ∧ s.head?.any isEscapable then splitLoop (some (none,[])) s
    else if c = 39 ∨ c = doubleQuote then splitLoop (some (some c,[])) s
    -- neither a blank nor an escape, so the inner loop copies it
    else splitLoop (some (none,[c])) s
  | some t, [c] =>
    if c ≠ backslash ∧ t.endsAt c then .ok [t.2] else splitLoop (some (t.copy c)) []
  | some t, c :: d :: s =>
    if c = backslash then
      if isEscapable d then splitLoop (some (t.copy d)) s
      -- an unrecognised escape
      else splitLoop (some (t.copy c)) (d :: s)
    else if t.endsAt c then (splitLoop none (d :: s)).map (t.2 :: ·)
    else splitLoop (some (t.copy c)) (d :: s)

def argvSplit (s : Bytes) : Except SshErr (List Bytes) := splitLoop none s

def escape (c : UInt8) : Bytes := if isEscapable c then [backslash,c] else [c]

def assembleArg (arg : Bytes) : Bytes :=
  if arg.any isBlank then doubleQuote :: arg.flatMap escape ++ [doubleQuote]
  else arg.flatMap escape

variable (argv : List Bytes)

def assembled : Bytes := [32].intercalate (argv.map assembleArg)

/-- `argv_assemble`. To write past the largest buffer is fatal. -/
def argvAssemble : Option Bytes :=
  if (assembled argv).length ≤ sshbufSizeMax then some (assembled argv) else none

section

variable {t : Token} {c : UInt8} {s arg tail : Bytes}

lemma splitLoop_escaped (h : isEscapable c) :
    splitLoop (some t) (backslash :: c :: s) = splitLoop (some (t.copy c)) s := by
  simp [splitLoop,h]

lemma splitLoop_copy (he : c = backslash → s.head?.any isEscapable = false)
    (hc : c ≠ backslash → t.endsAt c = false) :
    splitLoop (some t) (c :: s) = splitLoop (some (t.copy c)) s := by
  by_cases hb : c = backslash <;> cases s <;> simp_all [splitLoop]

lemma splitLoop_end (hb : c ≠ backslash) (hc : t.endsAt c) :
    splitLoop (some t) (c :: s) = (splitLoop none s).map (t.2 :: ·) := by
  cases s <;> simp_all [splitLoop,Except.map]

lemma splitLoop_escape {q : Option UInt8} {b : Bytes}
    (ha : ∀ c ∈ arg, isEscapable c ∨ ∀ b, Token.endsAt (q,b) c = false) :
    splitLoop (some (q,b)) (arg.flatMap escape ++ tail) = splitLoop (some (q,b ++ arg)) tail := by
  induction arg generalizing b with
  | nil => simp
  | cons c arg ih =>
    obtain ⟨hc,ha⟩ := forall_mem_cons.mp ha
    have hnext := ih (b := b ++ [c]) ha
    rw [append_assoc] at hnext
    rw [flatMap_cons,escape]
    split
    · rename_i he
      exact (splitLoop_escaped he).trans hnext
    · rename_i he
      have hb : c ≠ backslash := fun h => he (by simp [isEscapable,h])
      exact (splitLoop_copy (absurd · hb) fun _ => hc.resolve_left he b).trans hnext

lemma not_isBlank (h : isEscapable c) : isBlank c = false := by
  simp only [isEscapable,Bool.or_eq_true,decide_eq_true_eq] at h
  rcases h with (rfl | rfl) | rfl <;> rfl

lemma splitLoop_unquoted {b : Bytes} (ha : arg.any isBlank = false) :
    splitLoop (some (none,b)) (arg.flatMap escape ++ tail) =
      splitLoop (some (none,b ++ arg)) tail :=
  splitLoop_escape fun c h => .inr fun _ => eq_false_of_ne_true (any_eq_false.mp ha c h)

/-- The escaped character that starts a token is read without its backslash. If it is a backslash
itself, it takes the next one for the character that it escapes. -/
lemma splitLoop_start {b : Bytes} (ht : ∀ b ∈ tail.head?, isBlank b)
    (ha : arg.any isBlank = false) (hc : isEscapable c) :
    splitLoop (some (none,b)) (c :: (arg.flatMap escape ++ tail)) =
      splitLoop (some (none,b ++ c :: arg)) tail := by
  have hplain : ∀ {b c arg}, isEscapable c → arg.any isBlank = false →
      (c = backslash → (arg.flatMap escape ++ tail).head?.any isEscapable = false) →
      splitLoop (some (none,b)) (c :: (arg.flatMap escape ++ tail)) =
        splitLoop (some (none,b ++ c :: arg)) tail := by
    intro b c arg hc ha h
    have hcopy := splitLoop_copy (t := (none,b)) h fun _ => not_isBlank hc
    rw [hcopy,Token.copy,splitLoop_unquoted ha,append_assoc,singleton_append]
  induction arg generalizing b c with
  | nil =>
    refine hplain hc ha fun _ => ?_
    cases tail with
    | nil => rfl
    | cons d tail =>
      exact eq_false_of_ne_true fun h => Bool.false_ne_true ((not_isBlank h).symm.trans (ht d rfl))
  | cons d arg ih =>
    by_cases hd : isEscapable d
    · by_cases hb : c = backslash
      · have hnext := ih (b := b ++ [backslash]) (Bool.or_eq_false_iff.mp (any_cons ▸ ha)).2 hd
        rw [append_assoc] at hnext
        rw [flatMap_cons,escape,if_pos hd,hb]
        exact (splitLoop_escaped rfl).trans hnext
      · exact hplain hc ha (absurd · hb)
    · exact hplain hc ha fun _ => by simp [escape,hd]

/-- The character behind an argument without blanks is one, and is skipped either way. -/
lemma splitLoop_tail (ht : ∀ b ∈ tail.head?, isBlank b) :
    splitLoop (some (none,arg)) tail = (splitLoop none tail).map (arg :: ·) := by
  cases tail with
  | nil => rfl
  | cons b tail =>
    have hb := ht b rfl
    have hend : Token.endsAt (none,arg) b := hb
    rw [splitLoop_end (by rintro rfl; cases hb) hend,splitLoop,if_pos hb]

lemma splitLoop_assembleArg (ht : ∀ b ∈ tail.head?, isBlank b) (hne : arg ≠ []) :
    splitLoop none (assembleArg arg ++ tail) = (splitLoop none tail).map (arg :: ·) := by
  by_cases hb : arg.any isBlank
  · have hcopy : splitLoop (some (some doubleQuote,[]))
        (arg.flatMap escape ++ doubleQuote :: tail) =
        splitLoop (some (some doubleQuote,arg)) (doubleQuote :: tail) := by
      refine splitLoop_escape fun c _ => ?_
      by_cases hq : c = doubleQuote
      · exact .inl (by simp [isEscapable,hq])
      · exact .inr fun _ => by simp [Token.endsAt,hq]
    rw [assembleArg,if_pos hb,append_assoc]
    refine .trans ?_ (hcopy.trans (splitLoop_end (by decide) (by simp [Token.endsAt])))
    rfl
  · rw [← splitLoop_tail ht,assembleArg,if_neg hb]
    have hb := eq_false_of_ne_true hb
    obtain ⟨c,arg,rfl⟩ := exists_cons_of_ne_nil hne
    obtain ⟨hc,ha⟩ := Bool.or_eq_false_iff.mp (any_cons ▸ hb)
    rw [flatMap_cons,escape]
    split
    · rename_i he
      refine .trans ?_ (splitLoop_start (b := []) ht ha he)
      simp [splitLoop,isBlank,space,tab,backslash,he]
    · refine .trans ?_ (splitLoop_unquoted (b := [c]) ha)
      simp_all [splitLoop,isEscapable]

end

def separated : Bytes := argv.flatMap fun arg => 32 :: assembleArg arg

lemma assembled_cons (arg : Bytes) (argv : List Bytes) :
    assembled (arg :: argv) = assembleArg arg ++ separated argv := by
  induction argv generalizing arg with
  | nil => simp [assembled,separated]
  | cons b argv ih =>
    simp_all [assembled,separated]

lemma splitLoop_assembleArg_separated {argv : List Bytes} (arg : Bytes)
    (h : splitLoop none (separated argv) = .ok (argv.filter (· ≠ []))) :
    splitLoop none (assembleArg arg ++ separated argv) =
      .ok ((arg :: argv).filter (· ≠ [])) := by
  by_cases ha : arg = []
  · simpa [ha,assembleArg] using h
  · have ht : ∀ b ∈ (separated argv).head?, isBlank b := by
      cases argv <;> simp [separated,isBlank,space,tab]
    rw [splitLoop_assembleArg ht ha,h]
    simp [Except.map,ha]

lemma argvSplit_assembled :
    argvSplit (assembled argv) = .ok (argv.filter (· ≠ [])) := by
  have hsep : splitLoop none (separated argv.tail) = .ok (argv.tail.filter (· ≠ [])) := by
    induction argv.tail with
    | nil => rfl
    | cons arg argv ih => exact splitLoop_assembleArg_separated arg ih
  cases argv with
  | nil => rfl
  | cons arg argv => exact (assembled_cons arg argv) ▸ splitLoop_assembleArg_separated arg hsep

/-- Arguments come back if and only if none of them is empty. -/
theorem argvSplit_argvAssemble_iff :
    (∃ s, argvAssemble argv = some s ∧ argvSplit s = .ok argv) ↔
      [] ∉ argv ∧ (assembled argv).length ≤ sshbufSizeMax := by
  have hne : argv.filter (· ≠ []) = argv ↔ [] ∉ argv := by
    simp [forall_mem_ne']
  by_cases hl : (assembled argv).length ≤ sshbufSizeMax
  · simp [argvAssemble,hl,argvSplit_assembled,← hne]
  · simp [argvAssemble,hl]

theorem argvSplit_argvAssemble_empty :
    (argvAssemble [cstr "sh",[]]).map argvSplit = some (.ok [cstr "sh"]) := by decide

end PkixSsh.Misc
