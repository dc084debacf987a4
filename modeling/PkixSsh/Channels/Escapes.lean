import PkixSsh.Channels.Basic

/-!
# Escapes typed in an interactive session

The input filter of the client looks for the escape character at the start of a line; what it says
goes to the buffer of received extended data.
-/

namespace PkixSsh.Channels

open Sshbuf

def orFatal {α : Type} (r : Except SshErr α) : Except Stop α := r.mapError fun _ => .fatal

namespace Side

def putInput (v : Bytes) (s : Side) : Except Stop Side := do
  let b ← orFatal (put v s.c.input)
  return s.on fun c => { c with input := b }

def putOutput (v : Bytes) (s : Side) : Except Stop Side := do
  let b ← orFatal (put v s.c.output)
  return s.on fun c => { c with output := b }

def putExtended (v : Bytes) (s : Side) : Except Stop Side := do
  let b ← orFatal (put v s.c.extended)
  return s.on fun c => { c with extended := b }

end Side

/-- What the escapes tell of the client: its log, the texts of `print_escape_help` and
`channel_open_message`, and whether `fork` succeeds. -/
structure Console where
  logOnStderr : Bool
  logLevelName : Bytes
  escapeHelp : Bytes
  openMessage : Bytes
  forks : Bool

/-- How `process_escapes` goes on: with the next character, with this one as an ordinary one, or by
a return of 0 or of -1. -/
inductive Escaped
  | next | ordinary | leave | stop

def noescape (esc ch : UInt8) (s : Side) : Except Stop (Escaped × Side) := do
  let b := if ch = 26 then cstr "^Z" else [ch]
  let s ← s.putExtended (esc :: b ++ cstr " escape not available to multiplexed sessions\r\n")
  return (.next,s)

def channelCancelCleanup (c : Channel) : Channel :=
  { c with detachUser := false, detachClose := false }

/-- `mux_master_session_cleanup_cb`, the callback of a multiplexed session. -/
def muxMasterSessionCleanupCb (c : Channel) : Channel :=
  { channelCancelCleanup c with ctlChan := none }

/-- The escape that ends a session: a multiplexed one is abandoned. -/
def terminate (k : Compat) (esc : UInt8) (s : Side) : Except Stop (Escaped × Side) := do
  let s ← s.putExtended (esc :: cstr ".\r\n")
  if s.c.ctlChan ≠ none then
    let s := s.on chanReadFailed
    let s ← chanWriteFailed k s
    let s := s.on fun c => if c.detachUser then muxMasterSessionCleanupCb c else c
    let s := s.on fun c => { c with type := .abandoned, input := [] }
    let s ← chanIbufEmpty s
    return (.leave,s)
  else return (.stop,s)

/-- `client_suspend_self`, which writes out the buffers and empties them. -/
def clientSuspendSelf (c : Channel) : Channel :=
  { c with input := [], output := [], extended := [] }

def processEscape (k : Compat) (con : Console) (esc ch : UInt8) (s : Side) :
    Except Stop (Escaped × Side) :=
  let mux := s.c.ctlChan ≠ none
  match Char.ofNat ch.toNat with
  | '.' => terminate k esc s
  | '\x1a' =>
    if mux then noescape esc ch s
    else do
      let s ← s.putExtended (esc :: cstr "^Z [suspend ssh]\r\n")
      return (.next,s.on clientSuspendSelf)
  | 'B' => do
    let s ← s.putExtended (esc :: cstr "B\r\n")
    let s ← s.send (.request "break")
    return (.next,s)
  | 'R' => .ok (.next,s)
  | 'V' | 'v' =>
    if mux then noescape esc ch s
    else do
      let note :=
        if con.logOnStderr then cstr " [LogLevel " ++ con.logLevelName ++ cstr "]\r\n"
        else cstr " [Logging to syslog]\r\n"
      let s ← s.putExtended (esc :: ch :: note)
      return (.next,s)
  | '&' =>
    if mux then noescape esc ch s
    else do
      let s ← s.putExtended (esc :: cstr "& [backgrounded]\n")
      if con.forks then
        let s ← s.putInput [4]
        return (.stop,s)
      else return (.next,s)
  | '?' => do
    let s ← s.putExtended con.escapeHelp
    return (.next,s)
  | '#' => do
    let s ← s.putExtended (esc :: cstr "#\r\n")
    let s ← s.putExtended con.openMessage
    return (.next,s)
  | 'C' => if mux then noescape esc ch s else .ok (.next,s)
  | _ => do
    let s ← s.callIf (ch ≠ esc) (Side.putInput [esc])
    return (.ordinary,s)

def processEscapes (k : Compat) (con : Console) :
    Bytes → Bool → Side → Except Stop (Bool × Side)
  | [],_,s => .ok (false,s)
  | ch :: rest,lastWasCr,s =>
    match s.c.inputFilter with
    | none => .ok (false,s)
    | some efc =>
      if efc.escapePending then do
        let s := s.on fun c => { c with inputFilter := some { efc with escapePending := false } }
        match ← processEscape k con efc.escapeChar ch s with
        | (.next,s) => processEscapes k con rest lastWasCr s
        | (.ordinary,s) => do
          let s ← s.putInput [ch]
          processEscapes k con rest (ch = 13 ∨ ch = 10) s
        | (.leave,s) => .ok (false,s)
        | (.stop,s) => .ok (true,s)
      else if lastWasCr ∧ ch = efc.escapeChar then
        processEscapes k con rest lastWasCr
          (s.on fun c => { c with inputFilter := some { efc with escapePending := true } })
      else do
        let s ← s.putInput [ch]
        processEscapes k con rest (ch = 13 ∨ ch = 10) s

def clientSimpleEscapeFilter (k : Compat) (con : Console) (lastWasCr : Bool) (buf : Bytes)
    (s : Side) : Except Stop (Bool × Side) :=
  if s.c.extendedUsage ≠ .write then .ok (false,s) else processEscapes k con buf lastWasCr s

lemma orFatal_ok {α : Type} {r : Except SshErr α} {a : α} : orFatal r = .ok a ↔ r = .ok a := by
  cases r <;> simp [orFatal,Except.mapError]

lemma Side.putInput_ok {v : Bytes} {s s' : Side} (h : s.putInput v = .ok s') :
    s' = s.on fun c => { c with input := c.input ++ v } := by
  obtain ⟨b,hb,h⟩ := bind_eq_ok.mp h
  obtain ⟨-,rfl⟩ := put_iff.mp (orFatal_ok.mp hb)
  cases h
  rfl

/-- The escapes that are answered by a text, in a multiplexed session or in another one. -/
def answered (mux : Bool) (ch : UInt8) : Bool :=
  match Char.ofNat ch.toNat with
  | '.' | '\x1a' | 'B' | 'V' | 'v' | '&' | '?' | '#' => true
  | 'C' => mux
  | _ => false

/-- The escapes of which nothing is sent on. -/
def swallowed (ch : UInt8) : Prop := Char.ofNat ch.toNat = 'R' ∨ Char.ofNat ch.toNat = 'C'

instance (ch : UInt8) : Decidable (swallowed ch) := inferInstanceAs (Decidable (_ ∨ _))

/-- No escape in what is read is answered; `pending` says that it starts behind an escape
character. -/
def unanswered (esc : UInt8) (mux : Bool) : (pending lastWasCr : Bool) → Bytes → Prop
  | _,_,[] => True
  | true,lastWasCr,ch :: rest => answered mux ch = false ∧
    unanswered esc mux false (if swallowed ch then lastWasCr else ch = 13 ∨ ch = 10) rest
  | false,lastWasCr,ch :: rest =>
    if lastWasCr ∧ ch = esc then unanswered esc mux true lastWasCr rest
    else unanswered esc mux false (ch = 13 ∨ ch = 10) rest

section

variable {k : Compat} {con : Console} {esc ch : UInt8} {s s' : Side}

lemma processEscape_unanswered {r : Escaped} (h : processEscape k con esc ch s = .ok (r,s'))
    (ha : answered (s.c.ctlChan ≠ none) ch = false) :
    (r = .next ∧ swallowed ch ∧ s' = s) ∨
      (r = .ordinary ∧ ¬ swallowed ch ∧ ∃ b, s' = s.on fun c => { c with input := b }) := by
  unfold processEscape at h
  unfold answered at ha
  dsimp only at h
  split at h
  case h_4 hc =>
    cases h
    exact .inl ⟨rfl,.inl hc,rfl⟩
  case h_10 hc =>
    rw [hc] at ha
    rw [if_neg (of_decide_eq_false ha)] at h
    cases h
    exact .inl ⟨rfl,.inr hc,rfl⟩
  case h_11 hR _ _ _ _ _ hC =>
    right
    obtain ⟨s1,hs1,h⟩ := bind_eq_ok.mp h
    cases h
    refine ⟨rfl,not_or.mpr ⟨hR,hC⟩,?_⟩
    unfold Side.callIf at hs1
    split at hs1
    · exact ⟨_,Side.putInput_ok hs1⟩
    · cases hs1
      exact ⟨s.c.input,rfl⟩
  all_goals
    next hc =>
    rw [hc] at ha
    cases ha

lemma processEscapes_unanswered {buf : Bytes} {efc : EscapeFilter} {lastWasCr stop : Bool}
    (hf : s.c.inputFilter = some efc)
    (hu : unanswered efc.escapeChar (s.c.ctlChan ≠ none) efc.escapePending lastWasCr buf)
    (h : processEscapes k con buf lastWasCr s = .ok (stop,s')) : stop = false ∧
      ∃ b filter, s' = s.on fun c => { c with input := b, inputFilter := filter } := by
  induction buf generalizing s lastWasCr efc with
  | nil =>
    cases h
    exact ⟨rfl,_,_,rfl⟩
  | cons ch rest ih =>
    -- what is left goes through a side that differs in the input and the filter only
    have hrest : ∀ {b pending cr}, unanswered _ _ _ cr rest →
        processEscapes k con rest cr (s.on fun c =>
          { c with input := b, inputFilter := some { efc with escapePending := pending } }) =
            .ok _ → stop = false ∧
          ∃ b filter, s' = s.on fun c => { c with input := b, inputFilter := filter } :=
      fun hu h => by
        obtain ⟨hstop,b,filter,rfl⟩ := ih rfl hu h
        exact ⟨hstop,b,filter,rfl⟩
    rw [processEscapes,hf] at h
    dsimp only at h
    cases hp : efc.escapePending with
    | true =>
      rw [hp] at hu
      rw [if_pos hp] at h
      obtain ⟨⟨r,s1⟩,hs1,h⟩ := bind_eq_ok.mp h
      rcases processEscape_unanswered hs1 hu.1 with ⟨rfl,hsw,rfl⟩ | ⟨rfl,hsw,b,rfl⟩
      · have hu' := hu.2
        rw [if_pos hsw] at hu'
        exact hrest hu' h
      · obtain ⟨s2,hs2,h⟩ := bind_eq_ok.mp h
        obtain rfl := Side.putInput_ok hs2
        have hu' := hu.2
        rw [if_neg hsw] at hu'
        exact hrest hu' h
    | false =>
      rw [hp,unanswered] at hu
      rw [if_neg (by rw [hp]; decide)] at h
      split at h
      · next hesc =>
        rw [if_pos hesc] at hu
        exact hrest hu h
      · next hesc =>
        rw [if_neg hesc,← hp] at hu
        obtain ⟨s1,hs1,h⟩ := bind_eq_ok.mp h
        obtain rfl := Side.putInput_ok hs1
        obtain ⟨hstop,b,filter,rfl⟩ :=
          ih (s := s.on fun c => { c with input := c.input ++ [ch] }) hf hu h
        exact ⟨hstop,b,filter,rfl⟩

end

end PkixSsh.Channels
