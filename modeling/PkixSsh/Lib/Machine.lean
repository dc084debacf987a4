import Mathlib.Data.List.Basic

/-!
# Machines and their runs

A machine takes one event at a time, answers it and may stop with a failure. What holds of one step
holds of a run.
-/

namespace Machine

variable {σ τ ε ω φ : Type*}

section

variable (step : σ → ε → Except φ (ω × σ))

def run : σ → List ε → Except φ (List ω × σ)
  | s,[] => .ok ([],s)
  | s,e :: es =>
    match step s e with
    | .error f => .error f
    | .ok (o,s') =>
      match run s' es with
      | .error f => .error f
      | .ok (os,s'') => .ok (o :: os,s'')

/-- Every event of the run meets a condition in the state it comes in. -/
def Guarded (P : σ → ε → Prop) : σ → List ε → Prop
  | _,[] => True
  | s,e :: es => P s e ∧ ∀ o s', step s e = .ok (o,s') → Guarded P s' es

/-- A run of a machine that is given as a relation. -/
inductive Path (T : τ → ε → ω → τ → Prop) : τ → List ε → List ω → τ → Prop
  | nil (t : τ) : Path T t [] [] t
  | cons {t t' t'' : τ} {e : ε} {o : ω} {es : List ε} {os : List ω} :
    T t e o t' → Path T t' es os t'' → Path T t (e :: es) (o :: os) t''

variable {step} {s : σ} {es : List ε} {I : σ → Prop} {P : σ → ε → Prop}

lemma run_cons_ok {s'' : σ} {e : ε} {os : List ω} :
    run step s (e :: es) = .ok (os,s'') ↔ ∃ o s' os', step s e = .ok (o,s') ∧
      run step s' es = .ok (os',s'') ∧ os = o :: os' := by
  rw [run]
  constructor
  · intro h
    split at h
    · cases h
    · next o s' hstep =>
      split at h
      · cases h
      · next os' s''' hrun =>
        cases h
        exact ⟨o,s',os',hstep,hrun,rfl⟩
  · rintro ⟨o,s',os',hstep,hrun,rfl⟩
    rw [hstep]
    dsimp only
    rw [hrun]

lemma Guarded.cons {P : σ → ε → Prop} {s s' : σ} {e : ε} {es : List ε} {o : ω} (hP : P s e)
    (hok : step s e = .ok (o,s')) (h : Guarded step P s' es) : Guarded step P s (e :: es) := by
  refine ⟨hP,fun o2 s2 hok2 => ?_⟩
  cases hok.symm.trans hok2
  exact h

lemma Guarded.mono {Q : σ → ε → Prop} (hPQ : ∀ s e, P s e → Q s e) (h : Guarded step P s es) :
    Guarded step Q s es := by
  induction es generalizing s with
  | nil => trivial
  | cons e es ih => exact ⟨hPQ s e h.1,fun o s' hok => ih (h.2 o s' hok)⟩

lemma run_refines {T : τ → ε → ω → τ → Prop} {R : σ → τ → Prop}
    (hstep : ∀ s t e, R s t → ∃ o s' t', step s e = .ok (o,s') ∧ T t e o t' ∧ R s' t') {t : τ}
    (es : List ε) (h : R s t) :
    ∃ os s' t', run step s es = .ok (os,s') ∧ Path T t es os t' ∧ R s' t' := by
  induction es generalizing s t with
  | nil => exact ⟨[],s,t,rfl,.nil t,h⟩
  | cons e es ih =>
    obtain ⟨o,s',t',hs,hT,hR⟩ := hstep s t e h
    obtain ⟨os,s'',t'',hrun,hpath,hR'⟩ := ih hR
    exact ⟨o :: os,s'',t'',run_cons_ok.mpr ⟨o,s',os,hs,hrun,rfl⟩,.cons hT hpath,hR'⟩

/-- A step that goes well from a state that meets `I`, if its event meets `P`, takes a run as
far; `R` relates the states before and after. -/
lemma run_guarded {R : σ → σ → Prop} (hrefl : ∀ s, R s s)
    (htrans : ∀ s s' s'', I s → R s s' → R s' s'' → R s s'')
    (hstep : ∀ s e, I s → P s e → ∃ o s', step s e = .ok (o,s') ∧ I s' ∧ R s s') (hs : I s)
    (hg : Guarded step P s es) : ∃ os s', run step s es = .ok (os,s') ∧ I s' ∧ R s s' := by
  induction es generalizing s with
  | nil => exact ⟨[],s,rfl,hs,hrefl s⟩
  | cons e es ih =>
    obtain ⟨hP,hrest⟩ := hg
    obtain ⟨o,s',hok,hI,hR⟩ := hstep s e hs hP
    obtain ⟨os,s'',hrun,hI',hR'⟩ := ih hI (hrest o s' hok)
    exact ⟨o :: os,s'',run_cons_ok.mpr ⟨o,s',os,hok,hrun,rfl⟩,hI',htrans s s' s'' hs hR hR'⟩

/-- What every step keeps whose event meets `P`, a run keeps as far as it goes. -/
lemma run_invariant (hstep : ∀ s e o s', I s → P s e → step s e = .ok (o,s') → I s') {s' : σ}
    {os : List ω} (hs : I s) (hg : Guarded step P s es) (hrun : run step s es = .ok (os,s')) :
    I s' := by
  induction es generalizing s os with
  | nil =>
    cases hrun
    exact hs
  | cons e es ih =>
    obtain ⟨hP,hrest⟩ := hg
    obtain ⟨o,s1,os',hok,hrun',-⟩ := run_cons_ok.mp hrun
    exact ih (hstep s e o s1 hs hP hok) (hrest o s1 hok) hrun'

/-- A monitor that follows every step of a machine, whose answers are lists, follows its runs. -/
lemma run_followed {α : Type*} {step : σ → ε → Except φ (List α × σ)} {next : τ → α → Option τ}
    {view : σ → τ}
    (hstep : ∀ s e o s', I s → P s e → step s e = .ok (o,s') →
      I s' ∧ o.foldlM next (view s) = some (view s'))
    {s' : σ} {os : List (List α)} (hs : I s) (hg : Guarded step P s es)
    (hrun : run step s es = .ok (os,s')) :
    I s' ∧ os.flatten.foldlM next (view s) = some (view s') := by
  induction es generalizing s os with
  | nil =>
    cases hrun
    exact ⟨hs,rfl⟩
  | cons e es ih =>
    obtain ⟨hP,hrest⟩ := hg
    obtain ⟨o,s1,os',hok,hrun',rfl⟩ := run_cons_ok.mp hrun
    obtain ⟨hs1,ho⟩ := hstep s e o s1 hs hP hok
    obtain ⟨hs',hos⟩ := ih hs1 (hrest o s1 hok) hrun'
    refine ⟨hs',?_⟩
    rw [List.flatten_cons,List.foldlM_append,ho]
    exact hos

lemma guarded_true (s : σ) (es : List ε) : Guarded step (fun _ _ => True) s es := by
  induction es generalizing s with
  | nil => trivial
  | cons e es ih => exact ⟨trivial,fun _ s' _ => ih s'⟩

lemma guarded_append {es' : List ε} : Guarded step P s (es ++ es') ↔ Guarded step P s es ∧
      ∀ os s', run step s es = .ok (os,s') → Guarded step P s' es' := by
  induction es generalizing s with
  | nil =>
    refine ⟨fun h => ⟨trivial,?_⟩,fun h => h.2 [] s rfl⟩
    rintro os s' ⟨⟩
    exact h
  | cons e es ih =>
    constructor
    · rintro ⟨hP,hrest⟩
      refine ⟨⟨hP,fun o s' hok => (ih.mp (hrest o s' hok)).1⟩,fun os s'' hrun => ?_⟩
      obtain ⟨o,s',os',hok,hrun',rfl⟩ := run_cons_ok.mp hrun
      exact (ih.mp (hrest o s' hok)).2 os' s'' hrun'
    · rintro ⟨⟨hP,hrest⟩,hafter⟩
      refine ⟨hP,fun o s' hok => ih.mpr ⟨hrest o s' hok,fun os s'' hrun => ?_⟩⟩
      exact hafter _ s'' (run_cons_ok.mpr ⟨o,s',os,hok,hrun,rfl⟩)

end

end Machine
