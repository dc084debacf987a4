import PkixSsh.Krl.Generate

/-!
# The sections of the serials

Consecutive ranges that get the same kind of section are one group, written as one section.
-/

namespace PkixSsh.Krl

open IntervalList Nat
open List hiding Mem mem_cons

/-- Consecutive ranges in one section. A range section has one range. -/
structure Group where
  kind : SerialSection
  first : RevokedSerial
  more : List RevokedSerial
  single : kind = .range → more = []

namespace Group

variable (g : Group) (kind : SerialSection) (rs : RevokedSerial)

def ranges : List RevokedSerial := g.first :: g.more

def last : RevokedSerial := g.ranges.getLast (cons_ne_nil _ _)

def new : Group := ⟨kind,rs,[],fun _ => rfl⟩

def add (h : g.kind ≠ .range) : Group :=
  ⟨g.kind,g.first,g.more ++ [rs],fun hr => absurd hr h⟩

@[simp] lemma ranges_new : (new kind rs).ranges = [rs] := rfl

@[simp] lemma last_new : (new kind rs).last = rs := rfl

@[simp] lemma ranges_add (h : g.kind ≠ .range) : (g.add rs h).ranges = g.ranges ++ [rs] := rfl

@[simp] lemma last_add (h : g.kind ≠ .range) : (g.add rs h).last = rs := by
  have happ : ∀ hne, (g.ranges ++ [rs]).getLast hne = rs := fun hne => getLast_concat
  exact happ _

end Group

variable (cur : Option Group)

def planStep (rs : RevokedSerial) (rest : List RevokedSerial) : List Group × Group :=
  let choice := nextState (cur.map (·.kind)) (cur.elim 0 (·.last.hi)) rs rest
  match cur with
  | none => ([],.new choice.1 rs)
  | some g =>
    if h : choice.2 ∨ choice.1 ≠ g.kind ∨ g.kind = .range then ([g],.new choice.1 rs)
    else ([],g.add rs fun hr => h (.inr (.inr hr)))

def plan : Option Group → List RevokedSerial → List Group
  | cur, [] => cur.toList
  | cur, rs :: rest => (planStep cur rs rest).1 ++ plan (some (planStep cur rs rest).2) rest

/-- A bitmap section that is short enough to be read. -/
def Group.Fits (g : Group) : Prop := g.kind = .bitmap → g.last.hi - g.first.lo < 16384

instance (g : Group) : Decidable g.Fits := inferInstanceAs (Decidable (_ → _))

lemma pickState_bitmap {costList costRange costBitmap costBitmapRestart : Nat}
    (h : (pickState costList costRange costBitmap costBitmapRestart).1 = .bitmap) :
    if (pickState costList costRange costBitmap costBitmapRestart).2 then
      costBitmapRestart ≤ costRange else costBitmap ≤ costRange := by
  simp only [pickState] at h ⊢
  split_ifs at h ⊢ <;> simp_all <;> omega

lemma chooseNextState_bitmap {state : Option SerialSection} {contig lastGap nextGap : Nat}
    {final : Bool} (h : (chooseNextState state contig final lastGap nextGap).1 = .bitmap) :
    contig ≤ 208 ∧ ((chooseNextState state contig final lastGap nextGap).2 = false →
      lastGap ≤ 208) := by
  have hpick := pickState_bitmap h
  rw [chooseNextState]
  generalize pickState _ _ _ _ = choice at hpick ⊢
  have hfinal : (if final then 0 else 8 + 64) ≤ 72 := by cases final <;> decide
  cases hc : choice.2 with
  | false =>
    rw [hc,if_neg (by decide)] at hpick
    omega
  | true =>
    rw [hc,if_pos rfl] at hpick
    exact ⟨by omega,nofun⟩

variable {rest : List RevokedSerial} {rs : RevokedSerial}

lemma nextState_bitmap {state : Option SerialSection} {last : Nat}
    (h : (nextState state last rs rest).1 = .bitmap) :
    contig rs ≤ 208 ∧ (state ≠ none → (nextState state last rs rest).2 = false →
      rs.lo - last ≤ 208) := by
  obtain ⟨hcontig,hgap⟩ := chooseNextState_bitmap h
  refine ⟨hcontig,fun hstate hforce => ?_⟩
  have hle := hgap hforce
  rwa [if_neg hstate] at hle

/-- The group the next range would be joined to is closed. -/
def Closes (choice : SerialSection × Bool) : Prop :=
  ∀ g ∈ cur, choice.2 ∨ choice.1 ≠ g.kind ∨ g.kind = .range

lemma planStep_closes {cur : Option Group}
    (h : Closes cur (nextState (cur.map (·.kind)) (cur.elim 0 (·.last.hi)) rs rest)) :
    planStep cur rs rest = (cur.toList,
      .new (nextState (cur.map (·.kind)) (cur.elim 0 (·.last.hi)) rs rest).1 rs) := by
  cases cur with
  | none => rfl
  | some g =>
    rw [planStep,dif_pos (h g rfl)]
    rfl

lemma planStep_joins {g : Group}
    (h : ¬ Closes (some g) (nextState (some g.kind) g.last.hi rs rest)) :
    ∃ hk, planStep (some g) rs rest = ([],g.add rs hk) ∧
      nextState (some g.kind) g.last.hi rs rest = (g.kind,false) := by
  have hno : ¬ ((nextState (some g.kind) g.last.hi rs rest).2 ∨
      (nextState (some g.kind) g.last.hi rs rest).1 ≠ g.kind ∨ g.kind = .range) := by
    intro hc
    apply h
    rintro s ⟨⟩
    exact hc
  refine ⟨fun hk => hno (.inr (.inr hk)),dif_neg hno,?_⟩
  rw [not_or,not_or,not_not] at hno
  exact Prod.ext hno.2.1 (by simpa using hno.1)

lemma planStep_ranges (rs : RevokedSerial) (rest : List RevokedSerial) :
    (planStep cur rs rest).1.flatMap Group.ranges ++ (planStep cur rs rest).2.ranges =
      cur.elim [] Group.ranges ++ [rs] := by
  cases cur with
  | none => rfl
  | some g =>
    rw [planStep]
    split
    · simp
    · simp

lemma plan_ranges (l : List RevokedSerial) :
    (plan cur l).flatMap Group.ranges = cur.elim [] Group.ranges ++ l := by
  induction l generalizing cur with
  | nil => cases cur <;> simp [plan]
  | cons rs rest ih =>
    rw [plan,flatMap_append,ih,Option.elim_some,← append_assoc,planStep_ranges,append_assoc]
    rfl

section

variable {l : List RevokedSerial} {g : Group}

lemma mem_plan_sublist (h : g ∈ plan none l) : g.ranges.Sublist l := by
  have hsub := sublist_flatten_of_mem (mem_map_of_mem (f := Group.ranges) h)
  have hr := plan_ranges none l
  rw [flatMap_def] at hr
  rwa [hr] at hsub

lemma mem_plan_canonical (hl : Canonical l) (h : g ∈ plan none l) : Canonical g.ranges :=
  List.Pairwise.sublist (mem_plan_sublist h) hl

lemma mem_plan_iff {n : Nat} : (∃ g ∈ plan none l, Mem g.ranges n) ↔ Mem l n := by
  have hr := plan_ranges none l
  rw [Option.elim_none,nil_append] at hr
  conv_rhs => rw [← hr]
  simp only [Mem,mem_flatMap]
  constructor
  · rintro ⟨g,hg,a,ha,hn⟩
    exact ⟨a,⟨g,hg,ha⟩,hn⟩
  · rintro ⟨a,⟨g,hg,ha⟩,hn⟩
    exact ⟨g,hg,a,ha,hn⟩

end

def serials (l : List RevokedSerial) : List Nat :=
  l.flatMap fun rs => (range (contig rs)).map (rs.lo + ·)

lemma serials_append (l l' : List RevokedSerial) : serials (l ++ l') = serials l ++ serials l' :=
  flatMap_append

lemma mem_serials {l : List RevokedSerial} {n : Nat} : n ∈ serials l ↔ Mem l n := by
  simp only [serials,mem_flatMap,mem_map,mem_range,contig]
  constructor
  · rintro ⟨rs,hrs,i,hi,rfl⟩
    have := rs.le
    exact ⟨rs,hrs,by omega,by omega⟩
  · rintro ⟨rs,hrs,hlo,hhi⟩
    exact ⟨rs,hrs,n - rs.lo,by omega,by omega⟩

/-- Bits set in a number, at the distances of serials from a first one. -/
def setBits (start value : Nat) (ss : List Nat) : Nat :=
  ss.foldl (fun v s => v ||| 2 ^ (s - start)) value

lemma testBit_setBits {start value n : Nat} {ss : List Nat} :
    (setBits start value ss).testBit n = true ↔
      value.testBit n = true ∨ ∃ s ∈ ss, s - start = n := by
  induction ss generalizing value with
  | nil => simp [setBits]
  | cons s ss ih =>
    change (setBits start _ ss).testBit n = true ↔ _
    rw [ih,testBit_or,testBit_two_pow]
    simp [or_assoc]

def Group.bits (g : Group) : Nat := setBits g.first.lo 0 (serials g.ranges)

lemma Group.testBit_bits {g : Group} (h : Canonical g.ranges) {n : Nat} :
    g.bits.testBit n = true ↔ Mem g.ranges (g.first.lo + n) := by
  rw [Group.bits,testBit_setBits]
  simp only [zero_testBit,Bool.false_eq_true,false_or,mem_serials]
  constructor
  · rintro ⟨s,hs,rfl⟩
    rwa [Nat.add_sub_cancel' (h.lo_le_of_mem hs)]
  · intro hn
    exact ⟨_,hn,Nat.add_sub_cancel_left _ _⟩

lemma Group.size_bits {g : Group} (h : Canonical g.ranges) :
    g.bits.size = g.last.hi - g.first.lo + 1 := by
  have hlast : Mem _ g.last.hi := mem_hi (getLast_mem _)
  have hle := h.lo_le_of_mem hlast
  apply le_antisymm
  · rw [size_le]
    apply lt_pow_two_of_testBit
    intro i hi
    by_contra hbit
    have hmem := (Group.testBit_bits h).mp (by simpa using hbit)
    have : g.first.lo + i ≤ g.last.hi := h.le_of_mem _ hmem
    omega
  · apply lt_size.mpr
    apply ge_two_pow_of_testBit
    rw [Group.testBit_bits h,Nat.add_sub_cancel' hle]
    exact hlast

end PkixSsh.Krl
