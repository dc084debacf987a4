import Mathlib.Algebra.Group.Nat.Defs
import Mathlib.Data.List.TakeWhile
import PkixSsh.Lib.IntervalList

/-!
# Trees of revoked serial numbers

The list of the ranges in order, and the insertion of a range, which merges what it touches.
-/

namespace PkixSsh.Krl

open IntervalList

abbrev RevokedSerial := NatInterval

/-- `serial_cmp`: entries that overlap are equal. -/
def serialCmp (a b : RevokedSerial) : Ordering :=
  if a.hi ≥ b.lo ∧ a.lo ≤ b.hi then .eq else if a.lo < b.lo then .lt else .gt

/-- The loop of `insert_serial_range` over the predecessors, the nearest first. -/
def coalescePrev : List RevokedSerial → RevokedSerial → List RevokedSerial × RevokedSerial
  | [], ers => ([],ers)
  | crs :: prev, ers =>
    if ers.lo ≠ 0 ∧ crs.hi < ers.lo - 1 then (crs :: prev,ers)
    else coalescePrev prev ⟨min crs.lo ers.lo,ers.hi,(Nat.min_le_right _ _).trans ers.le⟩

def coalesceNext : RevokedSerial → List RevokedSerial → RevokedSerial × List RevokedSerial
  | ers, [] => (ers,[])
  | ers, crs :: next =>
    if ers.hi ≠ 2 ^ 64 - 1 ∧ crs.lo > ers.hi + 1 then (ers,crs :: next)
    else coalesceNext ⟨ers.lo,max crs.hi ers.hi,ers.le.trans (Nat.le_max_right _ _)⟩ next

/-- The two loops, from an entry between its predecessors and successors. -/
def coalesce (before : List RevokedSerial) (ers : RevokedSerial) (after : List RevokedSerial) :
    List RevokedSerial :=
  let (prev,ers) := coalescePrev before.reverse ers
  let (ers,next) := coalesceNext ers after
  prev.reverse ++ ers :: next

/-- The entry `RB_NFIND` stops at, grown to the range when the two overlap, and what comes
after it; the range itself is inserted when they do not. -/
def growOrInsert (rs : RevokedSerial) : List RevokedSerial → RevokedSerial × List RevokedSerial
  | [] => (rs,[])
  | ers :: after => if serialCmp ers rs ≠ .eq then (rs,ers :: after) else (hull ers rs,after)

/-- `insert_serial_range` on the entries. Of several entries that overlap the range, the
first stands for the one the search meets. -/
def insertRange (rt : List RevokedSerial) (rs : RevokedSerial) : List RevokedSerial :=
  let before := rt.takeWhile fun e => serialCmp rs e = .gt
  let found := growOrInsert rs (rt.dropWhile fun e => serialCmp rs e = .gt)
  coalesce before found.1 found.2

lemma coalescePrev_spec {prev : List RevokedSerial} {ers : RevokedSerial}
    (hp : prev.Pairwise fun a b => Apart b a) (hhi : ∀ c ∈ prev, c.hi ≤ ers.hi) :
    (coalescePrev prev ers).1.Pairwise (fun a b => Apart b a) ∧
      (∀ c ∈ (coalescePrev prev ers).1, Apart c (coalescePrev prev ers).2) ∧
      (coalescePrev prev ers).2.lo ≤ ers.lo ∧
      ∀ n, Mem (coalescePrev prev ers).1 n ∨ (coalescePrev prev ers).2.Contains n ↔
        Mem prev n ∨ ers.Contains n := by
  induction prev generalizing ers with
  | nil => exact ⟨.nil,nofun,Nat.le_refl _,fun n => Iff.rfl⟩
  | cons crs prev ih =>
    have hcrs := hhi crs List.mem_cons_self
    have hle := crs.le
    rw [coalescePrev]
    split
    · have hapart : Apart crs ers := by
        unfold Apart
        omega
      refine ⟨hp,fun c hc => ?_,Nat.le_refl _,fun n => Iff.rfl⟩
      rcases List.mem_cons.mp hc with rfl | hc
      · exact hapart
      · exact (List.rel_of_pairwise_cons hp hc).trans hapart
    · have htouch : ¬ Apart crs ers ∧ ¬ Apart ers crs := by
        unfold Apart
        omega
      have hhull : (⟨min crs.lo _,ers.hi,(Nat.min_le_right _ _).trans ers.le⟩) =
          hull crs ers := by
        apply NatInterval.ext
        · rfl
        · exact (Nat.max_eq_right hcrs).symm
      rw [hhull]
      have hhi' : ∀ c ∈ prev, c.hi ≤ (hull crs ers).hi := fun c hc =>
        (hhi c (List.mem_cons_of_mem _ hc)).trans (Nat.le_max_right _ _)
      obtain ⟨hcan,hapart,hlo,hmem⟩ := ih (List.Pairwise.tail hp) hhi'
      refine ⟨hcan,hapart,hlo.trans (Nat.min_le_right _ _),fun n => ?_⟩
      rw [hmem n,hull_contains htouch.1 htouch.2,mem_cons,or_assoc,or_left_comm]

lemma coalesceNext_spec {next : List RevokedSerial} {ers : RevokedSerial}
    (hp : Canonical next) (hlo : ∀ c ∈ next, ers.lo ≤ c.lo) (hb : ∀ c ∈ next, c.hi < 2 ^ 64) :
    Canonical (coalesceNext ers next).2 ∧
      (∀ c ∈ (coalesceNext ers next).2, Apart (coalesceNext ers next).1 c) ∧
      (coalesceNext ers next).1.lo = ers.lo ∧
      ∀ n, (coalesceNext ers next).1.Contains n ∨ Mem (coalesceNext ers next).2 n ↔
        ers.Contains n ∨ Mem next n := by
  induction next generalizing ers with
  | nil => exact ⟨.nil,nofun,rfl,fun n => Iff.rfl⟩
  | cons crs next ih =>
    have hcrs := hlo crs List.mem_cons_self
    have hmax := hb crs List.mem_cons_self
    have hle := crs.le
    rw [coalesceNext]
    split
    · rename_i hstop
      refine ⟨hp,fun c hc => ?_,rfl,fun n => Iff.rfl⟩
      rcases List.mem_cons.mp hc with rfl | hc
      · exact hstop.2
      · exact Apart.trans hstop.2 (List.rel_of_pairwise_cons hp hc)
    · have htouch : ¬ Apart ers crs ∧ ¬ Apart crs ers := by
        unfold Apart
        omega
      have hhull : (⟨ers.lo,max crs.hi _,ers.le.trans (Nat.le_max_right _ _)⟩) =
          hull ers crs := by
        apply NatInterval.ext
        · exact (Nat.min_eq_left hcrs).symm
        · exact Nat.max_comm _ _
      have hhlo : (hull ers crs).lo = ers.lo := Nat.min_eq_left hcrs
      rw [hhull]
      have hlo' : ∀ c ∈ next, (hull ers crs).lo ≤ c.lo := fun c hc =>
        hhlo ▸ hlo c (List.mem_cons_of_mem _ hc)
      obtain ⟨hcan,hapart,hrec,hmem⟩ := ih (List.Pairwise.tail hp) hlo'
        fun c hc => hb c (List.mem_cons_of_mem _ hc)
      refine ⟨hcan,hapart,hrec.trans hhlo,fun n => ?_⟩
      rw [hmem n,hull_contains htouch.1 htouch.2,mem_cons,or_assoc]

/-- What the two loops need of the entry and its neighbours. -/
structure Placed (before : List RevokedSerial) (ers : RevokedSerial)
    (after : List RevokedSerial) : Prop where
  before_canonical : Canonical before
  after_canonical : Canonical after
  hi_le : ∀ c ∈ before, c.hi ≤ ers.hi
  lo_le : ∀ c ∈ after, ers.lo ≤ c.lo
  bound : ∀ c ∈ after, c.hi < 2 ^ 64

lemma Placed.coalesce_spec {before after : List RevokedSerial} {ers : RevokedSerial}
    (h : Placed before ers after) : Canonical (coalesce before ers after) ∧
      ∀ n, Mem (coalesce before ers after) n ↔ Mem before n ∨ ers.Contains n ∨ Mem after n := by
  have hhi : ∀ c ∈ before.reverse, c.hi ≤ ers.hi := fun c hc => h.hi_le c (List.mem_reverse.mp hc)
  obtain ⟨hpc,hpa,hplo,hpm⟩ := coalescePrev_spec (List.pairwise_reverse.mpr h.before_canonical) hhi
  have hlo := fun c hc =>
    hplo.trans (h.lo_le c hc)
  obtain ⟨hnc,hna,hnlo,hnm⟩ := coalesceNext_spec h.after_canonical hlo h.bound
  rw [coalesce]
  refine ⟨canonical_middle (List.pairwise_reverse.mpr hpc) hnc (fun c hc => ?_) hna,fun n => ?_⟩
  · have := hpa c (List.mem_reverse.mp hc)
    unfold Apart at this ⊢
    rwa [hnlo]
  · have hp := hpm n
    rw [mem_reverse] at hp
    rw [mem_append,mem_reverse,mem_cons,hnm n,← or_assoc,hp,or_assoc]

lemma serialCmp_eq_gt {a b : RevokedSerial} : serialCmp a b = .gt ↔ b.hi < a.lo := by
  have ha := a.le
  have hb := b.le
  rw [serialCmp]
  split_ifs <;> simp only [false_iff,true_iff] <;> omega

lemma serialCmp_eq_lt {a b : RevokedSerial} : serialCmp a b = .lt ↔ a.hi < b.lo := by
  have ha := a.le
  have hb := b.le
  rw [serialCmp]
  split_ifs <;> simp only [false_iff,true_iff] <;> omega

lemma serialCmp_eq_eq {a b : RevokedSerial} :
    serialCmp a b = .eq ↔ b.lo ≤ a.hi ∧ a.lo ≤ b.hi := by
  rw [serialCmp]
  split
  · rename_i h
    exact iff_of_true rfl h
  · rename_i h
    refine iff_of_false ?_ h
    split <;> exact nofun

section

variable {before after rt : List RevokedSerial} {ers rs : RevokedSerial}

lemma placed_hull (h : Canonical (before ++ ers :: after))
    (hb : ∀ c ∈ before ++ ers :: after, c.hi < 2 ^ 64) (ho : serialCmp ers rs = .eq) :
    Placed before (hull ers rs) after ∧
      ∀ n, (hull ers rs).Contains n ↔ ers.Contains n ∨ rs.Contains n := by
  obtain ⟨hbc,hac,hba⟩ := List.pairwise_append.mp h
  obtain ⟨hea,hac⟩ := List.pairwise_cons.mp hac
  obtain ⟨hlo,hhi⟩ := serialCmp_eq_eq.mp ho
  have hle := ers.le
  refine ⟨⟨hbc,hac,fun c hc => ?_,fun c hc => ?_,fun c hc => hb c (by simp [hc])⟩,
    hull_contains (by unfold Apart; omega) (by unfold Apart; omega)⟩
  · have hapart : c.hi + 1 < ers.lo := hba c hc ers List.mem_cons_self
    exact Nat.le_trans (by omega) (Nat.le_max_left _ _)
  · have hapart : ers.hi + 1 < c.lo := hea c hc
    exact Nat.le_trans (Nat.min_le_left _ _) (by omega)

lemma placed_between (h : Canonical (before ++ after))
    (hb : ∀ c ∈ before ++ after, c.hi < 2 ^ 64) (hbefore : ∀ c ∈ before, c.hi < rs.lo)
    (hafter : ∀ c ∈ after, rs.hi < c.lo) : Placed before rs after := by
  obtain ⟨hbc,hac,-⟩ := List.pairwise_append.mp h
  have hle := rs.le
  refine ⟨hbc,hac,fun c hc => ?_,fun c hc => ?_,fun c hc => hb c (by simp [hc])⟩
  · have := hbefore c hc
    omega
  · have := hafter c hc
    omega

lemma growOrInsert_spec {rest : List RevokedSerial} (h : Canonical (before ++ rest))
    (hb : ∀ c ∈ before ++ rest, c.hi < 2 ^ 64) (hbefore : ∀ c ∈ before, c.hi < rs.lo)
    (hrest : ∀ c ∈ rest.head?, ¬ c.hi < rs.lo) :
    Placed before (growOrInsert rs rest).1 (growOrInsert rs rest).2 ∧
      ∀ n, (growOrInsert rs rest).1.Contains n ∨ Mem (growOrInsert rs rest).2 n ↔
        Mem rest n ∨ rs.Contains n := by
  cases rest with
  | nil => exact ⟨placed_between h hb hbefore nofun,fun n => or_comm⟩
  | cons ers after =>
    have hnot := hrest ers rfl
    rw [growOrInsert]
    split
    · -- the entry lies above the range
      rename_i hne
      rw [ne_eq,serialCmp_eq_eq] at hne
      have hle := ers.le
      refine ⟨placed_between h hb hbefore fun c hc => ?_,fun n => or_comm⟩
      change rs.hi < c.lo
      rcases List.mem_cons.mp hc with rfl | hc
      · omega
      · have hapart : ers.hi + 1 < c.lo :=
          List.rel_of_pairwise_cons (List.pairwise_append.mp h).2.1 hc
        omega
    · rename_i ho
      obtain ⟨hplaced,hhull⟩ := placed_hull h hb (not_not.mp ho)
      refine ⟨hplaced,fun n => ?_⟩
      rw [hhull,mem_cons,or_right_comm]

lemma insertRange_spec (h : Canonical rt) (hb : ∀ c ∈ rt, c.hi < 2 ^ 64) :
    Canonical (insertRange rt rs) ∧ ∀ n, Mem (insertRange rt rs) n ↔ Mem rt n ∨ rs.Contains n := by
  have hsplit : rt.takeWhile (fun e => serialCmp rs e = .gt) ++
      rt.dropWhile _ = rt := List.takeWhile_append_dropWhile
  have hbelow : ∀ c ∈ rt.takeWhile (fun e => serialCmp rs e = .gt), c.hi < rs.lo := by
    intro c hc
    have hp := List.mem_takeWhile_imp hc
    exact serialCmp_eq_gt.mp (of_decide_eq_true hp)
  have hrest : ∀ c ∈ (rt.dropWhile fun e => serialCmp rs e = .gt).head?, ¬ c.hi < rs.lo := by
    intro c hc
    have hhead := List.head?_dropWhile_not (fun e => decide (serialCmp rs e = .gt)) rt
    rw [hc] at hhead
    rw [← serialCmp_eq_gt]
    exact of_decide_eq_false hhead
  obtain ⟨hplaced,hfound⟩ := growOrInsert_spec (hsplit.symm ▸ h) (hsplit.symm ▸ hb) hbelow hrest
  obtain ⟨hcan,hmem⟩ := hplaced.coalesce_spec
  refine ⟨hcan,fun n => ?_⟩
  have hin : Mem rt n ↔ Mem (rt.takeWhile fun e => serialCmp rs e = .gt) n ∨
      Mem (rt.dropWhile fun e => serialCmp rs e = .gt) n := by
    rw [← mem_append,hsplit]
  rw [insertRange,hmem n,hfound n,hin,or_assoc]

/-- The search may stop at any entry that overlaps the range: the tree is the same. -/
lemma coalesce_hull (h : Canonical (before ++ ers :: after))
    (hb : ∀ c ∈ before ++ ers :: after, c.hi < 2 ^ 64) (ho : serialCmp ers rs = .eq) :
    coalesce before (hull ers rs) after = insertRange (before ++ ers :: after) rs := by
  obtain ⟨hplaced,hhull⟩ := placed_hull h hb ho
  obtain ⟨hcan,hmem⟩ := hplaced.coalesce_spec
  obtain ⟨hcan',hmem'⟩ := @insertRange_spec _ rs h hb
  refine hcan.eq_of_mem_iff hcan' fun n => ?_
  rw [hmem n,hmem' n,hhull n,mem_append,mem_cons,or_assoc,or_assoc,or_comm (a := rs.Contains n),
    or_assoc]

end

/-- `struct revoked_serial_tree`. The callers of `insert_serial_range` let no range begin
at 0. -/
structure SerialTree where
  ranges : List RevokedSerial
  canonical : Canonical ranges
  bound : ∀ rs ∈ ranges, 0 < rs.lo ∧ rs.hi < 2 ^ 64

namespace SerialTree

def empty : SerialTree := ⟨[],.nil,nofun⟩

def Contains (t : SerialTree) (n : Nat) : Prop := Mem t.ranges n

lemma ext_contains {t u : SerialTree} (h : ∀ n, t.Contains n ↔ u.Contains n) : t = u := by
  cases t with
  | mk l hl _ =>
    cases u with
    | mk l' hl' _ =>
      congr
      exact hl.eq_of_mem_iff hl' h

lemma Contains.bound {t : SerialTree} {n : Nat} (h : t.Contains n) : 0 < n ∧ n < 2 ^ 64 := by
  obtain ⟨rs,hrs,hlo,hhi⟩ := h
  have := t.bound rs hrs
  omega

end SerialTree

def insertSerialRange (rt : SerialTree) (rs : RevokedSerial) (h : 0 < rs.lo ∧ rs.hi < 2 ^ 64) :
    SerialTree where
  ranges := insertRange rt.ranges rs
  canonical := (insertRange_spec rt.canonical fun c hc => (rt.bound c hc).2).1
  bound := by
    have hinsert : Canonical (insertRange rt.ranges rs) ∧ _ :=
      insertRange_spec rt.canonical fun c hc => (rt.bound c hc).2
    have hmem := hinsert.2
    intro c hc
    constructor
    · rcases (hmem _).mp (mem_lo hc) with hm | hm
      · exact (SerialTree.Contains.bound (t := rt) hm).1
      · exact Nat.lt_of_lt_of_le h.1 hm.1
    · rcases (hmem _).mp (mem_hi hc) with hm | hm
      · exact (SerialTree.Contains.bound (t := rt) hm).2
      · exact Nat.lt_of_le_of_lt hm.2 h.2

lemma insertSerialRange_contains (rt : SerialTree) (rs : RevokedSerial)
    (h : 0 < rs.lo ∧ rs.hi < 2 ^ 64) (n : Nat) :
    (insertSerialRange rt rs h).Contains n ↔ rt.Contains n ∨ rs.Contains n :=
  (insertRange_spec rt.canonical fun c hc => (rt.bound c hc).2).2 n

end PkixSsh.Krl
