import Mathlib.Logic.Function.Basic
import Mathlib.Tactic.SplitIfs

/-!
# Memory in blocks

Memory that is handed out in numbered blocks of cells. A number is never handed out twice,
so that a block that was released stays released.
-/

namespace Blocks

open List Function

variable {α : Type}

structure Memory (α : Type) where
  block : Nat → Option (List α)
  next : Nat
  fresh : ∀ i, next ≤ i → block i = none

/-- `v` in place of the cells from `pos` on. -/
def splice (cells : List α) (pos : Nat) (v : List α) : List α :=
  cells.take pos ++ v ++ cells.drop (pos + v.length)

section

variable {cells v : List α} {pos : Nat}

variable (h : pos + v.length ≤ cells.length)

include h

lemma length_splice : (splice cells pos v).length = cells.length := by
  simp only [splice,length_append,length_take,length_drop]
  omega

lemma drop_splice : (splice cells pos v).drop pos = v ++ cells.drop (pos + v.length) := by
  have hlen : (cells.take pos).length = pos := length_take_of_le (by omega)
  rw [splice,append_assoc]
  exact drop_left' hlen

lemma take_splice : (splice cells pos v).take (pos + v.length) = cells.take pos ++ v := by
  have hlen : (cells.take pos ++ v).length = pos + v.length := by
    rw [length_append,length_take_of_le (by omega)]
  exact take_left' hlen

end

namespace Memory

def empty : Memory α := ⟨fun _ => none,0,fun _ _ => rfl⟩

lemma lt_next {m : Memory α} {i : Nat} {cells : List α} (h : m.block i = some cells) :
    i < m.next := by
  by_contra hi
  rw [m.fresh i (by omega)] at h
  cases h

variable (m : Memory α) (cells : List α) (i : Nat)

def alloc : Memory α where
  block := update m.block m.next (some cells)
  next := m.next + 1
  fresh i hi := by
    rw [update_of_ne (by omega)]
    exact m.fresh i (by omega)

@[simp] lemma block_alloc_next :
    (m.alloc cells).block m.next = some cells := update_self ..

lemma block_alloc_of_ne {i : Nat} (hi : i ≠ m.next) :
    (m.alloc cells).block i = m.block i := update_of_ne hi ..

def free : Memory α where
  block := update m.block i none
  next := m.next
  fresh j hj := by
    by_cases h : j = i
    · rw [h,update_self]
    · rw [update_of_ne h]
      exact m.fresh j hj

@[simp] lemma next_free : (m.free i).next = m.next := rfl

@[simp] lemma block_free_self : (m.free i).block i = none :=
  update_self ..

lemma block_free_of_ne {i j : Nat} (hj : j ≠ i) :
    (m.free i).block j = m.block j := update_of_ne hj ..

/-- The `len` cells from `pos` on, if they are all in the block. -/
def read (pos len : Nat) : Option (List α) :=
  match m.block i with
  | none => none
  | some cells => if pos + len ≤ cells.length then some ((cells.drop pos).take len) else none

lemma read_eq {m : Memory α} {i pos len : Nat} {cells : List α} (h : m.block i = some cells)
    (hlen : pos + len ≤ cells.length) : m.read i pos len = some ((cells.drop pos).take len) := by
  rw [read,h]
  exact if_pos hlen

lemma of_read_isSome {m : Memory α} {i pos len : Nat} (h : (m.read i pos len).isSome = true) :
    ∃ cells, m.block i = some cells ∧ pos + len ≤ cells.length := by
  rw [read] at h
  split at h
  · cases h
  · next cells hcells =>
    split_ifs at h with hlen
    · exact ⟨cells,hcells,hlen⟩
    · cases h

def write (pos : Nat) (v : List α) : Option (Memory α) :=
  match h : m.block i with
  | none => none
  | some cells =>
    if pos + v.length ≤ cells.length then
      some
        { block := update m.block i (some (splice cells pos v))
          next := m.next
          fresh := fun j hj => by
            rw [update_of_ne (by have := lt_next h; omega)]
            exact m.fresh j hj }
    else none

lemma next_write {m m' : Memory α} {i pos : Nat} {v : List α} (h : m.write i pos v = some m') :
    m'.next = m.next := by
  rw [write] at h
  split at h
  · cases h
  · split_ifs at h
    cases h
    rfl

lemma write_eq {m : Memory α} {i pos : Nat} {v cells : List α} (h : m.block i = some cells)
    (hlen : pos + v.length ≤ cells.length) : ∃ m', m.write i pos v = some m' ∧ m'.next = m.next ∧
      m'.block = update m.block i (some (splice cells pos v)) := by
  rw [write]
  split
  · next h' =>
    rw [h] at h'
    cases h'
  · next cells' h' =>
    rw [h] at h'
    cases h'
    rw [if_pos hlen]
    exact ⟨_,rfl,rfl,rfl⟩

end Memory

end Blocks
