import Mathlib.Data.List.Basic

/-!
# Lines of a file

The lines as `getline` returns them, each with its newline, which only the last one may lack.
-/

namespace PkixSsh.Lines

open List

def newline : UInt8 := 10

def lines : List UInt8 → List (List UInt8)
  | [] => []
  | c :: cs =>
    if c = newline then [c] :: lines cs
    else
      match lines cs with
      | [] => [[c]]
      | l :: ls => (c :: l) :: ls

lemma lines_newline (cs : List UInt8) : lines (newline :: cs) = [newline] :: lines cs := by
  rw [lines,if_pos rfl]

lemma lines_cons {c : UInt8} (h : c ≠ newline) (cs : List UInt8) :
    lines (c :: cs) = ((c :: (lines cs).headD []) :: (lines cs).tail) := by
  rw [lines,if_neg h]
  cases lines cs <;> rfl

lemma lines_append {l : List UInt8} (h : newline ∉ l) (cs : List UInt8) :
    lines (l ++ newline :: cs) = (l ++ [newline]) :: lines cs := by
  induction l with
  | nil => exact lines_newline cs
  | cons c l ih =>
    have hc : c ≠ newline := fun hc => h (hc ▸ mem_cons_self)
    rw [cons_append,lines_cons hc,ih fun hl => h (mem_cons_of_mem _ hl)]
    rfl

lemma lines_flatMap {ls : List (List UInt8)} (h : ∀ l ∈ ls, newline ∉ l) :
    lines (ls.flatMap fun l => l ++ [newline]) = ls.map fun l => l ++ [newline] := by
  induction ls with
  | nil => rfl
  | cons l ls ih =>
    rw [flatMap_cons,append_assoc,singleton_append,
      lines_append (h l mem_cons_self),ih fun x hx => h x (mem_cons_of_mem _ hx),
      map_cons]

end PkixSsh.Lines
