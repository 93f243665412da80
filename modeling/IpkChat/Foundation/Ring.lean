/-
  Foundation/Ring.lean --- the window of a cyclic buffer.

  A cyclic buffer keeps a queue in an array: `size` cells from index `front` on,
  counted modulo the number of cells.  `window` is the queue it represents.
  Writing the cell after the window appends to the queue (`window_push`), moving
  `front` forward removes its head (`window_pop`).
-/
import Mathlib

set_option autoImplicit false

namespace IpkChat.Foundation

section Ring

variable {α : Type} [Inhabited α]

/-- The queue held by the cells of a cyclic buffer. -/
def window (cells : List α) (front size : Nat) : List α :=
  (List.range size).map fun k => cells.getD ((front + k) % cells.length) default

@[simp] theorem window_length (cells : List α) (front size : Nat) :
    (window cells front size).length = size := by
  simp [window]

@[simp] theorem window_zero (cells : List α) (front : Nat) : window cells front 0 = [] := rfl

/-- Two offsets below the number of cells reach different cells. -/
theorem add_mod_ne_of_lt {front n j k : Nat} (hj : j < k) (hk : k < n) :
    (front + j) % n ≠ (front + k) % n := by
  intro h
  have hmod : j ≡ k [MOD n] := Nat.ModEq.add_left_cancel' front h
  have : j = k := Nat.ModEq.eq_of_lt_of_lt hmod (hj.trans hk) hk
  omega

theorem window_push {cells : List α} {front size : Nat} (hsize : size < cells.length) (x : α) :
    window (cells.set ((front + size) % cells.length) x) front (size + 1) =
      window cells front size ++ [x] := by
  have hpos : 0 < cells.length := by omega
  simp only [window, List.length_set, List.range_succ, List.map_append, List.map_cons,
    List.map_nil]
  congr 1
  · refine List.map_congr_left fun k hk => ?_
    have hne : (front + k) % cells.length ≠ (front + size) % cells.length :=
      add_mod_ne_of_lt (List.mem_range.mp hk) hsize
    simp [List.getD, List.getElem?_set_ne hne.symm]
  · simp [List.getD, Nat.mod_lt _ hpos]

theorem window_pop (cells : List α) (front size : Nat) :
    window cells front (size + 1) =
      cells.getD (front % cells.length) default ::
        window cells ((front + 1) % cells.length) size := by
  simp only [window, List.range_succ_eq_map, List.map_cons, List.map_map, Nat.add_zero,
    List.cons.injEq, true_and]
  refine List.map_congr_left fun k _ => ?_
  simp only [Function.comp_apply, Nat.mod_add_mod]
  congr 2
  omega

end Ring

end IpkChat.Foundation
