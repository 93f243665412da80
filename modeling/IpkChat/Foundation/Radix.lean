/-
  Foundation/Radix.lean --- numbers written with a last digit.

  A number is written as `high * base + low`.  The last digit lies below the base; the
  high part is any integer, so a negative number has a negative high part.  A last
  digit that has left its range is brought back by a borrow or a carry, and the number
  stays the same.
-/
import Mathlib.Data.Int.Basic
import Mathlib.Tactic.Ring

set_option autoImplicit false

namespace IpkChat.Foundation

/-- The last digit of a number. -/
def IsDigit (base low : Int) : Prop := 0 ≤ low ∧ low < base

instance (base low : Int) : Decidable (IsDigit base low) := inferInstanceAs (Decidable (_ ∧ _))

/-- The number that is written. -/
def number (base : Int) (n : Int × Int) : Int := n.1 * base + n.2

/-- Take one from the high part if the last digit is negative. -/
def borrow (base : Int) (n : Int × Int) : Int × Int :=
  if n.2 < 0 then (n.1 - 1, n.2 + base) else n

/-- Add one to the high part if the last digit has reached the base. -/
def carry (base : Int) (n : Int × Int) : Int × Int :=
  if n.2 = base then (n.1 + 1, 0) else n

section Radix

variable {base : Int} {n : Int × Int}

theorem number_borrow : number base (borrow base n) = number base n := by
  unfold borrow number
  split
  · simp only
    ring
  · rfl

/-- One borrow is enough for the difference of two digits. -/
theorem isDigit_borrow (hlow : -base ≤ n.2) (hhigh : n.2 < base) :
    IsDigit base (borrow base n).2 := by
  unfold borrow IsDigit
  split
  · simp only
    omega
  · omega

theorem number_carry : number base (carry base n) = number base n := by
  unfold carry number
  split
  · rename_i heq
    simp only [heq]
    ring
  · rfl

/-- One carry is enough for what a digit leaves of the base. -/
theorem isDigit_carry (hbase : 0 < base) (hlow : 0 ≤ n.2) (hhigh : n.2 ≤ base) :
    IsDigit base (carry base n).2 := by
  unfold carry IsDigit
  split
  · exact ⟨Int.le_refl 0, hbase⟩
  · omega

/-- The high part has the sign of the number. -/
theorem number_nonneg_iff (h : IsDigit base n.2) : 0 ≤ number base n ↔ 0 ≤ n.1 := by
  obtain ⟨hlow, hhigh⟩ := h
  have hbase : 0 < base := by omega
  have hdiv : number base n / base = n.1 := by
    rw [number, Int.add_comm, Int.add_mul_ediv_right _ _ (by omega),
      Int.ediv_eq_zero_of_lt hlow hhigh, Int.zero_add]
  rw [← hdiv, Int.ediv_nonneg_iff_of_pos hbase]

end Radix

end IpkChat.Foundation
