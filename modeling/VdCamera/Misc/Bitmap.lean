import Mathlib.Algebra.Order.Group.Nat
import Mathlib.Data.List.Count
import Mathlib.Data.List.Range
import Mathlib.Tactic.Common

/-!
# Bitmaps

A bitmap is bytes, the lowest bit of a byte first. What is free is a bit that is 0.
-/

namespace VdCamera.Misc

variable {bitmap : Nat → UInt8} {m n : Nat}

/-- Bit `p`. -/
def bit (bitmap : Nat → UInt8) (p : Nat) : Bool := (bitmap (p / 8)).toNat.testBit (p % 8)

/-- How many of the first `n` bits are 0. -/
def freeBits (bitmap : Nat → UInt8) (n : Nat) : Nat := (List.range n).countP fun p => !bit bitmap p

theorem freeBits_succ (bitmap : Nat → UInt8) (n : Nat) :
    freeBits bitmap (n + 1) = freeBits bitmap n + if bit bitmap n then 0 else 1 := by
  rw [freeBits, List.range_succ, List.countP_append, freeBits, List.countP_singleton]
  cases bit bitmap n <;> rfl

theorem freeBits_le (bitmap : Nat → UInt8) (n : Nat) : freeBits bitmap n ≤ n := by
  rw [freeBits]
  exact List.countP_le_length.trans_eq List.length_range

theorem freeBits_le_add (bitmap : Nat → UInt8) (n d : Nat) :
    freeBits bitmap n ≤ freeBits bitmap (n + d) := by
  induction d with
  | zero => exact Nat.le_refl _
  | succ d ih =>
    rw [← Nat.add_assoc, freeBits_succ]
    omega

theorem freeBits_add_eq_iff (bitmap : Nat → UInt8) (n d : Nat) :
    freeBits bitmap (n + d) = freeBits bitmap n ↔ ∀ p, n ≤ p → p < n + d → bit bitmap p = true := by
  induction d with
  | zero =>
    refine ⟨fun _ p hp hp' => ?_, fun _ => rfl⟩
    omega
  | succ d ih =>
    have hle := freeBits_le_add bitmap n d
    rw [← Nat.add_assoc, freeBits_succ]
    constructor
    · intro h p hp hp'
      have hlast : bit bitmap (n + d) = true := by
        by_contra hbit
        rw [if_neg hbit] at h
        omega
      rw [if_pos hlast, Nat.add_zero] at h
      rcases Nat.lt_succ_iff_lt_or_eq.mp hp' with hlt | rfl
      · exact ih.mp h p hp hlt
      · exact hlast
    · intro h
      rw [if_pos (h (n + d) (Nat.le_add_right n d) (Nat.lt_succ_self _)), Nat.add_zero]
      exact ih.mpr fun p hp hp' => h p hp (Nat.lt_succ_of_lt hp')

/-- Two counts agree exactly when all bits that only one of them goes over are 1. -/
theorem freeBits_eq_iff : freeBits bitmap m = freeBits bitmap n
    ↔ ∀ p, min m n ≤ p → p < max m n → bit bitmap p = true := by
  rcases Nat.le_total m n with h | h
  · obtain ⟨d, rfl⟩ := Nat.exists_eq_add_of_le h
    rw [eq_comm, freeBits_add_eq_iff, Nat.min_eq_left h, Nat.max_eq_right h]
  · obtain ⟨d, rfl⟩ := Nat.exists_eq_add_of_le h
    rw [freeBits_add_eq_iff, Nat.min_eq_right h, Nat.max_eq_left h]

end VdCamera.Misc
