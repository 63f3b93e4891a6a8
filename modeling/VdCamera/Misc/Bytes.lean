import Mathlib.Algebra.Ring.Int.Defs
import Mathlib.Algebra.Ring.Nat
import Mathlib.Tactic.Common
import Mathlib.Algebra.Order.Group.Nat

/-!
# Little-endian numbers

A number as its bytes, least significant first, as a structure in memory holds it.
-/

namespace VdCamera.Misc

/-- The `k` low bytes of `n`, least significant first. -/
def leBytes : Nat → Nat → List UInt8
  | 0, _ => []
  | k + 1, n => UInt8.ofNat n :: leBytes k (n / 256)

/-- The number that the bytes stand for. -/
def leNat : List UInt8 → Nat
  | [] => 0
  | b :: bs => b.toNat + 256 * leNat bs

variable {k n : Nat} {b b' : UInt8} {bs : List UInt8}

@[simp] theorem length_leBytes (k n : Nat) : (leBytes k n).length = k := by
  induction k generalizing n with
  | zero => rfl
  | succ k ih => rw [leBytes, List.length_cons, ih]

theorem leNat_leBytes (h : n < 256 ^ k) : leNat (leBytes k n) = n := by
  induction k generalizing n with
  | zero => simp_all [leBytes, leNat]
  | succ k ih =>
    have hdiv : n / 256 < 256 ^ k := by
      rw [Nat.div_lt_iff_lt_mul (by decide)]
      rwa [Nat.pow_succ] at h
    rw [leBytes, leNat, ih hdiv, UInt8.toNat_ofNat']
    omega

theorem leNat_div (b : UInt8) (bs : List UInt8) : leNat (b :: bs) / 256 = leNat bs := by
  have hb := b.toNat_lt
  rw [leNat]
  omega

theorem leNat_mod (b : UInt8) (bs : List UInt8) : leNat (b :: bs) % 256 = b.toNat := by
  have hb := b.toNat_lt
  rw [leNat]
  omega

end VdCamera.Misc
