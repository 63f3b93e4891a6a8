import Mathlib.Data.Fintype.Basic
import Mathlib.Tactic.Common
import Mathlib.Tactic.Positivity
import Mathlib.Tactic.Zify

/-!
# Fields of a byte

A field of a byte is `k` bits from bit `s` on. Masking it out leaves what is above it and below it;
adding a number that has room in it then sets it.
-/

namespace VdCamera.Misc

/-- The bits of a field. -/
def fieldMask (s k : Nat) : UInt8 := UInt8.ofNat ((2 ^ k - 1) * 2 ^ s)

/-- The other bits. -/
def keepMask (s k : Nat) : UInt8 := ~~~ fieldMask s k

theorem toNat_masks (s k : Fin 9) : s.val + k.val ≤ 8 →
    (fieldMask s k).toNat = (2 ^ k.val - 1) * 2 ^ s.val
      ∧ (keepMask s k).toNat = 255 - (2 ^ k.val - 1) * 2 ^ s.val
      ∧ (k.val ≠ 0 → (UInt8.ofNat s).toNat % 8 = s) := by
  revert s k
  decide

theorem testBit_keep (s k : Fin 9) : s.val + k.val ≤ 8 → ∀ j : Fin 8,
    (255 - (2 ^ k.val - 1) * 2 ^ s.val).testBit j = decide (j.val < s.val ∨ s.val + k.val ≤ j.val) := by
  revert s k
  decide +kernel

variable {s k : Nat}

theorem and_keep (h : s + k ≤ 8) {n : Nat} (hn : n < 256) :
    n &&& (255 - (2 ^ k - 1) * 2 ^ s) = n / 2 ^ (s + k) * 2 ^ (s + k) + n % 2 ^ s := by
  have hlow : n % 2 ^ s < 2 ^ (s + k) :=
    (Nat.mod_lt n (Nat.two_pow_pos s)).trans_le (Nat.pow_le_pow_right (by omega) (by omega))
  apply Nat.eq_of_testBit_eq
  intro j
  rw [Nat.mul_comm (n / _), Nat.two_pow_add_eq_or_of_lt hlow, Nat.testBit_and, Nat.testBit_or,
    Nat.testBit_two_pow_mul, Nat.testBit_mod_two_pow, Nat.testBit_div_two_pow]
  by_cases hj : j < 8
  · rw [testBit_keep ⟨s, by omega⟩ ⟨k, by omega⟩ h ⟨j, hj⟩]
    by_cases hhigh : s + k ≤ j
    · have hnot : ¬ j < s := by omega
      simp [hhigh, hnot]
    · simp [hhigh, Bool.and_comm]
  · have hpow : 2 ^ 8 ≤ 2 ^ j := Nat.pow_le_pow_right (by decide) (Nat.not_lt.mp hj)
    have hbit : n.testBit j = false := Nat.testBit_lt_two_pow (hn.trans_le hpow)
    by_cases hhigh : s + k ≤ j
    · simp [hbit, hhigh]
    · omega

/-- What is left when a field is masked out. -/
theorem toNat_keep (h : s + k ≤ 8) (x : UInt8) :
    (x &&& keepMask s k).toNat = x.toNat / 2 ^ (s + k) * 2 ^ (s + k) + x.toNat % 2 ^ s := by
  have hmask := (toNat_masks ⟨s, by omega⟩ ⟨k, by omega⟩ h).2.1
  rw [UInt8.toNat_and, hmask]
  exact and_keep h x.toNat_lt

/-- The number in a field. -/
theorem toNat_field (hk : 0 < k) (h : s + k ≤ 8) (x : UInt8) :
    ((x &&& fieldMask s k) >>> UInt8.ofNat s).toNat = x.toNat / 2 ^ s % 2 ^ k := by
  obtain ⟨hmask, -, hshift⟩ := toNat_masks ⟨s, by omega⟩ ⟨k, by omega⟩ h
  rw [UInt8.toNat_shiftRight, UInt8.toNat_and, hmask, hshift (by simp; omega),
    Nat.shiftRight_and_distrib, Nat.shiftRight_eq_div_pow, Nat.shiftRight_eq_div_pow,
    Nat.mul_div_cancel _ (Nat.two_pow_pos s), Nat.and_two_pow_sub_one_eq_mod]

theorem toNat_ofInt_of_lt {i : Int} (h0 : 0 ≤ i) (h : i < 256) : (UInt8.ofInt i).toNat = i.toNat := by
  rw [UInt8.ofInt, UInt8.toNat_ofNat', Int.emod_eq_of_lt h0 (show i < 2 ^ 8 from h),
    Nat.mod_eq_of_lt (by omega)]

/-- A number that has room is added without a carry. -/
theorem toNat_add_ofInt {x : UInt8} {i : Int} (h0 : 0 ≤ i) (h : x.toNat + i.toNat < 256) :
    (x + UInt8.ofInt i).toNat = x.toNat + i.toNat := by
  rw [UInt8.toNat_add, toNat_ofInt_of_lt h0 (by omega), Nat.mod_eq_of_lt h]

theorem toNat_emod_lt (i : Int) (k : Nat) : (i % 2 ^ k).toNat < 2 ^ k := by
  have := Int.emod_lt_of_pos i (show (0 : Int) < 2 ^ k from by positivity)
  zify
  rwa [Int.toNat_of_nonneg (Int.emod_nonneg i (by positivity))]

/-- The byte with a field set. -/
theorem toNat_setField (h : s + k ≤ 8) (x : UInt8) (i : Int) :
    ((x &&& keepMask s k) + UInt8.ofInt (i % 2 ^ k * 2 ^ s)).toNat
      = x.toNat / 2 ^ (s + k) * 2 ^ (s + k) + (i % 2 ^ k).toNat * 2 ^ s + x.toNat % 2 ^ s := by
  have hx := x.toNat_lt
  have hpow : (2 : Nat) ^ 8 = 2 ^ (s + k) * 2 ^ (8 - (s + k)) := by
    rw [← Nat.pow_add]
    congr 1
    omega
  have hfit : x.toNat / 2 ^ (s + k) * 2 ^ (s + k) + 2 ^ (s + k) ≤ 256 := by
    have hdiv : x.toNat / 2 ^ (s + k) < 2 ^ (8 - (s + k)) := by
      rw [Nat.div_lt_iff_lt_mul (Nat.two_pow_pos _), Nat.mul_comm, ← hpow]
      exact hx
    calc x.toNat / 2 ^ (s + k) * 2 ^ (s + k) + 2 ^ (s + k)
        = (x.toNat / 2 ^ (s + k) + 1) * 2 ^ (s + k) := by rw [Nat.add_mul, Nat.one_mul]
      _ ≤ 2 ^ (8 - (s + k)) * 2 ^ (s + k) := Nat.mul_le_mul_right _ hdiv
      _ = 256 := by rw [Nat.mul_comm, ← hpow]; rfl
  have hi := Int.emod_nonneg i (show (2 : Int) ^ k ≠ 0 from by positivity)
  have hlt := toNat_emod_lt i k
  have hnat : (i % 2 ^ k * 2 ^ s).toNat = (i % 2 ^ k).toNat * 2 ^ s := by
    zify
    rw [Int.toNat_of_nonneg hi, Int.toNat_of_nonneg (by positivity)]
  have hfield : (i % 2 ^ k).toNat * 2 ^ s + x.toNat % 2 ^ s < 2 ^ (s + k) := by
    have hmod := Nat.mod_lt x.toNat (Nat.two_pow_pos s)
    calc (i % 2 ^ k).toNat * 2 ^ s + x.toNat % 2 ^ s
        < (i % 2 ^ k).toNat * 2 ^ s + 2 ^ s := Nat.add_lt_add_left hmod _
      _ = ((i % 2 ^ k).toNat + 1) * 2 ^ s := by rw [Nat.add_mul, Nat.one_mul]
      _ ≤ 2 ^ k * 2 ^ s := Nat.mul_le_mul_right _ hlt
      _ = 2 ^ (s + k) := by rw [← Nat.pow_add, Nat.add_comm]
  rw [toNat_add_ofInt (by positivity), toNat_keep h, hnat]
  · omega
  · rw [toNat_keep h, hnat]
    omega

/-- The bits outside the field stay. -/
theorem testBit_setField (h : s + k ≤ 8) (x : UInt8) (i : Int) {b : Nat} (hb : b < s ∨ s + k ≤ b) :
    ((x &&& keepMask s k) + UInt8.ofInt (i % 2 ^ k * 2 ^ s)).toNat.testBit b = x.toNat.testBit b := by
  have hlow := Nat.mod_lt x.toNat (Nat.two_pow_pos s)
  have hlt := toNat_emod_lt i k
  have hfield : 2 ^ s * (i % 2 ^ k).toNat + x.toNat % 2 ^ s < 2 ^ (s + k) := by
    rw [Nat.add_comm s k, Nat.pow_add]
    exact Nat.mul_add_lt_mul_of_lt_of_lt hlt hlow
  rw [toNat_setField h, Nat.add_assoc, Nat.mul_comm, Nat.mul_comm _ (2 ^ s),
    Nat.two_pow_add_eq_or_of_lt hfield, Nat.two_pow_add_eq_or_of_lt hlow, Nat.testBit_or,
    Nat.testBit_or, Nat.testBit_two_pow_mul, Nat.testBit_two_pow_mul, Nat.testBit_mod_two_pow,
    Nat.testBit_div_two_pow]
  rcases hb with hb | hb
  · have h1 : ¬ s + k ≤ b := by omega
    have h2 : ¬ s ≤ b := by omega
    simp [h1, h2, hb]
  · have h1 : ¬ b < s := by omega
    have h2 : (i % 2 ^ k).toNat.testBit (b - s) = false :=
      Nat.testBit_lt_two_pow (hlt.trans_le (Nat.pow_le_pow_right (by decide) (by omega)))
    simp [h1, h2, hb]

end VdCamera.Misc
