import Mathlib.Data.Nat.Bitwise
import Mathlib.Logic.Function.Iterate
import Mathlib.Tactic.Common

/-!
# Cyclic redundancy checks

A remainder of `w` bits into which a message goes bit by bit, the low end first. With a polynomial whose
last coefficient is not zero no step forgets anything, so that two messages which differ nowhere but in
`w` bits that stand together have different remainders.
-/

namespace VdCamera.Misc

variable {w : Nat} (poly : BitVec w) {x y : BitVec w} {b : Bool} {bits bits' : List Bool}

/-- The remainder goes one place down. -/
def crcShift (crc : BitVec w) : BitVec w :=
  if crc.getLsbD 0 then (crc >>> 1) ^^^ poly else crc >>> 1

/-- A bit of the message goes in. -/
def crcBit (crc : BitVec w) (b : Bool) : BitVec w := crcShift poly (crc ^^^ (BitVec.ofBool b).setWidth w)

def crcBits (crc : BitVec w) (bits : List Bool) : BitVec w := bits.foldl (crcBit poly) crc

/-- The bits as a number, the first one lowest. -/
def packed (w : Nat) : List Bool → BitVec w
  | [] => 0
  | b :: bits => (BitVec.ofBool b).setWidth w ^^^ packed w bits <<< 1

/-! ## Shifts -/

theorem crcShift_xor (x y : BitVec w) : crcShift poly (x ^^^ y) = crcShift poly x ^^^ crcShift poly y := by
  have hcancel (a b : BitVec w) : a ^^^ b = a ^^^ poly ^^^ (b ^^^ poly) := by
    rw [BitVec.xor_comm b, ← BitVec.xor_assoc, BitVec.xor_assoc a, BitVec.xor_self, BitVec.xor_zero]
  unfold crcShift
  rw [BitVec.getLsbD_xor, BitVec.ushiftRight_xor_distrib]
  cases x.getLsbD 0 <;> cases y.getLsbD 0
  · rfl
  · exact BitVec.xor_assoc ..
  · show (x >>> 1 ^^^ y >>> 1) ^^^ poly = (x >>> 1 ^^^ poly) ^^^ y >>> 1
    rw [BitVec.xor_assoc, BitVec.xor_comm (y >>> 1), ← BitVec.xor_assoc]
  · exact hcancel ..

theorem crcShift_iterate_xor (k : Nat) (x y : BitVec w) :
    (crcShift poly)^[k] (x ^^^ y) = (crcShift poly)^[k] x ^^^ (crcShift poly)^[k] y := by
  induction k generalizing x y with
  | zero => rfl
  | succ k ih => rw [Function.iterate_succ_apply, Function.iterate_succ_apply,
      Function.iterate_succ_apply, crcShift_xor, ih]

/-- The shift as arithmetic on numbers, on which tables are computed fast. -/
theorem toNat_crcShift (x : BitVec w) :
    (crcShift poly x).toNat = x.toNat / 2 ^^^ x.toNat % 2 * poly.toNat := by
  have hlow : x.getLsbD 0 = decide (x.toNat % 2 = 1) := by rw [BitVec.getLsbD, Nat.testBit_zero]
  rw [crcShift, hlow]
  obtain h | h := Nat.mod_two_eq_zero_or_one x.toNat
  · simp [h, Nat.shiftRight_one]
  · simp [h, Nat.shiftRight_one]

theorem toNat_crcShift_iterate (k : Nat) (x : BitVec w) :
    ((crcShift poly)^[k] x).toNat = (fun n => n / 2 ^^^ n % 2 * poly.toNat)^[k] x.toNat := by
  have hconj : Function.Semiconj BitVec.toNat (crcShift poly)
      (fun n => n / 2 ^^^ n % 2 * poly.toNat) := toNat_crcShift poly
  exact hconj.iterate_right k x

/-- Nothing comes back in where nothing goes out. -/
theorem crcShift_shiftLeft (h : x.getLsbD (w - 1) = false) : crcShift poly (x <<< 1) = x := by
  have hlow : (x <<< 1).getLsbD 0 = false := by simp
  rw [crcShift, hlow, if_neg (by decide)]
  apply BitVec.eq_of_getLsbD_eq
  intro i hi
  rw [BitVec.getLsbD_ushiftRight, BitVec.getLsbD_shiftLeft]
  by_cases hlast : 1 + i < w
  · simp [hlast]
  · obtain rfl : i = w - 1 := by omega
    simp [hlast, h]

theorem crcShift_iterate_shiftLeft (k : Nat) (h : ∀ i, w - k ≤ i → x.getLsbD i = false) :
    (crcShift poly)^[k] (x <<< k) = x := by
  induction k with
  | zero => exact BitVec.shiftLeft_zero x
  | succ k ih =>
    have hout : (x <<< k).getLsbD (w - 1) = false := by
      rw [BitVec.getLsbD_shiftLeft, h (w - 1 - k) (by omega), Bool.and_false]
    rw [Function.iterate_succ_apply, BitVec.shiftLeft_add, crcShift_shiftLeft poly hout]
    exact ih fun i hi => h i (by omega)

/-- What a number of shifts does: the low end is looked up, the rest moves down. -/
theorem crcShift_iterate (k : Nat) (x : BitVec w) :
    (crcShift poly)^[k] x = (crcShift poly)^[k] ((x.setWidth k).setWidth w) ^^^ x >>> k := by
  have hparts : x = (x.setWidth k).setWidth w ^^^ (x >>> k) <<< k := by
    apply BitVec.eq_of_getLsbD_eq
    intro i hi
    simp only [BitVec.getLsbD_xor, BitVec.getLsbD_setWidth, BitVec.getLsbD_shiftLeft,
      BitVec.getLsbD_ushiftRight]
    by_cases hik : i < k
    · simp [hi, hik]
    · simp [hi, hik, show k + (i - k) = i by omega]
  have hhigh : ∀ i, w - k ≤ i → (x >>> k).getLsbD i = false := by
    intro i hi
    rw [BitVec.getLsbD_ushiftRight]
    exact BitVec.getLsbD_of_ge x _ (by omega)
  conv_lhs => rw [hparts]
  rw [crcShift_iterate_xor, crcShift_iterate_shiftLeft poly k hhigh]

variable {poly}

/-- A polynomial whose last coefficient is not zero: the place at the high end says what went out. -/
theorem crcShift_eq_zero (hpoly : poly.getLsbD (w - 1) = true) (h : crcShift poly x = 0) : x = 0 := by
  have hout : x.getLsbD 0 = false := by
    by_contra hlow
    rw [crcShift, if_pos (by simpa using hlow)] at h
    have hlast := congrArg (fun y => y.getLsbD (w - 1)) h
    have hw : w ≠ 0 := by
      rintro rfl
      simp at hpoly
    have hzero : x.getLsbD (1 + (w - 1)) = false := BitVec.getLsbD_of_ge x _ (by omega)
    simp only [BitVec.getLsbD_xor, BitVec.getLsbD_ushiftRight, hpoly, hzero] at hlast
    simp at hlast
  rw [crcShift, hout, if_neg (by decide)] at h
  apply BitVec.eq_of_getLsbD_eq
  intro i hi
  cases i with
  | zero => simpa using hout
  | succ i =>
    have hplace := congrArg (fun y => y.getLsbD i) h
    rw [BitVec.getLsbD_ushiftRight, Nat.add_comm] at hplace
    simpa using hplace

theorem crcShift_injective (hpoly : poly.getLsbD (w - 1) = true) :
    Function.Injective (crcShift poly) := by
  intro x y hxy
  have hzero : crcShift poly (x ^^^ y) = 0 := by
    rw [crcShift_xor, hxy]
    exact BitVec.xor_self
  exact BitVec.xor_eq_zero_iff.mp (crcShift_eq_zero hpoly hzero)

/-! ## Messages -/

theorem getLsbD_packed (bits : List Bool) {i : Nat} (hi : i < w) :
    (packed w bits).getLsbD i = bits[i]?.getD false := by
  induction bits generalizing i with
  | nil => simp [packed]
  | cons b bits ih =>
    rw [packed, BitVec.getLsbD_xor, BitVec.getLsbD_setWidth, BitVec.getLsbD_shiftLeft]
    cases i with
    | zero => simp [hi]
    | succ i => simp [hi, ih (show i < w by omega)]

/-- What goes in step by step may as well be there from the start. -/
theorem crcBits_eq (bits : List Bool) (hlen : bits.length ≤ w) (crc : BitVec w) :
    crcBits poly crc bits = (crcShift poly)^[bits.length] (crc ^^^ packed w bits) := by
  induction bits generalizing crc with
  | nil => exact BitVec.xor_zero.symm
  | cons b bits ih =>
    rw [List.length_cons] at hlen
    have hlast : (packed w bits).getLsbD (w - 1) = false := by
      rw [getLsbD_packed bits (by omega), List.getElem?_eq_none (by omega), Option.getD_none]
    rw [List.length_cons, Function.iterate_succ_apply, packed, ← BitVec.xor_assoc, crcShift_xor,
      crcShift_shiftLeft poly hlast]
    exact ih (by omega) _

theorem packed_injective (hlen : bits.length = bits'.length) (hw : bits.length ≤ w)
    (h : packed w bits = packed w bits') : bits = bits' := by
  refine List.ext_getElem hlen fun i hi hi' => ?_
  have hplace := congrArg (fun x => x.getLsbD i) h
  simp only [getLsbD_packed _ (show i < w by omega)] at hplace
  simpa [hi, hi'] using hplace

theorem crcBits_append (crc : BitVec w) (bits bits' : List Bool) :
    crcBits poly crc (bits ++ bits') = crcBits poly (crcBits poly crc bits) bits' :=
  List.foldl_append

/-- Remainders that differ go on to differ. -/
theorem crcBits_injective (hpoly : poly.getLsbD (w - 1) = true) (bits : List Bool)
    (h : crcBits poly x bits = crcBits poly y bits) : x = y := by
  induction bits generalizing x y with
  | nil => exact h
  | cons b bits ih => exact (BitVec.xor_left_inj _).mp (crcShift_injective hpoly (ih h))

/-- Two messages that differ nowhere but in `w` bits that stand together have different remainders. -/
theorem crcBits_burst (hpoly : poly.getLsbD (w - 1) = true) (hlen : bits.length = bits'.length)
    (hw : bits.length ≤ w) (crc : BitVec w) (before after : List Bool)
    (h : crcBits poly crc (before ++ bits ++ after) = crcBits poly crc (before ++ bits' ++ after)) :
    bits = bits' := by
  rw [crcBits_append, crcBits_append, crcBits_append, crcBits_append] at h
  have hmid := crcBits_injective hpoly after h
  rw [crcBits_eq bits hw, crcBits_eq bits' (hlen ▸ hw), hlen] at hmid
  have hpacked := (crcShift_injective hpoly).iterate _ hmid
  exact packed_injective hlen hw ((BitVec.xor_right_inj _).mp hpacked)

/-- The bits of a byte, the low end first. -/
def byteBits (b : UInt8) : List Bool := List.ofFn fun i : Fin 8 => b.toBitVec.getLsbD i

theorem packed_byteBits (b : UInt8) : packed w (byteBits b) = b.toBitVec.setWidth w := by
  apply BitVec.eq_of_getLsbD_eq
  intro i hi
  rw [getLsbD_packed _ hi, BitVec.getLsbD_setWidth]
  by_cases h8 : i < 8
  · rw [byteBits, List.getElem?_ofFn, dif_pos h8]
    simp [hi]
  · simp [byteBits, h8, BitVec.getLsbD_of_ge b.toBitVec i (by omega)]

/-- A byte goes in at once. -/
theorem crcBits_byteBits (hw : 8 ≤ w) (crc : BitVec w) (b : UInt8) :
    crcBits poly crc (byteBits b) = (crcShift poly)^[8] (crc ^^^ b.toBitVec.setWidth w) := by
  have hlen : (byteBits b).length = 8 := List.length_ofFn
  rw [crcBits_eq _ (hlen ▸ hw), hlen, packed_byteBits]

end VdCamera.Misc
