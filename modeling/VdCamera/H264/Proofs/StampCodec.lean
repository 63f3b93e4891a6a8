import VdCamera.H264.PsStream
import VdCamera.Misc.ByteField

/-!
# The bytes of a timestamp

What the functions that set a timestamp write into its five bytes, field by field, and that the
functions that read one get it back.
-/

namespace VdCamera.H264

open Misc

variable {m : Mem} {p q : Nat} {ts : Int}

@[simp] theorem Mem.set_self (m : Mem) (i : Nat) (v : UInt8) : m.set i v i = v := if_pos rfl

@[simp] theorem Mem.set_of_ne {i j : Nat} (h : j ≠ i) (m : Mem) (v : UInt8) : m.set i v j = m j :=
  if_neg h

theorem ediv_pow_ediv_pow (ts : Int) (a b : Nat) : ts / 2 ^ a / 2 ^ b = ts / 2 ^ (a + b) := by
  rw [Int.ediv_ediv_of_nonneg (by positivity), Int.pow_add]

/-! ## PES headers -/

theorem setTimestampPES_outside (m : Mem) (ts : Int) (h : q < p ∨ p + 5 ≤ q) :
    setTimestampPES m p ts q = m q := by
  unfold setTimestampPES
  repeat rw [Mem.set_of_ne (by omega)]

/-- The bytes that are set. -/
theorem setTimestampPES_eq (m : Mem) (p : Nat) (ts : Int) :
    setTimestampPES m p ts p
        = (m p &&& keepMask 1 3) + UInt8.ofInt (ts / 2 ^ 30 % 2 ^ 3 * 2 ^ 1)
      ∧ setTimestampPES m p ts (p + 1) = UInt8.ofInt (ts / 2 ^ 22 % 2 ^ 8)
      ∧ setTimestampPES m p ts (p + 2)
        = (m (p + 2) &&& keepMask 1 7) + UInt8.ofInt (ts / 2 ^ 15 % 2 ^ 7 * 2 ^ 1)
      ∧ setTimestampPES m p ts (p + 3) = UInt8.ofInt (ts / 2 ^ 7 % 2 ^ 8)
      ∧ setTimestampPES m p ts (p + 4)
        = (m (p + 4) &&& keepMask 1 7) + UInt8.ofInt (ts % 2 ^ 7 * 2 ^ 1) := by
  have h15 : ts / 2 ^ 7 / 2 ^ 8 = ts / 2 ^ 15 := ediv_pow_ediv_pow ts 7 8
  have h22 : ts / 2 ^ 15 / 2 ^ 7 = ts / 2 ^ 22 := ediv_pow_ediv_pow ts 15 7
  have h30 : ts / 2 ^ 22 / 2 ^ 8 = ts / 2 ^ 30 := ediv_pow_ediv_pow ts 22 8
  rw [← h30, ← h22, ← h15]
  refine ⟨?_, ?_, ?_, ?_, ?_⟩
  · simp [setTimestampPES, Mem.set]
    rfl
  · simp [setTimestampPES, Mem.set]
  · simp [setTimestampPES, Mem.set]
    rfl
  · simp [setTimestampPES, Mem.set]
  · simp [setTimestampPES, Mem.set]
    rfl

/-- The bytes as numbers. -/
theorem setTimestampPES_bytes (m : Mem) (p : Nat) (ts : Int) :
    (setTimestampPES m p ts p).toNat
        = (m p).toNat / 16 * 16 + (ts / 2 ^ 30 % 8).toNat * 2 + (m p).toNat % 2
      ∧ (setTimestampPES m p ts (p + 1)).toNat = (ts / 2 ^ 22 % 256).toNat
      ∧ (setTimestampPES m p ts (p + 2)).toNat
        = (ts / 2 ^ 15 % 128).toNat * 2 + (m (p + 2)).toNat % 2
      ∧ (setTimestampPES m p ts (p + 3)).toNat = (ts / 2 ^ 7 % 256).toNat
      ∧ (setTimestampPES m p ts (p + 4)).toNat = (ts % 128).toNat * 2 + (m (p + 4)).toNat % 2 := by
  obtain ⟨b0, b1, b2, b3, b4⟩ := setTimestampPES_eq m p ts
  have hlow : ∀ x : UInt8, x.toNat / 2 ^ (1 + 7) * 2 ^ (1 + 7) = 0 := fun x => by
    rw [Nat.div_eq_of_lt x.toNat_lt, Nat.zero_mul]
  refine ⟨?_, ?_, ?_, ?_, ?_⟩
  · rw [b0, toNat_setField (by decide)]
    rfl
  · rw [b1, toNat_ofInt_of_lt (by omega) (by omega)]
    rfl
  · rw [b2, toNat_setField (by decide), hlow, Nat.zero_add]
    rfl
  · rw [b3, toNat_ofInt_of_lt (by omega) (by omega)]
    rfl
  · rw [b4, toNat_setField (by decide), hlow, Nat.zero_add]
    rfl

theorem toNat_field_0e (x : UInt8) : ((x &&& 0x0E) >>> 1).toNat = x.toNat / 2 % 8 := by
  have h := @toNat_field 1 3 (by decide) (by decide) x
  rwa [show fieldMask 1 3 = 0x0E from rfl, show UInt8.ofNat 1 = 1 from rfl] at h

theorem toNat_field_fe (x : UInt8) : ((x &&& 0xfe) >>> 1).toNat = x.toNat / 2 := by
  have h := @toNat_field 1 7 (by decide) (by decide) x
  have hx := x.toNat_lt
  rw [show fieldMask 1 7 = 0xfe from rfl, show UInt8.ofNat 1 = 1 from rfl] at h
  omega

/-- A timestamp of 33 bits as it is read from a PES header. -/
theorem getTimestampPES_eq (m : Mem) (p : Nat) : h264GetTimestampPESheader m p =
    (((((m p).toNat / 2 % 8 * 256 + (m (p + 1)).toNat) * 128 + (m (p + 2)).toNat / 2) * 256
      + (m (p + 3)).toNat) * 128 + (m (p + 4)).toNat / 2 : Nat) := by
  rw [← toNat_field_0e, ← toNat_field_fe, ← toNat_field_fe]
  rfl

/-- The five fields of a number of 33 bits make it up. -/
theorem fields_PES (t : Nat) :
    (((t / 2 ^ 30 * 256 + t / 2 ^ 22 % 256) * 128 + t / 2 ^ 15 % 128) * 256 + t / 2 ^ 7 % 256) * 128
      + t % 128 = t := by
  have h30 : t / 2 ^ 30 = t / 2 ^ 22 / 256 := (Nat.div_div_eq_div_mul t (2 ^ 22) 256).symm
  have h22 : t / 2 ^ 22 = t / 2 ^ 15 / 128 := (Nat.div_div_eq_div_mul t (2 ^ 15) 128).symm
  have h15 : t / 2 ^ 15 = t / 2 ^ 7 / 256 := (Nat.div_div_eq_div_mul t (2 ^ 7) 256).symm
  rw [h30, Nat.div_add_mod', h22, Nat.div_add_mod', h15, Nat.div_add_mod']
  exact Nat.div_add_mod' t 128

theorem toNat_emod (t a b : Nat) : ((t : Int) / 2 ^ a % b).toNat = t / 2 ^ a % b := by
  rw [← Int.toNat_natCast (t / 2 ^ a % b)]
  push_cast
  rfl

theorem getTimestampPES_setTimestampPES (m : Mem) (p : Nat) (h0 : 0 ≤ ts) (h : ts < 2 ^ 33) :
    h264GetTimestampPESheader (setTimestampPES m p ts) p = ts := by
  obtain ⟨t, rfl⟩ := Int.eq_ofNat_of_zero_le h0
  obtain ⟨b0, b1, b2, b3, b4⟩ := setTimestampPES_bytes m p t
  have hhigh : ∀ x a : Nat, a < 8 → (x / 16 * 16 + a * 2 + x % 2) / 2 % 8 = a := by omega
  have hlow : ∀ x a : Nat, (a * 2 + x % 2) / 2 = a := by omega
  have ht : t / 2 ^ 30 < 8 := Nat.div_lt_of_lt_mul (by omega)
  have h30 : ((t : Int) / 2 ^ 30 % 8).toNat = t / 2 ^ 30 :=
    (toNat_emod t 30 8).trans (Nat.mod_eq_of_lt ht)
  have h4 : ((t : Int) % 128).toNat = t % 128 := rfl
  rw [getTimestampPES_eq, b0, b1, b2, b3, b4, h30, hhigh _ _ ht, hlow, hlow, h4]
  exact congrArg Nat.cast (fields_PES t)

/-! ## Pack headers -/

theorem changeTimestampPack_outside (m : Mem) (ts : Int) (h : q < p ∨ p + 5 ≤ q) :
    h264ChangeTimestampPackheader m p ts q = m q := by
  unfold h264ChangeTimestampPackheader
  repeat rw [Mem.set_of_ne (by omega)]

/-- A byte in which two fields are set, one after the other. -/
theorem toNat_setField_two (x : UInt8) (i : Int) :
    ((x &&& keepMask 0 2) + UInt8.ofInt (i % 2 ^ 2)).toNat = x.toNat / 4 * 4 + (i % 4).toNat := by
  have h := @toNat_setField 0 2 (by decide) x i
  rw [Int.pow_zero, Int.mul_one] at h
  rw [h, Nat.pow_zero, Nat.mul_one, Nat.mod_one]
  rfl

/-- The bytes that are set. -/
theorem changeTimestampPack_eq (m : Mem) (p : Nat) (ts : Int) :
    h264ChangeTimestampPackheader m p ts p
        = (((m p &&& keepMask 0 2) + UInt8.ofInt (ts / 2 ^ 28 % 2 ^ 2)) &&& keepMask 3 3)
          + UInt8.ofInt (ts / 2 ^ 30 % 2 ^ 3 * 2 ^ 3)
      ∧ h264ChangeTimestampPackheader m p ts (p + 1) = UInt8.ofInt (ts / 2 ^ 20 % 2 ^ 8)
      ∧ h264ChangeTimestampPackheader m p ts (p + 2)
        = (((m (p + 2) &&& keepMask 0 2) + UInt8.ofInt (ts / 2 ^ 13 % 2 ^ 2)) &&& keepMask 3 5)
          + UInt8.ofInt (ts / 2 ^ 15 % 2 ^ 5 * 2 ^ 3)
      ∧ h264ChangeTimestampPackheader m p ts (p + 3) = UInt8.ofInt (ts / 2 ^ 5 % 2 ^ 8)
      ∧ h264ChangeTimestampPackheader m p ts (p + 4)
        = (m (p + 4) &&& keepMask 3 5) + UInt8.ofInt (ts % 2 ^ 5 * 2 ^ 3) := by
  have h13 : ts / 2 ^ 5 / 2 ^ 8 = ts / 2 ^ 13 := ediv_pow_ediv_pow ts 5 8
  have h15 : ts / 2 ^ 13 / 2 ^ 2 = ts / 2 ^ 15 := ediv_pow_ediv_pow ts 13 2
  have h20 : ts / 2 ^ 15 / 2 ^ 5 = ts / 2 ^ 20 := ediv_pow_ediv_pow ts 15 5
  have h28 : ts / 2 ^ 20 / 2 ^ 8 = ts / 2 ^ 28 := ediv_pow_ediv_pow ts 20 8
  have h30 : ts / 2 ^ 28 / 2 ^ 2 = ts / 2 ^ 30 := ediv_pow_ediv_pow ts 28 2
  rw [← h30, ← h28, ← h20, ← h15, ← h13]
  refine ⟨?_, ?_, ?_, ?_, ?_⟩
  · simp [h264ChangeTimestampPackheader, Mem.set]
    rfl
  · simp [h264ChangeTimestampPackheader, Mem.set]
  · simp [h264ChangeTimestampPackheader, Mem.set]
    rfl
  · simp [h264ChangeTimestampPackheader, Mem.set]
  · simp [h264ChangeTimestampPackheader, Mem.set]
    rfl

/-- The bytes as numbers. -/
theorem changeTimestampPack_bytes (m : Mem) (p : Nat) (ts : Int) :
    (h264ChangeTimestampPackheader m p ts p).toNat
        = (m p).toNat / 64 * 64 + (ts / 2 ^ 30 % 8).toNat * 8
          + ((m p).toNat / 4 % 2 * 4 + (ts / 2 ^ 28 % 4).toNat)
      ∧ (h264ChangeTimestampPackheader m p ts (p + 1)).toNat = (ts / 2 ^ 20 % 256).toNat
      ∧ (h264ChangeTimestampPackheader m p ts (p + 2)).toNat
        = (ts / 2 ^ 15 % 32).toNat * 8 + ((m (p + 2)).toNat / 4 % 2 * 4 + (ts / 2 ^ 13 % 4).toNat)
      ∧ (h264ChangeTimestampPackheader m p ts (p + 3)).toNat = (ts / 2 ^ 5 % 256).toNat
      ∧ (h264ChangeTimestampPackheader m p ts (p + 4)).toNat
        = (ts % 32).toNat * 8 + (m (p + 4)).toNat % 8 := by
  obtain ⟨b0, b1, b2, b3, b4⟩ := changeTimestampPack_eq m p ts
  have hsmall : ∀ x a : Nat, a < 4 → (x / 4 * 4 + a) % 8 = x / 4 % 2 * 4 + a := by omega
  have hhigh : ∀ x a : Nat, a < 4 → (x / 4 * 4 + a) / 64 = x / 64 := by omega
  have hlow : ∀ x : UInt8, x.toNat / 2 ^ (3 + 5) * 2 ^ (3 + 5) = 0 := fun x => by
    rw [Nat.div_eq_of_lt x.toNat_lt, Nat.zero_mul]
  have h28 : (ts / 2 ^ 28 % 4).toNat < 4 := by omega
  have h13 : (ts / 2 ^ 13 % 4).toNat < 4 := by omega
  refine ⟨?_, ?_, ?_, ?_, ?_⟩
  · rw [b0, toNat_setField (by decide), toNat_setField_two]
    show (_ + _) / 64 * 64 + _ * 8 + (_ + _) % 8 = _
    rw [hsmall _ _ h28, hhigh _ _ h28]
    rfl
  · rw [b1, toNat_ofInt_of_lt (by omega) (by omega)]
    rfl
  · rw [b2, toNat_setField (by decide), hlow, Nat.zero_add, toNat_setField_two]
    show _ * 8 + (_ + _) % 8 = _
    rw [hsmall _ _ h13]
    rfl
  · rw [b3, toNat_ofInt_of_lt (by omega) (by omega)]
    rfl
  · rw [b4, toNat_setField (by decide), hlow, Nat.zero_add]
    rfl

theorem toNat_field_38 (x : UInt8) : ((x &&& 0x38) >>> 3).toNat = x.toNat / 8 % 8 := by
  have h := @toNat_field 3 3 (by decide) (by decide) x
  rwa [show fieldMask 3 3 = 0x38 from rfl, show UInt8.ofNat 3 = 3 from rfl] at h

theorem toNat_field_f8 (x : UInt8) : ((x &&& 0xf8) >>> 3).toNat = x.toNat / 8 := by
  have h := @toNat_field 3 5 (by decide) (by decide) x
  have hx := x.toNat_lt
  rw [show fieldMask 3 5 = 0xf8 from rfl, show UInt8.ofNat 3 = 3 from rfl] at h
  omega

theorem toNat_field_03 (x : UInt8) : (x &&& 0x03).toNat = x.toNat % 4 := by
  have h := @toNat_field 0 2 (by decide) (by decide) x
  rwa [show fieldMask 0 2 = 0x03 from rfl, show UInt8.ofNat 0 = 0 from rfl, UInt8.shiftRight_zero,
    Nat.pow_zero, Nat.div_one] at h

/-- A timestamp of 33 bits as it is read from a pack header. -/
theorem getTimestampPack_eq (m : Mem) (p : Nat) : h264GetTimestampPackheader m p =
    (((((((m p).toNat / 8 % 8 * 4 + (m p).toNat % 4) * 256 + (m (p + 1)).toNat) * 32
      + (m (p + 2)).toNat / 8) * 4 + (m (p + 2)).toNat % 4) * 256 + (m (p + 3)).toNat) * 32
      + (m (p + 4)).toNat / 8 : Nat) := by
  rw [← toNat_field_38, ← toNat_field_03, ← toNat_field_f8, ← toNat_field_03, ← toNat_field_f8]
  rfl

/-- The seven fields of a number of 33 bits make it up. -/
theorem fields_pack (t : Nat) :
    ((((((t / 2 ^ 30 * 4 + t / 2 ^ 28 % 4) * 256 + t / 2 ^ 20 % 256) * 32 + t / 2 ^ 15 % 32) * 4
      + t / 2 ^ 13 % 4) * 256 + t / 2 ^ 5 % 256) * 32 + t % 32) = t := by
  have h30 : t / 2 ^ 30 = t / 2 ^ 28 / 4 := (Nat.div_div_eq_div_mul t (2 ^ 28) 4).symm
  have h28 : t / 2 ^ 28 = t / 2 ^ 20 / 256 := (Nat.div_div_eq_div_mul t (2 ^ 20) 256).symm
  have h20 : t / 2 ^ 20 = t / 2 ^ 15 / 32 := (Nat.div_div_eq_div_mul t (2 ^ 15) 32).symm
  have h15 : t / 2 ^ 15 = t / 2 ^ 13 / 4 := (Nat.div_div_eq_div_mul t (2 ^ 13) 4).symm
  have h13 : t / 2 ^ 13 = t / 2 ^ 5 / 256 := (Nat.div_div_eq_div_mul t (2 ^ 5) 256).symm
  rw [h30, Nat.div_add_mod', h28, Nat.div_add_mod', h20, Nat.div_add_mod', h15, Nat.div_add_mod', h13,
    Nat.div_add_mod']
  exact Nat.div_add_mod' t 32

theorem getTimestampPack_changeTimestampPack (m : Mem) (p : Nat) (h0 : 0 ≤ ts) (h : ts < 2 ^ 33) :
    h264GetTimestampPackheader (h264ChangeTimestampPackheader m p ts) p = ts := by
  obtain ⟨t, rfl⟩ := Int.eq_ofNat_of_zero_le h0
  obtain ⟨b0, b1, b2, b3, b4⟩ := changeTimestampPack_bytes m p t
  have hhigh : ∀ x a b : Nat, a < 8 → b < 4 →
      (x / 64 * 64 + a * 8 + (x / 4 % 2 * 4 + b)) / 8 % 8 = a
        ∧ (x / 64 * 64 + a * 8 + (x / 4 % 2 * 4 + b)) % 4 = b := by omega
  have hmid : ∀ x a b : Nat, b < 4 →
      (a * 8 + (x / 4 % 2 * 4 + b)) / 8 = a ∧ (a * 8 + (x / 4 % 2 * 4 + b)) % 4 = b := by omega
  have hlow : ∀ x a : Nat, (a * 8 + x % 8) / 8 = a := by omega
  have ht : t / 2 ^ 30 < 8 := Nat.div_lt_of_lt_mul (by omega)
  have h30 : ((t : Int) / 2 ^ 30 % 8).toNat = t / 2 ^ 30 :=
    (toNat_emod t 30 8).trans (Nat.mod_eq_of_lt ht)
  have h28 : ((t : Int) / 2 ^ 28 % 4).toNat < 4 := by omega
  have h13 : ((t : Int) / 2 ^ 13 % 4).toNat < 4 := by omega
  have h5 : ((t : Int) % 32).toNat = t % 32 := rfl
  obtain ⟨f0, f0'⟩ := hhigh (m p).toNat _ _ ht h28
  obtain ⟨f2, f2'⟩ := hmid (m (p + 2)).toNat ((t : Int) / 2 ^ 15 % 32).toNat _ h13
  rw [getTimestampPack_eq, b0, b1, b2, b3, b4, h30, f0, f0', f2, f2', hlow, h5]
  exact congrArg Nat.cast (fields_pack t)

end VdCamera.H264
