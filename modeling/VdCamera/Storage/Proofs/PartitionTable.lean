import Mathlib.Algebra.BigOperators.Fin
import VdCamera.Storage.PartitionTable

/-!
# Partitions that fit on their disk

The sizes are right for every disk whose size in MB has a place in 32 bits; only of a larger one, which
`disk_check_size` takes for a smaller one, they are cut.
-/

namespace VdCamera.Storage

variable {disk : Int} {size : UInt64} {i : Nat}

/-! ## The numbers without a bound -/

theorem partitionNum_cases (disk : Int) : partitionNum disk = 2 ∨ partitionNum disk = 4 := by
  unfold partitionNum
  split
  · exact .inl rfl
  · exact .inr rfl

theorem toNat_megabytes (size : UInt64) :
    (megabytes size).toNat = size.toNat / 1000000 % 2 ^ 32 := by
  rw [megabytes, UInt64.toNat_toUInt32, UInt64.toNat_div]
  rfl

/-- A disk that passes has at least 2000 MB, and not more than 2600000 unless its size in MB is cut. -/
theorem bounds_of_suitable (h : diskCheckSize size = .suitable) :
    2000000000 ≤ size.toNat ∧ (size.toNat / 1000000 < 2 ^ 32 → size.toNat < 2600001000000) := by
  unfold diskCheckSize at h
  split at h
  · cases h
  · next hmin =>
    split at h
    · cases h
    · next hmax =>
      rw [UInt32.lt_iff_toNat_lt, toNat_megabytes] at hmin
      rw [gt_iff_lt, UInt32.lt_iff_toNat_lt, toNat_megabytes] at hmax
      have hminVal : DISK_MIN_SIZE.toNat = 2000 := rfl
      have hmaxVal : DISK_MAX_SIZE.toNat = 2600000 := rfl
      omega

theorem toNat_total (size : UInt64) : (size >>> 9).toNat = size.toNat / 512 := by
  rw [UInt64.toNat_shiftRight, Nat.shiftRight_eq_div_pow]
  rfl

theorem toNat_usableSectors (h : 2048 ≤ size.toNat / 512) :
    (usableSectors size).toNat = size.toNat / 512 - 2048 := by
  rw [usableSectors, UInt64.toNat_sub_of_le, toNat_total]
  · rfl
  · rw [UInt64.le_iff_toNat_le, toNat_total]
    exact h

theorem toNat_partitionSectors (disk : Int) (size : UInt64) :
    (partitionSectors disk size).toNat
      = (usableSectors size).toNat / partitionNum disk / 512 * 512 := by
  have hlt := (usableSectors size).toNat_lt
  have hnum : (partitionNum disk).toUInt64.toNat = partitionNum disk := by
    rcases partitionNum_cases disk with h | h <;> rw [h] <;> rfl
  rw [partitionSectors, UInt64.toNat_shiftLeft, UInt64.toNat_shiftRight, UInt64.toNat_div, hnum,
    Nat.shiftLeft_eq, Nat.shiftRight_eq_div_pow]
  change (usableSectors size).toNat / partitionNum disk / 512 * 512 % 2 ^ 64 = _
  have hle : (usableSectors size).toNat / partitionNum disk ≤ (usableSectors size).toNat :=
    Nat.div_le_self _ _
  omega

/-- The sectors of the partitions but the last, and of the last. -/
theorem partitionSectors_mul_le (disk : Int) (size : UInt64) :
    (partitionSectors disk size).toNat * partitionNum disk ≤ (usableSectors size).toNat := by
  rw [toNat_partitionSectors]
  rcases partitionNum_cases disk with h | h <;> rw [h] <;> omega

theorem toNat_entrySectors (hi : i < partitionNum disk) : (entrySectors disk size i).toNat
    = if i = partitionNum disk - 1 then
        (usableSectors size).toNat - (partitionSectors disk size).toNat * i
      else (partitionSectors disk size).toNat := by
  have hmul := partitionSectors_mul_le disk size
  have hlt := (usableSectors size).toNat_lt
  unfold entrySectors
  split
  · next hlast =>
    have hnat : i.toUInt64.toNat = i := by
      rcases partitionNum_cases disk with h | h <;> rw [h] at hlast <;> rw [hlast] <;> rfl
    have hle : (partitionSectors disk size).toNat * i ≤ (usableSectors size).toNat :=
      (Nat.mul_le_mul_left _ hi.le).trans hmul
    have hprod : (partitionSectors disk size * i.toUInt64).toNat
        = (partitionSectors disk size).toNat * i := by
      rw [UInt64.toNat_mul, hnat]
      exact Nat.mod_eq_of_lt (hle.trans_lt hlt)
    rw [UInt64.toNat_sub_of_le, hprod]
    rw [UInt64.le_iff_toNat_le, hprod]
    exact hle
  · rfl

/-! ## The table -/

/-- The table of a disk is right, and the partitions that the script is asked for are those of the
table. -/
structure TableOk (disk : Int) (size : UInt64) : Prop where
  noUnderflow : 2048 ≤ (size >>> 9).toNat ∧ 1 ≤ (partitionSectors disk size).toNat
    ∧ ∀ i < partitionNum disk,
      (partitionSectors disk size).toNat * i ≤ (usableSectors size).toNat
  noTruncation : ∀ i < partitionNum disk,
    (entrySectors disk size i).toUInt32.toNat = (entrySectors disk size i).toNat
  table : ∃ table, partitionTableShouldBe disk size = some table
    ∧ (∀ i, i.val < partitionNum disk → 0 < (table i).sectorsNum)
    ∧ ∑ i, (table i).sectorsNum.toNat = (size >>> 9).toNat - 2048
    ∧ (∀ i, i.val + 1 < partitionNum disk →
      (table i).sectorsNum = (table 0).sectorsNum ∧ 512 ∣ (table i).sectorsNum.toNat)
    ∧ (∀ i, i.val + 1 = partitionNum disk → (table 0).sectorsNum ≤ (table i).sectorsNum)
    ∧ ∀ i, i.val < partitionNum disk → (scriptPartition disk size i.val).1
        + (table i).sectorsNum.toNat = (scriptPartition disk size i.val).2 + 1
      ∧ (scriptPartition disk size i.val).2 < (size >>> 9).toNat
      ∧ (i.val + 1 < partitionNum disk → (scriptPartition disk size (i.val + 1)).1
        = (scriptPartition disk size i.val).2 + 1)

/-- The partition `i` as the script makes it. -/
theorem scriptPartition_eq (h : 1 ≤ (partitionSectors disk size).toNat) (i : Nat) :
    scriptPartition disk size i = (2048 + i * (partitionSectors disk size).toNat,
      if i = partitionNum disk - 1 then (size >>> 9).toNat - 1
      else 2048 + i * (partitionSectors disk size).toNat + ((partitionSectors disk size).toNat - 1)) := by
  have harg : (argvSectors disk size).toNat = (partitionSectors disk size).toNat - 1 := by
    rw [argvSectors, UInt64.toNat_sub_of_le]
    · rfl
    · rw [UInt64.le_iff_toNat_le]
      exact h
  rw [scriptPartition, harg, Nat.sub_add_cancel h]

/-- The entries before they are cut. -/
theorem entrySectors_bounds (hmin : 2000000000 ≤ size.toNat) (hi : i < partitionNum disk) :
    1 ≤ (partitionSectors disk size).toNat ∧ 512 ∣ (partitionSectors disk size).toNat
      ∧ (partitionSectors disk size).toNat ≤ (entrySectors disk size i).toNat
      ∧ (entrySectors disk size i).toNat
        ≤ (partitionSectors disk size).toNat + 512 * partitionNum disk + partitionNum disk := by
  have husable := toNat_usableSectors (show 2048 ≤ size.toNat / 512 by omega)
  have hsectors := toNat_partitionSectors disk size
  have hle := partitionSectors_mul_le disk size
  rw [toNat_entrySectors hi]
  refine ⟨?_, ?_, ?_⟩
  · rcases partitionNum_cases disk with h | h <;> rw [h] at hsectors <;> omega
  · rw [hsectors]
    exact Nat.dvd_mul_left _ _
  · split
    · next hlast =>
      rcases partitionNum_cases disk with h | h <;> rw [h] at hsectors hle hlast ⊢ <;> subst hlast <;>
        omega
    · omega

/-- The table of a disk whose size in MB is not cut. -/
theorem tableOk_of_lt (hdisk : whichDisk disk = true) (hmin : 2000000000 ≤ size.toNat)
    (hmax : size.toNat < 2600001000000) : TableOk disk size := by
  have husable := toNat_usableSectors (show 2048 ≤ size.toNat / 512 by omega)
  have hsectors := toNat_partitionSectors disk size
  have htotal := toNat_total size
  have hmul := partitionSectors_mul_le disk size
  have hnum := partitionNum_cases disk
  have hpos : 1 ≤ (partitionSectors disk size).toNat :=
    (entrySectors_bounds (i := 0) hmin (show 0 < partitionNum disk by omega)).1
  have hentry : ∀ i < partitionNum disk, (entrySectors disk size i).toUInt32.toNat
      = (entrySectors disk size i).toNat := by
    intro i hi
    obtain ⟨_, _, _, hle⟩ := entrySectors_bounds hmin hi
    rw [UInt64.toNat_toUInt32]
    apply Nat.mod_eq_of_lt
    rcases hnum with h | h <;> rw [h] at hle hsectors <;> omega
  refine ⟨⟨by omega, hpos, fun i hi => (Nat.mul_le_mul_left _ hi.le).trans hmul⟩, hentry, ?_⟩
  have hval : ∀ i : Fin MBR_PARTITION_NUM,
      (if i.val < partitionNum disk then
        { type := LINUX_NATIVE, sectorsNum := (entrySectors disk size i.val).toUInt32 }
        else {} : PartitionEntry).sectorsNum.toNat
      = if i.val < partitionNum disk then
          if i.val = partitionNum disk - 1 then
            (usableSectors size).toNat - (partitionSectors disk size).toNat * i.val
          else (partitionSectors disk size).toNat
        else 0 := by
    intro i
    by_cases hi : i.val < partitionNum disk
    · rw [if_pos hi, if_pos hi, ← toNat_entrySectors hi]
      exact hentry i.val hi
    · rw [if_neg hi, if_neg hi]
      rfl
  refine ⟨_, if_pos hdisk, fun i hi => ?_, ?_, fun i hi => ?_, fun i hi => ?_, fun i hi => ?_⟩
  · obtain ⟨h1, _, hle, _⟩ := entrySectors_bounds hmin hi
    rw [if_pos hi, UInt32.lt_iff_toNat_lt, hentry i.val hi]
    exact Nat.lt_of_lt_of_le h1 hle
  · have h0 : (0 : Fin MBR_PARTITION_NUM).val = 0 := rfl
    have h1 : (1 : Fin MBR_PARTITION_NUM).val = 1 := rfl
    have h2 : (2 : Fin MBR_PARTITION_NUM).val = 2 := rfl
    have h3 : (3 : Fin MBR_PARTITION_NUM).val = 3 := rfl
    rw [Finset.sum_congr rfl fun i _ => hval i, Fin.sum_univ_four, h0, h1, h2, h3, htotal, ← husable]
    rcases hnum with h | h <;> rw [h] at hmul ⊢ <;> simp <;> omega
  · have hdvd := (entrySectors_bounds (i := 0) hmin (show 0 < partitionNum disk by omega)).2.1
    have hi' : i.val ≠ partitionNum disk - 1 := by omega
    have h0 : (0 : Fin MBR_PARTITION_NUM).val ≠ partitionNum disk - 1 := by
      change 0 ≠ _
      omega
    rw [← UInt32.toNat_inj, hval i, hval 0, if_pos (show i.val < partitionNum disk by omega), if_neg hi',
      if_pos (show (0 : Fin MBR_PARTITION_NUM).val < partitionNum disk by change 0 < _; omega), if_neg h0]
    exact ⟨rfl, hdvd⟩
  · have h0 : (0 : Fin MBR_PARTITION_NUM).val ≠ partitionNum disk - 1 := by
      change 0 ≠ _
      omega
    rw [UInt32.le_iff_toNat_le, hval i, hval 0, if_pos (show i.val < partitionNum disk by omega),
      if_pos (show i.val = partitionNum disk - 1 by omega),
      if_pos (show (0 : Fin MBR_PARTITION_NUM).val < partitionNum disk by change 0 < _; omega), if_neg h0]
    have hlast : i.val = partitionNum disk - 1 := by omega
    rcases hnum with h | h <;> rw [h] at hmul hlast <;> rw [hlast] <;> omega
  · rw [hval i, if_pos hi, scriptPartition_eq hpos, scriptPartition_eq hpos]
    dsimp only
    by_cases hlast : i.val = partitionNum disk - 1
    · rw [if_pos hlast, if_pos hlast]
      rcases hnum with h | h <;> rw [h] at hmul hlast ⊢ <;> rw [hlast] <;> omega
    · rw [if_neg hlast, if_neg hlast]
      have hcases : i.val = 0 ∨ i.val = 1 ∨ i.val = 2 := by omega
      rcases hcases with h | h | h <;> rcases hnum with h' | h' <;> rw [h] at hlast ⊢ <;>
        rw [h'] at hmul hlast <;> omega

/-- Of a larger disk that passes, the entries are cut. -/
theorem not_tableOk_of_le (hmax : 2 ^ 32 * 1000000 ≤ size.toNat) : ¬ TableOk disk size := by
  intro h
  have hnum := partitionNum_cases disk
  have hzero : 0 < partitionNum disk := by omega
  have hcut := h.noTruncation 0 hzero
  have hle := (entrySectors_bounds (show 2000000000 ≤ size.toNat by omega) hzero).2.2.1
  have husable := toNat_usableSectors (show 2048 ≤ size.toNat / 512 by omega)
  have hsectors := toNat_partitionSectors disk size
  have hlt := (entrySectors disk size 0).toUInt32.toNat_lt
  rcases hnum with h | h <;> rw [h] at hsectors <;> omega

/-- The table of a disk that passes the check is right exactly when the size in MB has a place in 32
bits. -/
theorem partition_table_ok (hdisk : whichDisk disk = true) (hsize : diskCheckSize size = .suitable) :
    TableOk disk size ↔ size.toNat < 2 ^ 32 * 1000000 := by
  obtain ⟨hmin, hmax⟩ := bounds_of_suitable hsize
  constructor
  · intro h
    by_contra hle
    exact not_tableOk_of_le (Nat.not_lt.mp hle) h
  · intro hlt
    exact tableOk_of_lt hdisk hmin (hmax (by omega))

theorem partition_table_ok_card : TableOk DISK_IS_MMC 2000000000
    ↔ (2000000000 : UInt64).toNat < 2 ^ 32 * 1000000 :=
  partition_table_ok (by decide) (by decide)

/-- A disk of 2^32 + 2000 MB passes as one of 2000 MB. -/
theorem not_partition_table_ok :
    diskCheckSize 4294969296000000 = .suitable ∧ ¬ TableOk 0 4294969296000000 :=
  ⟨by decide, not_tableOk_of_le (by decide)⟩

end VdCamera.Storage
