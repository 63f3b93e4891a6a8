import VdCamera.Misc.Crc
import VdCamera.Storage.Proofs.SuperBlock

/-!
# What the checksum of a descriptor finds

The table of `storage/crc16.cpp` does what shifts and exclusive ors do bit by bit. A descriptor that
`partition_sb_restore` has written does not agree with its checksum any more when bits of it change that
stand within sixteen.
-/

namespace VdCamera.Storage

open Misc

variable {buf buf' bak : Buffer} {group : Nat}

/-- `x^16 + x^15 + x^2 + 1`, the low end last. -/
abbrev crc16Poly : BitVec 16 := 0xA001

/-! ## The table -/

theorem crc16Table_toList : crc16Table.toList.map (fun x => x.toNat % 2 ^ 16)
    = (List.range 256).map (fun n => n / 2 ^^^ n % 2 * crc16Poly.toNat)^[8] := by decide +kernel

theorem crc16Table_eq (i : BitVec 8) :
    (crc16Table.getD i.toNat 0).toBitVec.setWidth 16 = (crcShift crc16Poly)^[8] (i.setWidth 16) := by
  have hentry := congrArg (·[i.toNat]?) crc16Table_toList
  simp only [List.getElem?_map, Array.getElem?_toList, List.getElem?_range i.isLt,
    Option.map_some] at hentry
  obtain ⟨x, hx, hrow⟩ := Option.map_eq_some_iff.mp hentry
  have hi : i.toNat < 2 ^ 16 := i.isLt.trans (by decide)
  apply BitVec.eq_of_toNat_eq
  rw [BitVec.toNat_setWidth, toNat_crcShift_iterate, BitVec.toNat_setWidth, Nat.mod_eq_of_lt hi,
    ← hrow, Array.getD_eq_getD_getElem?, hx]
  rfl

theorem crc16_index (crc : UInt32) (b : UInt8) :
    ((crc ^^^ b.toUInt32) &&& 0xff).toNat
      = ((crc.toBitVec.setWidth 16 ^^^ b.toBitVec.setWidth 16).setWidth 8).toNat := by
  have hmask : ((crc ^^^ b.toUInt32) &&& 0xff).toNat = (crc ^^^ b.toUInt32).toNat % 2 ^ 8 :=
    Nat.and_two_pow_sub_one_eq_mod _ 8
  have hlow : (crc ^^^ b.toUInt32).toBitVec.setWidth 8
      = (crc.toBitVec.setWidth 16 ^^^ b.toBitVec.setWidth 16).setWidth 8 := by
    rw [UInt32.toBitVec_xor, UInt8.toBitVec_toUInt32]
    apply BitVec.eq_of_getLsbD_eq
    intro i hi
    simp [hi, show i < 32 by omega]
  rw [hmask, ← hlow, BitVec.toNat_setWidth]
  rfl

theorem crc16_low (crc t : BitVec 32) :
    (((crc >>> 8 &&& 0xff) ^^^ t) &&& 0xffff).setWidth 16 = crc.setWidth 16 >>> 8 ^^^ t.setWidth 16 := by
  have hff : ∀ i < 16, (0xff : BitVec 32).getLsbD i = decide (i < 8) := by decide
  have hffff : ∀ i < 16, (0xffff : BitVec 32).getLsbD i = true := by decide
  apply BitVec.eq_of_getLsbD_eq
  intro i hi
  simp only [BitVec.getLsbD_setWidth, BitVec.getLsbD_and, BitVec.getLsbD_xor,
    BitVec.getLsbD_ushiftRight, hff i hi, hffff i hi]
  by_cases h8 : i < 8
  · simp [hi, h8, show 8 + i < 16 by omega]
  · simp [hi, h8, show ¬ 8 + i < 16 by omega]

/-- One byte goes in. -/
theorem crc16_byte (crc : UInt32) (b : UInt8) :
    (ext2fsCrc16 crc [b]).toBitVec.setWidth 16
      = crcBits crc16Poly (crc.toBitVec.setWidth 16) (byteBits b) := by
  have hbyte : b.toBitVec.setWidth 16 >>> 8 = 0#16 := by
    apply BitVec.eq_of_getLsbD_eq
    intro i hi
    rw [BitVec.getLsbD_ushiftRight, BitVec.getLsbD_setWidth,
      BitVec.getLsbD_of_ge b.toBitVec _ (by omega)]
    simp
  rw [crcBits_byteBits (by decide), crcShift_iterate, ← crc16Table_eq, ← crc16_index,
    BitVec.ushiftRight_xor_distrib, hbyte, BitVec.xor_zero, BitVec.xor_comm]
  exact crc16_low ..

/-- The table does what shifts and exclusive ors do bit by bit. -/
theorem crc16_eq (crc : UInt32) (buffer : List UInt8) :
    (ext2fsCrc16 crc buffer).toBitVec.setWidth 16
      = crcBits crc16Poly (crc.toBitVec.setWidth 16) (buffer.flatMap byteBits) := by
  induction buffer generalizing crc with
  | nil => rfl
  | cons b buffer ih =>
    rw [List.flatMap_cons, crcBits_append, ← crc16_byte]
    exact ih _

/-! ## Descriptors -/

/-- The bits that the checksum of a descriptor is made of. -/
def csumBits (buf : Buffer) (group : Nat) : List Bool :=
  (sUuid buf ++ (leBytes 4 group ++ slice buf (groupDesc group) 30)).flatMap byteBits

theorem csum_eq (hin : DescInside buf) (hflag : (sFeatureRoCompat buf).testBit 4 = true) (size : Nat) :
    (ext2fsGroupDescCsum buf size group).map UInt16.toBitVec
      = some (crcBits crc16Poly 0xffff (csumBits buf group)) := by
  have hle := hin hflag
  unfold ext2fsGroupDescCsum
  rw [if_pos hflag]
  dsimp only
  rw [if_neg (by omega), Option.map_some, csumBits, List.flatMap_append, List.flatMap_append,
    crcBits_append, crcBits_append]
  have hstart : (0xffff : BitVec 16) = (0xffffffff : UInt32).toBitVec.setWidth 16 := by decide
  rw [hstart, ← crc16_eq, ← crc16_eq, ← crc16_eq]
  rfl

/-- The superblock says the same of the checksums, and the checksum of the group is the same. -/
structure SameFormat (buf buf' : Buffer) (group : Nat) : Prop where
  compat : sFeatureRoCompat buf' = sFeatureRoCompat buf
  size : sDescSize buf' = sDescSize buf
  checksum : member buf' (bgChecksum group) 2 = member buf (bgChecksum group) 2

/-- The bits that the checksum is made of are others, but only within sixteen that stand together. -/
def Burst (bits bits' : List Bool) : Prop :=
  ∃ before mid mid' after, bits = before ++ mid ++ after ∧ bits' = before ++ mid' ++ after ∧
    mid.length = mid'.length ∧ mid.length ≤ 16 ∧ mid ≠ mid'

/-- A burst changes the checksum. -/
theorem csum_burst (hin : DescInside buf) (hflag : (sFeatureRoCompat buf).testBit 4 = true)
    (h : SameFormat buf buf' group) (size : Nat)
    (hsame : ext2fsGroupDescCsum buf size group = ext2fsGroupDescCsum buf' size group) :
    ¬ Burst (csumBits buf group) (csumBits buf' group) := by
  rintro ⟨before, mid, mid', after, hbits, hbits', hlen, hshort, hne⟩
  have hflag' : (sFeatureRoCompat buf').testBit 4 = true := by
    rw [h.compat]
    exact hflag
  have hin' : DescInside buf' := by
    rw [DescInside, h.compat, h.size]
    exact hin
  have hcrc := @csum_eq buf group hin hflag size
  rw [hsame, csum_eq hin' hflag' size, hbits, hbits'] at hcrc
  exact hne (crcBits_burst (by decide) hlen hshort _ _ _ (Option.some.inj hcrc).symm)

/-- Whatever the backup and the bitmaps are: what is written agrees with its checksums, and a descriptor
in which bits change that stand within sixteen does not. -/
theorem restored_burst (dev : Nat → Nat → UInt8) (sectorsNum : UInt32) (bak : Buffer)
    (hin : DescInside bak) (hb : sBlocksPerGroup bak ≤ 8 * FS_BLOCK_SIZE)
    (hi : sInodesPerGroup bak ≤ 8 * FS_BLOCK_SIZE)
    (hflag : (sFeatureRoCompat bak).testBit 4 = true) :
    ∃ buf, partitionSbRestore dev sectorsNum bak = some buf ∧
      ∀ group < blockGroupNum sectorsNum,
        (ext2fsGroupDescCsum buf (bakSize sectorsNum) group).map UInt16.toNat
          = some (member buf (bgChecksum group) 2) ∧
        ∀ buf', SameFormat buf buf' group → Burst (csumBits buf group) (csumBits buf' group) →
          (ext2fsGroupDescCsum buf' (bakSize sectorsNum) group).map UInt16.toNat
            ≠ some (member buf' (bgChecksum group) 2) := by
  obtain ⟨buf, heq, hgroups, -, -, hframe⟩ := partitionSbRestore_eq dev sectorsNum hin hb hi
  refine ⟨buf, heq, fun group hg => ⟨(hgroups group hg).2.2, ?_⟩⟩
  intro buf' h hburst hsame
  have hhead : sFeatureRoCompat buf = sFeatureRoCompat bak ∧ sDescSize buf = sDescSize bak := by
    have hpad : PADDING_SIZE = 1024 := rfl
    have hkept : ∀ a, 1044 ≤ a → a < 4096 → buf a = bak a := by
      refine fun a hlow hhigh => hframe a ?_ fun hcount => ?_
      · rintro ⟨g, -, hcounter⟩
        rw [groupDesc_eq] at hcounter
        omega
      · exact absurd hcount.2 (Nat.not_lt.mpr hlow)
    exact ⟨member_congr fun a _ _ => hkept a (by omega) (by omega),
      member_congr fun a _ _ => hkept a (by omega) (by omega)⟩
  have hflag' : (sFeatureRoCompat buf).testBit 4 = true := by
    rw [hhead.1]
    exact hflag
  have hin' : DescInside buf := by
    rw [DescInside, hhead.1, hhead.2]
    exact hin
  rw [h.checksum, ← (hgroups group hg).2.2] at hsame
  have hinjective : Function.Injective UInt16.toNat := fun _ _ => UInt16.toNat_inj.mp
  exact csum_burst hin' hflag' h _ (Option.map_injective hinjective hsame).symm hburst

/-- The backup of a file system in one group whose descriptor has a checksum. -/
def checkedBackup : Buffer := overwrite smallBackup (PADDING_SIZE + 0x64) [0x10]

theorem restored_burst_small : ∃ buf, partitionSbRestore (fun _ _ => 0) 128000 checkedBackup = some buf ∧
    ∀ group < blockGroupNum 128000,
      (ext2fsGroupDescCsum buf (bakSize 128000) group).map UInt16.toNat
        = some (member buf (bgChecksum group) 2) ∧
      ∀ buf', SameFormat buf buf' group → Burst (csumBits buf group) (csumBits buf' group) →
        (ext2fsGroupDescCsum buf' (bakSize 128000) group).map UInt16.toNat
          ≠ some (member buf' (bgChecksum group) 2) :=
  restored_burst (fun _ _ => 0) 128000 checkedBackup (fun _ => by decide) (by decide) (by decide)
    (by decide)

end VdCamera.Storage
