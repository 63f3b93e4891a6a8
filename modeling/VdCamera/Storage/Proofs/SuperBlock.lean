import Mathlib.Algebra.BigOperators.Intervals
import Mathlib.Algebra.Group.Action.Defs
import Mathlib.Algebra.Order.BigOperators.Group.Finset
import VdCamera.Storage.SuperBlock

/-!
# What a repaired superblock says

Every group gets the counts of the bitmap bytes that its size makes whole; they are right when the bits
that are counted, but stand for nothing in the group, are 1.
-/

namespace VdCamera.Storage

open Misc (bit freeBits leBytes leNat overwrite)

variable {dev : Nat → Nat → UInt8} {buf buf' bak : Buffer} {s s' : SbRestore}
  {a g i j n off off' size size' value : Nat}

/-! ## Counting the bits of a bitmap -/

theorem countFree_byte (bitmap : Nat → UInt8) (j : Nat) (h : n ≤ 8) :
    (List.range n).foldl (fun free k => free + (1 - (((bitmap j).toNat >>> k) &&& 1)))
      (freeBits bitmap (8 * j)) = freeBits bitmap (8 * j + n) := by
  induction n with
  | zero => rfl
  | succ n ih =>
    have hbit : bit bitmap (8 * j + n) = (bitmap j).toNat.testBit n := by
      rw [bit, Nat.mul_add_div (by decide), Nat.div_eq_of_lt (by omega), Nat.add_zero,
        Nat.mul_add_mod, Nat.mod_eq_of_lt (by omega)]
    rw [List.range_succ, List.foldl_append, ih (by omega), ← Nat.add_assoc, Misc.freeBits_succ, hbit,
      Nat.testBit, Nat.and_comm]
    rcases Nat.mod_two_eq_zero_or_one ((bitmap j).toNat >>> n) with h0 | h1
    · simp [h0]
    · simp [h1]

theorem countFree_eq (bitmap : Nat → UInt8) (perGroup : Nat) :
    countFree bitmap perGroup = freeBits bitmap (8 * (perGroup / 8)) := by
  unfold countFree
  induction perGroup / 8 with
  | zero => rfl
  | succ q ih =>
    rw [List.range_succ (n := q), List.foldl_append, ih]
    exact countFree_byte bitmap q (Nat.le_refl 8)

/-! ## Members of a buffer -/

theorem slice_congr (h : ∀ a, off ≤ a → a < off + size → buf a = buf' a) :
    slice buf off size = slice buf' off size := by
  apply List.map_congr_left
  intro i hi
  exact h (off + i) (Nat.le_add_right off i) (Nat.add_lt_add_left (List.mem_range.mp hi) off)

theorem member_congr (h : ∀ a, off ≤ a → a < off + size → buf a = buf' a) :
    member buf off size = member buf' off size := by
  rw [member, slice_congr h]
  rfl

theorem setMember_of_lt (h : a < off) : setMember buf off size value a = buf a :=
  Misc.overwrite_of_lt h

theorem setMember_of_le (h : off + size ≤ a) : setMember buf off size value a = buf a :=
  Misc.overwrite_of_le (by rwa [Misc.length_leBytes])

theorem setMember_of_disjoint (h : a < off ∨ off + size ≤ a) :
    setMember buf off size value a = buf a := h.elim setMember_of_lt setMember_of_le

theorem slice_setMember (buf : Buffer) (off size value : Nat) :
    slice (setMember buf off size value) off size = leBytes size value := by
  apply List.ext_getElem
  · rw [slice, List.length_map, List.length_range, Misc.length_leBytes]
  · intro i hi hi'
    have hget := @Misc.getElem?_overwrite _ buf _ _ _ (Nat.le_add_right off i)
      (Nat.add_lt_add_left hi' off)
    rw [Nat.add_sub_cancel_left, List.getElem?_eq_getElem hi', Option.some.injEq] at hget
    rw [hget]
    simp [slice, setMember]

theorem member_setMember (h : value < 256 ^ size) :
    member (setMember buf off size value) off size = value := by
  rw [member, slice_setMember, Misc.leNat_leBytes h]

theorem member_setMember_of_disjoint (h : off' + size' ≤ off ∨ off + size ≤ off') :
    member (setMember buf off size value) off' size' = member buf off' size' := by
  apply member_congr
  intro a ha ha'
  apply setMember_of_disjoint
  omega

/-! ## The checksum -/

/-- The checksum of a descriptor needs nothing behind it. -/
def DescInside (bak : Buffer) : Prop :=
  (sFeatureRoCompat bak).testBit 4 = true → sDescSize bak ≤ 32

/-- The members of the superblock that are read stay what they are where the buffer is not changed. -/
theorem header_congr (h : ∀ a, a < 4096 → buf a = buf' a) :
    sBlocksPerGroup buf = sBlocksPerGroup buf' ∧ sInodesPerGroup buf = sInodesPerGroup buf'
      ∧ sFeatureRoCompat buf = sFeatureRoCompat buf' ∧ sUuid buf = sUuid buf'
      ∧ sDescSize buf = sDescSize buf' := by
  have hpad : PADDING_SIZE = 1024 := rfl
  refine ⟨?_, ?_, ?_, ?_, ?_⟩
  · exact member_congr fun a _ ha => h a (by omega)
  · exact member_congr fun a _ ha => h a (by omega)
  · exact member_congr fun a _ ha => h a (by omega)
  · exact slice_congr fun a _ ha => h a (by omega)
  · exact member_congr fun a _ ha => h a (by omega)

theorem descInside_congr (h : ∀ a, a < 4096 → buf a = buf' a) :
    DescInside buf ↔ DescInside buf' := by
  obtain ⟨_, _, hcompat, _, hsize⟩ := header_congr h
  rw [DescInside, DescInside, hcompat, hsize]

/-- The checksum of a descriptor that fits is made of the superblock and the 30 bytes before it. -/
theorem csum_congr (hin : DescInside buf) (hcompat : sFeatureRoCompat buf = sFeatureRoCompat buf')
    (huuid : sUuid buf = sUuid buf') (hsize : sDescSize buf = sDescSize buf')
    (h : ∀ a, groupDesc g ≤ a → a < groupDesc g + 30 → buf a = buf' a) :
    ext2fsGroupDescCsum buf size g = ext2fsGroupDescCsum buf' size g := by
  have hslice := slice_congr h
  unfold ext2fsGroupDescCsum
  rw [← hcompat, ← huuid, ← hsize, hslice]
  by_cases hflag : (sFeatureRoCompat buf).testBit 4 = true
  · have hle := hin hflag
    rw [if_pos hflag, if_pos hflag]
    dsimp only
    rw [if_neg (by omega), if_neg (by omega)]
  · rw [if_neg hflag, if_neg hflag]

theorem csum_isSome (hin : DescInside buf) (size g : Nat) :
    (ext2fsGroupDescCsum buf size g).isSome = true := by
  unfold ext2fsGroupDescCsum
  by_cases hflag : (sFeatureRoCompat buf).testBit 4 = true
  · have hle := hin hflag
    rw [if_pos hflag]
    dsimp only
    rw [if_neg (by omega)]
    rfl
  · rw [if_neg hflag]
    rfl

/-- The last descriptor has nothing behind it. -/
theorem csum_eq_none (hout : ¬ DescInside buf) (h : size = groupDesc g + 32) :
    ext2fsGroupDescCsum buf size g = none := by
  unfold DescInside at hout
  rw [Classical.not_imp] at hout
  obtain ⟨hflag, hlt⟩ := hout
  unfold ext2fsGroupDescCsum
  rw [if_pos hflag]
  dsimp only
  rw [if_pos (by omega), if_neg (by omega)]

/-! ## One group after the other -/

/-- The counters and the checksum of one of the first `n` descriptors. -/
def Counter (n a : Nat) : Prop :=
  ∃ g < n, (groupDesc g + 12 ≤ a ∧ a < groupDesc g + 16)
    ∨ (groupDesc g + 30 ≤ a ∧ a < groupDesc g + 32)

theorem groupDesc_eq (g : Nat) : groupDesc g = 4096 + 32 * g := by
  rw [Nat.mul_comm]

/-- Where the bitmaps of the backup bring the file before group `g`. -/
def readPos (bak : Buffer) : Nat → Nat
  | 0 => 0
  | g + 1 =>
    lseekBlock (lseekBlock (readPos bak g) (bgBlockBitmapLo bak g) + 1) (bgInodeBitmapLo bak g) + 1

/-- The block that is read for the block bitmap of a group. -/
def blockRead (bak : Buffer) (g : Nat) : Nat := lseekBlock (readPos bak g) (bgBlockBitmapLo bak g)

/-- The block that is read for its inode bitmap. -/
def inodeRead (bak : Buffer) (g : Nat) : Nat :=
  lseekBlock (blockRead bak g + 1) (bgInodeBitmapLo bak g)

/-- An offset that 31 bits hold is gone to. -/
theorem lseekBlock_of_lt {pos block : Nat} (h : block < 524288) : lseekBlock pos block = block := by
  have hmod : block * 4096 % 2 ^ 32 = block * 4096 := Nat.mod_eq_of_lt (by omega)
  unfold lseekBlock
  dsimp only
  rw [hmod, if_pos (by omega), Nat.mul_div_cancel _ (by decide)]

theorem blockRead_of_lt (h : bgBlockBitmapLo bak g < 524288) :
    blockRead bak g = bgBlockBitmapLo bak g := lseekBlock_of_lt h

theorem inodeRead_of_lt (h : bgInodeBitmapLo bak g < 524288) :
    inodeRead bak g = bgInodeBitmapLo bak g := lseekBlock_of_lt h

/-- The blocks that are counted for a group, by the bitmaps of the backup. -/
def blocksFree (dev : Nat → Nat → UInt8) (bak : Buffer) (g : Nat) : Nat :=
  freeBits (dev (blockRead bak g)) (8 * (sBlocksPerGroup bak / 8))

def inodesFree (dev : Nat → Nat → UInt8) (bak : Buffer) (g : Nat) : Nat :=
  freeBits (dev (inodeRead bak g)) (8 * (sInodesPerGroup bak / 8))

/-- After the first `n` groups. -/
structure Repaired (dev : Nat → Nat → UInt8) (size : Nat) (bak : Buffer) (n : Nat)
    (s : SbRestore) : Prop where
  frame : ∀ a, ¬ Counter n a → s.sbBakBuf a = bak a
  pos : s.filePos = readPos bak n
  blocks : ∀ g < n, member s.sbBakBuf (bgFreeBlocksCountLo g) 2 = blocksFree dev bak g
  inodes : ∀ g < n, member s.sbBakBuf (bgFreeInodesCountLo g) 2 = inodesFree dev bak g
  checksum : ∀ g < n, (ext2fsGroupDescCsum s.sbBakBuf size g).map UInt16.toNat
    = some (member s.sbBakBuf (bgChecksum g) 2)
  blockTotal : s.blockFreeTotal = ∑ g ∈ Finset.range n, blocksFree dev bak g
  inodeTotal : s.inodeFreeTotal = ∑ g ∈ Finset.range n, inodesFree dev bak g

theorem Repaired.header (h : Repaired dev size bak n s) (ha : a < 4096) :
    s.sbBakBuf a = bak a := by
  apply h.frame
  rintro ⟨g, _, hc⟩
  rw [groupDesc_eq] at hc
  omega

/-- A descriptor that is still to come is that of the backup. -/
theorem Repaired.desc (h : Repaired dev size bak n s) (ha : groupDesc n ≤ a) :
    s.sbBakBuf a = bak a := by
  apply h.frame
  rintro ⟨g, hg, hc⟩
  rw [groupDesc_eq] at ha hc
  omega

/-- What one step does to the buffer, apart from its own counters. -/
theorem restoreGroup_frame (h : restoreGroup dev size s i = some s')
    (ha : ¬ ((groupDesc i + 12 ≤ a ∧ a < groupDesc i + 16)
      ∨ (groupDesc i + 30 ≤ a ∧ a < groupDesc i + 32))) : s'.sbBakBuf a = s.sbBakBuf a := by
  unfold restoreGroup at h
  obtain ⟨csum, _, rfl⟩ := Option.map_eq_some_iff.mp h
  dsimp only
  rw [setMember_of_disjoint (show a < groupDesc i + 30 ∨ groupDesc i + 30 + 2 ≤ a by omega),
    setMember_of_disjoint (show a < groupDesc i + 14 ∨ groupDesc i + 14 + 2 ≤ a by omega),
    setMember_of_disjoint (show a < groupDesc i + 12 ∨ groupDesc i + 12 + 2 ≤ a by omega)]

/-- Nothing of a group is changed when a later one is repaired. -/
theorem restoreGroup_before (h : restoreGroup dev size s n = some s') (hg : g < n)
    (ha : a < groupDesc g + 32) : s'.sbBakBuf a = s.sbBakBuf a := by
  apply restoreGroup_frame h
  rw [groupDesc_eq] at ha ⊢
  omega

theorem restoreGroup_header (h : restoreGroup dev size s n = some s') (ha : a < 4096) :
    s'.sbBakBuf a = s.sbBakBuf a := by
  apply restoreGroup_frame h
  rw [groupDesc_eq]
  omega

theorem blocksFree_lt (dev : Nat → Nat → UInt8) (h : sBlocksPerGroup bak ≤ 32768) (g : Nat) :
    blocksFree dev bak g ≤ 32768 :=
  (Misc.freeBits_le _ _).trans ((Nat.mul_div_le _ 8).trans h)

theorem inodesFree_lt (dev : Nat → Nat → UInt8) (h : sInodesPerGroup bak ≤ 32768) (g : Nat) :
    inodesFree dev bak g ≤ 32768 :=
  (Misc.freeBits_le _ _).trans ((Nat.mul_div_le _ 8).trans h)

/-- The step of a repaired buffer, by the counts of the backup. -/
theorem restoreGroup_eq (h : Repaired dev size bak n s) : restoreGroup dev size s n
    = (ext2fsGroupDescCsum (setMember (setMember s.sbBakBuf (bgFreeBlocksCountLo n) 2
          (blocksFree dev bak n)) (bgFreeInodesCountLo n) 2 (inodesFree dev bak n)) size n).map
        fun csum => {
          sbBakBuf := setMember (setMember (setMember s.sbBakBuf (bgFreeBlocksCountLo n) 2
            (blocksFree dev bak n)) (bgFreeInodesCountLo n) 2 (inodesFree dev bak n))
            (bgChecksum n) 2 csum.toNat
          filePos := readPos bak (n + 1)
          blockFreeTotal := s.blockFreeTotal + blocksFree dev bak n
          inodeFreeTotal := s.inodeFreeTotal + inodesFree dev bak n } := by
  obtain ⟨hblocks, hinodes, _⟩ := header_congr fun a (ha : a < 4096) =>
    show s.sbBakBuf a = bak a from h.header ha
  have hbb : bgBlockBitmapLo s.sbBakBuf n = bgBlockBitmapLo bak n :=
    member_congr fun a ha _ => h.desc ha
  have hib : bgInodeBitmapLo s.sbBakBuf n = bgInodeBitmapLo bak n :=
    member_congr fun a ha _ => h.desc (by omega)
  rw [restoreGroup, hblocks, hinodes, hbb, hib, h.pos, countFree_eq, countFree_eq]
  rfl

theorem repaired_step (hin : DescInside bak) (hb : sBlocksPerGroup bak ≤ 32768)
    (hi : sInodesPerGroup bak ≤ 32768) (h : Repaired dev size bak n s) :
    ∃ s', restoreGroup dev size s n = some s' ∧ Repaired dev size bak (n + 1) s' := by
  have hblt := blocksFree_lt dev hb n
  have hilt := inodesFree_lt dev hi n
  have heq := restoreGroup_eq h
  have hdesc := groupDesc_eq n
  generalize hbuf : setMember (setMember s.sbBakBuf (bgFreeBlocksCountLo n) 2
    (blocksFree dev bak n)) (bgFreeInodesCountLo n) 2 (inodesFree dev bak n) = buf at heq
  have hhead : ∀ a, a < 4096 → buf a = bak a := by
    intro a ha
    rw [← hbuf, setMember_of_lt (show a < groupDesc n + 14 by omega),
      setMember_of_lt (show a < groupDesc n + 12 by omega)]
    exact h.header ha
  have hinBuf : DescInside buf := (descInside_congr hhead).mpr hin
  obtain ⟨csum, hcsum⟩ := Option.isSome_iff_exists.mp (csum_isSome hinBuf size n)
  rw [hcsum, Option.map_some] at heq
  refine ⟨_, heq, ⟨?_, rfl, ?_, ?_, ?_, ?_, ?_⟩⟩
  · intro a ha
    rw [restoreGroup_frame heq fun hc => ha ⟨n, Nat.lt_succ_self n, hc⟩]
    apply h.frame
    rintro ⟨g, hg, hc⟩
    exact ha ⟨g, Nat.lt_succ_of_lt hg, hc⟩
  · intro g hg
    rcases Nat.lt_succ_iff_lt_or_eq.mp hg with hlt | rfl
    · rw [← h.blocks g hlt]
      exact member_congr fun a _ ha => restoreGroup_before heq hlt
        (Nat.lt_of_lt_of_le ha (show groupDesc g + 12 + 2 ≤ groupDesc g + 32 by omega))
    · rw [member_setMember_of_disjoint (.inl (show groupDesc g + 12 + 2 ≤ groupDesc g + 30 by omega)),
        ← hbuf,
        member_setMember_of_disjoint (.inl (show groupDesc g + 12 + 2 ≤ groupDesc g + 14 by omega)),
        member_setMember (by omega)]
  · intro g hg
    rcases Nat.lt_succ_iff_lt_or_eq.mp hg with hlt | rfl
    · rw [← h.inodes g hlt]
      exact member_congr fun a _ ha => restoreGroup_before heq hlt
        (Nat.lt_of_lt_of_le ha (show groupDesc g + 14 + 2 ≤ groupDesc g + 32 by omega))
    · rw [member_setMember_of_disjoint (.inl (show groupDesc g + 14 + 2 ≤ groupDesc g + 30 by omega)),
        ← hbuf, member_setMember (by omega)]
  · intro g hg
    have hin' : DescInside (setMember buf (bgChecksum n) 2 csum.toNat) :=
      (descInside_congr fun a ha =>
        (setMember_of_lt (show a < groupDesc n + 30 by omega)).trans (hhead a ha)).mpr hin
    rcases Nat.lt_succ_iff_lt_or_eq.mp hg with hlt | rfl
    · obtain ⟨_, _, hcompat, huuid, hsize⟩ := header_congr fun a (ha : a < 4096) =>
        show setMember buf (bgChecksum n) 2 csum.toNat a = _ from restoreGroup_header heq ha
      have hsame := @csum_congr _ _ g size hin' hcompat huuid hsize
        fun a _ ha => restoreGroup_before heq hlt (by omega)
      have hmember := @member_congr _ _ (bgChecksum g) 2
        fun a _ ha => restoreGroup_before heq hlt (by omega)
      rw [hsame, h.checksum g hlt]
      exact congrArg some hmember.symm
    · obtain ⟨_, _, hcompat, huuid, hsize⟩ := header_congr fun a (ha : a < 4096) =>
        show setMember buf (bgChecksum g) 2 csum.toNat a = buf a from
          setMember_of_lt (show a < groupDesc g + 30 by omega)
      have hsame := @csum_congr _ _ g size hin' hcompat huuid hsize
        fun a _ ha => setMember_of_lt (show a < groupDesc g + 30 by omega)
      have hlt := csum.toNat_lt
      rw [hsame, hcsum, Option.map_some, member_setMember (by omega)]
  · rw [Finset.sum_range_succ, ← h.blockTotal]
  · rw [Finset.sum_range_succ, ← h.inodeTotal]

theorem repaired_zero (dev : Nat → Nat → UInt8) (size : Nat) (bak : Buffer) :
    Repaired dev size bak 0 ⟨bak, 0, 0, 0⟩ where
  frame := fun _ _ => rfl
  pos := rfl
  blocks := fun g hg => absurd hg (Nat.not_lt_zero g)
  inodes := fun g hg => absurd hg (Nat.not_lt_zero g)
  checksum := fun g hg => absurd hg (Nat.not_lt_zero g)
  blockTotal := rfl
  inodeTotal := rfl

/-- After all groups. -/
theorem repaired_run (hin : DescInside bak) (hb : sBlocksPerGroup bak ≤ 32768)
    (hi : sInodesPerGroup bak ≤ 32768) (n : Nat) :
    ∃ s, Misc.runFrom (restoreGroup dev size) ⟨bak, 0, 0, 0⟩ (List.range n) = some s
      ∧ Repaired dev size bak n s := by
  induction n with
  | zero => exact ⟨_, rfl, repaired_zero dev size bak⟩
  | succ n ih =>
    obtain ⟨s, hrun, hs⟩ := ih
    obtain ⟨s', hstep, hs'⟩ := repaired_step hin hb hi hs
    refine ⟨s', ?_, hs'⟩
    rw [List.range_succ, Misc.runFrom_append, hrun, Option.bind_some, Misc.runFrom_cons, hstep]
    rfl

/-! ## The whole repair -/

/-- The blocks that a group really has: the last one may be short. -/
def groupBlocks (bak : Buffer) (g : Nat) : Nat :=
  min (sBlocksPerGroup bak) (sBlocksCountLo bak - sFirstDataBlock bak - g * sBlocksPerGroup bak)

def groupInodes (bak : Buffer) (g : Nat) : Nat :=
  min (sInodesPerGroup bak) (sInodesCount bak - g * sInodesPerGroup bak)

/-- What is written is the backup with the right counts and checksums. -/
def RestoreOk (dev : Nat → Nat → UInt8) (sectorsNum : UInt32) (bak : Buffer) : Prop :=
  ∃ buf, partitionSbRestore dev sectorsNum bak = some buf
    ∧ (∀ g < blockGroupNum sectorsNum,
      member buf (bgFreeBlocksCountLo g) 2 = freeBits (dev (bgBlockBitmapLo bak g)) (groupBlocks bak g)
      ∧ member buf (bgFreeInodesCountLo g) 2
        = freeBits (dev (bgInodeBitmapLo bak g)) (groupInodes bak g)
      ∧ (ext2fsGroupDescCsum buf (bakSize sectorsNum) g).map UInt16.toNat
        = some (member buf (bgChecksum g) 2))
    ∧ member buf sFreeBlocksCountLo 4
      = ∑ g ∈ Finset.range (blockGroupNum sectorsNum), member buf (bgFreeBlocksCountLo g) 2
    ∧ member buf sFreeInodesCount 4
      = ∑ g ∈ Finset.range (blockGroupNum sectorsNum), member buf (bgFreeInodesCountLo g) 2
    ∧ ∀ a, ¬ Counter (blockGroupNum sectorsNum) a
      → ¬ (sFreeBlocksCountLo ≤ a ∧ a < sFreeInodesCount + 4) → buf a = bak a

/-- The bits of the bitmap between the whole bytes that are counted and what the group has are 1. -/
def Padded (bitmap : Nat → UInt8) (perGroup has : Nat) : Prop :=
  ∀ p, min (8 * (perGroup / 8)) has ≤ p → p < max (8 * (perGroup / 8)) has → bit bitmap p = true

/-- The bits that are 0 are as many in the counted part of the block that is read as in what the group
has of its bitmap. -/
def BitmapOk (dev : Nat → Nat → UInt8) (read sought perGroup has : Nat) : Prop :=
  if read = sought then Padded (dev sought) perGroup has
  else freeBits (dev read) (8 * (perGroup / 8)) = freeBits (dev sought) has

theorem blockGroupNum_bounds (sectorsNum : UInt32) :
    1 ≤ blockGroupNum sectorsNum ∧ blockGroupNum sectorsNum ≤ 16384 := by
  have hlt := (sectorsNum - 1).toNat_lt
  rw [blockGroupNum, UInt32.toNat_add, UInt32.toNat_shiftRight, Nat.shiftRight_eq_div_pow]
  change 1 ≤ ((sectorsNum - 1).toNat / 262144 + 1) % 4294967296
    ∧ ((sectorsNum - 1).toNat / 262144 + 1) % 4294967296 ≤ 16384
  omega

/-- The repair when the checksums need nothing behind the descriptors. -/
theorem partitionSbRestore_eq (dev : Nat → Nat → UInt8) (sectorsNum : UInt32)
    (hin : DescInside bak) (hb : sBlocksPerGroup bak ≤ 32768) (hi : sInodesPerGroup bak ≤ 32768) :
    ∃ buf, partitionSbRestore dev sectorsNum bak = some buf
      ∧ (∀ g < blockGroupNum sectorsNum,
        member buf (bgFreeBlocksCountLo g) 2 = blocksFree dev bak g
        ∧ member buf (bgFreeInodesCountLo g) 2 = inodesFree dev bak g
        ∧ (ext2fsGroupDescCsum buf (bakSize sectorsNum) g).map UInt16.toNat
          = some (member buf (bgChecksum g) 2))
      ∧ member buf sFreeBlocksCountLo 4
        = ∑ g ∈ Finset.range (blockGroupNum sectorsNum), blocksFree dev bak g
      ∧ member buf sFreeInodesCount 4
        = ∑ g ∈ Finset.range (blockGroupNum sectorsNum), inodesFree dev bak g
      ∧ ∀ a, ¬ Counter (blockGroupNum sectorsNum) a
        → ¬ (sFreeBlocksCountLo ≤ a ∧ a < sFreeInodesCount + 4) → buf a = bak a := by
  obtain ⟨s, hrun, hs⟩ := @repaired_run dev bak (bakSize sectorsNum) hin hb hi
    (blockGroupNum sectorsNum)
  have hn := (blockGroupNum_bounds sectorsNum).2
  have hsum : ∀ f : Nat → Nat, (∀ g, f g ≤ 32768) →
      ∑ g ∈ Finset.range (blockGroupNum sectorsNum), f g < 256 ^ 4 := by
    intro f hf
    have hle : ∑ g ∈ Finset.range (blockGroupNum sectorsNum), f g
        ≤ (Finset.range (blockGroupNum sectorsNum)).card • 32768 :=
      Finset.sum_le_card_nsmul _ _ _ fun g _ => hf g
    rw [Finset.card_range, smul_eq_mul] at hle
    omega
  have hbt : s.blockFreeTotal < 256 ^ 4 := hs.blockTotal ▸ hsum _ (blocksFree_lt dev hb)
  have hit : s.inodeFreeTotal < 256 ^ 4 := hs.inodeTotal ▸ hsum _ (inodesFree_lt dev hi)
  have heq : partitionSbRestore dev sectorsNum bak
      = some (setMember (setMember s.sbBakBuf sFreeBlocksCountLo 4 s.blockFreeTotal)
        sFreeInodesCount 4 s.inodeFreeTotal) := by
    rw [partitionSbRestore, hrun]
    rfl
  have hframe : ∀ a, ¬ (1036 ≤ a ∧ a < 1044) →
      setMember (setMember s.sbBakBuf sFreeBlocksCountLo 4 s.blockFreeTotal) sFreeInodesCount 4
        s.inodeFreeTotal a = s.sbBakBuf a := by
    intro a ha
    rw [setMember_of_disjoint (show a < 1040 ∨ 1040 + 4 ≤ a by omega),
      setMember_of_disjoint (show a < 1036 ∨ 1036 + 4 ≤ a by omega)]
  have hblocks : member (setMember (setMember s.sbBakBuf sFreeBlocksCountLo 4 s.blockFreeTotal)
      sFreeInodesCount 4 s.inodeFreeTotal) sFreeBlocksCountLo 4 = s.blockFreeTotal := by
    rw [member_setMember_of_disjoint (.inl (show 1036 + 4 ≤ 1040 by omega)), member_setMember hbt]
  have hinodes : member (setMember (setMember s.sbBakBuf sFreeBlocksCountLo 4 s.blockFreeTotal)
      sFreeInodesCount 4 s.inodeFreeTotal) sFreeInodesCount 4 = s.inodeFreeTotal :=
    member_setMember hit
  generalize setMember (setMember s.sbBakBuf sFreeBlocksCountLo 4 s.blockFreeTotal)
    sFreeInodesCount 4 s.inodeFreeTotal = buf at heq hframe hblocks hinodes
  have hmember : ∀ off size, 1044 ≤ off → member buf off size = member s.sbBakBuf off size :=
    fun off size hoff => member_congr fun a ha _ => hframe a (by omega)
  refine ⟨buf, heq, fun g hg => ?_, hblocks.trans hs.blockTotal,
    hinodes.trans hs.inodeTotal, fun a hc ha => (hframe a ha).trans (hs.frame a hc)⟩
  have hge : 4096 ≤ groupDesc g := Nat.le_add_right _ _
  refine ⟨?_, ?_, ?_⟩
  · rw [← hs.blocks g hg]
    exact hmember _ _ (show 1044 ≤ groupDesc g + 12 by omega)
  · rw [← hs.inodes g hg]
    exact hmember _ _ (show 1044 ≤ groupDesc g + 14 by omega)
  · have hpad : PADDING_SIZE = 1024 := rfl
    have hcompat : sFeatureRoCompat buf = sFeatureRoCompat s.sbBakBuf := hmember _ _ (by omega)
    have huuid : sUuid buf = sUuid s.sbBakBuf := slice_congr fun a ha _ => hframe a (by omega)
    have hsize : sDescSize buf = sDescSize s.sbBakBuf := hmember _ _ (by omega)
    have hhead : sFeatureRoCompat s.sbBakBuf = sFeatureRoCompat bak
        ∧ sDescSize s.sbBakBuf = sDescSize bak := by
      obtain ⟨_, _, h1, _, h2⟩ := header_congr fun a (ha : a < 4096) =>
        show s.sbBakBuf a = bak a from hs.header ha
      exact ⟨h1, h2⟩
    have hin' : DescInside buf := by
      rw [DescInside, hcompat, hsize, hhead.1, hhead.2]
      exact hin
    have hdesc : ∀ a, groupDesc g ≤ a → a < groupDesc g + 30 → buf a = s.sbBakBuf a := by
      intro a ha _
      rw [groupDesc_eq] at ha
      exact hframe a (by omega)
    have hcheck : member buf (bgChecksum g) 2 = member s.sbBakBuf (bgChecksum g) 2 :=
      hmember _ _ (show 1044 ≤ groupDesc g + 30 by omega)
    rw [csum_congr hin' hcompat huuid hsize hdesc, hs.checksum g hg, hcheck]

/-- A checksum that needs what is behind the last descriptor reads outside the buffer. -/
theorem partitionSbRestore_eq_none (dev : Nat → Nat → UInt8) (sectorsNum : UInt32)
    (hout : ¬ DescInside bak) : partitionSbRestore dev sectorsNum bak = none := by
  obtain ⟨hpos, _⟩ := blockGroupNum_bounds sectorsNum
  obtain ⟨n, hn⟩ := Nat.exists_eq_succ_of_ne_zero (show blockGroupNum sectorsNum ≠ 0 by omega)
  have hsize : bakSize sectorsNum = groupDesc n + 32 := by
    rw [bakSize, hn]
    change (n + 1) * 32 + 4096 = 4096 + n * 32 + 32
    omega
  rw [partitionSbRestore, hn, List.range_succ, Misc.runFrom_append]
  cases hrun : Misc.runFrom (restoreGroup dev (bakSize sectorsNum)) ⟨bak, 0, 0, 0⟩ (List.range n) with
  | none => rfl
  | some s =>
    have hheader : ∀ a, a < 4096 → s.sbBakBuf a = bak a :=
      Misc.along_true.invariant_end (J := fun s : SbRestore => ∀ a, a < 4096 → s.sbBakBuf a = bak a)
        (fun _ _ => rfl)
        (fun _ _ _ hs _ hstep a ha => (restoreGroup_header hstep ha).trans (hs a ha)) hrun
    have hnone : restoreGroup dev (bakSize sectorsNum) s n = none := by
      rw [restoreGroup, csum_eq_none _ hsize]
      · rfl
      · intro hin
        apply hout
        refine (descInside_congr fun a ha => ?_).mp hin
        have hdesc : 4096 ≤ groupDesc n := Nat.le_add_right _ _
        rw [setMember_of_lt (show a < groupDesc n + 14 by omega),
          setMember_of_lt (show a < groupDesc n + 12 by omega)]
        exact hheader a ha
    rw [Option.bind_some, Misc.runFrom_cons, hnone]
    rfl

/-- What is counted for a bitmap is right exactly when the bits of no use are 1, or another block, which
is read instead, happens to have as many bits that are 0. -/
theorem bitmapOk_iff {read sought perGroup has : Nat} :
    BitmapOk dev read sought perGroup has
      ↔ freeBits (dev read) (8 * (perGroup / 8)) = freeBits (dev sought) has := by
  unfold BitmapOk
  by_cases hread : read = sought
  · rw [if_pos hread, hread]
    exact Misc.freeBits_eq_iff.symm
  · rw [if_neg hread]

theorem blockBitmapOk_iff :
    BitmapOk dev (blockRead bak g) (bgBlockBitmapLo bak g) (sBlocksPerGroup bak) (groupBlocks bak g)
      ↔ blocksFree dev bak g = freeBits (dev (bgBlockBitmapLo bak g)) (groupBlocks bak g) := by
  rw [bitmapOk_iff, blocksFree]

theorem inodeBitmapOk_iff :
    BitmapOk dev (inodeRead bak g) (bgInodeBitmapLo bak g) (sInodesPerGroup bak) (groupInodes bak g)
      ↔ inodesFree dev bak g = freeBits (dev (bgInodeBitmapLo bak g)) (groupInodes bak g) := by
  rw [bitmapOk_iff, inodesFree]

theorem restoreOk_bitmapOk (hb : sBlocksPerGroup bak ≤ 32768) (hi : sInodesPerGroup bak ≤ 32768)
    (hin : DescInside bak) {sectorsNum : UInt32} (h : RestoreOk dev sectorsNum bak)
    (hg : g < blockGroupNum sectorsNum) :
    BitmapOk dev (blockRead bak g) (bgBlockBitmapLo bak g) (sBlocksPerGroup bak) (groupBlocks bak g)
      ∧ BitmapOk dev (inodeRead bak g) (bgInodeBitmapLo bak g) (sInodesPerGroup bak)
        (groupInodes bak g) := by
  obtain ⟨buf, heq, hgroups, _⟩ := partitionSbRestore_eq dev sectorsNum hin hb hi
  obtain ⟨buf', heq', hgroups', _⟩ := h
  rw [heq, Option.some.injEq] at heq'
  subst heq'
  obtain ⟨hb', hi', _⟩ := hgroups' g hg
  rw [(hgroups g hg).1] at hb'
  rw [(hgroups g hg).2.1] at hi'
  rw [blockBitmapOk_iff, inodeBitmapOk_iff]
  exact ⟨hb', hi'⟩

/-- The repair is right exactly when no checksum needs what is behind its descriptor, every bitmap is the
block that its 32-bit offset leads to (or that block happens to count as many), and every bit that is
counted and stands for nothing in its group, or stands for something and is not counted, is 1. -/
theorem superblock_restored (dev : Nat → Nat → UInt8) (sectorsNum : UInt32) (bak : Buffer)
    (hb : sBlocksPerGroup bak ≤ 8 * FS_BLOCK_SIZE) (hi : sInodesPerGroup bak ≤ 8 * FS_BLOCK_SIZE) :
    RestoreOk dev sectorsNum bak ↔ DescInside bak ∧ ∀ g < blockGroupNum sectorsNum,
      BitmapOk dev (blockRead bak g) (bgBlockBitmapLo bak g) (sBlocksPerGroup bak) (groupBlocks bak g)
      ∧ BitmapOk dev (inodeRead bak g) (bgInodeBitmapLo bak g) (sInodesPerGroup bak)
        (groupInodes bak g) := by
  by_cases hin : DescInside bak
  · constructor
    · intro h
      exact ⟨hin, fun g hg => restoreOk_bitmapOk hb hi hin h hg⟩
    · rintro ⟨_, hpad⟩
      obtain ⟨buf, heq, hgroups, hblocks, hinodes, hframe⟩ :=
        partitionSbRestore_eq dev sectorsNum hin hb hi
      refine ⟨buf, heq, fun g hg => ?_, ?_, ?_, hframe⟩
      · obtain ⟨h1, h2, h3⟩ := hgroups g hg
        have hok := hpad g hg
        rw [blockBitmapOk_iff, inodeBitmapOk_iff] at hok
        exact ⟨h1.trans hok.1, h2.trans hok.2, h3⟩
      · rw [hblocks]
        exact Finset.sum_congr rfl fun g hg => (hgroups g (Finset.mem_range.mp hg)).1.symm
      · rw [hinodes]
        exact Finset.sum_congr rfl fun g hg => (hgroups g (Finset.mem_range.mp hg)).2.1.symm
  · constructor
    · rintro ⟨buf, heq, _⟩
      rw [partitionSbRestore_eq_none dev sectorsNum hin] at heq
      cases heq
    · intro h
      exact absurd h.1 hin

/-- The backup of a file system of 16000 blocks and 4096 inodes in one group. -/
def smallBackup : Buffer :=
  overwrite (overwrite (overwrite (overwrite (fun _ => 0) PADDING_SIZE [0x00, 0x10])
    (PADDING_SIZE + 0x04) [0x80, 0x3E]) (PADDING_SIZE + 0x20) [0x00, 0x80])
    (PADDING_SIZE + 0x28) [0x00, 0x10]

theorem superblock_restored_small : RestoreOk (fun _ _ => 0) 128000 smallBackup
    ↔ DescInside smallBackup ∧ ∀ g < blockGroupNum 128000,
      BitmapOk (fun _ _ => 0) (blockRead smallBackup g) (bgBlockBitmapLo smallBackup g)
        (sBlocksPerGroup smallBackup) (groupBlocks smallBackup g)
      ∧ BitmapOk (fun _ _ => 0) (inodeRead smallBackup g) (bgInodeBitmapLo smallBackup g)
        (sInodesPerGroup smallBackup) (groupInodes smallBackup g) :=
  superblock_restored (fun _ _ => 0) 128000 smallBackup (by decide) (by decide)

/-- With a block bitmap of zeros, the bits behind block 15999 are counted as well. -/
theorem not_superblock_restored : ¬ RestoreOk (fun _ _ => 0) 128000 smallBackup := by
  intro h
  have hin : DescInside smallBackup := by
    intro hflag
    exact absurd hflag (by decide)
  have hbitmap := (restoreOk_bitmapOk (by decide) (by decide) hin h (show 0 < blockGroupNum 128000 by
    decide)).1
  rw [BitmapOk, if_pos (blockRead_of_lt (by decide))] at hbitmap
  have hbit := hbitmap 16000 (by decide) (by decide)
  cases hbit

end VdCamera.Storage
