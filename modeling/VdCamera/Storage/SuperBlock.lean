import VdCamera.Misc.Bitmap
import VdCamera.Misc.Bytes
import VdCamera.Misc.Memory
import VdCamera.Misc.Run

/-!
# The repair of a superblock

What `partition_sb_restore` in `storage/partition_func.cpp` makes of the backup of a superblock and its
group descriptors, as bytes in memory, before it is written to the partition. A read outside the buffer
of the backup gives `none`.
-/

namespace VdCamera.Storage

open Misc (leBytes leNat overwrite)

abbrev FS_BLOCK_SIZE : Nat := 4096
abbrev PADDING_SIZE : Nat := 1024
abbrev GRP_DESC_SIZE : Nat := 32

/-- The memory from the beginning of the buffer on. -/
abbrev Buffer : Type := Nat → UInt8

/-- The bytes from a place on. -/
def slice (buf : Buffer) (off size : Nat) : List UInt8 := (List.range size).map fun i => buf (off + i)

/-- A member of a structure, in little endian. -/
def member (buf : Buffer) (off size : Nat) : Nat := leNat (slice buf off size)

def setMember (buf : Buffer) (off size value : Nat) : Buffer := overwrite buf off (leBytes size value)

section

variable (buf : Buffer)

/-! ## Members of the superblock, and where a descriptor begins -/

def sInodesCount : Nat := member buf PADDING_SIZE 4
def sBlocksCountLo : Nat := member buf (PADDING_SIZE + 0x04) 4
abbrev sFreeBlocksCountLo : Nat := PADDING_SIZE + 0x0C
abbrev sFreeInodesCount : Nat := PADDING_SIZE + 0x10
def sFirstDataBlock : Nat := member buf (PADDING_SIZE + 0x14) 4
def sBlocksPerGroup : Nat := member buf (PADDING_SIZE + 0x20) 4
def sInodesPerGroup : Nat := member buf (PADDING_SIZE + 0x28) 4
def sFeatureRoCompat : Nat := member buf (PADDING_SIZE + 0x64) 4
def sUuid : List UInt8 := slice buf (PADDING_SIZE + 0x68) 16
def sDescSize : Nat := member buf (PADDING_SIZE + 0xFE) 2

abbrev groupDesc (i : Nat) : Nat := FS_BLOCK_SIZE + i * GRP_DESC_SIZE
def bgBlockBitmapLo (i : Nat) : Nat := member buf (groupDesc i) 4
def bgInodeBitmapLo (i : Nat) : Nat := member buf (groupDesc i + 4) 4
abbrev bgFreeBlocksCountLo (i : Nat) : Nat := groupDesc i + 12
abbrev bgFreeInodesCountLo (i : Nat) : Nat := groupDesc i + 14
abbrev bgChecksum (i : Nat) : Nat := groupDesc i + 30

/-! ## The checksum of a descriptor -/

def crc16Table : Array UInt32 := #[
  0x0000, 0xC0C1, 0xC181, 0x0140, 0xC301, 0x03C0, 0x0280, 0xC241,
  0xC601, 0x06C0, 0x0780, 0xC741, 0x0500, 0xC5C1, 0xC481, 0x0440,
  0xCC01, 0x0CC0, 0x0D80, 0xCD41, 0x0F00, 0xCFC1, 0xCE81, 0x0E40,
  0x0A00, 0xCAC1, 0xCB81, 0x0B40, 0xC901, 0x09C0, 0x0880, 0xC841,
  0xD801, 0x18C0, 0x1980, 0xD941, 0x1B00, 0xDBC1, 0xDA81, 0x1A40,
  0x1E00, 0xDEC1, 0xDF81, 0x1F40, 0xDD01, 0x1DC0, 0x1C80, 0xDC41,
  0x1400, 0xD4C1, 0xD581, 0x1540, 0xD701, 0x17C0, 0x1680, 0xD641,
  0xD201, 0x12C0, 0x1380, 0xD341, 0x1100, 0xD1C1, 0xD081, 0x1040,
  0xF001, 0x30C0, 0x3180, 0xF141, 0x3300, 0xF3C1, 0xF281, 0x3240,
  0x3600, 0xF6C1, 0xF781, 0x3740, 0xF501, 0x35C0, 0x3480, 0xF441,
  0x3C00, 0xFCC1, 0xFD81, 0x3D40, 0xFF01, 0x3FC0, 0x3E80, 0xFE41,
  0xFA01, 0x3AC0, 0x3B80, 0xFB41, 0x3900, 0xF9C1, 0xF881, 0x3840,
  0x2800, 0xE8C1, 0xE981, 0x2940, 0xEB01, 0x2BC0, 0x2A80, 0xEA41,
  0xEE01, 0x2EC0, 0x2F80, 0xEF41, 0x2D00, 0xEDC1, 0xEC81, 0x2C40,
  0xE401, 0x24C0, 0x2580, 0xE541, 0x2700, 0xE7C1, 0xE681, 0x2640,
  0x2200, 0xE2C1, 0xE381, 0x2340, 0xE101, 0x21C0, 0x2080, 0xE041,
  0xA001, 0x60C0, 0x6180, 0xA141, 0x6300, 0xA3C1, 0xA281, 0x6240,
  0x6600, 0xA6C1, 0xA781, 0x6740, 0xA501, 0x65C0, 0x6480, 0xA441,
  0x6C00, 0xACC1, 0xAD81, 0x6D40, 0xAF01, 0x6FC0, 0x6E80, 0xAE41,
  0xAA01, 0x6AC0, 0x6B80, 0xAB41, 0x6900, 0xA9C1, 0xA881, 0x6840,
  0x7800, 0xB8C1, 0xB981, 0x7940, 0xBB01, 0x7BC0, 0x7A80, 0xBA41,
  0xBE01, 0x7EC0, 0x7F80, 0xBF41, 0x7D00, 0xBDC1, 0xBC81, 0x7C40,
  0xB401, 0x74C0, 0x7580, 0xB541, 0x7700, 0xB7C1, 0xB681, 0x7640,
  0x7200, 0xB2C1, 0xB381, 0x7340, 0xB101, 0x71C0, 0x7080, 0xB041,
  0x5000, 0x90C1, 0x9181, 0x5140, 0x9301, 0x53C0, 0x5280, 0x9241,
  0x9601, 0x56C0, 0x5780, 0x9741, 0x5500, 0x95C1, 0x9481, 0x5440,
  0x9C01, 0x5CC0, 0x5D80, 0x9D41, 0x5F00, 0x9FC1, 0x9E81, 0x5E40,
  0x5A00, 0x9AC1, 0x9B81, 0x5B40, 0x9901, 0x59C0, 0x5880, 0x9841,
  0x8801, 0x48C0, 0x4980, 0x8941, 0x4B00, 0x8BC1, 0x8A81, 0x4A40,
  0x4E00, 0x8EC1, 0x8F81, 0x4F40, 0x8D01, 0x4DC0, 0x4C80, 0x8C41,
  0x4400, 0x84C1, 0x8581, 0x4540, 0x8701, 0x47C0, 0x4680, 0x8641,
  0x8201, 0x42C0, 0x4380, 0x8341, 0x4100, 0x81C1, 0x8081, 0x4040]

def ext2fsCrc16 (crc : UInt32) (buffer : List UInt8) : UInt32 :=
  buffer.foldl (fun crc b =>
    (((crc >>> 8) &&& 0xff) ^^^ crc16Table.getD ((crc ^^^ b.toUInt32) &&& 0xff).toNat 0) &&& 0xffff) crc

/-- `ext2fs_group_desc_csum` in a buffer of `size` bytes. -/
def ext2fsGroupDescCsum (size group : Nat) : Option UInt16 :=
  if (sFeatureRoCompat buf).testBit 4 then
    let crc := ext2fsCrc16 0xffffffff (sUuid buf)
    let crc := ext2fsCrc16 crc (leBytes 4 group)
    let crc := ext2fsCrc16 crc (slice buf (groupDesc group) 30)
    if 32 < sDescSize buf then
      if groupDesc group + sDescSize buf ≤ size then
        some (ext2fsCrc16 crc (slice buf (groupDesc group + 32) (sDescSize buf - 32))).toUInt16
      else none
    else some crc.toUInt16
  else some 0

end

/-! ## The repair -/

/-- The loops over the bytes and bits of a bitmap. -/
def countFree (blockBuf : Nat → UInt8) (perGroup : Nat) : Nat :=
  (List.range (perGroup / 8)).foldl (fun free j =>
    (List.range 8).foldl (fun free k => free + (1 - (((blockBuf j).toNat >>> k) &&& 1))) free) 0

/-- `block_group_num` of a partition (`partition_status_init`). -/
def blockGroupNum (sectorsNum : UInt32) : Nat := (((sectorsNum - 1) >>> 18) + 1).toNat

def bakSize (sectorsNum : UInt32) : Nat := blockGroupNum sectorsNum * GRP_DESC_SIZE + FS_BLOCK_SIZE

/-- `lseek(partition_fd, (off_t)block * FS_BLOCK_SIZE, SEEK_SET)` from the position `pos`, both in
blocks. An `off_t` has 32 bits: from `2 ^ 31` on the offset is negative and refused. -/
def lseekBlock (pos block : Nat) : Nat :=
  let offset := block * FS_BLOCK_SIZE % 2 ^ 32
  if offset < 2 ^ 31 then offset / FS_BLOCK_SIZE else pos

structure SbRestore where
  sbBakBuf : Buffer
  /-- The position of `partition_fd`, in blocks. -/
  filePos : Nat
  blockFreeTotal : Nat
  inodeFreeTotal : Nat

/-- One group. `dev` has the blocks of the partition; a reading goes one block further. -/
def restoreGroup (dev : Nat → Nat → UInt8) (size : Nat) (s : SbRestore) (i : Nat) :
    Option SbRestore :=
  let blockPos := lseekBlock s.filePos (bgBlockBitmapLo s.sbBakBuf i)
  let blockFree := countFree (dev blockPos) (sBlocksPerGroup s.sbBakBuf)
  let inodePos := lseekBlock (blockPos + 1) (bgInodeBitmapLo s.sbBakBuf i)
  let inodeFree := countFree (dev inodePos) (sInodesPerGroup s.sbBakBuf)
  let buf := setMember s.sbBakBuf (bgFreeBlocksCountLo i) 2 blockFree
  let buf := setMember buf (bgFreeInodesCountLo i) 2 inodeFree
  (ext2fsGroupDescCsum buf size i).map fun csum => {
    sbBakBuf := setMember buf (bgChecksum i) 2 csum.toNat
    filePos := inodePos + 1
    blockFreeTotal := s.blockFreeTotal + blockFree
    inodeFreeTotal := s.inodeFreeTotal + inodeFree }

/-- What `partition_sb_restore` writes to the beginning of the partition. -/
def partitionSbRestore (dev : Nat → Nat → UInt8) (sectorsNum : UInt32) (bak : Buffer) :
    Option Buffer :=
  (Misc.runFrom (restoreGroup dev (bakSize sectorsNum)) ⟨bak, 0, 0, 0⟩
    (List.range (blockGroupNum sectorsNum))).map fun s =>
      setMember (setMember s.sbBakBuf sFreeBlocksCountLo 4 s.blockFreeTotal)
        sFreeInodesCount 4 s.inodeFreeTotal

end VdCamera.Storage
