import VdCamera.Storage.Disk

/-!
# The partition table of a disk

The sizes that `storage/disk_func.cpp` computes for the partitions of a disk, and what it passes to
`disk_partition.sh`. `unsigned long` has 32 bits.
-/

namespace VdCamera.Storage

def DISK_MIN_SIZE : UInt32 := 2000

def DISK_MAX_SIZE : UInt32 := 2600000

abbrev MBR_PARTITION_NUM : Nat := 4

def LINUX_NATIVE : UInt8 := 0x83

/-- `is_size_suitable`. -/
inductive DiskSize
  | suitable
  | small
  | large
  deriving DecidableEq, Repr

/-- The size of a disk in MB, as `disk_check_size` has it. -/
def megabytes (sizeInByte : UInt64) : UInt32 := (sizeInByte / 1000000).toUInt32

/-- `disk_check_size`. -/
def diskCheckSize (sizeInByte : UInt64) : DiskSize :=
  if megabytes sizeInByte < DISK_MIN_SIZE then .small
  else if megabytes sizeInByte > DISK_MAX_SIZE then .large
  else .suitable

/-- The members of a `PartitionEntry` that are not left 0. -/
structure PartitionEntry where
  type : UInt8 := 0
  sectorsNum : UInt32 := 0
  deriving DecidableEq, Repr

section

variable (disk : Int) (sizeInByte : UInt64)

def partitionNum : Nat :=
  if disk = DISK_IS_MMC then MMC_PARTITION_NUM.toNat else HDD_PARTITION_NUM.toNat

def usableSectors : UInt64 := (sizeInByte >>> 9) - 2048

def partitionSectors : UInt64 :=
  ((usableSectors sizeInByte / (partitionNum disk).toUInt64) >>> 9) <<< 9

/-- What is put into `sectors_num` of the entry `i`, before it is cut to 32 bits. -/
def entrySectors (i : Nat) : UInt64 :=
  if i = partitionNum disk - 1 then
    usableSectors sizeInByte - partitionSectors disk sizeInByte * i.toUInt64
  else partitionSectors disk sizeInByte

/-- `partition_table_should_be`. -/
def partitionTableShouldBe : Option (Fin MBR_PARTITION_NUM → PartitionEntry) :=
  if whichDisk disk then
    some fun i =>
      if i.val < partitionNum disk then
        { type := LINUX_NATIVE, sectorsNum := (entrySectors disk sizeInByte i.val).toUInt32 }
      else {}
  else none

/-- The number that `disk_partition` passes to the script. -/
def argvSectors : UInt64 := partitionSectors disk sizeInByte - 1

/-- The first sector and the last one of the partition `i` as the script asks for it: behind the 2048
sectors that are kept free, or behind the partition before; up to `+argv_sectors`, or to the end of the
disk. -/
def scriptPartition (i : Nat) : Nat × Nat :=
  let first := 2048 + i * ((argvSectors disk sizeInByte).toNat + 1)
  (first, if i = partitionNum disk - 1 then (sizeInByte >>> 9).toNat - 1
    else first + (argvSectors disk sizeInByte).toNat)

end

end VdCamera.Storage
