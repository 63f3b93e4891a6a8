import Mathlib.Algebra.Ring.Int.Defs
import Mathlib.Algebra.Ring.Nat
import Mathlib.Logic.Function.Basic
import Mathlib.Tactic.Common
import VdCamera.Misc.Decimal
import VdCamera.Misc.Loop
import VdCamera.Misc.HandOff

/-!
# Disks and partitions

The tables of the SD card and of the hard disks, and the operations on one partition
(`storage/disk_mng.h`, `storage/partition_func.cpp`). The operating system is a device: one
operation for each thing the code asks of it, over a state of its own. A return code is `true` where
the source returns 0 and `false` where it returns -1.
-/

namespace VdCamera.Storage

open Misc

abbrev HDD_NUM : Int := 2
abbrev HDD_PARTITION_NUM : Int := 4
abbrev MMC_PARTITION_NUM : Int := 2
abbrev DISK_IS_MMC : Int := -1
abbrev DISK_DETECTED : Int := 1
abbrev DISK_USABLE : Int := 1
abbrev PARTITION_EMPTY_PERCENT : Nat := 10
abbrev DISK_TRASH_PATH : String := "trash"
abbrev EXT3_SUPER_MAGIC : Nat := 0xEF53

inductive PartitionStatus where
  | damaged
  | ok
  | abnormal
  | rescrue
  | format
  | clear
  deriving DecidableEq, Repr

structure PartitionInfo where
  status : PartitionStatus := .damaged
  dataToUpload : Nat := 0
  percentUsed : Nat := 0
  deriving DecidableEq, Repr

/-- The two bytes of the mark on the disk that the switching reads and writes. -/
structure DiskFlag where
  lastUsed : Nat := 0
  lastPartition : Nat := 0
  deriving DecidableEq, Repr

structure DiskInfo where
  diskFlag : DiskFlag := {}
  isDetected : Int := 0
  isUsable : Int := 0
  deriving DecidableEq, Repr

/-- The fields of `struct statfs` that the check reads; `unsigned long` has 32 bits. -/
structure Statfs where
  fType : Nat
  fBlocks : Nat
  fBfree : Nat
  fBavail : Nat
  deriving Repr

/-- What the code asks of the operating system about the partition of a disk. -/
structure Device (σ : Type) where
  /-- `mount_point_check`: `/etc/mtab` lists the partition at its own mount point. -/
  mountPointCheck : σ → Int → Int → Bool
  /-- The rest of `partition_mount`: clear the mount point, create it, `mount`. -/
  mount : Int → Int → σ → Bool × σ
  statfs : Int → Int → σ → Option Statfs × σ
  /-- The names in the root of the mounted partition; `none` when `opendir` fails. -/
  readDir : Int → Int → σ → Option (List String) × σ
  /-- `remove_recursively` of a path below the mount point. -/
  removeRecursively : Int → Int → String → σ → Bool × σ
  /-- What `partition_format` asks for first: the name, the device node and `mkfs`. -/
  formatReady : σ → Int → Int → Bool
  umount : Int → Int → σ → Bool × σ
  /-- Run `mkfs` to its end; `false` when it did not exit. -/
  mkfs : Int → Int → σ → Bool × σ
  writeFlag : Int → DiskFlag → σ → σ

/-- The globals `disk_mmc`, `disk_hdd`, `cur_disk_num` and `cur_partition_num`, the `remain_disk` of
the configuration and the state of the device. The tables are total: what is read outside an array
is arbitrary. `wiped` lists the calls that clear or format a partition, the oldest first. -/
structure Disks (σ : Type) where
  dev : σ
  mmcInfo : DiskInfo := {}
  mmcPartition : Int → PartitionInfo := fun _ => {}
  hddInfo : Int → DiskInfo := fun _ => {}
  hddPartition : Int → Int → PartitionInfo := fun _ _ => {}
  curDiskNum : Int := -1
  curPartitionNum : Int := 1
  remainDisk : Nat := 0
  wiped : List (Int × Int) := []

variable {σ : Type} (os : Device σ) (s : Disks σ) (disk part : Int)

/-- `PARTITION_FULL_PERCENT`. -/
def Disks.fullPercent : Nat :=
  100 - (if s.remainDisk < 10 ∨ s.remainDisk > 50 then 15 else s.remainDisk)

/-- `which_disk` is not `NULL`. -/
def whichDisk : Bool := disk = DISK_IS_MMC ∨ 0 ≤ disk ∧ disk < HDD_NUM

/-- `which_partition` is not `NULL`. -/
def whichPartition : Bool :=
  if disk = DISK_IS_MMC then 0 ≤ part ∧ part < MMC_PARTITION_NUM
  else 0 ≤ disk ∧ disk < HDD_NUM ∧ 0 ≤ part ∧ part < HDD_PARTITION_NUM

namespace Disks

def withDev (dev : σ) : Disks σ := { s with dev := dev }

def diskInfo : DiskInfo := if disk = DISK_IS_MMC then s.mmcInfo else s.hddInfo disk

def partition : PartitionInfo :=
  if disk = DISK_IS_MMC then s.mmcPartition part else s.hddPartition disk part

def setDiskFlag (flag : DiskFlag) : Disks σ :=
  if disk = DISK_IS_MMC then { s with mmcInfo := { s.mmcInfo with diskFlag := flag } }
  else { s with
    hddInfo := Function.update s.hddInfo disk { s.hddInfo disk with diskFlag := flag } }

def setPartition (p : PartitionInfo) : Disks σ :=
  if disk = DISK_IS_MMC then { s with mmcPartition := Function.update s.mmcPartition part p }
  else { s with
    hddPartition := Function.update s.hddPartition disk
      (Function.update (s.hddPartition disk) part p) }

def setStatus (status : PartitionStatus) : Disks σ :=
  s.setPartition disk part { s.partition disk part with status := status }

/-- Note that a partition is about to be cleared or formatted. -/
def noteWipe : Disks σ := { s with wiped := s.wiped ++ [(disk, part)] }

variable {s disk part}

@[simp] theorem setPartition_dev (p : PartitionInfo) :
    (s.setPartition disk part p).dev = s.dev := by
  unfold setPartition
  split <;> rfl

@[simp] theorem partition_setPartition (p : PartitionInfo) :
    (s.setPartition disk part p).partition disk part = p := by
  unfold setPartition partition
  split <;> simp

end Disks

/-- `is_data_to_upload` is a stub. -/
def isDataToUpload : Nat := 0

/-- The space in use, as a percentage of what is not reserved. -/
def Statfs.used (f : Statfs) : Nat := (f.fBlocks + 2 ^ 32 - f.fBfree) % 2 ^ 32

def Statfs.size (f : Statfs) : Nat := (f.used + f.fBavail) % 2 ^ 32

def Statfs.percentUsed (f : Statfs) : Nat := (f.used * 100 + f.size / 2) / f.size % 2 ^ 16

def partitionMount : Bool × Disks σ :=
  if os.mountPointCheck s.dev disk part then (true, s)
  else
    let (ok, dev) := os.mount disk part s.dev
    (ok, s.withDev dev)

/-- The part of `partition_status_check` after the partition is mounted. -/
def partitionStatfs : Bool × Disks σ :=
  match os.statfs disk part s.dev with
  | (none, dev) => (false, (s.withDev dev).setStatus disk part .abnormal)
  | (some f, dev) =>
    let s := s.withDev dev
    if f.size = 0 then (false, s.setStatus disk part .abnormal)
    else
      let s := s.setPartition disk part { s.partition disk part with percentUsed := f.percentUsed }
      if f.fType ≠ EXT3_SUPER_MAGIC then (false, s.setStatus disk part .abnormal)
      else (true, s.setPartition disk part
        { s.partition disk part with status := .ok, dataToUpload := isDataToUpload })

def partitionStatusCheck : Bool × Disks σ :=
  if !whichPartition disk part then (false, s)
  else if (s.partition disk part).status ≠ .ok then (false, s)
  else match partitionMount os s disk part with
    | (false, s) => (false, s.setStatus disk part .abnormal)
    | (true, s) => partitionStatfs os s disk part

/-- What `partition_clear_trash` and `partition_clear_all` have in common: mount the partition, run
the removal under the status `PARTITION_CLEAR`, check the partition again. -/
def partitionClear (remove : σ → Bool × σ) : Bool × Disks σ :=
  if !whichPartition disk part then (false, s)
  else if (s.partition disk part).status ≠ .ok then (false, s)
  else match partitionMount os s disk part with
    | (false, s) => (false, s.setStatus disk part .abnormal)
    | (true, s) =>
      let s := s.setStatus disk part .clear
      let (rc, dev) := remove s.dev
      let s := (s.withDev dev).setStatus disk part .ok
      (rc, (partitionStatusCheck os s disk part).2)

def partitionClearTrash : Bool × Disks σ :=
  partitionClear os (s.noteWipe disk part) disk part (os.removeRecursively disk part DISK_TRASH_PATH)

/-- The loop of `partition_clear_all` over the directory: the result is that of the last removal,
and stays `rc` when there is nothing to remove. -/
def removeEntries (rc : Bool) : List String → σ → Bool × σ
  | [], dev => (rc, dev)
  | name :: names, dev =>
    if name = "." ∨ name = ".." ∨ name = "lost+found" then removeEntries rc names dev
    else match os.removeRecursively disk part name dev with
      | (false, dev) => (false, dev)
      | (true, dev) => removeEntries true names dev

def removeAll (dev : σ) : Bool × σ :=
  match os.readDir disk part dev with
  | (none, dev) => (false, dev)
  | (some names, dev) => removeEntries os disk part false names dev

def partitionClearAll : Bool × Disks σ :=
  partitionClear os (s.noteWipe disk part) disk part (removeAll os disk part)

def partitionFormat : Bool × Disks σ :=
  let s := s.noteWipe disk part
  if !os.formatReady s.dev disk part then (false, s)
  else match os.umount disk part s.dev with
    | (false, dev) => (false, s.withDev dev)
    | (true, dev) =>
      let s := s.withDev dev
      if !whichPartition disk part then (false, s)
      else
        let old := (s.partition disk part).status
        let s := s.setStatus disk part .format
        let (exited, dev) := os.mkfs disk part s.dev
        (exited, (s.withDev dev).setStatus disk part old)

/-- `set_cur_partition_path`. -/
def setCurPartitionPath : Disks σ := { s with curDiskNum := disk, curPartitionNum := part }

/-- `disk_write_flag` after the flag in memory is changed. -/
def writeDiskFlag (flag : DiskFlag) : Disks σ :=
  let s := s.setDiskFlag disk flag
  s.withDev (os.writeFlag disk flag s.dev)

/-- `partition_mark_using` takes the mark off the disk used before, if it is another one. -/
def unmarkLastDisk : Disks σ :=
  let last := s.curDiskNum
  if last ≠ disk ∧ whichDisk last then
    writeDiskFlag os { s with curDiskNum := disk } last
      { (s.diskInfo last).diskFlag with lastUsed := 0 }
  else s

def partitionMarkUsing : Bool × Disks σ :=
  if !whichDisk disk then (false, s)
  else match partitionMount os s disk part with
    | (false, s) => (false, s)
    | (true, s) =>
      let s := writeDiskFlag os s disk { lastUsed := 1, lastPartition := (part % 256).toNat }
      (true, setCurPartitionPath (unmarkLastDisk os s disk) disk part)

/-! ## The root directory of a partition

A device for one partition whose root directory is known: what the system answers is up to outcomes,
and `remove_recursively` is that of `storage/partition_func.cpp`.
-/

/-- What `remove_recursively` of an entry meets with. -/
structure Removal where
  /-- `access(RM, X_OK)` succeeds -/
  rm : Bool
  /-- the child has exited -/
  exited : Bool
  /-- the entry is not there any more -/
  gone : Bool
  rm_of_gone : gone = true → rm = true

/-- The result of `remove_recursively` (`partition_func.cpp:1454-1487`), which does not look at the
exit status of `rm`. -/
def Removal.rc (r : Removal) : Bool :=
  if !r.rm then false
  else if !r.exited then false
  else true

/-- The names in the root directory, and how often the system was asked for something. -/
structure Root where
  names : List String
  nodup : names.Nodup
  asked : Nat := 0

/-- The answers of the system, those that can change from one time to the next by the number of the
question. -/
structure Outcomes where
  mountPointCheck : Nat → Bool
  mount : Nat → Bool
  statfs : Nat → Option Statfs
  opendir : Nat → Bool
  removal : String → Removal

namespace Root

def tick (r : Root) : Root := { r with asked := r.asked + 1 }

@[simp] theorem tick_asked (r : Root) : r.tick.asked = r.asked + 1 := rfl

/-- The directory without an entry. -/
def erase (r : Root) (name : String) : Root :=
  { r with names := r.names.filter (· ≠ name), nodup := r.nodup.filter _ }

end Root

/-- The system as far as clearing goes. -/
def clearDevice (o : Outcomes) : Device Root where
  mountPointCheck r _ _ := o.mountPointCheck r.asked
  mount _ _ r := (o.mount r.asked, r.tick)
  statfs _ _ r := (o.statfs r.asked, r.tick)
  readDir _ _ r := (if o.opendir r.asked then some r.names else none, r.tick)
  removeRecursively _ _ name r :=
    ((o.removal name).rc, if (o.removal name).gone then r.erase name else r)
  formatReady _ _ _ := false
  umount _ _ r := (true, r)
  mkfs _ _ r := (true, r)
  writeFlag _ _ r := r

/-! ## Disk ids

`disk_id_create` of `storage/disk_func.cpp` with `random_32` of `storage/storage_common.cpp`. `int` and
`long` have 32 bits. The names in the directory of the disk information are those that `sprintf` with
`%u` makes of ids (`storage/disk_mng.cpp:143`).
-/

/-- What `random_32` gets, by the number of the draw. -/
structure RandomSource where
  /-- what is read from `/dev/urandom`, where it can be opened -/
  urandom : Nat → Option UInt32
  clock : Nat → Int
  /-- `random_r` after `srandom_r` -/
  prng : Int → UInt32

/-- The listing of the directory: the two names of every directory and names of ids. -/
structure InfoDir where
  names : List (List UInt8)
  ids : ∀ n ∈ names, n = ascii "." ∨ n = ascii ".." ∨ ∃ id : UInt32, n = digits id.toNat

section

variable (src : RandomSource) (opened : Nat → Bool) (dir : InfoDir)

def random32 (i : Nat) : UInt32 :=
  match src.urandom i with
  | some r => r
  | none => src.prng (src.clock i)

/-- The id of a draw. -/
def drawnId (i : Nat) : UInt32 := random32 src i ||| 0x80000000

/-- The comparison with a name: `id == (unsigned int)atoi(entry.d_name)`. -/
def idTaken (id : UInt32) (name : List UInt8) : Bool := id == (atoi name).toUInt32

/-- One iteration of the outer loop; `none` when it is left with this draw. -/
def idStep (i : Nat) : Option Nat :=
  if opened i && dir.names.any (idTaken (drawnId src i)) then some (i + 1) else none

/-- `disk_id_create`. -/
def diskIdCreate (fuel : Nat) : Option UInt32 :=
  (loop (idStep src opened dir) fuel 0).map (drawnId src)

end

/-! ## Commands

`disk_cmd_mng` hands a command to a `disk_cmd_process` thread through a condition without a predicate.
-/

/-- `DiskCmd`. -/
structure DiskCmd where
  cmd : Int
  diskNum : Int
  partitionNum : Int
  deriving DecidableEq, Repr

/-- The words in the order in which `disk_cmd_process` copies them. -/
def DiskCmd.words (c : DiskCmd) : List Int := [c.cmd, c.diskNum, c.partitionNum]

/-- What `disk_cmd_mng` leaves in the command. -/
def DiskCmd.cleared : DiskCmd := { cmd := -1, diskNum := -2, partitionNum := -1 }

/-- `disk_cmd_mng` and the `disk_cmd_process` threads. Only `disk_maintain` calls it, in the thread of
`disk_daemon`. -/
def diskCmdStep : HandOff Int → HandOffStep Int → Option (HandOff Int) :=
  handOffStep DiskCmd.cleared.words

end VdCamera.Storage
