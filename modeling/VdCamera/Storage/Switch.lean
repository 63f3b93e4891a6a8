import VdCamera.Misc.RoundRobin
import VdCamera.Storage.Disk

/-!
# Choosing, clearing and switching

`hdd_choose`, `hdd_enable`, `mmc_clear` and `hdd_clear` of `storage/disk_func.cpp` and
`partition_switch` of `storage/partition_func.cpp`. Their loops try partitions in a circular order
until one succeeds.
-/

namespace VdCamera.Storage

open Misc (walk tryEach)

variable {σ : Type} (os : Device σ) (s : Disks σ)

/-- The body of `hdd_power_on` is commented out in the source. -/
def hddPowerOn (_hdd : Int) : Bool := true

namespace Disks

/-- The partition is normal and not full. -/
def isFree (disk part : Int) : Bool :=
  (s.partition disk part).status = .ok ∧ (s.partition disk part).percentUsed < s.fullPercent

/-- The two loops of `hdd_choose` for the disk `i`: the partition used last if it is normal, else
the first free one. -/
def hddChooseIn (flag : Nat) (i : Int) : Option (Int × Int) :=
  let p := s.hddInfo i
  if p.isDetected ≠ 0 ∧ p.diskFlag.lastUsed ||| flag ≠ 0 then
    let last : Int := p.diskFlag.lastPartition
    if last < HDD_PARTITION_NUM ∧ (s.hddPartition i last).status = .ok then some (i, last)
    else
      match [0, 1, 2, 3].find? fun j : Int => s.isFree i j with
      | some j => some (i, j)
      | none => none
  else none

def hddChoose : Option (Int × Int) :=
  s.hddChooseIn 0 0 <|> s.hddChooseIn 0 1 <|> s.hddChooseIn 1 0 <|> s.hddChooseIn 1 1

end Disks

/-- `hdd_power_down_others`, like every powering down, has no effect. -/
def hddEnable : Bool × Disks σ :=
  match s.hddChoose with
  | none => (false, s)
  | some (hdd, part) => (true, (partitionMarkUsing os s hdd part).2)

/-- One attempt of the cleaners: an operation on the partition, then a check, and the use below a
limit. The partition is read through the table the cleaner walks over. -/
def clearedBelow (op : Disks σ → Bool × Disks σ) (look : Disks σ → PartitionInfo) (limit : Nat)
    (disk part : Int) (s : Disks σ) : Bool × Disks σ :=
  match op s with
  | (false, s) => (false, s)
  | (true, s) =>
    match partitionStatusCheck os s disk part with
    | (false, s) => (false, s)
    | (true, s) => ((look s).percentUsed < limit, s)

/-- The body of the first loop: only clear the trash. -/
def tryTrash (look : Disks σ → Int → PartitionInfo) (disk part : Int) (s : Disks σ) :
    Bool × Disks σ :=
  if (look s part).status ≠ .ok then (false, s)
  else clearedBelow os (fun s => partitionClearTrash os s disk part) (look · part) s.fullPercent
    disk part s

/-- The body of the second loop: clear the whole partition, else format it. -/
def tryAll (look : Disks σ → Int → PartitionInfo) (disk part : Int) (s : Disks σ) :
    Bool × Disks σ :=
  if (look s part).status ≠ .ok then (false, s)
  else
    match clearedBelow os (fun s => partitionClearAll os s disk part) (look · part)
      PARTITION_EMPTY_PERCENT disk part s with
    | (true, s) => (true, s)
    | (false, s) => clearedBelow os (fun s => partitionFormat os s disk part) (look · part)
        PARTITION_EMPTY_PERCENT disk part s

/-- The partitions `mmc_clear` walks over: all but the current one. -/
def mmcClearOrder : List Int :=
  if s.curDiskNum = DISK_IS_MMC then walk (s.curPartitionNum + 1) MMC_PARTITION_NUM 1
  else walk (s.mmcInfo.diskFlag.lastPartition + 1) MMC_PARTITION_NUM 2

def mmcClear : Bool × Disks σ :=
  let order := mmcClearOrder s
  match tryEach (tryTrash os Disks.mmcPartition DISK_IS_MMC) order s with
  | (true, s) => (true, s)
  | (false, s) => tryEach (tryAll os Disks.mmcPartition DISK_IS_MMC) order s

/-- The disk in turn `i` of `hdd_clear`: the current one first, unless its last partition is in use.
-/
def hddClearDisk (i : Int) : Int :=
  if 0 ≤ s.curDiskNum ∧ s.curDiskNum < HDD_NUM ∧ s.curPartitionNum = HDD_PARTITION_NUM - 1 then
    (s.curDiskNum + i + 1).tmod HDD_NUM
  else (s.curDiskNum + i).tmod HDD_NUM

/-- The partitions `hdd_clear` walks over on a disk. -/
def hddClearOrder (disk : Int) : List Int :=
  if s.curDiskNum = disk then walk (s.curPartitionNum + 1) HDD_PARTITION_NUM 3
  else walk ((s.hddInfo disk).diskFlag.lastPartition + 1) HDD_PARTITION_NUM 4

/-- One turn of either loop of `hdd_clear`. -/
def hddClearTurn (attempt : (Disks σ → Int → PartitionInfo) → Int → Int → Disks σ → Bool × Disks σ)
    (i : Int) (s : Disks σ) : Bool × Disks σ :=
  let disk := hddClearDisk s i
  let p := s.hddInfo disk
  if p.isDetected ≠ DISK_DETECTED then (false, s)
  else if p.isUsable ≠ DISK_USABLE ∧ !hddPowerOn disk then (false, s)
  else tryEach (attempt (fun s => s.hddPartition disk) disk) (hddClearOrder s disk) s

def hddClear : Bool × Disks σ :=
  match tryEach (hddClearTurn (tryTrash os)) [0, 1] s with
  | (true, s) => (true, s)
  | (false, s) => tryEach (hddClearTurn (tryAll os)) [0, 1] s

/-- One partition in the search of `partition_switch`: use it if it is free and can be mounted. -/
def tryUse (disk part : Int) (s : Disks σ) : Bool × Disks σ :=
  if s.isFree disk part then
    match partitionMount os s disk part with
    | (false, s) => (false, s)
    | (true, s) => (true, (partitionMarkUsing os s disk part).2)
  else (false, s)

def mmcSearch : Bool × Disks σ :=
  tryEach (tryUse os DISK_IS_MMC) (walk s.mmcInfo.diskFlag.lastPartition MMC_PARTITION_NUM 2) s

/-- The search on one hard disk; powering it on cannot fail. -/
def hddSearchDisk (disk : Int) (s : Disks σ) : Bool × Disks σ :=
  if (s.hddInfo disk).isDetected ≠ DISK_DETECTED then (false, s)
  else tryEach (tryUse os disk)
    (walk (s.hddInfo disk).diskFlag.lastPartition HDD_PARTITION_NUM 4) s

def hddSearch : Bool × Disks σ :=
  tryEach (hddSearchDisk os) (walk s.curDiskNum HDD_NUM 2) s

/-- The body of `partition_switch`: the return code and the state, or the state in which it calls
itself. -/
def switchBody : (Int × Disks σ) ⊕ Disks σ :=
  if s.curDiskNum = DISK_IS_MMC then
    match mmcSearch os s with
    | (true, s) => .inl (0, s)
    | (false, s) =>
      match hddEnable os s with
      | (true, s) => .inl (0, s)
      | (false, s) =>
        match mmcClear os s with
        | (true, s) => .inr s
        | (false, s) => .inl (-1, s)
  else if 0 ≤ s.curDiskNum ∧ s.curDiskNum < HDD_NUM then
    match hddSearch os s with
    | (true, s) => .inl (0, s)
    | (false, s) =>
      match hddClear os s with
      | (true, s) => .inr s
      | (false, s) => .inl (-1, s)
  else .inl (-1, s)

/-- `partition_switch` with the number of calls that may be nested, `none` when they are too few.
The result of a nested call is ignored. -/
def partitionSwitch : Nat → Disks σ → Option (Int × Disks σ)
  | 0, _ => none
  | fuel + 1, s =>
    match switchBody os s with
    | .inl r => some r
    | .inr s => (partitionSwitch fuel s).map fun r => (0, r.2)

end VdCamera.Storage
