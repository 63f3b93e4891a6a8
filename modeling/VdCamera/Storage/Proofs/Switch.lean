import VdCamera.Storage.Proofs.Clear

/-!
# The rotation of the partitions

`partition_switch` always returns, after one nested call at most: a clearing that succeeds leaves a
partition that the search of the nested call finds. It ends on a free partition except when the
choice of a hard disk does not.
-/

namespace VdCamera.Storage

open Misc

variable {σ : Type} {os : Device σ} {opened : σ → Int → Int → Prop} {s t u : Disks σ}
  {disk part : Int}

/-- A partition whose mounting has succeeded can be opened again: it stays open while partitions are
mounted and their statistics are read. -/
structure Reopens (os : Device σ) (opened : σ → Int → Int → Prop) : Prop where
  check {dev : σ} {d p : Int} : os.mountPointCheck dev d p = true → opened dev d p
  mount {dev dev' : σ} {d p : Int} : os.mount d p dev = (true, dev') → opened dev' d p
  again {dev : σ} {d p : Int} :
    opened dev d p → os.mountPointCheck dev d p = true ∨ (os.mount d p dev).1 = true
  mount_keeps {dev : σ} {d p : Int} (d' p' : Int) :
    opened dev d p → opened (os.mount d' p' dev).2 d p
  statfs_keeps {dev : σ} {d p : Int} (d' p' : Int) :
    opened dev d p → opened (os.statfs d' p' dev).2 d p

/-- The current partition is a partition, is normal and is not full. -/
def Usable (s : Disks σ) : Prop :=
  whichPartition s.curDiskNum s.curPartitionNum ∧ s.isFree s.curDiskNum s.curPartitionNum

/-- `partition_switch` returns, and whenever it returns 0 the current partition is usable. -/
def EndsUsable (os : Device σ) (s : Disks σ) : Prop :=
  (∃ fuel, (partitionSwitch os fuel s).isSome) ∧
    ∀ fuel t, partitionSwitch os fuel s = some (0, t) → Usable t

section Fuel

variable {n m : Nat} {r r' : Int × Disks σ}

theorem partitionSwitch_of_inl (h : switchBody os s = .inl r) (n : Nat) :
    partitionSwitch os (n + 1) s = some r := by
  unfold partitionSwitch
  rw [h]

theorem partitionSwitch_of_inr (h : switchBody os s = .inr t) (n : Nat) :
    partitionSwitch os (n + 1) s = (partitionSwitch os n t).map fun r => (0, r.2) := by
  rw [partitionSwitch, h]

/-- More nested calls than needed change nothing. -/
theorem partitionSwitch_mono (h : partitionSwitch os n s = some r) (hnm : n ≤ m) :
    partitionSwitch os m s = some r := by
  induction n generalizing m s r with
  | zero => cases h
  | succ n ih =>
    obtain ⟨m, rfl⟩ := Nat.exists_eq_add_of_le' (Nat.le_trans (Nat.le_add_left 1 n) hnm)
    rcases hbody : switchBody os s with q | t
    · rw [partitionSwitch_of_inl hbody] at h ⊢
      exact h
    · rw [partitionSwitch_of_inr hbody] at h ⊢
      obtain ⟨q, hq, rfl⟩ := Option.map_eq_some_iff.mp h
      rw [ih hq (Nat.le_of_succ_le_succ hnm), Option.map_some]

/-- One run that ends well is all runs. -/
theorem EndsUsable.of_run {rc : Int} (h : partitionSwitch os n s = some (rc, t))
    (husable : rc = 0 → Usable t) : EndsUsable os s := by
  refine ⟨⟨n, by simp [h]⟩, ?_⟩
  intro m u hu
  have hn := partitionSwitch_mono h (Nat.le_max_left n m)
  have hm := partitionSwitch_mono hu (Nat.le_max_right n m)
  cases hn.symm.trans hm
  exact husable rfl

end Fuel

section Mount

theorem partitionMount_withDev (os : Device σ) (s : Disks σ) (disk part : Int) :
    ∃ dev, (partitionMount os s disk part).2 = s.withDev dev := by
  unfold partitionMount
  split
  · exact ⟨s.dev, rfl⟩
  · exact ⟨_, rfl⟩

theorem Reopens.partitionMount_true (h : Reopens os opened)
    (hm : partitionMount os s disk part = (true, t)) : opened t.dev disk part := by
  unfold partitionMount at hm
  split at hm
  · rename_i hcheck
    cases hm
    exact h.check hcheck
  · rcases hmount : os.mount disk part s.dev with ⟨ok, dev⟩
    rw [hmount] at hm
    cases hm
    exact h.mount hmount

theorem Reopens.partitionMount_again (h : Reopens os opened) (ho : opened s.dev disk part) :
    ∃ t, partitionMount os s disk part = (true, t) := by
  unfold partitionMount
  split
  · exact ⟨s, rfl⟩
  · rename_i hcheck
    have hmount := (h.again ho).resolve_left hcheck
    exact ⟨_, Prod.ext hmount rfl⟩

theorem Reopens.partitionMount_keeps (h : Reopens os opened) (ho : opened s.dev disk part)
    (disk' part' : Int) : opened (partitionMount os s disk' part').2.dev disk part := by
  unfold partitionMount
  split
  · exact ho
  · exact h.mount_keeps disk' part' ho

/-- A check that succeeds leaves the partition normal and open. -/
theorem Reopens.partitionStatusCheck_true (h : Reopens os opened)
    (hc : partitionStatusCheck os s disk part = (true, t)) :
    whichPartition disk part ∧ (t.partition disk part).status = .ok ∧ opened t.dev disk part := by
  unfold partitionStatusCheck at hc
  split_ifs at hc with hwhich hstatus
  · cases hc
  · cases hc
  rcases hm : partitionMount os s disk part with ⟨_ | _, u⟩ <;> rw [hm] at hc
  · cases hc
  · have ho := h.statfs_keeps disk part (h.partitionMount_true hm)
    refine ⟨by simpa using hwhich, ?_⟩
    dsimp only [partitionStatfs] at hc
    rcases hs : os.statfs disk part u.dev with ⟨_ | f, dev⟩ <;> rw [hs] at hc ho
    · cases hc
    · dsimp only at hc
      split_ifs at hc
      · cases hc
      · cases hc
      · cases hc
        simpa [Disks.withDev] using ho

end Mount

theorem isFree_writeDiskFlag (os : Device σ) (s : Disks σ) (disk : Int) (flag : DiskFlag) :
    (writeDiskFlag os s disk flag).isFree = s.isFree := by
  unfold writeDiskFlag Disks.setDiskFlag
  split <;> rfl

theorem isFree_unmarkLastDisk (os : Device σ) (s : Disks σ) (disk : Int) :
    (unmarkLastDisk os s disk).isFree = s.isFree := by
  unfold unmarkLastDisk
  dsimp only
  split
  · exact isFree_writeDiskFlag os _ _ _
  · rfl

/-- A partition that can be mounted becomes the current one. -/
theorem partitionMarkUsing_of_mount (hdisk : whichDisk disk)
    (hm : partitionMount os s disk part = (true, t)) :
    (partitionMarkUsing os s disk part).2.curDiskNum = disk ∧
      (partitionMarkUsing os s disk part).2.curPartitionNum = part ∧
      (partitionMarkUsing os s disk part).2.isFree = s.isFree := by
  obtain ⟨dev, rfl⟩ : ∃ dev, t = s.withDev dev := by
    have := partitionMount_withDev os s disk part
    rwa [hm] at this
  unfold partitionMarkUsing
  rw [hdisk, hm]
  exact ⟨rfl, rfl, (isFree_unmarkLastDisk os _ disk).trans (isFree_writeDiskFlag os _ disk _)⟩

theorem partitionMarkUsing_of_not_mount (hm : partitionMount os s disk part = (false, t)) :
    ∃ dev, (partitionMarkUsing os s disk part).2 = s.withDev dev := by
  unfold partitionMarkUsing
  split
  · exact ⟨s.dev, rfl⟩
  · have := partitionMount_withDev os s disk part
    rwa [hm] at this ⊢

section Search

theorem whichPartition_mmc_iff :
    whichPartition DISK_IS_MMC part ↔ 0 ≤ part ∧ part < MMC_PARTITION_NUM := by
  unfold whichPartition
  rw [if_pos rfl, decide_eq_true_eq]

theorem whichPartition_hdd_iff (hdisk : disk ≠ DISK_IS_MMC) : whichPartition disk part ↔
    (0 ≤ disk ∧ disk < HDD_NUM) ∧ 0 ≤ part ∧ part < HDD_PARTITION_NUM := by
  unfold whichPartition
  rw [if_neg hdisk, decide_eq_true_eq, and_assoc]

theorem ne_mmc_of_nonneg (h : 0 ≤ disk) : disk ≠ DISK_IS_MMC := by
  rintro rfl
  exact absurd h (by decide)

theorem whichPartition_hdd (h : 0 ≤ disk ∧ disk < HDD_NUM)
    (h' : 0 ≤ part ∧ part < HDD_PARTITION_NUM) :
    whichPartition disk part := (whichPartition_hdd_iff (ne_mmc_of_nonneg h.1)).mpr ⟨h, h'⟩

theorem whichDisk_of_whichPartition (h : whichPartition disk part) : whichDisk disk := by
  unfold whichDisk
  rw [decide_eq_true_eq]
  by_cases hdisk : disk = DISK_IS_MMC
  · exact Or.inl hdisk
  · exact Or.inr ((whichPartition_hdd_iff hdisk).mp h).1

theorem tryUse_false (h : tryUse os disk part s = (false, t)) : ∃ dev, t = s.withDev dev := by
  unfold tryUse at h
  split at h
  · have hdev := partitionMount_withDev os s disk part
    rcases hm : partitionMount os s disk part with ⟨_ | _, u⟩ <;> rw [hm] at h hdev
    · cases h
      exact hdev
    · cases h
  · cases h
    exact ⟨s.dev, rfl⟩

theorem tryUse_false_keeps (hos : Reopens os opened) {disk' part' : Int}
    (ho : opened s.dev disk' part') (h : tryUse os disk part s = (false, t)) :
    opened t.dev disk' part' := by
  unfold tryUse at h
  split at h
  · have hkeep := hos.partitionMount_keeps ho disk part
    rcases hm : partitionMount os s disk part with ⟨_ | _, u⟩ <;> rw [hm] at h hkeep
    · cases h
      exact hkeep
    · cases h
  · cases h
    exact ho

/-- A partition that the search takes is usable. -/
theorem tryUse_true (hwhich : whichPartition disk part)
    (hos : Reopens os opened) (h : tryUse os disk part s = (true, t)) : Usable t := by
  unfold tryUse at h
  split at h
  · rename_i hfree
    obtain ⟨dev, hdev⟩ := partitionMount_withDev os s disk part
    rcases hm : partitionMount os s disk part with ⟨_ | _, u⟩ <;> rw [hm] at h hdev
    · cases h
    · obtain rfl : u = s.withDev dev := hdev
      obtain ⟨u, hagain⟩ := hos.partitionMount_again (hos.partitionMount_true hm)
      obtain ⟨hcur, hpart, hsame⟩ :=
        partitionMarkUsing_of_mount (whichDisk_of_whichPartition hwhich) hagain
      cases h
      unfold Usable
      rw [hcur, hpart, hsame]
      exact ⟨hwhich, hfree⟩
  · cases h

/-- The search takes a free partition that can be opened. -/
theorem tryUse_of_opened (hos : Reopens os opened) (hfree : s.isFree disk part)
    (ho : opened s.dev disk part) : ∃ t, tryUse os disk part s = (true, t) := by
  unfold tryUse
  rw [if_pos hfree]
  obtain ⟨t, ht⟩ := hos.partitionMount_again ho
  rw [ht]
  exact ⟨_, rfl⟩

theorem mmcSearch_true (hos : Reopens os opened) (h : mmcSearch os s = (true, t)) : Usable t := by
  obtain ⟨part, hpart, u, hu⟩ := exists_of_tryEach h
  have hbound := bounds_of_mem_walk (by omega) (by decide) hpart
  exact tryUse_true (whichPartition_mmc_iff.mpr hbound) hos hu

theorem hddSearchDisk_true (hos : Reopens os opened) (hdisk : 0 ≤ disk ∧ disk < HDD_NUM)
    (h : hddSearchDisk os disk s = (true, t)) : Usable t := by
  unfold hddSearchDisk at h
  split at h
  · cases h
  · obtain ⟨part, hpart, u, hu⟩ := exists_of_tryEach h
    have hbound := bounds_of_mem_walk (by omega) (by decide) hpart
    exact tryUse_true (whichPartition_hdd hdisk hbound) hos hu

theorem hddSearch_true (hos : Reopens os opened) (hcur : 0 ≤ s.curDiskNum)
    (h : hddSearch os s = (true, t)) : Usable t := by
  obtain ⟨disk, hdisk, u, hu⟩ := exists_of_tryEach h
  exact hddSearchDisk_true hos (bounds_of_mem_walk hcur (by decide) hdisk) hu

theorem hddSearch_false (h : hddSearch os s = (false, t)) : ∃ dev, t = s.withDev dev := by
  refine tryEach_false (I := fun t => ∃ dev, t = s.withDev dev) ?_ ⟨s.dev, rfl⟩ h
  rintro disk - _ t ⟨dev, rfl⟩ ht
  unfold hddSearchDisk at ht
  split at ht
  · cases ht
    exact ⟨dev, rfl⟩
  · refine tryEach_false (I := fun t => ∃ dev, t = s.withDev dev) ?_ ⟨dev, rfl⟩ ht
    rintro part - _ u ⟨dev, rfl⟩ hu
    obtain ⟨dev', rfl⟩ := tryUse_false hu
    exact ⟨dev', rfl⟩

/-- What a failed search leaves unchanged: the tables, and that a partition is open. -/
def Searched (opened : σ → Int → Int → Prop) (s : Disks σ) (disk part : Int) (t : Disks σ) : Prop :=
  (∃ dev, t = s.withDev dev) ∧ opened t.dev disk part

theorem Searched.tryUse {disk' part' : Int} (hos : Reopens os opened)
    (h : Searched opened s disk part t) (hu : tryUse os disk' part' t = (false, u)) :
    Searched opened s disk part u := by
  obtain ⟨⟨dev, rfl⟩, ho⟩ := h
  obtain ⟨dev', rfl⟩ := tryUse_false hu
  exact ⟨⟨dev', rfl⟩, tryUse_false_keeps hos ho hu⟩

theorem Searched.hddSearchDisk {disk' : Int} (hos : Reopens os opened)
    (h : Searched opened s disk part t) (hu : hddSearchDisk os disk' t = (false, u)) :
    Searched opened s disk part u := by
  unfold Storage.hddSearchDisk at hu
  split at hu
  · cases hu
    exact h
  · exact tryEach_false (fun _ _ _ _ hs => hs.tryUse hos) h hu

/-- What a successful clearing leaves: a free partition that is open. -/
structure Cleared (opened : σ → Int → Int → Prop) (s : Disks σ) (disk part : Int) : Prop where
  which : whichPartition disk part
  free : s.isFree disk part
  opened : opened s.dev disk part

theorem Cleared.tryUse (hos : Reopens os opened) (h : Cleared opened s disk part)
    (ht : Searched opened s disk part t) : ∃ u, tryUse os disk part t = (true, u) := by
  obtain ⟨⟨dev, rfl⟩, ho⟩ := ht
  exact tryUse_of_opened hos h.free ho

theorem Cleared.mmcSearch (hos : Reopens os opened) (h : Cleared opened s DISK_IS_MMC part) :
    ∃ t, mmcSearch os s = (true, t) := by
  have hpart := whichPartition_mmc_iff.mp h.which
  exact tryEach_of_mem (fun _ _ _ _ ht => ht.tryUse hos) ⟨⟨s.dev, rfl⟩, h.opened⟩
    (mem_walk_of_lt (by omega) hpart.1 hpart.2 (by decide)) fun t ht => h.tryUse hos ht

theorem Cleared.hddSearchDisk (hos : Reopens os opened) (h : Cleared opened s disk part)
    (hdisk : disk ≠ DISK_IS_MMC) (hdet : (s.hddInfo disk).isDetected = DISK_DETECTED)
    (ht : Searched opened s disk part t) : ∃ u, hddSearchDisk os disk t = (true, u) := by
  obtain ⟨-, hpart⟩ := (whichPartition_hdd_iff hdisk).mp h.which
  unfold Storage.hddSearchDisk
  have hdet' : (t.hddInfo disk).isDetected = DISK_DETECTED := by
    obtain ⟨⟨dev, rfl⟩, -⟩ := ht
    exact hdet
  rw [if_neg (not_not_intro hdet')]
  exact tryEach_of_mem (I := Searched opened s disk part) (fun _ _ _ _ ht => ht.tryUse hos) ht
    (mem_walk_of_lt (by omega) hpart.1 hpart.2 (by decide)) fun u hu => h.tryUse hos hu

theorem Cleared.hddSearch (hos : Reopens os opened) (h : Cleared opened s disk part)
    (hdisk : disk ≠ DISK_IS_MMC) (hdet : (s.hddInfo disk).isDetected = DISK_DETECTED)
    (hcur : 0 ≤ s.curDiskNum) : ∃ t, hddSearch os s = (true, t) := by
  obtain ⟨hwhich, -⟩ := (whichPartition_hdd_iff hdisk).mp h.which
  exact tryEach_of_mem (fun _ _ _ _ ht => ht.hddSearchDisk hos) ⟨⟨s.dev, rfl⟩, h.opened⟩
    (mem_walk_of_lt hcur hwhich.1 hwhich.2 (by decide))
    fun t ht => h.hddSearchDisk hos hdisk hdet ht

end Search

section Clear

theorem empty_lt_full (s : Disks σ) : PARTITION_EMPTY_PERCENT < s.fullPercent := by
  unfold Disks.fullPercent PARTITION_EMPTY_PERCENT
  split <;> omega

theorem clearedBelow_true (hos : Reopens os opened) {op : Disks σ → Bool × Disks σ}
    {look : Disks σ → PartitionInfo} {limit : Nat} (hlook : ∀ u, look u = u.partition disk part)
    (hlimit : limit ≤ t.fullPercent)
    (h : clearedBelow os op look limit disk part s = (true, t)) : Cleared opened t disk part := by
  unfold clearedBelow at h
  rcases hop : op s with ⟨_ | _, u⟩ <;> rw [hop] at h
  · cases h
  · dsimp only at h
    rcases hc : partitionStatusCheck os u disk part with ⟨_ | _, v⟩ <;> rw [hc] at h
    · cases h
    · obtain ⟨hpercent, rfl⟩ := Prod.mk.inj h
      obtain ⟨hwhich, hstatus, ho⟩ := hos.partitionStatusCheck_true hc
      rw [hlook, decide_eq_true_eq] at hpercent
      refine ⟨hwhich, ?_, ho⟩
      simpa [Disks.isFree, hstatus] using lt_of_lt_of_le hpercent hlimit

variable {look : Disks σ → Int → PartitionInfo}

theorem tryTrash_true (hos : Reopens os opened) (hlook : ∀ u, look u part = u.partition disk part)
    (h : tryTrash os look disk part s = (true, t)) : Cleared opened t disk part := by
  have hframe := frame_tryTrash os look disk part s
  rw [h] at hframe
  unfold tryTrash at h
  split at h
  · cases h
  · exact clearedBelow_true hos hlook hframe.fullPercent.ge h

theorem tryAll_true (hos : Reopens os opened) (hlook : ∀ u, look u part = u.partition disk part)
    (h : tryAll os look disk part s = (true, t)) : Cleared opened t disk part := by
  unfold tryAll at h
  split at h
  · cases h
  · rcases hr : clearedBelow os (fun s => partitionClearAll os s disk part) (look · part)
      PARTITION_EMPTY_PERCENT disk part s with ⟨_ | _, u⟩ <;> rw [hr] at h
    · exact clearedBelow_true hos hlook (empty_lt_full t).le h
    · cases h
      exact clearedBelow_true hos hlook (empty_lt_full t).le hr

theorem mmcClear_true (hos : Reopens os opened) (h : mmcClear os s = (true, t)) :
    ∃ part, Cleared opened t DISK_IS_MMC part := by
  unfold mmcClear at h
  dsimp only at h
  rcases hr : tryEach (tryTrash os Disks.mmcPartition DISK_IS_MMC) (mmcClearOrder s) s with
    ⟨_ | _, u⟩ <;> rw [hr] at h
  · obtain ⟨part, -, v, hv⟩ := exists_of_tryEach h
    exact ⟨part, tryAll_true hos (fun _ => rfl) hv⟩
  · cases h
    obtain ⟨part, -, v, hv⟩ := exists_of_tryEach hr
    exact ⟨part, tryTrash_true hos (fun _ => rfl) hv⟩

theorem hddClearDisk_bounds (hcur : 0 ≤ s.curDiskNum) {i : Int} (hi : 0 ≤ i) :
    0 ≤ hddClearDisk s i ∧ hddClearDisk s i < HDD_NUM := by
  unfold hddClearDisk
  split
  · exact ⟨Int.tmod_nonneg _ (by omega), Int.tmod_lt_of_pos _ (by decide)⟩
  · exact ⟨Int.tmod_nonneg _ (by omega), Int.tmod_lt_of_pos _ (by decide)⟩

section Turn

variable {attempt : (Disks σ → Int → PartitionInfo) → Int → Int → Disks σ → Bool × Disks σ}
  (hframe : ∀ look disk part s,
    Frame (fun d p => d = disk ∧ p = part) s (attempt look disk part s).2)
  (htrue : ∀ look disk part s t, (∀ u, look u part = u.partition disk part) →
    attempt look disk part s = (true, t) → Cleared opened t disk part)
include hframe htrue

theorem hddClearTurn_true (hcur : 0 ≤ s.curDiskNum) {i : Int} (hi : 0 ≤ i)
    (h : hddClearTurn attempt i s = (true, t)) : ∃ disk part, Cleared opened t disk part ∧
      disk ≠ DISK_IS_MMC ∧ (t.hddInfo disk).isDetected = DISK_DETECTED := by
  have hinfo := (frame_hddClearTurn s hframe i).hddInfo
  rw [h] at hinfo
  obtain ⟨hbound, -⟩ := hddClearDisk_bounds (s := s) hcur hi
  unfold hddClearTurn at h
  dsimp only at h
  split at h
  · cases h
  · rename_i hdet
    split at h
    · cases h
    · obtain ⟨part, -, v, hv⟩ := exists_of_tryEach h
      have hdisk := ne_mmc_of_nonneg hbound
      refine ⟨_, part, htrue _ _ part v t (fun u => ?_) hv, hdisk, ?_⟩
      · simp [Disks.partition, hdisk]
      · rw [hinfo]
        exact not_not.mp hdet

theorem hddClearLoop_true (hcur : 0 ≤ s.curDiskNum)
    (h : tryEach (hddClearTurn attempt) [0, 1] s = (true, t)) : ∃ disk part,
      Cleared opened t disk part ∧ disk ≠ DISK_IS_MMC ∧
        (t.hddInfo disk).isDetected = DISK_DETECTED := by
  obtain ⟨i, hi, u, hu, hiu⟩ := tryEach_true (I := fun u => u.curDiskNum = s.curDiskNum)
    (fun i _ u u' hu hf => by
      have hcur := (frame_hddClearTurn u hframe i).curDiskNum
      rw [hf] at hcur
      exact hcur.trans hu) rfl h
  refine hddClearTurn_true hframe htrue (by rwa [hu]) ?_ hiu
  rcases List.mem_cons.mp hi with rfl | hi
  · decide
  · cases List.mem_singleton.mp hi
    decide

end Turn

theorem hddClear_true (hos : Reopens os opened) (hcur : 0 ≤ s.curDiskNum)
    (h : hddClear os s = (true, t)) : ∃ disk part, Cleared opened t disk part ∧
      disk ≠ DISK_IS_MMC ∧ (t.hddInfo disk).isDetected = DISK_DETECTED := by
  have hframe := frame_hddClearLoop s (frame_tryTrash os) [0, 1]
  unfold hddClear at h
  rcases hr : tryEach (hddClearTurn (tryTrash os)) [0, 1] s with ⟨_ | _, u⟩ <;>
    rw [hr] at h hframe
  · refine hddClearLoop_true (frame_tryAll os) (fun _ _ _ _ _ => tryAll_true hos) ?_ h
    rwa [hframe.curDiskNum]
  · cases h
    exact hddClearLoop_true (frame_tryTrash os) (fun _ _ _ _ _ => tryTrash_true hos) hcur hr

end Clear

section Rotation

/-- After a successful clearing of the SD card the nested call returns at once. -/
theorem partitionSwitch_of_mmcClear (hos : Reopens os opened) (hcur : s.curDiskNum = DISK_IS_MMC)
    (h : mmcClear os s = (true, t)) : ∃ u, partitionSwitch os 1 t = some (0, u) ∧ Usable u := by
  have hframe := frame_mmcClear s os
  rw [h] at hframe
  obtain ⟨part, hpart⟩ := mmcClear_true hos h
  obtain ⟨u, hu⟩ := hpart.mmcSearch hos
  refine ⟨u, partitionSwitch_of_inl ?_ 0, mmcSearch_true hos hu⟩
  unfold switchBody
  rw [if_pos (hframe.curDiskNum.trans hcur), hu]

/-- After a successful clearing of the hard disks the nested call returns at once. -/
theorem partitionSwitch_of_hddClear (hos : Reopens os opened)
    (hcur : 0 ≤ s.curDiskNum ∧ s.curDiskNum < HDD_NUM) (h : hddClear os s = (true, t)) :
    ∃ u, partitionSwitch os 1 t = some (0, u) ∧ Usable u := by
  have hframe := frame_hddClear s os
  rw [h] at hframe
  have hcur' : 0 ≤ t.curDiskNum ∧ t.curDiskNum < HDD_NUM := by rwa [hframe.curDiskNum]
  have hmmc := ne_mmc_of_nonneg hcur'.1
  obtain ⟨disk, part, hpart, hdisk, hdet⟩ := hddClear_true hos hcur.1 h
  obtain ⟨u, hu⟩ := hpart.hddSearch hos hdisk hdet hcur'.1
  refine ⟨u, partitionSwitch_of_inl ?_ 0, hddSearch_true hos hcur'.1 hu⟩
  unfold switchBody
  rw [if_neg hmmc, if_pos hcur', hu]

/-- The device after every free partition of a disk was tried in turn and none could be mounted. -/
def mountsInVain (os : Device σ) (free : Int → Bool) (disk : Int) : List Int → σ → Option σ
  | [], dev => some dev
  | part :: parts, dev =>
    if free part then
      if os.mountPointCheck dev disk part then none
      else match os.mount disk part dev with
        | (true, _) => none
        | (false, dev) => mountsInVain os free disk parts dev
    else mountsInVain os free disk parts dev

/-- The SD card is exhausted: `dev` is the device after its free partitions were tried in vain. -/
def MmcExhausted (os : Device σ) (s : Disks σ) (dev : σ) : Prop :=
  mountsInVain os (s.isFree DISK_IS_MMC) DISK_IS_MMC
    (walk s.mmcInfo.diskFlag.lastPartition MMC_PARTITION_NUM 2) s.dev = some dev

theorem tryEach_tryUse (os : Device σ) (s : Disks σ) (disk : Int) (parts : List Int) (t : Disks σ) :
    tryEach (tryUse os disk) parts s = (false, t) ↔
      ∃ dev, mountsInVain os (s.isFree disk) disk parts s.dev = some dev ∧ t = s.withDev dev := by
  induction parts generalizing s with
  | nil =>
    simp only [tryEach, mountsInVain, Prod.mk.injEq, true_and, Option.some.injEq]
    constructor
    · rintro rfl
      exact ⟨s.dev, rfl, rfl⟩
    · rintro ⟨dev, rfl, rfl⟩
      rfl
  | cons part parts ih =>
    unfold tryEach mountsInVain tryUse
    by_cases hfree : s.isFree disk part
    · rw [if_pos hfree, if_pos hfree]
      unfold partitionMount
      by_cases hcheck : os.mountPointCheck s.dev disk part
      · simp [hcheck]
      · rw [if_neg hcheck, if_neg hcheck]
        rcases os.mount disk part s.dev with ⟨_ | _, dev⟩
        · exact ih (s.withDev dev)
        · simp
    · rw [if_neg hfree, if_neg hfree]
      exact ih s

theorem mmcSearch_false_iff : mmcSearch os s = (false, t) ↔
    ∃ dev, MmcExhausted os s dev ∧ t = s.withDev dev :=
  tryEach_tryUse os s DISK_IS_MMC _ t

/-- Where a partition of the SD card is in use and none of them can be switched to, the partition
that `hdd_choose` picks is free and, if it cannot be mounted, the current one is usable anyway. -/
def ChoiceUsable (os : Device σ) (s : Disks σ) : Prop :=
  s.curDiskNum = DISK_IS_MMC → ∀ dev hdd part, MmcExhausted os s dev →
    s.hddChoose = some (hdd, part) →
    if (partitionMount os (s.withDev dev) hdd part).1 then s.isFree hdd part = true else Usable s

theorem bounds_of_hddChooseIn {flag : Nat} {i : Int}
    (h : s.hddChooseIn flag i = some (disk, part)) :
    disk = i ∧ 0 ≤ part ∧ part < HDD_PARTITION_NUM := by
  unfold Disks.hddChooseIn at h
  dsimp only at h
  split at h
  · split at h
    · rename_i hlast
      cases h
      exact ⟨rfl, by omega, hlast.1⟩
    · split at h
      · rename_i j hj
        cases h
        have hbound : ∀ j ∈ [(0 : Int), 1, 2, 3], 0 ≤ j ∧ j < HDD_PARTITION_NUM := by decide
        exact ⟨rfl, hbound part (List.mem_of_find?_eq_some hj)⟩
      · cases h
  · cases h

theorem whichPartition_of_hddChoose (h : s.hddChoose = some (disk, part)) :
    whichPartition disk part := by
  unfold Disks.hddChoose at h
  simp only [Option.orElse_eq_orElse, Option.orElse_eq_or, Option.or_eq_some_iff] at h
  rcases h with h | ⟨-, h | ⟨-, h | ⟨-, h⟩⟩⟩
  all_goals
    obtain ⟨rfl, hpart⟩ := bounds_of_hddChooseIn h
    exact whichPartition_hdd (by decide) hpart

/-- Where the SD card is exhausted and a hard disk is chosen, the end depends on the choice alone.
-/
theorem endsUsable_of_choice {dev : σ} (hcur : s.curDiskNum = DISK_IS_MMC)
    (hdev : MmcExhausted os s dev) (hchoose : s.hddChoose = some (disk, part)) :
    EndsUsable os s ↔
      if (partitionMount os (s.withDev dev) disk part).1 then s.isFree disk part = true
      else Usable s := by
  have hsearch : mmcSearch os s = (false, s.withDev dev) := mmcSearch_false_iff.mpr ⟨dev, hdev, rfl⟩
  have hwhich := whichPartition_of_hddChoose hchoose
  have hbody : switchBody os s = .inl (0, (partitionMarkUsing os (s.withDev dev) disk part).2) := by
    unfold switchBody
    rw [if_pos hcur, hsearch]
    dsimp only [hddEnable]
    rw [show (s.withDev dev).hddChoose = some (disk, part) from hchoose]
  have hends : EndsUsable os s ↔ Usable (partitionMarkUsing os (s.withDev dev) disk part).2 := by
    constructor
    · intro h
      exact h.2 1 _ (partitionSwitch_of_inl hbody 0)
    · intro husable
      exact .of_run (partitionSwitch_of_inl hbody 0) fun _ => husable
  rw [hends]
  rcases hm : partitionMount os (s.withDev dev) disk part with ⟨_ | _, t⟩
  · obtain ⟨dev', hdev'⟩ := partitionMarkUsing_of_not_mount hm
    rw [hdev']
    exact Iff.rfl
  · obtain ⟨hdisk, hpart, hfree⟩ :=
      partitionMarkUsing_of_mount (whichDisk_of_whichPartition hwhich) hm
    unfold Usable
    rw [hdisk, hpart, hfree]
    exact and_iff_right hwhich

/-- Where the SD card is exhausted and no hard disk can be chosen, it is cleared. -/
theorem endsUsable_of_no_choice {dev : σ} (hos : Reopens os opened)
    (hcur : s.curDiskNum = DISK_IS_MMC) (hdev : MmcExhausted os s dev)
    (hchoose : s.hddChoose = none) : EndsUsable os s := by
  have hsearch : mmcSearch os s = (false, s.withDev dev) := mmcSearch_false_iff.mpr ⟨dev, hdev, rfl⟩
  have henable : hddEnable os (s.withDev dev) = (false, s.withDev dev) := by
    unfold hddEnable
    rw [show (s.withDev dev).hddChoose = none from hchoose]
  rcases hclear : mmcClear os (s.withDev dev) with ⟨_ | _, u⟩
  · have hbody : switchBody os s = .inl (-1, u) := by
      simp only [switchBody, if_pos hcur, hsearch, henable, hclear]
    exact .of_run (partitionSwitch_of_inl hbody 0) fun h => absurd h (by decide)
  · obtain ⟨v, hv, husable⟩ := partitionSwitch_of_mmcClear (s := s.withDev dev) hos hcur hclear
    have hbody : switchBody os s = .inr u := by
      simp only [switchBody, if_pos hcur, hsearch, henable, hclear]
    have hrun : partitionSwitch os 2 s = some (0, v) := by
      rw [partitionSwitch_of_inr hbody, hv, Option.map_some]
    exact .of_run hrun fun _ => husable

/-- On a hard disk the switching has no choice to make. -/
theorem endsUsable_of_hdd (hos : Reopens os opened)
    (hcur : 0 ≤ s.curDiskNum ∧ s.curDiskNum < HDD_NUM) : EndsUsable os s := by
  have hmmc := ne_mmc_of_nonneg hcur.1
  rcases hsearch : hddSearch os s with ⟨_ | _, t⟩
  · obtain ⟨dev, rfl⟩ := hddSearch_false hsearch
    rcases hclear : hddClear os (s.withDev dev) with ⟨_ | _, u⟩
    · have hbody : switchBody os s = .inl (-1, u) := by
        simp only [switchBody, if_neg hmmc, if_pos hcur, hsearch, hclear]
      exact .of_run (partitionSwitch_of_inl hbody 0) fun h => absurd h (by decide)
    · obtain ⟨v, hv, husable⟩ := partitionSwitch_of_hddClear (s := s.withDev dev) hos hcur hclear
      have hbody : switchBody os s = .inr u := by
        simp only [switchBody, if_neg hmmc, if_pos hcur, hsearch, hclear]
      have hrun : partitionSwitch os 2 s = some (0, v) := by
        rw [partitionSwitch_of_inr hbody, hv, Option.map_some]
      exact .of_run hrun fun _ => husable
  · have hbody : switchBody os s = .inl (0, t) := by
      simp only [switchBody, if_neg hmmc, if_pos hcur, hsearch]
    exact .of_run (partitionSwitch_of_inl hbody 0) fun _ => hddSearch_true hos hcur.1 hsearch

/-- `partition_switch` returns, and ends on a usable partition if it returns 0, if and only if the
choice of a hard disk does not go wrong. -/
theorem partitionSwitch_endsUsable_iff (hos : Reopens os opened) :
    EndsUsable os s ↔ ChoiceUsable os s := by
  by_cases hmmc : s.curDiskNum = DISK_IS_MMC
  · rcases hsearch : mmcSearch os s with ⟨_ | _, t⟩
    · obtain ⟨dev, hdev, rfl⟩ := mmcSearch_false_iff.mp hsearch
      rcases hchoose : s.hddChoose with _ | ⟨disk, part⟩
      · refine iff_of_true (endsUsable_of_no_choice hos hmmc hdev hchoose) ?_
        intro _ dev' disk part _ hchoose'
        rw [hchoose] at hchoose'
        cases hchoose'
      · rw [endsUsable_of_choice hmmc hdev hchoose]
        constructor
        · intro h _ dev' disk' part' hdev' hchoose'
          obtain rfl : dev' = dev := Option.some.inj (hdev'.symm.trans hdev)
          rw [hchoose] at hchoose'
          cases hchoose'
          exact h
        · intro h
          exact h hmmc dev disk part hdev hchoose
    · have hbody : switchBody os s = .inl (0, t) := by
        simp only [switchBody, if_pos hmmc, hsearch]
      refine iff_of_true (.of_run (partitionSwitch_of_inl hbody 0) fun _ => ?_) ?_
      · exact mmcSearch_true hos hsearch
      · intro _ dev disk part hdev
        rw [mmcSearch_false_iff.mpr ⟨dev, hdev, rfl⟩] at hsearch
        cases hsearch
  · refine iff_of_true ?_ fun h => absurd h hmmc
    by_cases hcur : 0 ≤ s.curDiskNum ∧ s.curDiskNum < HDD_NUM
    · exact endsUsable_of_hdd hos hcur
    · have hbody : switchBody os s = .inl (-1, s) := by
        simp only [switchBody, if_neg hmmc, if_neg hcur]
      exact .of_run (partitionSwitch_of_inl hbody 0) fun h => absurd h (by decide)

end Rotation

section Examples

/-- A device on which everything can be mounted, with the mounted partitions as its state. -/
def mtabDevice : Device (List (Int × Int)) where
  mountPointCheck mtab disk part := (disk, part) ∈ mtab
  mount disk part mtab := (true, (disk, part) :: mtab)
  statfs _ _ mtab := (some ⟨EXT3_SUPER_MAGIC, 1000, 900, 900⟩, mtab)
  readDir _ _ mtab := (some [], mtab)
  removeRecursively _ _ _ mtab := (true, mtab)
  formatReady _ _ _ := true
  umount disk part mtab := (true, mtab.filter (· ≠ (disk, part)))
  mkfs _ _ mtab := (true, mtab)
  writeFlag _ _ mtab := mtab

theorem mtabDevice_reopens : Reopens mtabDevice fun mtab disk part => (disk, part) ∈ mtab where
  check h := of_decide_eq_true h
  mount h := by
    cases h
    exact List.mem_cons_self
  again _ := Or.inr rfl
  mount_keeps _ _ h := List.mem_cons_of_mem _ h
  statfs_keeps _ _ h := h

/-- The SD card is full, and a hard disk with one normal partition, used up to `percent`. -/
def fullCard (percent : Nat) : Disks (List (Int × Int)) where
  dev := []
  mmcPartition := fun _ => { status := .ok, percentUsed := 90 }
  hddInfo := fun disk => { isDetected := if disk = 0 then DISK_DETECTED else 0 }
  hddPartition := fun _ part =>
    { status := if part = 0 then .ok else .damaged, percentUsed := percent }

theorem fullCard_exhausted (percent : Nat) : MmcExhausted mtabDevice (fullCard percent) [] := rfl

theorem fullCard_choose (percent : Nat) : (fullCard percent).hddChoose = some (0, 0) := by
  simp [Disks.hddChoose, Disks.hddChooseIn, fullCard, DISK_DETECTED, HDD_PARTITION_NUM]

theorem partitionSwitch_endsUsable_iff_half : EndsUsable mtabDevice (fullCard 50) := by
  refine (partitionSwitch_endsUsable_iff mtabDevice_reopens).mpr ?_
  intro _ dev hdd part _ hchoose
  rw [fullCard_choose] at hchoose
  cases hchoose
  by_cases hm : (partitionMount mtabDevice ((fullCard 50).withDev dev) 0 0).1
  · rw [if_pos hm]
    rfl
  · exfalso
    apply hm
    unfold partitionMount
    split <;> rfl

/-- The hard disk is chosen for the partition used last, however full it is. -/
theorem partitionSwitch_not_endsUsable_full :
    (Reopens mtabDevice fun mtab disk part => (disk, part) ∈ mtab) ∧
      ¬ EndsUsable mtabDevice (fullCard 95) := by
  refine ⟨mtabDevice_reopens, ?_⟩
  have hm : (partitionMount mtabDevice ((fullCard 95).withDev []) 0 0).1 = true := rfl
  rw [endsUsable_of_choice rfl (fullCard_exhausted 95) (fullCard_choose 95), if_pos hm]
  decide

end Examples

end VdCamera.Storage
