import VdCamera.Storage.Switch

/-!
# What the cleaners touch

The operations on a partition change its entry of the tables and the device, and wipe no other
partition. Neither cleaner wipes the partition that is being recorded to.
-/

namespace VdCamera.Storage

open Misc

variable {σ : Type} {P Q : Int → Int → Prop} {s t u : Disks σ}

/-- From `s` to `t` only the partition tables and the device change, and what is wiped satisfies
`P`. -/
structure Frame (P : Int → Int → Prop) (s t : Disks σ) : Prop where
  mmcInfo : t.mmcInfo = s.mmcInfo
  hddInfo : t.hddInfo = s.hddInfo
  curDiskNum : t.curDiskNum = s.curDiskNum
  curPartitionNum : t.curPartitionNum = s.curPartitionNum
  remainDisk : t.remainDisk = s.remainDisk
  wiped : ∀ w ∈ t.wiped, w ∈ s.wiped ∨ P w.1 w.2

namespace Frame

theorem refl (s : Disks σ) : Frame P s s := ⟨rfl, rfl, rfl, rfl, rfl, fun _ hw => Or.inl hw⟩

theorem trans (h : Frame P s t) (h' : Frame P t u) : Frame P s u := by
  refine ⟨h'.mmcInfo.trans h.mmcInfo, h'.hddInfo.trans h.hddInfo, h'.curDiskNum.trans h.curDiskNum,
    h'.curPartitionNum.trans h.curPartitionNum, h'.remainDisk.trans h.remainDisk, ?_⟩
  intro w hw
  rcases h'.wiped w hw with hw | hw
  · exact h.wiped w hw
  · exact Or.inr hw

theorem mono (h : Frame P s t) (hPQ : ∀ d p, P d p → Q d p) : Frame Q s t :=
  { h with wiped := fun w hw => (h.wiped w hw).imp_right (hPQ w.1 w.2) }

theorem fullPercent (h : Frame P s t) : t.fullPercent = s.fullPercent := by
  unfold Disks.fullPercent
  rw [h.remainDisk]

theorem withDev (s : Disks σ) (dev : σ) : Frame P s (s.withDev dev) :=
  ⟨rfl, rfl, rfl, rfl, rfl, fun _ hw => Or.inl hw⟩

theorem setPartition (s : Disks σ) (disk part : Int) (p : PartitionInfo) :
    Frame P s (s.setPartition disk part p) := by
  unfold Disks.setPartition
  split <;> exact ⟨rfl, rfl, rfl, rfl, rfl, fun _ hw => Or.inl hw⟩

theorem setStatus (s : Disks σ) (disk part : Int) (status : PartitionStatus) :
    Frame P s (s.setStatus disk part status) := setPartition s disk part _

theorem noteWipe (s : Disks σ) (disk part : Int) :
    Frame (fun d p => d = disk ∧ p = part) s (s.noteWipe disk part) := by
  refine ⟨rfl, rfl, rfl, rfl, rfl, ?_⟩
  intro w hw
  rcases List.mem_append.mp hw with hw | hw
  · exact Or.inl hw
  · cases List.mem_singleton.mp hw
    exact Or.inr ⟨rfl, rfl⟩

end Frame

section Operations

variable (os : Device σ) (s : Disks σ) (disk part : Int)

theorem frame_partitionMount : Frame P s (partitionMount os s disk part).2 := by
  unfold partitionMount
  split
  · exact Frame.refl s
  · exact Frame.withDev s _

theorem frame_partitionStatfs : Frame P s (partitionStatfs os s disk part).2 := by
  unfold partitionStatfs
  rcases os.statfs disk part s.dev with ⟨_ | f, dev⟩
  · exact (Frame.withDev s dev).trans (Frame.setStatus _ disk part _)
  · have hdev := Frame.withDev (P := P) s dev
    dsimp only
    split_ifs
    · exact hdev.trans (Frame.setStatus _ disk part _)
    · exact (hdev.trans (Frame.setPartition _ disk part _)).trans (Frame.setStatus _ disk part _)
    · exact (hdev.trans (Frame.setPartition _ disk part _)).trans (Frame.setPartition _ disk part _)

theorem frame_partitionStatusCheck : Frame P s (partitionStatusCheck os s disk part).2 := by
  have hmount := frame_partitionMount (P := P) os s disk part
  unfold partitionStatusCheck
  split_ifs
  · exact Frame.refl s
  · exact Frame.refl s
  · rcases hm : partitionMount os s disk part with ⟨_ | _, t⟩ <;> rw [hm] at hmount
    · exact hmount.trans (Frame.setStatus t disk part _)
    · exact hmount.trans (frame_partitionStatfs os t disk part)

theorem frame_partitionClear (remove : σ → Bool × σ) :
    Frame P s (partitionClear os s disk part remove).2 := by
  have hmount := frame_partitionMount (P := P) os s disk part
  unfold partitionClear
  split_ifs
  · exact Frame.refl s
  · exact Frame.refl s
  · rcases hm : partitionMount os s disk part with ⟨_ | _, t⟩ <;> rw [hm] at hmount
    · exact hmount.trans (Frame.setStatus t disk part _)
    · have hclear := Frame.setStatus (P := P) t disk part .clear
      dsimp only
      rcases remove (t.setStatus disk part .clear).dev with ⟨rc, dev⟩
      have hok := (hclear.trans (Frame.withDev _ dev)).trans (Frame.setStatus _ disk part .ok)
      exact (hmount.trans hok).trans (frame_partitionStatusCheck os _ disk part)

theorem frame_partitionClearTrash :
    Frame (fun d p => d = disk ∧ p = part) s (partitionClearTrash os s disk part).2 :=
  (Frame.noteWipe s disk part).trans (frame_partitionClear os _ disk part _)

theorem frame_partitionClearAll :
    Frame (fun d p => d = disk ∧ p = part) s (partitionClearAll os s disk part).2 :=
  (Frame.noteWipe s disk part).trans (frame_partitionClear os _ disk part _)

theorem frame_partitionFormat :
    Frame (fun d p => d = disk ∧ p = part) s (partitionFormat os s disk part).2 := by
  have hnote := Frame.noteWipe s disk part
  unfold partitionFormat
  dsimp only
  split
  · exact hnote
  · rcases os.umount disk part (s.noteWipe disk part).dev with ⟨_ | _, dev⟩
    · exact hnote.trans (Frame.withDev _ dev)
    · have hdev := hnote.trans (Frame.withDev _ dev)
      dsimp only
      split
      · exact hdev
      · have hformat := hdev.trans (Frame.setStatus _ disk part .format)
        exact (hformat.trans (Frame.withDev _ _)).trans (Frame.setStatus _ disk part _)

variable {s}

theorem frame_clearedBelow {op : Disks σ → Bool × Disks σ} (hop : ∀ s, Frame P s (op s).2)
    (look : Disks σ → PartitionInfo) (limit : Nat) (s : Disks σ) :
    Frame P s (clearedBelow os op look limit disk part s).2 := by
  have hs := hop s
  unfold clearedBelow
  rcases hr : op s with ⟨_ | _, t⟩ <;> rw [hr] at hs
  · exact hs
  · have ht := hs.trans (frame_partitionStatusCheck os t disk part)
    dsimp only
    rcases hc : partitionStatusCheck os t disk part with ⟨_ | _, u⟩ <;> rw [hc] at ht
    · exact ht
    · exact ht

theorem frame_tryTrash (look : Disks σ → Int → PartitionInfo) (disk part : Int) (s : Disks σ) :
    Frame (fun d p => d = disk ∧ p = part) s (tryTrash os look disk part s).2 := by
  unfold tryTrash
  split_ifs
  · exact Frame.refl s
  · exact frame_clearedBelow os disk part (fun s => frame_partitionClearTrash os s disk part) _ _ s

theorem frame_tryAll (look : Disks σ → Int → PartitionInfo) (disk part : Int) (s : Disks σ) :
    Frame (fun d p => d = disk ∧ p = part) s (tryAll os look disk part s).2 := by
  unfold tryAll
  split_ifs
  · exact Frame.refl s
  · have hall := frame_clearedBelow os disk part
      (fun s => frame_partitionClearAll os s disk part) (look · part) PARTITION_EMPTY_PERCENT s
    rcases hr : clearedBelow os (fun s => partitionClearAll os s disk part) (look · part)
      PARTITION_EMPTY_PERCENT disk part s with ⟨_ | _, t⟩ <;> rw [hr] at hall
    · exact hall.trans
        (frame_clearedBelow os disk part (fun s => frame_partitionFormat os s disk part) _ _ t)
    · exact hall

end Operations

/-- Not the partition that is being recorded to. -/
def NotCurrent (s : Disks σ) (disk part : Int) : Prop :=
  (disk, part) ≠ (s.curDiskNum, s.curPartitionNum)

theorem Frame.notCurrent (h : Frame P s t) : NotCurrent t = NotCurrent s := by
  unfold NotCurrent
  rw [h.curDiskNum, h.curPartitionNum]

theorem notCurrent_of_mem_mmcClearOrder {part : Int} (h : part ∈ mmcClearOrder s) :
    NotCurrent s DISK_IS_MMC part := by
  intro heq
  obtain ⟨hdisk, hpart⟩ := Prod.mk.inj heq
  unfold mmcClearOrder at h
  rw [if_pos hdisk.symm, ← hpart] at h
  exact not_mem_walk_succ (by decide) h

theorem notCurrent_of_mem_hddClearOrder {disk part : Int} (h : part ∈ hddClearOrder s disk) :
    NotCurrent s disk part := by
  intro heq
  obtain ⟨hdisk, hpart⟩ := Prod.mk.inj heq
  unfold hddClearOrder at h
  rw [if_pos hdisk.symm, ← hpart] at h
  exact not_mem_walk_succ (by decide) h

variable (os : Device σ) (s)

section Attempts

variable {attempt : Int → Disks σ → Bool × Disks σ} {disk : Int}

/-- Attempts on partitions of one disk that are not the current one. -/
theorem frame_tryEach
    (hattempt : ∀ part s, Frame (fun d p => d = disk ∧ p = part) s (attempt part s).2)
    {order : List Int} (horder : ∀ part ∈ order, NotCurrent s disk part) :
    Frame (NotCurrent s) s (tryEach attempt order s).2 := by
  refine tryEach_invariant (I := Frame (NotCurrent s) s) ?_ (Frame.refl s)
  intro part hpart t ht
  refine ht.trans ((hattempt part t).mono ?_)
  rintro d p ⟨rfl, rfl⟩
  exact horder p hpart

end Attempts

theorem frame_mmcClear : Frame (NotCurrent s) s (mmcClear os s).2 := by
  have horder := fun part (h : part ∈ mmcClearOrder s) => notCurrent_of_mem_mmcClearOrder h
  have htrash := frame_tryEach s (frame_tryTrash os Disks.mmcPartition DISK_IS_MMC) horder
  unfold mmcClear
  dsimp only
  rcases hr : tryEach (tryTrash os Disks.mmcPartition DISK_IS_MMC) (mmcClearOrder s) s with
    ⟨_ | _, t⟩ <;> rw [hr] at htrash
  · rw [← htrash.notCurrent] at horder
    have hall := frame_tryEach t (frame_tryAll os Disks.mmcPartition DISK_IS_MMC) horder
    rw [htrash.notCurrent] at hall
    exact htrash.trans hall
  · exact htrash

/-- One turn of either loop of `hdd_clear`. -/
theorem frame_hddClearTurn
    {attempt : (Disks σ → Int → PartitionInfo) → Int → Int → Disks σ → Bool × Disks σ}
    (hattempt : ∀ look disk part s,
      Frame (fun d p => d = disk ∧ p = part) s (attempt look disk part s).2) (i : Int) :
    Frame (NotCurrent s) s (hddClearTurn attempt i s).2 := by
  unfold hddClearTurn
  dsimp only
  split_ifs
  · exact Frame.refl s
  · exact Frame.refl s
  · exact frame_tryEach s (hattempt _ _) fun part h => notCurrent_of_mem_hddClearOrder h

/-- Either loop of `hdd_clear`. -/
theorem frame_hddClearLoop
    {attempt : (Disks σ → Int → PartitionInfo) → Int → Int → Disks σ → Bool × Disks σ}
    (hattempt : ∀ look disk part s,
      Frame (fun d p => d = disk ∧ p = part) s (attempt look disk part s).2) (turns : List Int) :
    Frame (NotCurrent s) s (tryEach (hddClearTurn attempt) turns s).2 := by
  refine tryEach_invariant (I := Frame (NotCurrent s) s) ?_ (Frame.refl s)
  intro i _ t ht
  have hturn := frame_hddClearTurn t hattempt i
  rw [ht.notCurrent] at hturn
  exact ht.trans hturn

theorem frame_hddClear : Frame (NotCurrent s) s (hddClear os s).2 := by
  have htrash := frame_hddClearLoop s (frame_tryTrash os) [0, 1]
  unfold hddClear
  rcases hr : tryEach (hddClearTurn (tryTrash os)) [0, 1] s with ⟨_ | _, t⟩ <;> rw [hr] at htrash
  · have hall := frame_hddClearLoop t (frame_tryAll os) [0, 1]
    rw [htrash.notCurrent] at hall
    exact htrash.trans hall
  · exact htrash

/-- The cleaner wipes no current partition: whatever the tables, the two current numbers and the
device are, every call that clears or formats is for another partition, and the current one stays.
-/
def SparesCurrent (clear : Disks σ → Bool × Disks σ) (s : Disks σ) : Prop :=
  let t := (clear { s with wiped := [] }).2
  t.curDiskNum = s.curDiskNum ∧ t.curPartitionNum = s.curPartitionNum ∧
    ∀ w ∈ t.wiped, w ≠ (s.curDiskNum, s.curPartitionNum)

theorem sparesCurrent_of_frame {clear : Disks σ → Bool × Disks σ}
    (h : ∀ s, Frame (NotCurrent s) s (clear s).2) : SparesCurrent clear s := by
  have hs := h { s with wiped := [] }
  refine ⟨hs.curDiskNum, hs.curPartitionNum, ?_⟩
  intro w hw
  rcases hs.wiped w hw with hw | hw
  · cases hw
  · exact hw

/-- The partition being recorded to is never wiped by a cleaner. -/
theorem clear_sparesCurrent : SparesCurrent (mmcClear os) s ∧ SparesCurrent (hddClear os) s :=
  ⟨sparesCurrent_of_frame s fun s => frame_mmcClear s os,
    sparesCurrent_of_frame s fun s => frame_hddClear s os⟩

end VdCamera.Storage
