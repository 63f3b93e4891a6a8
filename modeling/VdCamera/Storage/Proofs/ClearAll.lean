import VdCamera.Storage.Disk

/-!
# What `partition_clear_all` reports

The result is right if and only if there is something to remove and the removals tell the truth; the
status never stays at `PARTITION_CLEAR`.
-/

namespace VdCamera.Storage

variable {o : Outcomes} {s t : Disks Root} {disk part : Int} {rc : Bool} {names : List String} {r : Root}

/-! ## The status -/

section Status

variable {σ : Type} {os : Device σ} {s : Disks σ}

@[simp] theorem withDev_partition (dev : σ) :
    (s.withDev dev).partition disk part = s.partition disk part := rfl

@[simp] theorem setStatus_status (status : PartitionStatus) :
    ((s.setStatus disk part status).partition disk part).status = status := by
  simp [Disks.setStatus]

@[simp] theorem setStatus_dev (status : PartitionStatus) :
    (s.setStatus disk part status).dev = s.dev := by
  simp [Disks.setStatus]

theorem partitionStatfs_dev :
    (partitionStatfs os s disk part).2.dev = (os.statfs disk part s.dev).2 := by
  unfold partitionStatfs
  rcases os.statfs disk part s.dev with ⟨_ | f, dev⟩
  · exact setStatus_dev _
  · dsimp only
    split_ifs
    · exact setStatus_dev _
    · rw [setStatus_dev, Disks.setPartition_dev]
      rfl
    · rw [Disks.setPartition_dev, Disks.setPartition_dev]
      rfl

theorem status_partitionStatfs :
    ((partitionStatfs os s disk part).2.partition disk part).status ≠ .clear := by
  unfold partitionStatfs
  rcases os.statfs disk part s.dev with ⟨_ | f, dev⟩
  · simp
  · dsimp only
    split_ifs
    · simp
    · simp
    · simp

/-- A check sets no `PARTITION_CLEAR`. -/
theorem status_partitionStatusCheck (h : (s.partition disk part).status ≠ .clear) :
    ((partitionStatusCheck os s disk part).2.partition disk part).status ≠ .clear := by
  unfold partitionStatusCheck
  split_ifs
  · exact h
  · exact h
  · rcases partitionMount os s disk part with ⟨_ | _, t⟩
    · simp
    · exact status_partitionStatfs

theorem status_partitionClear (remove : σ → Bool × σ) (h : (s.partition disk part).status ≠ .clear) :
    ((partitionClear os s disk part remove).2.partition disk part).status ≠ .clear := by
  unfold partitionClear
  split_ifs
  · exact h
  · exact h
  · rcases partitionMount os s disk part with ⟨_ | _, t⟩
    · simp
    · exact status_partitionStatusCheck (by simp)

end Status

/-! ## The loop over the directory -/

/-- What the loop passes over. -/
def Kept (name : String) : Prop := name = "." ∨ name = ".." ∨ name = "lost+found"

instance : DecidablePred Kept := fun _ => inferInstanceAs (Decidable (_ ∨ _ ∨ _))

/-- The entries to remove. -/
def toRemove (names : List String) : List String := names.filter fun name => ¬ Kept name

/-- The loop removes every entry of a list. -/
def AllGone (o : Outcomes) : List String → Prop
  | [] => True
  | name :: names => (o.removal name).gone = true ∧
      if (o.removal name).rc then AllGone o names else names = []

theorem removeEntries_of_kept {name : String} (h : Kept name) :
    removeEntries (clearDevice o) disk part rc (name :: names) r
      = removeEntries (clearDevice o) disk part rc names r := by
  rw [removeEntries]
  exact if_pos h

/-- The directory after one removal. -/
def afterRemoval (o : Outcomes) (name : String) (r : Root) : Root :=
  if (o.removal name).gone then r.erase name else r

theorem removeEntries_of_not_kept {name : String} (h : ¬ Kept name) :
    removeEntries (clearDevice o) disk part rc (name :: names) r
      = if (o.removal name).rc then
          removeEntries (clearDevice o) disk part true names (afterRemoval o name r)
        else (false, afterRemoval o name r) := by
  rw [removeEntries]
  refine (if_neg h).trans ?_
  have hone : (clearDevice o).removeRecursively disk part name r
      = ((o.removal name).rc, afterRemoval o name r) := rfl
  rw [hone]
  cases (o.removal name).rc with
  | false => rfl
  | true => rfl

theorem toRemove_cons_of_kept {name : String} (h : Kept name) :
    toRemove (name :: names) = toRemove names :=
  List.filter_cons_of_neg (by simp [h])

theorem toRemove_cons_of_not_kept {name : String} (h : ¬ Kept name) :
    toRemove (name :: names) = name :: toRemove names :=
  List.filter_cons_of_pos (by simp [h])

/-- The result of the loop: that of the last removal, or the first that fails. -/
theorem removeEntries_rc :
    (removeEntries (clearDevice o) disk part rc names r).1
      = if toRemove names = [] then rc else (toRemove names).all fun name => (o.removal name).rc := by
  induction names generalizing rc r with
  | nil => rfl
  | cons name names ih =>
    by_cases hk : Kept name
    · rw [removeEntries_of_kept hk, toRemove_cons_of_kept hk, ih]
    · rw [removeEntries_of_not_kept hk, toRemove_cons_of_not_kept hk, if_neg (List.cons_ne_nil _ _),
        List.all_cons]
      cases (o.removal name).rc with
      | false => rfl
      | true =>
        rw [if_pos rfl, ih, Bool.true_and]
        split
        · rename_i hnil
          rw [hnil]
          rfl
        · rfl

theorem mem_afterRemoval {name n : String} :
    n ∈ (afterRemoval o name r).names ↔ n ∈ r.names ∧ ¬ ((o.removal name).gone = true ∧ n = name) := by
  unfold afterRemoval
  cases (o.removal name).gone with
  | false => simp
  | true => simp [Root.erase]

/-- An entry that is not of the list stays. -/
theorem mem_removeEntries_of_notMem {n : String} (hn : n ∉ toRemove names) (hr : n ∈ r.names) :
    n ∈ (removeEntries (clearDevice o) disk part rc names r).2.names := by
  induction names generalizing rc r with
  | nil => exact hr
  | cons name names ih =>
    by_cases hk : Kept name
    · rw [toRemove_cons_of_kept hk] at hn
      rw [removeEntries_of_kept hk]
      exact ih hn hr
    · rw [toRemove_cons_of_not_kept hk, List.mem_cons, not_or] at hn
      have hr' : n ∈ (afterRemoval o name r).names := mem_afterRemoval.mpr ⟨hr, fun h => hn.1 h.2⟩
      rw [removeEntries_of_not_kept hk]
      split
      · exact ih hn.2 hr'
      · exact hr'

theorem mem_of_mem_removeEntries {n : String}
    (hn : n ∈ (removeEntries (clearDevice o) disk part rc names r).2.names) : n ∈ r.names := by
  induction names generalizing rc r with
  | nil => exact hn
  | cons name names ih =>
    by_cases hk : Kept name
    · rw [removeEntries_of_kept hk] at hn
      exact ih hn
    · rw [removeEntries_of_not_kept hk] at hn
      split at hn
      · exact (mem_afterRemoval.mp (ih hn)).1
      · exact (mem_afterRemoval.mp hn).1

/-- Every entry of the list is removed if the directory had them. -/
theorem removeEntries_names (hnodup : (toRemove names).Nodup) (hsub : ∀ n ∈ toRemove names, n ∈ r.names) :
    (∀ n ∈ toRemove names, n ∉ (removeEntries (clearDevice o) disk part rc names r).2.names) ↔
      AllGone o (toRemove names) := by
  induction names generalizing rc r with
  | nil => exact ⟨fun _ => trivial, fun _ n hn => absurd hn List.not_mem_nil⟩
  | cons name names ih =>
    by_cases hk : Kept name
    · rw [toRemove_cons_of_kept hk] at hnodup hsub ⊢
      rw [removeEntries_of_kept hk]
      exact ih hnodup hsub
    · rw [toRemove_cons_of_not_kept hk] at hnodup hsub ⊢
      obtain ⟨hnot, hnodup⟩ := List.nodup_cons.mp hnodup
      have hname : name ∈ r.names := hsub name List.mem_cons_self
      have hrest : ∀ n ∈ toRemove names, n ∈ (afterRemoval o name r).names := fun n hn =>
        mem_afterRemoval.mpr ⟨hsub n (List.mem_cons_of_mem _ hn), fun h => hnot (h.2 ▸ hn)⟩
      have hgone : name ∉ (afterRemoval o name r).names ↔ (o.removal name).gone = true := by
        rw [mem_afterRemoval]
        simp [hname]
      rw [removeEntries_of_not_kept hk, AllGone]
      by_cases hrc : (o.removal name).rc = true
      · have ih := @ih true _ hnodup hrest
        rw [if_pos hrc, if_pos hrc, ← ih, ← hgone, List.forall_mem_cons]
        constructor
        · rintro ⟨hhead, htail⟩
          exact ⟨fun h => hhead (mem_removeEntries_of_notMem hnot h), htail⟩
        · rintro ⟨hhead, htail⟩
          exact ⟨fun h => hhead (mem_of_mem_removeEntries h), htail⟩
      · rw [if_neg hrc, if_neg hrc, ← hgone, List.forall_mem_cons]
        apply and_congr_right
        intro _
        constructor
        · intro htail
          cases hl : toRemove names with
          | nil => rfl
          | cons n l =>
            have hn : n ∈ toRemove names := hl ▸ List.mem_cons_self
            exact absurd (hrest n hn) (htail n hn)
        · intro hnil n hn
          rw [hnil] at hn
          cases hn

/-! ## Removals that tell the truth -/

/-- Either every removal succeeds and removes its entry, or one fails, and then an entry is left: one
behind it, or one that was to be removed by then. -/
def Truthful (o : Outcomes) (names : List String) : Prop :=
  (∀ n ∈ names, (o.removal n).rc = true ∧ (o.removal n).gone = true) ∨
    ∃ before n after, names = before ++ n :: after ∧ (∀ m ∈ before, (o.removal m).rc = true) ∧
      (o.removal n).rc = false ∧ (after ≠ [] ∨ ∃ m ∈ before ++ [n], (o.removal m).gone = false)

theorem allGone_of_rc (h : ∀ n ∈ names, (o.removal n).rc = true) :
    AllGone o names ↔ ∀ n ∈ names, (o.removal n).gone = true := by
  induction names with
  | nil => exact ⟨fun _ n hn => absurd hn List.not_mem_nil, fun _ => trivial⟩
  | cons name names ih =>
    rw [AllGone, if_pos (h name List.mem_cons_self), List.forall_mem_cons,
      ih fun n hn => h n (List.mem_cons_of_mem _ hn)]

theorem allGone_of_failure {before after : List String} {n : String}
    (hbefore : ∀ m ∈ before, (o.removal m).rc = true) (hn : (o.removal n).rc = false) :
    AllGone o (before ++ n :: after) ↔
      (∀ m ∈ before ++ [n], (o.removal m).gone = true) ∧ after = [] := by
  induction before with
  | nil =>
    rw [List.nil_append, AllGone, if_neg (by rw [hn]; exact Bool.false_ne_true), List.nil_append,
      List.forall_mem_singleton]
  | cons name before ih =>
    rw [List.cons_append, AllGone, if_pos (hbefore name List.mem_cons_self),
      ih fun m hm => hbefore m (List.mem_cons_of_mem _ hm), List.cons_append, List.forall_mem_cons,
      and_assoc]

/-- The first removal that fails. -/
theorem exists_failure (h : ¬ ∀ n ∈ names, (o.removal n).rc = true) :
    ∃ before n after, names = before ++ n :: after ∧ (∀ m ∈ before, (o.removal m).rc = true) ∧
      (o.removal n).rc = false := by
  induction names with
  | nil => exact absurd (fun n hn => absurd hn List.not_mem_nil) h
  | cons name names ih =>
    cases hrc : (o.removal name).rc with
    | false => exact ⟨[], name, names, rfl, fun m hm => absurd hm List.not_mem_nil, hrc⟩
    | true =>
      have htail : ¬ ∀ n ∈ names, (o.removal n).rc = true := fun hall =>
        h (List.forall_mem_cons.mpr ⟨hrc, hall⟩)
      obtain ⟨before, n, after, rfl, hbefore, hn⟩ := ih htail
      exact ⟨name :: before, n, after, rfl, List.forall_mem_cons.mpr ⟨hrc, hbefore⟩, hn⟩

theorem truthful_iff :
    ((∀ n ∈ names, (o.removal n).rc = true) ↔ AllGone o names) ↔ Truthful o names := by
  constructor
  · intro hiff
    by_cases hall : ∀ n ∈ names, (o.removal n).rc = true
    · have hgone := (allGone_of_rc hall).mp (hiff.mp hall)
      exact .inl fun n hn => ⟨hall n hn, hgone n hn⟩
    · obtain ⟨before, n, after, rfl, hbefore, hn⟩ := exists_failure hall
      refine .inr ⟨before, n, after, rfl, hbefore, hn, ?_⟩
      by_contra hleft
      rw [not_or, not_not, not_exists] at hleft
      refine hall (hiff.mpr ((allGone_of_failure hbefore hn).mpr ⟨?_, hleft.1⟩))
      intro m hm
      have := hleft.2 m
      rw [not_and, Bool.not_eq_false] at this
      exact this hm
  · rintro (hgood | ⟨before, n, after, rfl, hbefore, hn, hleft⟩)
    · have hall : ∀ n ∈ names, (o.removal n).rc = true := fun n hn => (hgood n hn).1
      rw [allGone_of_rc hall]
      exact ⟨fun _ n hn => (hgood n hn).2, fun _ => hall⟩
    · rw [allGone_of_failure hbefore hn]
      constructor
      · intro hall
        have := hall n (List.mem_append_right _ List.mem_cons_self)
        rw [hn] at this
        cases this
      · rintro ⟨hgone, hafter⟩
        rcases hleft with hleft | ⟨m, hm, hleft⟩
        · exact absurd hafter hleft
        · rw [hgone m hm] at hleft
          cases hleft

/-! ## The result -/

/-- `partition_clear_all` returns 0 if and only if nothing is left to remove, and the status is not
`PARTITION_CLEAR`. -/
structure Reports (o : Outcomes) (s : Disks Root) (disk part : Int) : Prop where
  result : (partitionClearAll (clearDevice o) s disk part).1 = true ↔
    toRemove (partitionClearAll (clearDevice o) s disk part).2.dev.names = []
  status : ((partitionClearAll (clearDevice o) s disk part).2.partition disk part).status ≠ .clear

/-- The partition is mounted, or can be, and its root can be opened then. -/
def Opens (o : Outcomes) (r : Root) : Prop :=
  (o.mountPointCheck r.asked = true ∧ o.opendir r.asked = true) ∨
    (o.mountPointCheck r.asked = false ∧ o.mount r.asked = true ∧ o.opendir (r.asked + 1) = true)

theorem toRemove_eq_nil_iff : toRemove names = [] ↔ ∀ n ∈ names, Kept n := by
  simp [toRemove, List.filter_eq_nil_iff]

theorem partitionMount_eq : partitionMount (clearDevice o) s disk part
    = if o.mountPointCheck s.dev.asked then (true, s)
      else (o.mount s.dev.asked, s.withDev s.dev.tick) := rfl

theorem partitionMount_names :
    (partitionMount (clearDevice o) s disk part).2.dev.names = s.dev.names := by
  rw [partitionMount_eq]
  split
  · rfl
  · rfl

theorem partitionStatusCheck_names :
    (partitionStatusCheck (clearDevice o) s disk part).2.dev.names = s.dev.names := by
  have hmount := @partitionMount_names o s disk part
  unfold partitionStatusCheck
  split_ifs
  · rfl
  · rfl
  · rcases hm : partitionMount (clearDevice o) s disk part with ⟨_ | _, t⟩
    · rw [hm] at hmount
      dsimp only
      rw [setStatus_dev]
      exact hmount
    · rw [hm] at hmount
      dsimp only
      rw [partitionStatfs_dev]
      exact hmount

/-- A partition in order that is mounted: the removal decides. -/
theorem partitionClear_of_mount (remove : Root → Bool × Root) (hpart : whichPartition disk part = true)
    (hok : (s.partition disk part).status = .ok)
    (hm : partitionMount (clearDevice o) s disk part = (true, t)) :
    (partitionClear (clearDevice o) s disk part remove).1 = (remove t.dev).1 ∧
      (partitionClear (clearDevice o) s disk part remove).2.dev.names = (remove t.dev).2.names := by
  unfold partitionClear
  rw [hpart, if_neg (by simp), if_neg (by simp [hok]), hm]
  dsimp only
  rw [setStatus_dev]
  refine ⟨rfl, ?_⟩
  rw [partitionStatusCheck_names, setStatus_dev]
  rfl

theorem partitionClear_of_not_mount (remove : Root → Bool × Root)
    (hpart : whichPartition disk part = true) (hok : (s.partition disk part).status = .ok)
    (hm : partitionMount (clearDevice o) s disk part = (false, t)) :
    (partitionClear (clearDevice o) s disk part remove).1 = false ∧
      (partitionClear (clearDevice o) s disk part remove).2.dev.names = t.dev.names := by
  unfold partitionClear
  rw [hpart, if_neg (by simp), if_neg (by simp [hok]), hm]
  dsimp only
  rw [setStatus_dev]
  exact ⟨rfl, rfl⟩

theorem removeAll_eq : removeAll (clearDevice o) disk part r
    = if o.opendir r.asked then removeEntries (clearDevice o) disk part false r.names r.tick
      else (false, r.tick) := by
  unfold removeAll
  have hdir : (clearDevice o).readDir disk part r
      = (if o.opendir r.asked then some r.names else none, r.tick) := rfl
  rw [hdir]
  cases o.opendir r.asked with
  | true => rfl
  | false => rfl

/-- A partition in order whose root is opened: the loop over the directory decides. -/
theorem partitionClearAll_opened (hpart : whichPartition disk part = true)
    (hok : (s.partition disk part).status = .ok) (hopen : Opens o s.dev) :
    ∃ r : Root, r.names = s.dev.names ∧
      (partitionClearAll (clearDevice o) s disk part).1
        = (removeEntries (clearDevice o) disk part false s.dev.names r).1 ∧
      (partitionClearAll (clearDevice o) s disk part).2.dev.names
        = (removeEntries (clearDevice o) disk part false s.dev.names r).2.names := by
  have hdev : (s.noteWipe disk part).dev = s.dev := rfl
  rcases hopen with ⟨hc, hdir⟩ | ⟨hc, hm, hdir⟩
  · have hmount : partitionMount (clearDevice o) (s.noteWipe disk part) disk part
        = (true, s.noteWipe disk part) := by
      rw [partitionMount_eq, hdev, hc, if_pos rfl]
    have hclear := partitionClear_of_mount (s := s.noteWipe disk part)
      (removeAll (clearDevice o) disk part) hpart hok hmount
    rw [hdev, removeAll_eq, if_pos hdir] at hclear
    exact ⟨s.dev.tick, rfl, hclear⟩
  · have hmount : partitionMount (clearDevice o) (s.noteWipe disk part) disk part
        = (true, (s.noteWipe disk part).withDev s.dev.tick) := by
      rw [partitionMount_eq, hdev, hc, if_neg Bool.false_ne_true, hm]
    have hclear := partitionClear_of_mount (s := s.noteWipe disk part)
      (removeAll (clearDevice o) disk part) hpart hok hmount
    rw [show ((s.noteWipe disk part).withDev s.dev.tick).dev = s.dev.tick from rfl, removeAll_eq,
      Root.tick_asked, if_pos hdir] at hclear
    exact ⟨s.dev.tick.tick, rfl, hclear⟩

/-- A partition in order whose root is not opened. -/
theorem partitionClearAll_not_opened (hpart : whichPartition disk part = true)
    (hok : (s.partition disk part).status = .ok) (hopen : ¬ Opens o s.dev) :
    (partitionClearAll (clearDevice o) s disk part).1 = false ∧
      (partitionClearAll (clearDevice o) s disk part).2.dev.names = s.dev.names := by
  have hdev : (s.noteWipe disk part).dev = s.dev := rfl
  unfold Opens at hopen
  rw [not_or] at hopen
  cases hc : o.mountPointCheck s.dev.asked with
  | true =>
    have hmount : partitionMount (clearDevice o) (s.noteWipe disk part) disk part
        = (true, s.noteWipe disk part) := by
      rw [partitionMount_eq, hdev, hc, if_pos rfl]
    have hclear := partitionClear_of_mount (s := s.noteWipe disk part)
      (removeAll (clearDevice o) disk part) hpart hok hmount
    rw [hdev, removeAll_eq, if_neg fun hdir => hopen.1 ⟨hc, hdir⟩] at hclear
    exact hclear
  | false =>
    have hmount : partitionMount (clearDevice o) (s.noteWipe disk part) disk part
        = (o.mount s.dev.asked, (s.noteWipe disk part).withDev s.dev.tick) := by
      rw [partitionMount_eq, hdev, hc, if_neg Bool.false_ne_true]
    cases hm : o.mount s.dev.asked with
    | false =>
      rw [hm] at hmount
      have hclear := partitionClear_of_not_mount (s := s.noteWipe disk part)
        (removeAll (clearDevice o) disk part) hpart hok hmount
      exact hclear
    | true =>
      rw [hm] at hmount
      have hclear := partitionClear_of_mount (s := s.noteWipe disk part)
        (removeAll (clearDevice o) disk part) hpart hok hmount
      rw [show ((s.noteWipe disk part).withDev s.dev.tick).dev = s.dev.tick from rfl, removeAll_eq,
        Root.tick_asked, if_neg fun hdir => hopen.2 ⟨hc, hm, hdir⟩] at hclear
      exact hclear

theorem partitionClearAll_not_ok (hok : (s.partition disk part).status ≠ .ok) :
    partitionClearAll (clearDevice o) s disk part = (false, s.noteWipe disk part) := by
  unfold partitionClearAll partitionClear
  split
  · rfl
  · exact if_pos hok

/-- The removals decide whether the result is right. -/
theorem result_opened (hne : toRemove s.dev.names ≠ []) (hr : r.names = s.dev.names) :
    ((removeEntries (clearDevice o) disk part false s.dev.names r).1 = true ↔
      toRemove (removeEntries (clearDevice o) disk part false s.dev.names r).2.names = []) ↔
    Truthful o (toRemove s.dev.names) := by
  have hnodup : (toRemove s.dev.names).Nodup := s.dev.nodup.filter _
  have hsub : ∀ n ∈ toRemove s.dev.names, n ∈ r.names := fun n hn => by
    rw [hr]
    exact (List.mem_filter.mp hn).1
  have hnames := @removeEntries_names o disk part false _ r hnodup hsub
  rw [← truthful_iff, ← hnames, removeEntries_rc, if_neg hne, List.all_eq_true, toRemove_eq_nil_iff]
  apply iff_congr Iff.rfl
  constructor
  · intro hkept n hn hmem
    have := (List.mem_filter.mp hn).2
    exact (of_decide_eq_true this) (hkept n hmem)
  · intro hgone n hn
    by_contra hk
    have hmem : n ∈ s.dev.names := hr ▸ mem_of_mem_removeEntries hn
    exact hgone n (List.mem_filter.mpr ⟨hmem, decide_eq_true hk⟩) hn

/-- The result is right if and only if there is something to remove, the status was not
`PARTITION_CLEAR` before and the removals tell the truth where they are made. -/
theorem reports_iff (o : Outcomes) (s : Disks Root) (disk part : Int)
    (hpart : whichPartition disk part = true) :
    Reports o s disk part ↔ toRemove s.dev.names ≠ [] ∧ (s.partition disk part).status ≠ .clear ∧
      ((s.partition disk part).status = .ok → Opens o s.dev → Truthful o (toRemove s.dev.names)) := by
  have hstatus : (s.partition disk part).status ≠ .clear →
      ((partitionClearAll (clearDevice o) s disk part).2.partition disk part).status ≠ .clear :=
    fun h => status_partitionClear (s := s.noteWipe disk part) _ h
  by_cases hok : (s.partition disk part).status = .ok
  · have hclear : (s.partition disk part).status ≠ .clear := by
      rw [hok]
      decide
    by_cases hopen : Opens o s.dev
    · obtain ⟨r, hr, hret, hnames⟩ := partitionClearAll_opened hpart hok hopen
      by_cases hne : toRemove s.dev.names = []
      · constructor
        · rintro ⟨hresult, -⟩
          rw [hret, hnames, removeEntries_rc, if_pos hne] at hresult
          have hleft : toRemove (removeEntries (clearDevice o) disk part false s.dev.names r).2.names
              = [] := by
            rw [toRemove_eq_nil_iff] at hne ⊢
            exact fun n hn => hne n (hr ▸ mem_of_mem_removeEntries hn)
          exact absurd (hresult.mpr hleft) Bool.false_ne_true
        · rintro ⟨h, -⟩
          exact absurd hne h
      · constructor
        · rintro ⟨hresult, -⟩
          rw [hret, hnames, result_opened hne hr] at hresult
          exact ⟨hne, hclear, fun _ _ => hresult⟩
        · rintro ⟨-, -, htruth⟩
          refine ⟨?_, hstatus hclear⟩
          rw [hret, hnames, result_opened hne hr]
          exact htruth hok hopen
    · obtain ⟨hret, hnames⟩ := partitionClearAll_not_opened hpart hok hopen
      constructor
      · rintro ⟨hresult, -⟩
        rw [hret, hnames] at hresult
        exact ⟨fun h => absurd (hresult.mpr h) Bool.false_ne_true, hclear,
          fun _ h => absurd h hopen⟩
      · rintro ⟨hne, -, -⟩
        refine ⟨?_, hstatus hclear⟩
        rw [hret, hnames]
        exact ⟨fun h => absurd h Bool.false_ne_true, fun h => absurd h hne⟩
  · have heq := partitionClearAll_not_ok (o := o) hok
    constructor
    · rintro ⟨hresult, hstatus'⟩
      rw [heq] at hresult hstatus'
      exact ⟨fun h => absurd (hresult.mpr h) Bool.false_ne_true, hstatus',
        fun h => absurd h hok⟩
    · rintro ⟨hne, hclear, -⟩
      refine ⟨?_, hstatus hclear⟩
      rw [heq]
      exact ⟨fun h => absurd h Bool.false_ne_true, fun h => absurd h hne⟩

/-- Everything works. -/
def allWell : Outcomes where
  mountPointCheck _ := true
  mount _ := true
  statfs _ := some ⟨EXT3_SUPER_MAGIC, 1000, 900, 900⟩
  opendir _ := true
  removal _ := ⟨true, true, true, fun _ => rfl⟩

/-- The card with its two partitions in order, the names in the root of one of them. -/
def cardWith (names : List String) (h : names.Nodup) : Disks Root :=
  { dev := ⟨names, h, 0⟩, mmcPartition := fun _ => { status := .ok } }

theorem reports_iff_card :
    let s := cardWith [".", "..", "lost+found", "video"] (by decide)
    Reports allWell s DISK_IS_MMC 1 ↔ toRemove s.dev.names ≠ [] ∧
      (s.partition DISK_IS_MMC 1).status ≠ .clear ∧ ((s.partition DISK_IS_MMC 1).status = .ok →
        Opens allWell s.dev → Truthful allWell (toRemove s.dev.names)) :=
  reports_iff allWell _ DISK_IS_MMC 1 rfl

/-- An empty partition is not said to be cleared. -/
theorem not_reports : ¬ Reports allWell (cardWith [".", "..", "lost+found"] (by decide)) DISK_IS_MMC 1 := by
  intro h
  have := h.result.mpr (by decide)
  exact absurd this (by decide)

end VdCamera.Storage
