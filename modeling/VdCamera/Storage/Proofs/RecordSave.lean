import VdCamera.Misc.Run
import VdCamera.Storage.RecordSave

/-!
# The index and the records to be sent

A file is findable if the index of its kind has a row for it with `flag_send>0`. Each statement is
said to what it does to the findable files and to the files with a record to be sent; from that
follows, for each of the three savers, exactly when a call leaves every such file findable, and so
when a run of calls does.
-/

namespace VdCamera.Storage

open Misc

variable {e : SaveEnv} {k k' : Kind} {s s' : SaveState} {path p : String} {r : SavedRecord}
variable {t : Table IndexRow IndexRow.ID} {row : IndexRow} {flag : Flag} {n : Nat}

/-- The query of the upload can come to the file. -/
def Findable (t : Table IndexRow IndexRow.ID) (path : String) : Prop :=
  ∃ f ∈ t.rows, f.recordPath = path ∧ f.flagSend.IsPositive

/-- The file is findable by another row than the one with the ID `n`. -/
def FindableBut (t : Table IndexRow IndexRow.ID) (n : Nat) (path : String) : Prop :=
  ∃ f ∈ t.rows, f.ID ≠ n ∧ f.recordPath = path ∧ f.flagSend.IsPositive

/-- The row with the ID `n` is one of the file. -/
def HasRow (t : Table IndexRow IndexRow.ID) (n : Nat) (path : String) : Prop :=
  ∃ f ∈ t.rows, f.ID = n ∧ f.recordPath = path

instance : Decidable (Findable t path) :=
  inferInstanceAs (Decidable (∃ f ∈ t.rows, f.recordPath = path ∧ f.flagSend.IsPositive))

instance : Decidable (HasRow t n path) :=
  inferInstanceAs (Decidable (∃ f ∈ t.rows, f.ID = n ∧ f.recordPath = path))

/-- The database holds a record with `flag_send>0`. -/
def IsPendingFile (file : Option (List Flag)) : Prop := ∃ flag ∈ file.getD [], flag.IsPositive

instance {file : Option (List Flag)} : Decidable (IsPendingFile file) :=
  inferInstanceAs (Decidable (∃ flag ∈ file.getD [], flag.IsPositive))

/-- The index hides no record that is still to be sent. -/
def Indexed (s : SaveState) : Prop :=
  ∀ k path, IsPendingFile (s.files k path) → Findable (s.index k) path

theorem indexed_init : Indexed SaveState.init := by
  rintro k path ⟨flag, hflag, -⟩
  simp [SaveState.init] at hflag

/-- The call stores a record that is to be sent. -/
def StoresPending (e : SaveEnv) (path : String) (r : SavedRecord) : Prop :=
  e.write = .stored ∧ path ≠ "" ∧ r.flagSend.IsPositive

instance : Decidable (StoresPending e path r) := inferInstanceAs (Decidable (_ ∧ _))

/-! ## What the statements do -/

theorem findable_insert : Findable (t.insert (fun n => { row with ID := n }) fun _ => rfl) path ↔
    Findable t path ∨ row.recordPath = path ∧ row.flagSend.IsPositive := by
  unfold Findable
  simp only [Table.mem_insert]
  constructor
  · rintro ⟨f, hf | rfl, hpath, hpos⟩
    · exact Or.inl ⟨f, hf, hpath, hpos⟩
    · exact Or.inr ⟨hpath, hpos⟩
  · rintro (⟨f, hf, hpath, hpos⟩ | ⟨hpath, hpos⟩)
    · exact ⟨f, Or.inl hf, hpath, hpos⟩
    · exact ⟨_, Or.inr rfl, hpath, hpos⟩

theorem findable_updateSend :
    Findable (t.update n (fun f => { f with flagSend := flag }) fun _ => rfl) path ↔
      FindableBut t n path ∨ flag.IsPositive ∧ HasRow t n path := by
  unfold Findable FindableBut HasRow
  simp only [Table.mem_update]
  constructor
  · rintro ⟨f, ⟨hf, hID⟩ | ⟨f', hf', hID, rfl⟩, hpath, hpos⟩
    · exact Or.inl ⟨f, hf, hID, hpath, hpos⟩
    · exact Or.inr ⟨hpos, f', hf', hID, hpath⟩
  · rintro (⟨f, hf, hID, hpath, hpos⟩ | ⟨hpos, f, hf, hID, hpath⟩)
    · exact ⟨f, Or.inl ⟨hf, hID⟩, hpath, hpos⟩
    · exact ⟨_, Or.inr ⟨f, hf, hID, rfl⟩, hpath, hpos⟩

theorem findable_updateStore :
    Findable (t.update n (fun f => { f with flagStore := flag }) fun _ => rfl) path ↔
      Findable t path := by
  unfold Findable
  simp only [Table.mem_update]
  constructor
  · rintro ⟨f, ⟨hf, -⟩ | ⟨f', hf', -, rfl⟩, hpath, hpos⟩
    · exact ⟨f, hf, hpath, hpos⟩
    · exact ⟨f', hf', hpath, hpos⟩
  · rintro ⟨f, hf, hpath, hpos⟩
    by_cases hID : f.ID = n
    · exact ⟨_, Or.inr ⟨f, hf, hID, rfl⟩, hpath, hpos⟩
    · exact ⟨f, Or.inl ⟨hf, hID⟩, hpath, hpos⟩

theorem findable_iff_but : Findable t path ↔ FindableBut t n path ∨
    ∃ f ∈ t.rows, f.ID = n ∧ f.recordPath = path ∧ f.flagSend.IsPositive := by
  constructor
  · rintro ⟨f, hf, hpath, hpos⟩
    by_cases hID : f.ID = n
    · exact Or.inr ⟨f, hf, hID, hpath, hpos⟩
    · exact Or.inl ⟨f, hf, hID, hpath, hpos⟩
  · rintro (⟨f, hf, -, hpath, hpos⟩ | ⟨f, hf, -, hpath, hpos⟩)
    · exact ⟨f, hf, hpath, hpos⟩
    · exact ⟨f, hf, hpath, hpos⟩

/-- Where the row is rewritten with a positive flag, its file joins the findable ones. -/
theorem findableBut_or_hasRow : FindableBut t n path ∨ HasRow t n path ↔
    Findable t path ∨ HasRow t n path := by
  constructor
  · rintro (⟨f, hf, -, hpath, hpos⟩ | h)
    · exact Or.inl ⟨f, hf, hpath, hpos⟩
    · exact Or.inr h
  · rintro (h | h)
    · rcases findable_iff_but.mp h with h | ⟨f, hf, hID, hpath, -⟩
      · exact Or.inl h
      · exact Or.inr ⟨f, hf, hID, hpath⟩
    · exact Or.inr h

theorem dbWriteRecords_index : (dbWriteRecords e k s path r).2.index = s.index := by
  unfold dbWriteRecords
  rcases e.write with _ | _ | created
  · by_cases hpath : path = "" <;> simp [hpath]
  · by_cases hpath : path = "" <;> simp [hpath]
  · cases created <;> by_cases hpath : path = "" <;> simp [hpath]

/-- A file that is written back as it was read has the same records. -/
theorem isPendingFile_update (files : Kind → String → Option (List Flag)) (k k' : Kind)
    (path p : String) (flags : List Flag) :
    IsPendingFile (Function.update files k
        (Function.update (files k) path (some ((files k path).getD [] ++ flags))) k' p) ↔
      IsPendingFile (files k' p) ∨ k' = k ∧ p = path ∧ ∃ flag ∈ flags, flag.IsPositive := by
  by_cases hk : k' = k
  · subst hk
    by_cases hp : p = path
    · subst hp
      simp [IsPendingFile, or_and_right, exists_or]
    · simp [IsPendingFile, hp]
  · simp [IsPendingFile, hk]

theorem dbWriteRecords_pending : IsPendingFile ((dbWriteRecords e k s path r).2.files k' p) ↔
    IsPendingFile (s.files k' p) ∨ k' = k ∧ p = path ∧ StoresPending e path r := by
  have hsame := isPendingFile_update s.files k k' path p []
  rw [List.append_nil] at hsame
  simp only [List.not_mem_nil, false_and, exists_false, and_false, or_false] at hsame
  unfold dbWriteRecords StoresPending
  by_cases hpath : path = ""
  · cases hw : e.write <;> simp [hpath]
  · cases hw : e.write with
    | stored => simp [hpath, isPendingFile_update]
    | unnoticed => simpa [hpath] using hsame
    | failed created =>
      cases created
      · simp [hpath]
      · simpa [hpath] using hsame

theorem dbWriteDBFile_findable : Findable ((dbWriteDBFile e k s row).index k') path ↔
    Findable (s.index k') path ∨
      k' = k ∧ e.writeDBFile ∧ row.recordPath = path ∧ row.flagSend.IsPositive := by
  unfold dbWriteDBFile
  by_cases hok : e.writeDBFile
  · rw [if_pos hok]
    by_cases hk : k' = k
    · subst hk
      simp only [Function.update_self, findable_insert, hok, true_and]
    · simp [hk]
  · simp [hok]

theorem dbUpdateRecords_files {ok : Bool} {f : IndexRow → IndexRow}
    {hf : ∀ row, (f row).ID = row.ID} :
    (dbUpdateRecords k s ok n f hf).files = s.files := by
  unfold dbUpdateRecords
  split <;> rfl

theorem dbUpdateRecords_index {ok : Bool} {f : IndexRow → IndexRow}
    {hf : ∀ row, (f row).ID = row.ID} : (dbUpdateRecords k s ok n f hf).index k' =
      if ok ∧ k' = k then (s.index k).update n f hf else s.index k' := by
  unfold dbUpdateRecords
  by_cases hok : ok
  · by_cases hk : k' = k
    · subst hk
      simp [hok]
    · simp [hok, hk]
  · simp [hok]

theorem updateIndex_files : (updateIndex e k s r).files = s.files := by
  have hsend (s : SaveState) : (mergeSend e k s r).files = s.files := by
    simp only [mergeSend]
    split
    · exact dbUpdateRecords_files
    · rfl
  have hstore (s : SaveState) : (mergeStore e k s r).files = s.files := by
    simp only [mergeStore]
    split
    · exact dbUpdateRecords_files
    · rfl
  rw [updateIndex, hstore, hsend]
  rfl

theorem mergeStore_findable :
    Findable ((mergeStore e k s r).index k') path ↔ Findable (s.index k') path := by
  simp only [mergeStore]
  split
  · rw [dbUpdateRecords_index]
    split
    · next h => rw [findable_updateStore, h.2]
    · rfl
  · rfl

theorem mergeSend_index_ne (hk : k' ≠ k) : (mergeSend e k s r).index k' = s.index k' := by
  simp only [mergeSend]
  split
  · rw [dbUpdateRecords_index, if_neg fun h => hk h.2]
  · rfl

/-- The flag that a merge leaves in the row. -/
abbrev mergedFlag (row : IndexRow) (r : SavedRecord) : Flag := row.flagSend ||| r.flagSend

theorem mergeSend_findable : Findable ((mergeSend e k s r).index k) path ↔
    if Merges r (s.dbFile k) ∧ e.updateSend then
      FindableBut (s.index k) (s.dbFile k).ID path ∨
        (mergedFlag (s.dbFile k) r).IsPositive ∧ HasRow (s.index k) (s.dbFile k).ID path
    else Findable (s.index k) path := by
  simp only [mergeSend]
  by_cases hm : Merges r (s.dbFile k)
  · rw [if_pos hm, dbUpdateRecords_index]
    by_cases hok : e.updateSend
    · rw [if_pos ⟨hok, rfl⟩, if_pos ⟨hm, hok⟩, findable_updateSend]
    · rw [if_neg fun h => hok h.1, if_neg fun h => hok h.2]
  · rw [if_neg hm, if_neg fun h => hm h.1]

theorem updateIndex_findable_ne (hk : k' ≠ k) :
    Findable ((updateIndex e k s r).index k') path ↔ Findable (s.index k') path := by
  rw [updateIndex, mergeStore_findable, mergeSend_index_ne hk]
  rfl

theorem updateIndex_findable : Findable ((updateIndex e k s r).index k) path ↔
    if Merges r (cachedRow e k s r) ∧ e.updateSend then
      FindableBut (s.index k) (cachedRow e k s r).ID path ∨
        (mergedFlag (cachedRow e k s r) r).IsPositive ∧
          HasRow (s.index k) (cachedRow e k s r).ID path
    else Findable (s.index k) path := by
  rw [updateIndex, mergeStore_findable, mergeSend_findable]
  simp [readFirst]

/-! ## What a call does -/

/-- What is left to show of a call that touches the files of one kind only. -/
theorem indexed_iff (hs : Indexed s)
    (hfiles : ∀ k' p, IsPendingFile (s'.files k' p) ↔
      IsPendingFile (s.files k' p) ∨ k' = k ∧ p = path ∧ StoresPending e path r)
    (hindex : ∀ k' p, k' ≠ k → Findable (s.index k') p → Findable (s'.index k') p) :
    Indexed s' ↔ ∀ p, IsPendingFile (s.files k p) ∨ p = path ∧ StoresPending e path r →
      Findable (s'.index k) p := by
  constructor
  · intro h p hp
    apply h
    rw [hfiles]
    rcases hp with hp | hp
    · exact Or.inl hp
    · exact Or.inr ⟨rfl, hp⟩
  · intro h k' p hp
    rw [hfiles] at hp
    by_cases hk : k' = k
    · subst hk
      apply h
      rcases hp with hp | ⟨-, hp⟩
      · exact Or.inl hp
      · exact Or.inr hp
    · rcases hp with hp | ⟨hk', -⟩
      · exact hindex k' p hk (hs k' p hp)
      · exact absurd hk' hk

/-- Where nothing that was findable is lost, only the new record counts. -/
theorem indexed_iff_of_mono (hs : Indexed s)
    (hfiles : ∀ k' p, IsPendingFile (s'.files k' p) ↔
      IsPendingFile (s.files k' p) ∨ k' = k ∧ p = path ∧ StoresPending e path r)
    (hindex : ∀ k' p, Findable (s.index k') p → Findable (s'.index k') p) :
    Indexed s' ↔ (StoresPending e path r → Findable (s'.index k) path) := by
  rw [indexed_iff hs hfiles fun k' p _ => hindex k' p]
  constructor
  · intro h hst
    exact h path (Or.inr ⟨rfl, hst⟩)
  · rintro h p (hp | ⟨rfl, hst⟩)
    · exact hindex k p (hs k p hp)
    · exact h hst

/-- The branch for an existing database keeps the pending files findable: no merge leaves a flag
that is not positive in the only row by which such a file is found, and a stored record's file is
findable already, or the merge works on a row of this very file. -/
def UpdateKeeps (e : SaveEnv) (k : Kind) (s : SaveState) (path : String) (r : SavedRecord) : Prop :=
  if Merges r (cachedRow e k s r) ∧ e.updateSend then
    if (mergedFlag (cachedRow e k s r) r).IsPositive then
      StoresPending e path r →
        Findable (s.index k) path ∨ HasRow (s.index k) (cachedRow e k s r).ID path
    else
      ∀ p, IsPendingFile (s.files k p) ∨ p = path ∧ StoresPending e path r →
        FindableBut (s.index k) (cachedRow e k s r).ID p
  else StoresPending e path r → Findable (s.index k) path

theorem updateIndex_keeps_iff (hs : Indexed s)
    (hfiles : ∀ k' p, IsPendingFile (s'.files k' p) ↔
      IsPendingFile (s.files k' p) ∨ k' = k ∧ p = path ∧ StoresPending e path r)
    (hindex : s'.index = (updateIndex e k s r).index) : Indexed s' ↔ UpdateKeeps e k s path r := by
  have hne : ∀ k' p, k' ≠ k → Findable (s.index k') p → Findable (s'.index k') p := by
    intro k' p hk h
    rw [hindex]
    exact (updateIndex_findable_ne hk).mpr h
  unfold UpdateKeeps
  by_cases hm : Merges r (cachedRow e k s r) ∧ e.updateSend
  · rw [if_pos hm]
    have hfind (p : String) : Findable (s'.index k) p ↔
        FindableBut (s.index k) (cachedRow e k s r).ID p ∨
          (mergedFlag (cachedRow e k s r) r).IsPositive ∧
            HasRow (s.index k) (cachedRow e k s r).ID p := by
      rw [hindex, updateIndex_findable, if_pos hm]
    by_cases hpos : (mergedFlag (cachedRow e k s r) r).IsPositive
    · rw [if_pos hpos]
      have hfind (p : String) : Findable (s'.index k) p ↔
          Findable (s.index k) p ∨ HasRow (s.index k) (cachedRow e k s r).ID p := by
        rw [hfind, and_iff_right hpos, findableBut_or_hasRow]
      rw [indexed_iff_of_mono hs hfiles, hfind]
      intro k' p h
      by_cases hk : k' = k
      · subst hk
        exact (hfind p).mpr (Or.inl h)
      · exact hne k' p hk h
    · rw [if_neg hpos, indexed_iff hs hfiles hne]
      simp only [hfind, hpos, false_and, or_false]
  · rw [if_neg hm]
    have hfind (p : String) : Findable (s'.index k) p ↔ Findable (s.index k) p := by
      rw [hindex, updateIndex_findable, if_neg hm]
    rw [indexed_iff_of_mono hs hfiles, hfind]
    intro k' p h
    by_cases hk : k' = k
    · subst hk
      exact (hfind p).mpr h
    · exact hne k' p hk h

/-- The branch for a new database, with its row going into the index of `ki`. -/
theorem insert_keeps_iff (hs : Indexed s) (path : String) (ki : Kind)
    (dbFile : Kind → IndexRow) (row : IndexRow) (recordType : RecordType) :
    Indexed (dbWriteRecords e k (dbWriteDBFile e ki { s with dbFile := dbFile }
        (indexRow path r row recordType)) path r).2 ↔
      (StoresPending e path r → ki = k ∧ e.writeDBFile ∨ Findable (s.index k) path) := by
  have hfiles : (dbWriteDBFile e ki { s with dbFile := dbFile }
      (indexRow path r row recordType)).files = s.files := by
    unfold dbWriteDBFile
    split <;> rfl
  rw [@indexed_iff_of_mono e k s _ path r hs, dbWriteRecords_index,
    dbWriteDBFile_findable]
  · constructor
    · intro h hst
      rcases h hst with h | ⟨hk, hok, -⟩
      · exact Or.inr h
      · exact Or.inl ⟨hk.symm, hok⟩
    · intro h hst
      rcases h hst with ⟨hk, hok⟩ | h
      · exact Or.inr ⟨hk.symm, hok, rfl, hst.2.2⟩
      · exact Or.inl h
  · intro k' p
    rw [dbWriteRecords_pending, hfiles]
  · intro k' p h
    rw [dbWriteRecords_index, dbWriteDBFile_findable]
    exact Or.inl h

/-- The call leaves every file with a record to be sent findable. -/
def SaveKeeps (s : SaveState) : SaveCall → Prop
  | .park objectState tm0 tm1 path r e =>
    let dir := path ++ "/DB/park_record"
    let name :=
      if objectState = 1 then dbName dir tm0 else if objectState = 0 then dbName dir tm1 else ""
    e.dirs → StoresPending e name r →
      s.files .park name = none ∧ e.writeDBFile ∨ Findable (s.index .park) name
  | .flow tm path r e =>
    let name := dbName (path ++ "/DB/traffic_flow") tm
    e.dirs →
      if s.files .flow name = none then
        StoresPending e name r → e.writeDBFile ∨ Findable (s.index .flow) name
      else UpdateKeeps e .flow s name r
  | .pedestrian tm path r e =>
    let name := dbName (path ++ "/DB/traffic_flow_pedestrian") tm
    if s.files .pedestrian name = none then
      e.dirs → StoresPending e name r → Findable (s.index .pedestrian) name
    else UpdateKeeps e .pedestrian s name r

theorem saveStep_indexed_iff (hs : Indexed s) (c : SaveCall) :
    After saveStep Indexed s c ↔ SaveKeeps s c := by
  cases c with
  | park objectState tm0 tm1 storagePath r e =>
    rw [after_of_eq rfl]
    simp only [SaveKeeps, saveParkRecordInfo]
    generalize (if objectState = 1 then dbName (storagePath ++ "/DB/park_record") tm0
      else if objectState = 0 then dbName (storagePath ++ "/DB/park_record") tm1 else "") = name
    by_cases hdirs : e.dirs
    · by_cases hfile : s.files .park name = none
      · simpa [hdirs, hfile] using insert_keeps_iff (e := e) (k := .park) (r := r)
          hs name .park _ (s.dbFile .park) .trafficRecord
      · simp only [hdirs, hfile, Bool.not_true, Bool.false_eq_true, if_false, false_and, false_or,
          forall_const]
        rw [indexed_iff_of_mono hs fun k' p => dbWriteRecords_pending, dbWriteRecords_index]
        intro k' p h
        rwa [dbWriteRecords_index]
    · simpa [hdirs] using hs
  | flow tm partitionPath r e =>
    rw [after_of_eq rfl]
    simp only [SaveKeeps, saveTrafficFlowInfo]
    generalize dbName (partitionPath ++ "/DB/traffic_flow") tm = name
    by_cases hdirs : e.dirs
    · by_cases hfile : s.files .flow name = none
      · simpa [hdirs, hfile] using insert_keeps_iff (e := e) (k := .flow) (r := r)
          hs name .flow s.dbFile {} .trafficFlowMotorVehicle
      · simp only [hdirs, hfile, Bool.not_true, Bool.false_eq_true, if_false, forall_const]
        apply updateIndex_keeps_iff hs
        · intro k' p
          rw [dbWriteRecords_pending, updateIndex_files]
        · exact dbWriteRecords_index
    · simpa [hdirs] using hs
  | pedestrian tm partitionPath r e =>
    rw [after_of_eq rfl]
    simp only [SaveKeeps, saveTrafficFlowPedestrianInfo]
    generalize dbName (partitionPath ++ "/DB/traffic_flow_pedestrian") tm = name
    by_cases hfile : s.files .pedestrian name = none
    · by_cases hdirs : e.dirs
      · simpa [hdirs, hfile] using insert_keeps_iff (e := e) (k := .pedestrian) (r := r)
          hs name .flow _ {} .trafficFlowPedestrian
      · simpa [hdirs, hfile] using hs
    · simp only [hfile, if_false]
      apply updateIndex_keeps_iff hs
      · intro k' p
        rw [dbWriteRecords_pending, updateIndex_files]
      · exact dbWriteRecords_index

/-- A run of calls never hides a record to be sent if and only if each of its calls keeps the files
with such records findable. -/
theorem saves_indexed_iff (hs : Indexed s) (calls : List SaveCall) :
    Along saveStep (After saveStep Indexed) s calls ↔ Along saveStep SaveKeeps s calls :=
  along_congr hs (fun _ _ s' _ h hstep => h s' hstep) fun _ c hs => saveStep_indexed_iff hs c

/-- Nine o'clock, and records of that hour. -/
def nine : Hour := ⟨2013, 8, 21, 9⟩

def recordAtNine (flagSend : Flag) : SavedRecord := ⟨"2013-08-21 09:10:11", flagSend, 0⟩

theorem dbName_ne_empty (dir : String) (tm : Hour) : dbName dir tm ≠ "" := by
  simp [dbName]

theorem saves_indexed_iff_new : Along saveStep (After saveStep Indexed) SaveState.init
    [.park 1 nine nine "/mnt/sda1" (recordAtNine 1) {}] :=
  (saves_indexed_iff indexed_init _).mpr ⟨fun _ _ => Or.inl ⟨rfl, rfl⟩, fun _ _ => trivial⟩

/-- A park record that has been sent opens the database of its hour; the next one, which has not, is
not found. -/
theorem saves_not_indexed_park : ¬ Along saveStep (After saveStep Indexed) SaveState.init
    [.park 1 nine nine "/mnt/sda1" (recordAtNine 0) {},
      .park 1 nine nine "/mnt/sda1" (recordAtNine 1) {}] := by
  intro h
  have hne := dbName_ne_empty ("/mnt/sda1" ++ "/DB/park_record") nine
  simp only [along_cons, After, saveStep, Option.some.injEq, forall_eq', saveParkRecordInfo,
    if_true] at h
  generalize dbName ("/mnt/sda1" ++ "/DB/park_record") nine = name at h hne
  have hpath := h.2.1 .park name
  simp [dbWriteRecords, dbWriteDBFile, indexRow, SaveState.init, hne, IsPendingFile, Findable,
    Table.insert, Table.empty, recordAtNine, Flag.IsPositive] at hpath

end VdCamera.Storage
