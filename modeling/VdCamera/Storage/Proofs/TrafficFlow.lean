import VdCamera.Storage.TrafficFlow
import VdCamera.Storage.Proofs.RecordSql

/-!
# A pedestrian flow is not uploaded again

The query and the deletion name the same table and the same key: once the deletion of a record has
succeeded, the query returns the other ones and no more. A file that only the writer has touched does
not have that table: there is nothing that the query returns or the deletion finds.
-/

namespace VdCamera.Storage

open Misc (Table atoi_fmtInt)

variable {db : Database} {f f' : FlowFile} {t : Table DBTrafficFlow DBTrafficFlow.key}
  {r r' : DBTrafficFlowPedestrian} {ok : Bool}

@[simp]
theorem readAsPedestrian_ID (row : DBTrafficFlow) : (readAsPedestrian db row).ID = row.ID :=
  atoi_fmtInt row.ID

theorem returned_iff : Returned db f r ↔ ∃ t, f.trafficFlow = some t ∧
    ∃ row ∈ t.rows, 0 < row.flagSend ∧ readAsPedestrian db row = r := by
  unfold Returned dbReadTrafficFlowPedestrianInfo
  cases hf : f.trafficFlow with
  | none => simp
  | some t =>
    have hselect (row : DBTrafficFlow) :
        (∃ last, t.selectAfter last (0 < ·.flagSend) = some row) ↔
          row ∈ t.rows ∧ 0 < row.flagSend := by
      rw [t.selectAfter_iff, decide_eq_true_iff]
    simp only [Option.bind_some, Option.map_eq_some_iff, Option.some.injEq, exists_eq_left']
    constructor
    · rintro ⟨last, row, hrow, hread⟩
      obtain ⟨hmem, hsend⟩ := (hselect row).mp ⟨last, hrow⟩
      exact ⟨row, hmem, hsend, hread⟩
    · rintro ⟨row, hmem, hsend, hread⟩
      obtain ⟨last, hrow⟩ := (hselect row).mpr ⟨hmem, hsend⟩
      exact ⟨last, row, hrow, hread⟩

/-- What a deletion that succeeds leaves of the rows that the query asks for. -/
theorem dbDelete_rows (h : dbDeleteTrafficFlowPedestrianInfo f ok r = (0, f')) :
    ∃ t t', f.trafficFlow = some t ∧ f'.trafficFlow = some t' ∧ ∀ row, 0 < row.flagSend →
      (row ∈ t'.rows ↔ row ∈ t.rows ∧ row.key ≠ r.ID.toInt.toNat) := by
  unfold dbDeleteTrafficFlowPedestrianInfo at h
  split at h
  · next t hf =>
    dsimp only at h
    split at h
    · cases h
      refine ⟨t, _, hf, rfl, fun row hsend => ?_⟩
      rw [Table.mem_update]
      apply or_iff_left
      -- a row that is updated is not asked for any more
      rintro ⟨row', -, -, rfl⟩
      exact absurd hsend (show ¬ (0 : Int32) < 0 by decide)
    · cases h
      exact ⟨t, _, hf, rfl, fun row _ => t.mem_delete⟩
  · cases h

theorem key_eq_iff {row : DBTrafficFlow} (hpos : 0 < row.key) (id : Int32) :
    row.key = id.toInt.toNat ↔ row.ID = id := by
  rw [← Int32.toInt_inj]
  simp only [DBTrafficFlow.key] at hpos ⊢
  omega

/-- Once the deletion of a record has succeeded, the query does not return it, and it returns every
other one as before: whatever has been saved to the file, and whatever it held. -/
theorem not_returned_again (db : Database) (f : FlowFile)
    (saves : List (DBTrafficFlowPedestrian × DbWrite)) (ok : Bool) (r : DBTrafficFlowPedestrian)
    (f' : FlowFile)
    (h : dbDeleteTrafficFlowPedestrianInfo (savePedestrians f saves) ok r = (0, f')) :
    ∀ r', Returned db f' r' ↔ Returned db (savePedestrians f saves) r' ∧ r'.ID ≠ r.ID := by
  intro r'
  obtain ⟨t, t', ht, ht', hrows⟩ := dbDelete_rows h
  rw [returned_iff, returned_iff, ht, ht']
  simp only [Option.some.injEq, exists_eq_left']
  constructor
  · rintro ⟨row, hrow, hsend, rfl⟩
    obtain ⟨hmem, hkey⟩ := (hrows row hsend).mp hrow
    refine ⟨⟨row, hmem, hsend, rfl⟩, ?_⟩
    rwa [readAsPedestrian_ID, Ne, ← key_eq_iff (t.pos row hmem)]
  · rintro ⟨⟨row, hmem, hsend, rfl⟩, hID⟩
    rw [readAsPedestrian_ID, Ne, ← key_eq_iff (t.pos row hmem)] at hID
    exact ⟨row, (hrows row hsend).mpr ⟨hmem, hID⟩, hsend, rfl⟩

/-- A row of `traffic_flow` that is still to be sent. -/
def pendingFlow : DBTrafficFlow :=
  dbUnformatReadSqlTrafficFlow fun i => if i = 0 ∨ i = 21 then [49] else []

/-- A file with that row. -/
def pendingFile : FlowFile where
  trafficFlow := some ⟨[pendingFlow], List.pairwise_singleton _ _,
    List.forall_mem_singleton.mpr (by decide)⟩

theorem not_returned_again_pending :
    ¬ Returned Database.ofInt32 { trafficFlow := some Table.empty }
      (readAsPedestrian Database.ofInt32 pendingFlow) := fun h =>
  ((not_returned_again Database.ofInt32 pendingFile [] true
    (readAsPedestrian Database.ofInt32 pendingFlow) { trafficFlow := some Table.empty } rfl _).mp
      h).2 rfl

/-- The writer leaves `traffic_flow` as it is. -/
theorem trafficFlow_savePedestrians (f : FlowFile)
    (saves : List (DBTrafficFlowPedestrian × DbWrite)) :
    (savePedestrians f saves).trafficFlow = f.trafficFlow := by
  unfold savePedestrians
  induction saves generalizing f with
  | nil => rfl
  | cons save saves ih =>
    rw [List.foldl_cons, ih]
    obtain ⟨r, write⟩ := save
    cases write with
    | stored => rfl
    | unnoticed => rfl
    | failed created =>
      cases created
      · rfl
      · rfl

/-- In a file that only the writer has made there is nothing to upload, and a deletion fails. -/
theorem saved_not_returned (db : Database) (saves : List (DBTrafficFlowPedestrian × DbWrite))
    (ok : Bool) (r : DBTrafficFlowPedestrian) :
    ¬ Returned db (savePedestrians {} saves) r ∧
      dbDeleteTrafficFlowPedestrianInfo (savePedestrians {} saves) ok r
        = (-1, savePedestrians {} saves) := by
  have hnone := trafficFlow_savePedestrians {} saves
  constructor
  · rw [returned_iff, hnone]
    rintro ⟨t, ht, -⟩
    cases ht
  · unfold dbDeleteTrafficFlowPedestrianInfo
    rw [hnone]
    cases ok
    · rfl
    · rfl

theorem stored_write {save : DbWrite} :
    Stored (dbWriteTrafficFlowPedestrian f r save) r' ↔ Stored f r' ∨ (save = .stored ∧ r = r') := by
  have hcreate : Stored f.createPedestrian r' ↔ Stored f r' := by
    unfold Stored FlowFile.createPedestrian
    cases hf : f.trafficFlowPedestrian with
    | none => simp [Table.empty]
    | some t => simp
  cases save with
  | stored =>
    unfold Stored dbWriteTrafficFlowPedestrian
    cases hf : f.trafficFlowPedestrian with
    | none => simp [Table.mem_insert, Table.empty]
    | some t => simp [Table.mem_insert, or_and_right, exists_or]
  | unnoticed => simpa [dbWriteTrafficFlowPedestrian] using hcreate
  | failed created =>
    cases created with
    | true => simpa [dbWriteTrafficFlowPedestrian] using hcreate
    | false => simp [dbWriteTrafficFlowPedestrian]

/-- The stored records are those that were saved with success. -/
theorem stored_savePedestrians (f : FlowFile) (saves : List (DBTrafficFlowPedestrian × DbWrite)) :
    Stored (savePedestrians f saves) r ↔ Stored f r ∨ ∃ save ∈ saves, save.2 = .stored ∧ save.1 = r := by
  unfold savePedestrians
  induction saves generalizing f with
  | nil => simp
  | cons save saves ih => rw [List.foldl_cons, ih, stored_write, List.exists_mem_cons_iff, or_assoc]

/-- In the file that the writer has made the records are uploaded again once if and only if none has
been stored that is to be sent. -/
theorem uploadedOnce_iff (db : Database) (saves : List (DBTrafficFlowPedestrian × DbWrite)) :
    UploadedOnce db (savePedestrians {} saves) ↔
      ∀ save ∈ saves, save.2 = .stored → ¬ 0 < save.1.flagSend := by
  have hnone (r : DBTrafficFlowPedestrian) : ¬ Returned db (savePedestrians {} saves) r :=
    (saved_not_returned db saves true r).1
  constructor
  · intro h save hsave hstored hsend
    obtain ⟨t, ht, row, hrow, hrecord⟩ := (stored_savePedestrians (r := save.1) {} saves).mpr
      (.inr ⟨save, hsave, hstored, rfl⟩)
    rw [← hrecord] at hsend
    exact hnone _ (h.returned t ht row hrow hsend)
  · intro h
    refine ⟨fun t ht row hrow hsend => ?_, fun r hr => absurd hr (hnone r)⟩
    rcases (stored_savePedestrians {} saves).mp ⟨t, ht, row, hrow, rfl⟩ with ⟨t', ht', -⟩ | hsaved
    · cases ht'
    · obtain ⟨save, hsave, hstored, hrecord⟩ := hsaved
      rw [← hrecord] at hsend
      exact absurd hsend (h save hsave hstored)

/-- A pedestrian flow whose upload has failed. -/
def unsentPedestrians : DBTrafficFlowPedestrian where
  ID := 0
  flowLeft2right := 3
  flowRight2left := 2
  pointId := [49]
  pointName := [65]
  devId := [49]
  devName := [66]
  uptime := []
  flagSend := 1
  flagStore := 0

/-- It is stored under number 1 and not returned. -/
theorem not_uploadedOnce :
    ¬ UploadedOnce Database.ofInt32 (savePedestrians {} [(unsentPedestrians, .stored)]) := by
  intro h
  exact (saved_not_returned Database.ofInt32 [(unsentPedestrians, .stored)] true _).1
    (h.returned _ rfl ⟨1, unsentPedestrians⟩ List.mem_cons_self (by decide))

end VdCamera.Storage
