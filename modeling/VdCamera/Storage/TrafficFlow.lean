import VdCamera.Misc.Table
import VdCamera.Storage.RecordKinds
import VdCamera.Storage.RecordSave

/-!
# Uploading pedestrian flows again

`db_write_traffic_flow_pedestrian`, by which `save_traffic_flow_pedestrian_info` puts a record into
the file of its hour, `db_read_traffic_flow_pedestrian_info` with the query that
`traffic_flow_reupload_pedestrian` hands to it, and `db_delete_traffic_flow_pedestrian_info`
(`storage/traffic_flow_process.c`, `storage/data_process_flow.cpp`). The writer names the table
`traffic_flow_pedestrian`; the query and the deletion name `traffic_flow`, which the upload of motor
vehicle flows creates in a file that it opens.
-/

namespace VdCamera.Storage

open Misc (Table atoi_fmtInt)

/-- The key of a row. -/
def DBTrafficFlow.key (r : DBTrafficFlow) : Nat := r.ID.toInt.toNat

/-- `SET flag_send=0`. -/
def DBTrafficFlow.sent (r : DBTrafficFlow) : DBTrafficFlow := { r with flagSend := 0 }

theorem DBTrafficFlow.key_sent (r : DBTrafficFlow) : r.sent.key = r.key := rfl

/-- A row of `traffic_flow_pedestrian`. -/
structure PedestrianRow where
  ID : Nat
  record : DBTrafficFlowPedestrian
  deriving DecidableEq, Repr

/-- The tables of a record database; `none` for a table that is not there. -/
structure FlowFile where
  trafficFlow : Option (Table DBTrafficFlow DBTrafficFlow.key) := none
  trafficFlowPedestrian : Option (Table PedestrianRow PedestrianRow.ID) := none

section

variable (db : Database) (f : FlowFile)

/-- `db_create_table` with `SQL_CREATE_TABLE_TRAFFIC_FLOW_PEDESTRIAN`: a table that is there stays. -/
def FlowFile.createPedestrian : FlowFile :=
  { f with trafficFlowPedestrian := some (f.trafficFlowPedestrian.getD Table.empty) }

/-- `db_write_traffic_flow_pedestrian`, with what becomes of its statements. -/
def dbWriteTrafficFlowPedestrian (r : DBTrafficFlowPedestrian) : DbWrite → FlowFile
  | .stored =>
    { f with
      trafficFlowPedestrian := some ((f.trafficFlowPedestrian.getD Table.empty).insert
        (fun n => ⟨n, r⟩) fun _ => rfl) }
  | .unnoticed => f.createPedestrian
  | .failed created => if created then f.createPedestrian else f

/-- The file after some records have been saved to it. -/
def savePedestrians (saves : List (DBTrafficFlowPedestrian × DbWrite)) : FlowFile :=
  saves.foldl (fun f save => dbWriteTrafficFlowPedestrian f save.1 save.2) f

/-- A row of `traffic_flow` as the reader of pedestrian flows takes it: by the numbers of the
columns. -/
def readAsPedestrian (r : DBTrafficFlow) : DBTrafficFlowPedestrian :=
  dbUnformatTrafficFlowPedestrianInfo
    (db.row Storage.trafficFlow.columns r.ID (r.cells.map Cell.print))

/-- `db_read_traffic_flow_pedestrian_info` with
`SELECT * FROM traffic_flow WHERE ID>last AND flag_send>0 limit 1;`. -/
def dbReadTrafficFlowPedestrianInfo (last : Nat) : Option DBTrafficFlowPedestrian × FlowFile :=
  ((f.trafficFlow.bind fun t => t.selectAfter last (0 < ·.flagSend)).map (readAsPedestrian db),
    f.createPedestrian)

/-- `db_delete_traffic_flow_pedestrian_info`; `ok` tells that the file can be opened and written. -/
def dbDeleteTrafficFlowPedestrianInfo (ok : Bool) (r : DBTrafficFlowPedestrian) : Int × FlowFile :=
  match ok, f.trafficFlow with
  | true, some t =>
    let k := r.ID.toInt.toNat
    if r.flagStore = 1 then
      (0, { f with trafficFlow := some (t.update k DBTrafficFlow.sent DBTrafficFlow.key_sent) })
    else (0, { f with trafficFlow := some (t.delete k) })
  | _, _ => (-1, f)

/-- The query returns the record, for some `ID` behind which it is asked for. -/
def Returned (r : DBTrafficFlowPedestrian) : Prop :=
  ∃ last, (dbReadTrafficFlowPedestrianInfo db f last).1 = some r

/-- The record has been stored by the writer. -/
def Stored (r : DBTrafficFlowPedestrian) : Prop :=
  ∃ t, f.trafficFlowPedestrian = some t ∧ ∃ row ∈ t.rows, row.record = r

/-- The records of the file are uploaded again once: the query returns every stored one that is to be
sent, under its number, and a deletion that the file admits succeeds and takes just that record from
what the query returns. -/
structure UploadedOnce : Prop where
  returned : ∀ t, f.trafficFlowPedestrian = some t → ∀ row ∈ t.rows, 0 < row.record.flagSend →
    Returned db f (trafficFlowPedestrian.persisted (Int32.ofNat row.ID) row.record)
  deleted : ∀ r, Returned db f r → ∃ f', dbDeleteTrafficFlowPedestrianInfo f true r = (0, f') ∧
    ∀ r', Returned db f' r' ↔ Returned db f r' ∧ r'.ID ≠ r.ID

end

end VdCamera.Storage
