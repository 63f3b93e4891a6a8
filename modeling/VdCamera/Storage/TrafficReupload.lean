import Mathlib.Logic.Function.Basic
import VdCamera.Misc.Table

/-!
# Uploading traffic records again

`traffic_record_reupload` of `storage/data_process_traffic.cpp` and what it calls in
`storage/data_process.cpp` and `storage/traffic_records_process.cpp`. One call is a round: it takes
the first record that has something left to send, uploads its image and then its information, and
deletes it. The databases are tables; the links and every statement and transfer may fail.
-/

namespace VdCamera.Storage

open Misc (Table)

/-- A row of the index `DB_files`: one record database. -/
structure DBFile where
  ID : Nat
  recordPath : String
  flagSend : Nat
  flagStore : Nat
  deriving DecidableEq, Repr

/-- The columns of `traffic_records` that decide what is done with a row. In `flag_send` the bit
0x01 stands for the information and 0x02 for the image. -/
structure TrafficRecord where
  ID : Nat
  partitionPath : String
  imagePath : String
  flagSend : Nat
  flagStore : Nat
  deriving DecidableEq, Repr

/-- The information of the record is still to be sent. -/
def TrafficRecord.infoToSend (r : TrafficRecord) : Prop := r.flagSend &&& 0x01 = 0x01

/-- The image of the record is still to be sent. -/
def TrafficRecord.imageToSend (r : TrafficRecord) : Prop := r.flagSend &&& 0x02 = 0x02

instance (r : TrafficRecord) : Decidable r.infoToSend := inferInstanceAs (Decidable (_ = _))

instance (r : TrafficRecord) : Decidable r.imageToSend := inferInstanceAs (Decidable (_ = _))

/-- The databases, the images in the record directories and the static variables of
`traffic_record_reupload`. `delivered` lists the records, by database and ID, whose information MQ
has reported as sent. -/
structure Store where
  dbFiles : Table DBFile DBFile.ID
  records : String → Table TrafficRecord TrafficRecord.ID
  images : List (String × String)
  idDBFileLast : Nat := 0
  idRecordLast : Nat := 0
  delivered : List (String × Nat) := []

/-- Rewrite the table of one database. -/
def Store.setRecords (s : Store) (path : String)
    (t : Table TrafficRecord TrafficRecord.ID) : Store :=
  { s with records := Function.update s.records path t }

/-- What one round meets: the configuration, the links and the results of transfers and statements.
-/
structure Round where
  isResumePasscar : Bool := true
  /-- `ftp_get_status_traffic_record` at the start. -/
  ftpUp : Bool
  /-- `mq_get_status_traffic_record` at the start. -/
  mqUp : Bool
  /-- The result of `ftp_send_traffic_record_pic_file`. -/
  ftpSend : Bool := true
  /-- The channel of the transfer and its configuration are there afterwards. -/
  ftpChannel : Bool := true
  /-- `move_record_to_trash` succeeds. -/
  moved : Bool := true
  /-- `mq_get_status_traffic_record` in `send_traffic_records_info`. -/
  mqUpAtSend : Bool := true
  /-- The result of `mq_send_traffic_record`. -/
  mqSend : Bool := true
  readFile : Bool := true
  readRecord : Bool := true
  deleteRecord : Bool := true
  /-- `db_delete_DB_file` opens the index. -/
  openIndex : Bool := true
  deleteFile : Bool := true

variable (e : Round) (s : Store) (path : String) (r : TrafficRecord)

def dbReadDBFile : Option DBFile :=
  if e.readFile then s.dbFiles.selectAfter s.idDBFileLast (0 < ·.flagSend) else none

/-- The count of reads with the same plate number is local to the call, so it never stops a read. -/
def dbReadTrafficRecord : Option TrafficRecord :=
  if e.readRecord then (s.records path).selectAfter s.idRecordLast (0 < ·.flagSend) else none

/-- The statement of `db_delete_traffic_records`: a record that is kept is only unmarked. -/
def dbDeleteTrafficRecords : Store :=
  if !e.deleteRecord then s
  else if r.flagStore = 1 then
    s.setRecords path ((s.records path).update r.ID (fun r => { r with flagSend := 0 }) fun _ => rfl)
  else s.setRecords path ((s.records path).delete r.ID)

/-- `db_delete_DB_file`: a record database that is not kept is removed with all its rows. -/
def dbDeleteDBFile (f : DBFile) : Store :=
  if !e.openIndex then s
  else if f.flagStore = 1 then
    if e.deleteFile then
      { s with dbFiles := s.dbFiles.update f.ID (fun f => { f with flagSend := 0 }) fun _ => rfl }
    else s
  else
    let s := s.setRecords f.recordPath Table.empty
    if e.deleteFile then { s with dbFiles := s.dbFiles.delete f.ID } else s

/-- `send_traffic_records_image_file`: an image that is not kept leaves the record directory. -/
def sendTrafficRecordsImageFile : Int × Store :=
  if (r.partitionPath, r.imagePath) ∉ s.images then (-2, s)
  else if !e.ftpSend then (-1, s)
  else if r.flagStore = 0 ∧ e.moved then
    (0, { s with images := s.images.filter (· ≠ (r.partitionPath, r.imagePath)) })
  else (0, s)

/-- `send_traffic_records_info`: the result of `mq_send_traffic_record` is not looked at. -/
def sendTrafficRecordsInfo : Int × Store :=
  if !e.mqUpAtSend then (-1, s)
  else if e.mqSend then (0, { s with delivered := (path, r.ID) :: s.delivered })
  else (0, s)

/-- The end of a round that is done with its record. -/
def finishRecord : Store :=
  { dbDeleteTrafficRecords e s path r with idRecordLast := r.ID }

/-- The second half of the round, on the record with the flag as it is in memory. -/
def reuploadInfo : Int × Store :=
  if r.flagSend = 1 ∧ e.mqUp then
    match sendTrafficRecordsInfo e s path r with
    | (0, s) => (0, finishRecord e s path r)
    | (_, s) => (-1, s)
  else if r.flagSend = 1 then (-1, s)
  else (0, finishRecord e s path r)

/-- The round from the record on. -/
def reuploadRecord : Int × Store :=
  if e.ftpUp ∧ r.imageToSend then
    match sendTrafficRecordsImageFile e s r with
    | (0, s) =>
      if !e.ftpChannel then (-1, s)
      else reuploadInfo e s path { r with flagSend := r.flagSend &&& 0xfd }
    | (-2, s) => (0, finishRecord e s path r)
    | (_, s) => (-1, s)
  else if r.imageToSend then (-1, s)
  else reuploadInfo e s path r

def trafficRecordReupload : Int × Store :=
  if !e.isResumePasscar then (-1, s)
  else if !e.ftpUp && !e.mqUp then (-1, s)
  else
    match dbReadDBFile e s with
    | none => (-1, s)
    | some f =>
      match dbReadTrafficRecord e s f.recordPath with
      | none => (-1, dbDeleteDBFile e { s with idRecordLast := 0, idDBFileLast := 0 } f)
      | some r => reuploadRecord e s f.recordPath r

/-- A round as a step of a run. -/
def reuploadRound (s : Store) (e : Round) : Option Store := some (trafficRecordReupload e s).2

end VdCamera.Storage
