import Mathlib.Algebra.Ring.Nat
import VdCamera.Misc.Loop
import VdCamera.Storage.RecordSave
import VdCamera.Storage.TrafficReupload

/-!
# Exporting the history of traffic records

`db_upload_history_traffic_Thr` and `get_record_count_traffic` of
`storage/data_process_traffic.cpp` with `get_hour_end` of `storage/data_process.cpp`. The index has a
row for each database of an hour. The export goes through it with two cursors, the key of the index
and the key of the records.
-/

namespace VdCamera.Storage

open Misc

/-! ## Times -/

def twoDigits (n : Nat) : List Char := [Nat.digitChar (n / 10), Nat.digitChar (n % 10)]

/-- A time such as `2013-06-01 12:01:02`; `hour` is what stands before the first colon. -/
structure TimeText where
  hour : List Char
  minute : Fin 60
  second : Fin 60
  length : hour.length = 13
  colon : ':' ∉ hour

/-- What stands from the first colon on. -/
def TimeText.rest (t : TimeText) : List Char :=
  ':' :: (twoDigits t.minute ++ ':' :: twoDigits t.second)

def TimeText.text (t : TimeText) : String := String.ofList (t.hour ++ t.rest)

/-- `get_hour_end`; `get_hour_start` is in `RecordSave`. -/
def getHourEnd (timeEnd : String) : String :=
  if ':' ∈ timeEnd.toList then
    String.ofList (timeEnd.toList.takeWhile (· ≠ ':')) ++ ":59:59"
  else ""

/-! ## Databases -/

structure HourlyFile extends DBFile where
  time : TimeText

structure HourlyRecord extends TrafficRecord where
  time : TimeText

/-- The index and the databases that it names; the times of a database lie in its hour. -/
structure History where
  dbFiles : Table HourlyFile (·.ID)
  records : String → Table HourlyRecord (·.ID)
  hourly : ∀ f ∈ dbFiles.rows, ∀ r ∈ (records f.recordPath).rows, r.time.hour = f.time.hour

/-- The range of a `TYPE_HISTORY_RECORD`. -/
structure HistoryRange where
  timeStart : TimeText
  timeEnd : TimeText

/-- The condition on the index: `flag_store=1 AND time>='..' AND time<='..'` with the hours. -/
def HistoryRange.indexed (range : HistoryRange) (f : HourlyFile) : Bool :=
  f.flagStore = 1 ∧ getHourStart range.timeStart.text ≤ f.time.text
    ∧ f.time.text ≤ getHourEnd range.timeEnd.text

/-- The condition on the records. -/
def HistoryRange.stored (range : HistoryRange) (r : HourlyRecord) : Bool :=
  r.flagStore = 1 ∧ range.timeStart.text ≤ r.time.text ∧ r.time.text ≤ range.timeEnd.text

/-- `get_record_count_traffic` when every statement succeeds. -/
def getRecordCountTraffic (h : History) (range : HistoryRange) : Nat :=
  ((h.dbFiles.rows.filter range.indexed).map fun f =>
    ((h.records f.recordPath).rows.filter range.stored).length).sum

/-! ## The export -/

/-- What a round of the export meets. -/
structure ExportRound where
  /-- `flag_stop_history_upload`. -/
  stop : Bool := false
  readFile : Bool := true
  readRecord : Bool := true
  /-- `EP_DISK_SAVE_CFG.vehicle == 1`. -/
  vehicle : Bool := true
  /-- `send_traffic_records_image_file` returns 0. -/
  imageSent : Bool := true
  /-- The channel of the transfer and its configuration are there afterwards. -/
  channel : Bool := true
  /-- `send_traffic_records_info_history` returns 0. -/
  infoSent : Bool := true

/-- The variables of the thread, and beside them what it has sent: the index row, the record and the
number. Nobody sets `db_traffic_record` before the first round. -/
structure Export where
  idDBFileLast : Nat := 0
  recordID : Int
  countSend : Nat := 0
  sent : List ((Nat × HourlyRecord) × Nat) := []

/-- The transfers of a round succeed. -/
def ExportRound.sends (e : ExportRound) : Bool :=
  (!e.vehicle || e.imageSent && e.channel) && e.infoSent

variable (h : History) (range : HistoryRange) (rounds : Nat → ExportRound)

/-- A round of the loop; `none` where the thread returns. -/
def exportRound (s : Export) : Option Export :=
  let e := rounds s.countSend
  if e.stop then none
  else
    let s := { s with countSend := s.countSend + 1 }
    match if e.readFile then h.dbFiles.selectAfter s.idDBFileLast range.indexed else none with
    | none => none
    | some dbFile =>
      -- the keys are positive, so that a negative bound is no other than 0
      match if e.readRecord then
          (h.records dbFile.recordPath).selectAfter s.recordID.toNat range.stored else none with
      | none => some { s with recordID := 0, idDBFileLast := dbFile.ID }
      | some r =>
        if e.sends then
          some { s with recordID := r.ID, sent := s.sent ++ [((dbFile.ID, r), s.countSend)] }
        else none

/-- `db_upload_history_traffic_Thr` with at most `fuel` rounds: what it leaves when it returns. -/
def dbUploadHistoryTrafficThr (ftpUp mqUp : Bool) (recordID : Int) (fuel : Nat) : Option Export :=
  if !ftpUp || !mqUp then some { recordID }
  else loop (exportRound h range rounds) fuel { recordID }

end VdCamera.Storage
