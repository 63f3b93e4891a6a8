import Mathlib.Logic.Function.Basic
import VdCamera.Misc.Table

/-!
# Saving records

`save_park_record_info` of `storage/park_records_process.cpp`, `save_traffic_flow_info` and
`save_traffic_flow_pedestrian_info` of `storage/traffic_flow_process.c`. The records of an hour go
into a database of their own, and an index holds a row for each of these databases; what is to be
sent again is looked for through the index. Every file operation and every statement may fail.
-/

namespace VdCamera.Storage

open Misc (Table)

/-- `flag_send` and `flag_store`, columns of type `int`. -/
abbrev Flag := BitVec 32

/-- The test `flag_send>0` of the queries. -/
def Flag.IsPositive (f : Flag) : Prop := 0 < f.toInt

instance (f : Flag) : Decidable f.IsPositive := inferInstanceAs (Decidable (0 < f.toInt))

/-- `DB_TYPE_*`. -/
inductive RecordType where
  | trafficRecord
  | violationRecord
  | eventAlarm
  | trafficFlowMotorVehicle
  | trafficFlowPedestrian
  deriving DecidableEq, Repr

/-- `DB_File` with all its columns: a row of an index. -/
structure IndexRow where
  ID : Nat := 0
  recordType : RecordType := .trafficRecord
  time : String := ""
  recordPath : String := ""
  flagSend : Flag := 0
  flagStore : Flag := 0
  deriving DecidableEq, Repr

/-- The three savers; each kind of record has an index, `DB_NAME_PARK_RECORD`,
`DB_NAME_FLOW_RECORDS` and `DB_NAME_FLOW_PEDESTRIAN`, and record databases of its own. -/
inductive Kind where
  | park
  | flow
  | pedestrian
  deriving DecidableEq, Repr

/-- The databases and the static variables of the savers. Of a stored record only `flag_send` is
kept: the upload asks for nothing else. -/
structure SaveState where
  index : Kind → Table IndexRow IndexRow.ID
  /-- The record databases; `none` where there is no such file. -/
  files : Kind → String → Option (List Flag)
  /-- `static DB_File db_file`. -/
  dbFile : Kind → IndexRow
  /-- `static int flag_first`. -/
  flagFirst : Kind → Bool

def SaveState.init : SaveState where
  index _ := Table.empty
  files _ _ := none
  dbFile _ := {}
  flagFirst _ := true

/-- The result of `db_write` on a record database. -/
inductive DbWrite where
  | stored
  /-- The insertion fails with result code 1, which `db_write` takes for a success. -/
  | unnoticed
  | failed (created : Bool)
  deriving DecidableEq, Repr

/-- What a call meets. -/
structure SaveEnv where
  /-- The directories are there or can be made. -/
  dirs : Bool := true
  /-- The row is inserted into the index. -/
  writeDBFile : Bool := true
  /-- The query of the index works. -/
  readDBFile : Bool := true
  updateSend : Bool := true
  updateStore : Bool := true
  write : DbWrite := .stored
  deriving DecidableEq, Repr

/-- The hour that names a record database. -/
structure Hour where
  year : Nat
  month : Nat
  day : Nat
  hour : Nat
  deriving DecidableEq, Repr

/-- `%0<w>d`. -/
def pad (w n : Nat) : String := "".pushn '0' (w - (toString n).length) ++ toString n

/-- `"%s/%04d%02d%02d%02d.db"`. -/
def dbName (dir : String) (tm : Hour) : String :=
  dir ++ "/" ++ pad 4 tm.year ++ pad 2 tm.month ++ pad 2 tm.day ++ pad 2 tm.hour ++ ".db"

/-- `get_hour_start`; without a colon the buffer stays empty. -/
def getHourStart (timeStart : String) : String :=
  if ':' ∈ timeStart.toList then
    String.ofList (timeStart.toList.takeWhile (· ≠ ':')) ++ ":00:00"
  else ""

/-- The record as the saver is given it. -/
structure SavedRecord where
  /-- `time` of a park record, `uptime` of a flow. -/
  time : String
  flagSend : Flag
  flagStore : Flag
  deriving DecidableEq, Repr

variable (e : SaveEnv) (k : Kind) (s : SaveState) (path : String) (r : SavedRecord)

/-- `db_write_park_records`, `db_write_flow_records` and `db_write_traffic_flow_pedestrian`. SQLite
keeps no file for an empty name. -/
def dbWriteRecords : Int × SaveState :=
  let file := (s.files k path).getD []
  let setFile (flags : List Flag) : SaveState :=
    if path = "" then s
    else
      { s with files := Function.update s.files k (Function.update (s.files k) path (some flags)) }
  match e.write with
  | .stored => (0, setFile (file ++ [r.flagSend]))
  | .unnoticed => (0, setFile file)
  | .failed created => (-1, if created then setFile file else s)

/-- The row of a new record database, over what `db_file` holds. -/
def indexRow (row : IndexRow) (recordType : RecordType) : IndexRow :=
  { row with
    recordType, time := r.time, recordPath := path, flagSend := r.flagSend,
    flagStore := r.flagStore }

/-- `db_write_DB_file` into the index of `k`: the database numbers the row. -/
def dbWriteDBFile (row : IndexRow) : SaveState :=
  if e.writeDBFile then
    { s with
      index := Function.update s.index k
        ((s.index k).insert (fun n => { row with ID := n }) fun _ => rfl) }
  else s

/-- `db_update_records` on the index of `k`: one statement `UPDATE .. WHERE ID=`. -/
def dbUpdateRecords (ok : Bool) (n : Nat) (f : IndexRow → IndexRow)
    (hf : ∀ row, (f row).ID = row.ID) :
    SaveState :=
  if ok then { s with index := Function.update s.index k ((s.index k).update n f hf) } else s

/-- The row that the branch for an existing database works on: the first time the first row of the
index from the record's hour on, afterwards what `db_file` holds. -/
def cachedRow : IndexRow :=
  if s.flagFirst k ∧ e.readDBFile then
    ((s.index k).selectAfter 0 fun f => decide (getHourStart r.time ≤ f.time)).getD (s.dbFile k)
  else s.dbFile k

def readFirst : SaveState :=
  { s with
    dbFile := Function.update s.dbFile k (cachedRow e k s r)
    flagFirst := Function.update s.flagFirst k false }

/-- The record carries a bit of `flag_send` that the row does not have. -/
def Merges (row : IndexRow) : Prop := ~~~row.flagSend &&& r.flagSend ≠ 0

instance (row : IndexRow) : Decidable (Merges r row) := inferInstanceAs (Decidable (_ ≠ _))

def mergeSend : SaveState :=
  let row := s.dbFile k
  if Merges r row then
    let flag := row.flagSend ||| r.flagSend
    dbUpdateRecords k
      { s with dbFile := Function.update s.dbFile k { row with flagSend := flag } }
      e.updateSend row.ID (fun f => { f with flagSend := flag }) fun _ => rfl
  else s

def mergeStore : SaveState :=
  let row := s.dbFile k
  if row.flagStore = 0 ∧ r.flagStore ≠ 0 then
    dbUpdateRecords k
      { s with dbFile := Function.update s.dbFile k { row with flagStore := r.flagStore } }
      e.updateStore row.ID (fun f => { f with flagStore := r.flagStore }) fun _ => rfl
  else s

/-- The branch of the two flow savers for a record database that is there. -/
def updateIndex : SaveState := mergeStore e k (mergeSend e k (readFirst e k s r) r) r

/-- `save_park_record_info`: the first picture's hour names the database of a record that drives in,
the second one's that of a record that drives out. -/
def saveParkRecordInfo (objectState : Int) (tm0 tm1 : Hour) (parkStoragePath : String) :
    Int × SaveState :=
  let dir := parkStoragePath ++ "/DB/park_record"
  let dbParkName :=
    if objectState = 1 then dbName dir tm0 else if objectState = 0 then dbName dir tm1 else ""
  if !e.dirs then (-1, s)
  else
    let s :=
      if s.files .park dbParkName = none then
        let row := indexRow dbParkName r (s.dbFile .park) .trafficRecord
        dbWriteDBFile e .park { s with dbFile := Function.update s.dbFile .park row } row
      else s
    dbWriteRecords e .park s dbParkName r

/-- `save_traffic_flow_info`: the row of a new database is built in a variable that hides the static
one. -/
def saveTrafficFlowInfo (tm : Hour) (partitionPath : String) : Int × SaveState :=
  let dbFlowName := dbName (partitionPath ++ "/DB/traffic_flow") tm
  if !e.dirs then (-1, s)
  else
    let s :=
      if s.files .flow dbFlowName = none then
        dbWriteDBFile e .flow s (indexRow dbFlowName r {} .trafficFlowMotorVehicle)
      else updateIndex e .flow s r
    dbWriteRecords e .flow s dbFlowName r

/-- `save_traffic_flow_pedestrian_info`: the row of a new database goes into `DB_NAME_FLOW_RECORDS`,
the updates into `DB_NAME_FLOW_PEDESTRIAN`. -/
def saveTrafficFlowPedestrianInfo (tm : Hour) (partitionPath : String) : Int × SaveState :=
  let dbFullName := dbName (partitionPath ++ "/DB/traffic_flow_pedestrian") tm
  if s.files .pedestrian dbFullName = none then
    if !e.dirs then (-1, s)
    else
      let row := indexRow dbFullName r {} .trafficFlowPedestrian
      let s := dbWriteDBFile e .flow
        { s with dbFile := Function.update s.dbFile .pedestrian row } row
      dbWriteRecords e .pedestrian s dbFullName r
  else dbWriteRecords e .pedestrian (updateIndex e .pedestrian s r) dbFullName r

/-- A call of one of the savers. -/
inductive SaveCall where
  | park (objectState : Int) (tm0 tm1 : Hour) (path : String) (r : SavedRecord) (e : SaveEnv)
  | flow (tm : Hour) (path : String) (r : SavedRecord) (e : SaveEnv)
  | pedestrian (tm : Hour) (path : String) (r : SavedRecord) (e : SaveEnv)
  deriving DecidableEq, Repr

/-- A call as a step of a run. -/
def saveStep (s : SaveState) : SaveCall → Option SaveState
  | .park objectState tm0 tm1 path r e => some (saveParkRecordInfo e s r objectState tm0 tm1 path).2
  | .flow tm path r e => some (saveTrafficFlowInfo e s r tm path).2
  | .pedestrian tm path r e => some (saveTrafficFlowPedestrianInfo e s r tm path).2

end VdCamera.Storage
