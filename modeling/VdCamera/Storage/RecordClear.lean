import Mathlib.Tactic.SplitIfs
import VdCamera.Misc.Loop
import VdCamera.Storage.TrafficReupload

/-!
# Cleaning an over-full record database

`db_record_clr` of `storage/data_process.cpp` and `db_read_traffic_record` of
`storage/traffic_records_process.cpp`: the oldest database of the index is emptied record by record,
and removed. The plate numbers are a function of database and ID: no statement here writes them.
-/

namespace VdCamera.Storage

open Misc

/-- What the loop works on: the databases, the static `plateNum` of `db_read_traffic_record` and the
record read last. -/
structure ClearState where
  store : Store
  plateNum : String := ""
  record : Option TrafficRecord := none

section Clear

variable (e : Round) (plate : String → Nat → String)

/-- `db_get_oldest_DB_file`. -/
def dbGetOldestDBFile (s : Store) : Option DBFile :=
  if e.readFile then s.dbFiles.selectAfter 0 fun _ => true else none

/-- `db_get_oldest_record`, by way of `db_read_traffic_record`: a plate number that is read again
counts, but `samePlateCnt` starts from 0 in each call. -/
def dbGetOldestRecord (path : String) (st : ClearState) : Option (TrafficRecord × String) :=
  if e.readRecord then
    match (st.store.records path).selectAfter 0 fun _ => true with
    | none => none
    | some r =>
      let samePlateCnt := 0
      if plate path r.ID = st.plateNum then
        if samePlateCnt + 1 = 5 then none else some (r, st.plateNum)
      else some (r, plate path r.ID)
  else none

/-- The body of the loop: the picture is removed, then the record. -/
def clearStep (path : String) (st : ClearState) : Option ClearState :=
  match dbGetOldestRecord e plate path st with
  | none => none
  | some (r, plateNum) =>
    let images := st.store.images.filter (· ≠ (r.partitionPath, r.imagePath))
    some
      { store := dbDeleteTrafficRecords e { st.store with images := images } path r
        plateNum := plateNum
        record := some r }

/-- `db_record_clr`, with fuel for its loop: `free` is what `statfs` gives, in percent. -/
def dbRecordClr (fuel : Nat) (free : Option Nat) (remain : Nat) (st : ClearState) :
    Option (Int × ClearState) :=
  match free with
  | none => some (-1, st)
  | some free =>
    if free > remain then some (0, st)
    else
      match dbGetOldestDBFile e st.store with
      | none => some (-1, st)
      | some f =>
        (loop (clearStep e plate f.recordPath) fuel st).map fun st =>
          (0, { st with store := dbDeleteDBFile e st.store f })

end Clear

end VdCamera.Storage
