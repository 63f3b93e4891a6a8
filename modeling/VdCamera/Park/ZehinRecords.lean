import VdCamera.Park.Records
import VdCamera.Misc.Run

/-!
# Records on their way to the zehin platform

`tpi/park/zehin/src/park_zehin.cpp`, `tpzehin_pthread.cpp`, `tpzehin_records.cpp`. A notice is copied
into `gstr_tpzehin_records`; what is queued for the dispatcher, and by it for the record thread, is
only that there is one. What a function does while it holds `g_zehin_record_mutex` is one step.
-/

namespace VdCamera.Park

open Misc

/-- The texts of a record's message, without the uuid that each message gets. -/
structure ZehinMsg where
  berthNum : List UInt8
  plateNum : List UInt8
  plateColor : List UInt8
  status : List UInt8
  confidence : List UInt8
  eltype : List UInt8
  eltime : List UInt8
  platePosition : List UInt8
  deriving DecidableEq, Repr

/-- A picture as it is sent or saved; its serial number is `serial + 1`. -/
structure ZehinPicture where
  serial : Fin PARK_PIC_NUM
  name : List UInt8
  buf : List UInt8
  deriving DecidableEq, Repr

/-- `str_tpzehin_records`: the slot. -/
structure TpzehinRecords where
  field : DbParkRecord := {}
  picture : Fin PARK_PIC_NUM → List UInt8 := fun _ => []
  deriving DecidableEq

def TpzehinRecords.pic (records : TpzehinRecords) (i : Fin PARK_PIC_NUM) : ZehinPicture :=
  ⟨i, records.field.imageName i, records.picture i⟩

/-- `"%d/%d/%d/%d"` of the plate's place in a picture. -/
def platePosition (field : DbParkRecord) (i : Fin PARK_PIC_NUM) : List UInt8 :=
  fmtInt (field.coordinateX i) ++ [47] ++ fmtInt (field.coordinateY i) ++ [47]
    ++ fmtInt (field.width i) ++ [47] ++ fmtInt (field.height i)

/-- `tpzehin_construct_msg`: the message, and the fields as it leaves them; `convertEnc` is
`convert_enc` from GBK to UTF-8. -/
def tpzehinConstructMsg (convertEnc : List UInt8 → List UInt8) (field : DbParkRecord) :
    ZehinMsg × DbParkRecord :=
  let field := { field with
    objectState := if field.objectState = 0 then 2 else field.objectState }
  ({ berthNum := field.pointId
     plateNum := convertEnc field.plateNum
     plateColor := fmtInt field.plateColor
     status := fmtInt field.status
     confidence := fmtInt (field.confidence 0)
     eltype := fmtInt field.objectState
     eltime := field.time
     platePosition := platePosition field (if field.objectState = 1 then 1 else 0) }, field)

/-- The row of `tpzehin_save_msg4reget`, which has the plate as it was before the conversion. -/
def msgregetRow (values : ZehinMsg) (field : DbParkRecord) : ZehinMsg :=
  { values with
    berthNum := field.pointId
    plateNum := field.plateNum
    plateColor := fmtInt field.plateColor
    status := fmtInt field.status
    confidence := fmtInt (field.confidence 0)
    eltype := fmtInt field.objectState
    eltime := field.time }

/-- `tpzehin_save_picture4reget` takes the picture. -/
def ZehinPicture.Saved (p : ZehinPicture) : Prop := p.buf ≠ [] ∧ p.name ≠ []

instance (p : ZehinPicture) : Decidable p.Saved :=
  inferInstanceAs (Decidable (p.buf ≠ [] ∧ p.name ≠ []))

/-- What the platform and the store answer while a record is handled. -/
structure ZehinAnswers where
  /-- `tpzehin_is_online`. -/
  online : Bool
  /-- `spzehin_count_msgreget_table` finds a row. -/
  waiting : Bool
  /-- `tpzehin_send_message` returns a record id. -/
  message : Fin 3 → Bool
  /-- `vPaasT_GetIsOnLine` before a picture. -/
  stillOnline : Fin PARK_PIC_NUM → Bool
  /-- `tpzehin_send_picture` returns 0. -/
  picture : Fin PARK_PIC_NUM → Bool
  deriving DecidableEq

/-- What becomes of a record in the record thread. -/
inductive ZehinHanded where
  /-- The platform has the message. `sent`: the pictures passed to `tpzehin_send_picture`; `saved`:
  those passed to the store. -/
  | delivered (msg : ZehinMsg) (sent saved : List ZehinPicture)
  | stored (row : ZehinMsg) (pictures : List ZehinPicture)
  /-- Retransmission is not enabled and the platform has refused the message. -/
  | dropped (msg : ZehinMsg)
  deriving DecidableEq, Repr

/-- `tpzehin_picture_handler`: the pictures that are sent and those that are saved. -/
def tpzehinPictureHandler (enable : Bool) (answers : ZehinAnswers) (records : TpzehinRecords) :
    List (Fin PARK_PIC_NUM) → List ZehinPicture × List ZehinPicture
  | [] => ([], [])
  | i :: is =>
    if answers.stillOnline i then
      let rest := tpzehinPictureHandler enable answers records is
      let pic := records.pic i
      (pic :: rest.1, if !answers.picture i && enable && pic.Saved then pic :: rest.2 else rest.2)
    else ([], [])

/-- `tpzehin_save_msg4reget`. -/
def tpzehinSaveMsg4reget (values : ZehinMsg) (records : TpzehinRecords) : ZehinHanded :=
  .stored (msgregetRow values records.field)
    (((List.finRange PARK_PIC_NUM).map records.pic).filter (·.Saved))

/-- What `tpzehin_record_pthread` does with the slot while it holds the mutex; `enable` is
`tpzehin_retransmition_enable`. -/
def tpzehinRecord (convertEnc : List UInt8 → List UInt8) (enable : Bool) (answers : ZehinAnswers)
    (withPicture : Bool) (records : TpzehinRecords) : TpzehinRecords × ZehinHanded :=
  let (values, field) := tpzehinConstructMsg convertEnc records.field
  let records := { records with field }
  if !answers.online || enable && answers.waiting then
    (records, tpzehinSaveMsg4reget values records)
  else if (List.finRange 3).any answers.message then
    let pictures :=
      if withPicture then
        tpzehinPictureHandler enable answers records (List.finRange PARK_PIC_NUM)
      else ([], [])
    (records, .delivered values pictures.1 pictures.2)
  else if enable then (records, tpzehinSaveMsg4reget values records)
  else (records, .dropped values)

/-- `info_notify` and `record_notify` with the mutex. -/
def TpzehinRecords.notify (records : TpzehinRecords) : Notice → TpzehinRecords
  | .info r => { records with field := r.record.dbParkRecord }
  | .record r => { field := r.dbParkRecord, picture := fun i => (r.picInfo i).buf }

/-- The slot, what is queued, and who is between two steps; a token says whether the notice it was
sent for has pictures. Beside them what was notified and what has become of it. -/
structure ZehinLine where
  records : TpzehinRecords := {}
  /-- `notify` has written the slot and has not queued its message. -/
  notifying : Option Bool := none
  /-- The messages for the dispatcher. -/
  park : List Bool := []
  /-- What the dispatcher has received. -/
  dispatching : Option Bool := none
  /-- The queue of `zehin_msg_t`. -/
  zehin : List Bool := []
  /-- What the record thread has received; it waits for the mutex. -/
  recording : Option Bool := none
  notified : List Notice := []
  handed : List ZehinHanded := []

inductive ZehinOp where
  | notify (n : Notice)
  | queue
  | dispatch
  | forward
  | receive
  | handle (answers : ZehinAnswers)

/-- `none` when the thread is not at the step. -/
def zehinStep (convertEnc : List UInt8 → List UInt8) (enable : Bool) (s : ZehinLine) :
    ZehinOp → Option ZehinLine
  | .notify n =>
    match s.notifying with
    | some _ => none
    | none => some { s with
        records := s.records.notify n
        notifying := some n.pictured
        notified := s.notified ++ [n] }
  | .queue =>
    match s.notifying with
    | none => none
    | some t => some { s with notifying := none, park := s.park ++ [t] }
  | .dispatch =>
    match s.dispatching, s.park with
    | none, t :: park => some { s with dispatching := some t, park := park }
    | _, _ => none
  | .forward =>
    match s.dispatching with
    | none => none
    | some t => some { s with dispatching := none, zehin := s.zehin ++ [t] }
  | .receive =>
    match s.recording, s.zehin with
    | none, t :: zehin => some { s with recording := some t, zehin := zehin }
    | _, _ => none
  | .handle answers =>
    match s.recording with
    | none => none
    | some t =>
      let r := tpzehinRecord convertEnc enable answers t s.records
      some { s with records := r.1, recording := none, handed := s.handed ++ [r.2] }

/-- The tokens under way, the one that comes first to the record thread in front. -/
def ZehinLine.tokens (s : ZehinLine) : List Bool :=
  s.recording.toList ++ s.zehin ++ s.dispatching.toList ++ s.park ++ s.notifying.toList

/-- The pictures that a notice gives to the zehin platform. -/
def Notice.zehinPictures : Notice → List ZehinPicture
  | .info _ => []
  | .record r => (List.finRange PARK_PIC_NUM).map fun i =>
      ⟨i, r.dbParkRecord.imageName i, (r.picInfo i).buf⟩

/-- The message of a record, and its row. -/
def DbParkRecord.zehinMsg (convertEnc : List UInt8 → List UInt8) (field : DbParkRecord) : ZehinMsg :=
  (tpzehinConstructMsg convertEnc field).1

def DbParkRecord.zehinRow (convertEnc : List UInt8 → List UInt8) (field : DbParkRecord) : ZehinMsg :=
  msgregetRow (tpzehinConstructMsg convertEnc field).1 (tpzehinConstructMsg convertEnc field).2

/-- The record thread has handed on the fields of the notice with its pictures. -/
def Notice.HandedAs (convertEnc : List UInt8 → List UInt8) (n : Notice) : ZehinHanded → Prop
  | .delivered msg sent saved =>
    msg = n.parkRecord.dbParkRecord.zehinMsg convertEnc ∧ sent = n.zehinPictures
      ∧ saved.Sublist n.zehinPictures
  | .stored row pictures =>
    row = n.parkRecord.dbParkRecord.zehinRow convertEnc
      ∧ pictures = n.zehinPictures.filter (·.Saved)
  | .dropped msg => msg = n.parkRecord.dbParkRecord.zehinMsg convertEnc

/-- What was handed on is what was notified, in order, and at rest all of it. -/
def ZehinLine.Conveys (convertEnc : List UInt8 → List UInt8) (s : ZehinLine) : Prop :=
  List.Forall₂ (Notice.HandedAs convertEnc) (s.notified.take s.handed.length) s.handed
    ∧ (s.tokens = [] → s.handed.length = s.notified.length)

/-- A notice finds no token under way, and the platform does not go offline between a message that it
has taken and the pictures. -/
def ZehinUndisturbed (s : ZehinLine) : ZehinOp → Prop
  | .notify _ => s.tokens = []
  | .handle answers => ∀ i, answers.stillOnline i = true
  | _ => True

end VdCamera.Park
