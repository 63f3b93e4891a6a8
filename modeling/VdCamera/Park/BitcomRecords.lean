import VdCamera.Park.Records
import VdCamera.Misc.Run

/-!
# Records on their way to the bitcom platform

`tpi/park/bitcom/src/park_bitcom.cpp`, `tpbitcom_pthread.cpp`, `tpbitcom_records.cpp`. A notice is
copied into `gstr_tpbitcom_records` without a mutex, one copy after the other; the message that is
queued for the dispatcher says no more than that there is one.
-/

namespace VdCamera.Park

open Misc

/-- `gstr_tpbitcom_records`; `message` is the record that its text was made of. -/
structure TpbitcomRecords where
  field : DbParkRecord := {}
  picture : Fin PARK_PIC_NUM → List UInt8 := fun _ => []
  pictureInfo : Fin PARK_PIC_NUM → EpPicInfo := fun _ => {}
  picFlag : Bool := false
  msgexistFlag : Bool := false
  picexistFlag : Bool := false
  message : DbParkRecord := {}

/-- What is stored of a picture: the row for sending it again, and the name under which the picture
table has it, with the bytes for its file. -/
structure BitcomPicture where
  size : Nat
  path : List (List UInt8)
  name : List UInt8
  imageName : List UInt8
  file : List UInt8
  deriving DecidableEq, Repr

/-- What the picture thread hands on. -/
inductive BitcomPictures where
  | sent (pictureInfo : Fin PARK_PIC_NUM → EpPicInfo)
  | saved (pictures : Fin PARK_PIC_NUM → BitcomPicture)
  deriving DecidableEq

/-- The rows and files that the picture thread makes of the slot. -/
def TpbitcomRecords.saves (records : TpbitcomRecords) (i : Fin PARK_PIC_NUM) : BitcomPicture where
  size := (records.picture i).length
  path := (records.pictureInfo i).path
  name := (records.pictureInfo i).name
  imageName := records.field.imageName i
  file := records.picture i

/-- What `CParkBitcom::notify` does one after the other. -/
inductive BitcomWrite where
  | field (f : DbParkRecord)
  | picture (i : Fin PARK_PIC_NUM) (p : EpPicInfo)
  | picFlag (b : Bool)

def Notice.writes : Notice → List BitcomWrite
  | .info r => [.picFlag false, .field r.record.dbParkRecord]
  | .record r => [.field r.dbParkRecord, .picture 0 (r.picInfo 0), .picture 1 (r.picInfo 1),
      .picFlag true]

def TpbitcomRecords.write (records : TpbitcomRecords) : BitcomWrite → TpbitcomRecords
  | .field f => { records with field := f }
  | .picture i p => { records with
      picture := Function.update records.picture i p.buf
      pictureInfo := Function.update records.pictureInfo i p }
  | .picFlag b => { records with picFlag := b }

/-- Where a sending thread is: it waits for its flag, it is behind so many failed attempts, or it has
to clear its flag. -/
inductive UploadPlace where
  | idle
  | attempt (failed : Nat)
  | finished
  deriving DecidableEq, Repr

/-- A sending thread: what it has handed on for the present record, and for the records before. -/
structure Uploader (α : Type*) where
  place : UploadPlace := .idle
  current : List α := []
  handed : List (List α) := []

inductive UploadOp where
  | start
  | attempt (ok : Bool)
  | store
  | clear
  deriving DecidableEq, Repr

/-- The loops of `tpbitcom_message_pthread` and `tpbitcom_picture_pthread`: three attempts with what
the slot has, then the store, where retransmission is enabled. The flag goes with the thread. -/
def Uploader.step {α : Type*} (enable : Bool) (attempted stored : α) (u : Uploader α) (flag : Bool) :
    UploadOp → Option (Uploader α × Bool)
  | .start =>
    if u.place = .idle ∧ flag then some ({ u with place := .attempt 0 }, flag) else none
  | .attempt ok =>
    match u.place with
    | .attempt failed =>
      if failed < 3 then
        some ({ u with
          place := if ok then .finished else .attempt (failed + 1)
          current := u.current ++ [attempted] }, flag)
      else none
    | _ => none
  | .store =>
    if u.place = .attempt 3 then
      some ({ u with
        place := .finished
        current := if enable then u.current ++ [stored] else u.current }, flag)
    else none
  | .clear =>
    if u.place = .finished then
      some ({ place := .idle, current := [], handed := u.handed ++ [u.current] }, false)
    else none

/-- The slot, the writes that a call of `notify` has still to do, the messages that are queued, the
dispatcher and the two sending threads; beside them what was notified. -/
structure BitcomLine where
  records : TpbitcomRecords := {}
  /-- A call of `notify` that has not queued its message. -/
  notifying : Option (List BitcomWrite) := none
  /-- How many messages are queued; the dispatcher does not look at what they say. -/
  park : Nat := 0
  /-- The dispatcher has received a message and has not raised the flags. -/
  received : Bool := false
  msg : Uploader DbParkRecord := {}
  pic : Uploader BitcomPictures := {}
  notified : List Notice := []

inductive BitcomOp where
  | notify (n : Notice)
  | write
  | queue
  | receive
  | raise
  | message (op : UploadOp)
  | picture (op : UploadOp)

/-- `none` when the thread is not at the step. -/
def bitcomStep (enable : Bool) (s : BitcomLine) : BitcomOp → Option BitcomLine
  | .notify n =>
    match s.notifying with
    | some _ => none
    | none => some { s with notifying := some n.writes, notified := s.notified ++ [n] }
  | .write =>
    match s.notifying with
    | some (w :: ws) => some { s with records := s.records.write w, notifying := some ws }
    | _ => none
  | .queue =>
    match s.notifying with
    | some [] => some { s with notifying := none, park := s.park + 1 }
    | _ => none
  | .receive =>
    if s.received = false ∧ s.records.msgexistFlag = false ∧ s.records.picexistFlag = false
        ∧ 0 < s.park then
      some { s with received := true, park := s.park - 1 }
    else none
  | .raise =>
    if s.received then
      some { s with
        received := false
        records := { s.records with msgexistFlag := true, picexistFlag := s.records.picFlag } }
    else none
  | .message op =>
    -- `send_park_record_info` leaves the text that it sends in `message`
    (s.msg.step enable s.records.field s.records.message s.records.msgexistFlag op).map fun r =>
      { s with
        msg := r.1
        records := { s.records with
          msgexistFlag := r.2
          message := match op with
            | .attempt _ => s.records.field
            | _ => s.records.message } }
  | .picture op =>
    (s.pic.step enable (.sent s.records.pictureInfo) (.saved s.records.saves)
      s.records.picexistFlag op).map fun r =>
        { s with pic := r.1, records := { s.records with picexistFlag := r.2 } }

/-- What a sending thread has handed on, record by record. -/
def Uploader.entries {α : Type*} (u : Uploader α) : List (List α) :=
  u.handed ++ if u.current.isEmpty then [] else [u.current]

/-- The pictures that a notice gives to the bitcom platform. -/
def Notice.bitcomPictures (n : Notice) (i : Fin PARK_PIC_NUM) : BitcomPicture where
  size := (n.parkRecord.picInfo i).buf.length
  path := (n.parkRecord.picInfo i).path
  name := (n.parkRecord.picInfo i).name
  imageName := n.parkRecord.dbParkRecord.imageName i
  file := (n.parkRecord.picInfo i).buf

/-- The pictures are those of the notice. -/
def Notice.GivesPictures (n : Notice) : BitcomPictures → Prop
  | .sent pictureInfo => pictureInfo = n.parkRecord.picInfo
  | .saved pictures => pictures = n.bitcomPictures

/-- All that was handed on for a notice is of the notice. -/
def HandedFor {α : Type*} (gives : Notice → α → Prop) (n : Notice) (xs : List α) : Prop :=
  xs ≠ [] ∧ ∀ x ∈ xs, gives n x

/-- Nothing is under way. -/
def BitcomLine.AtRest (s : BitcomLine) : Prop :=
  s.notifying = none ∧ s.park = 0 ∧ s.received = false ∧ s.records.msgexistFlag = false
    ∧ s.records.picexistFlag = false

/-- What a thread has handed on is what was notified, in order, and at rest all of it. -/
def Uploader.Conveys {α : Type*} (gives : Notice → α → Prop) (notified : List Notice) (rest : Prop)
    (u : Uploader α) : Prop :=
  List.Forall₂ (HandedFor gives) (notified.take u.entries.length) u.entries
    ∧ (rest → u.entries.length = notified.length)

/-- The fields of every notice go to the platform, and the pictures of those that have some. -/
def BitcomLine.Conveys (s : BitcomLine) : Prop :=
  s.msg.Conveys (fun n f => f = n.parkRecord.dbParkRecord) s.notified s.AtRest
    ∧ s.pic.Conveys Notice.GivesPictures (s.notified.filter (·.pictured)) s.AtRest

/-- A sending thread has still to read the slot. -/
def Uploader.Reads {α : Type*} (u : Uploader α) (flag : Bool) : Prop :=
  flag = true ∧ u.place ≠ .finished

/-- A notice finds that nobody has still to read the slot for an earlier one. -/
def BitcomUndisturbed (s : BitcomLine) : BitcomOp → Prop
  | .notify _ => s.park = 0 ∧ s.received = false ∧ ¬ s.msg.Reads s.records.msgexistFlag
      ∧ ¬ s.pic.Reads s.records.picexistFlag
  | _ => True

end VdCamera.Park
