import VdCamera.Park.Retransmission
import Mathlib.Logic.Function.Basic

/-!
# Pictures that wait for the zehin platform

`tpi/park/zehin/src/tpzehin_records.cpp`, `sqlite3/park/zehin/src/spzehin_api.cpp`. A picture that
could not be sent waits in `picreget`. As long as the message of its record waits too, it has the
number of the message's row in `msgreget` instead of a record id.
-/

namespace VdCamera.Park

open Misc

/-- `SF_FILEISNULL`, for a picture without bytes. -/
def SF_FILEISNULL : Int := -6

/-- A row of `msgreget`. `owner` is the number of the notice; the table does not have it. -/
structure MsgregetRow where
  id : Nat
  owner : Nat
  msg : ZehinMsg
  deriving DecidableEq, Repr

/-- A row of `picreget`; `msgrecordId` is what `atoll` makes of its text. `owner` is the number of the
notice; the table does not have it. -/
structure PicregetRow where
  id : Nat
  owner : Nat
  serial : Fin PARK_PIC_NUM
  name : List UInt8
  size : Nat
  msgtableId : Nat
  msgrecordId : Nat
  deriving DecidableEq, Repr

/-- The slot and the tables; beside them the notices, the record ids that the platform has returned for
them, the calls of `tpzehin_send_picture` (the notice of the picture and the record id), and the
pictures that the platform has taken and those that made room for others. -/
structure ZehinStore where
  records : TpzehinRecords := {}
  msgreget : Table MsgregetRow MsgregetRow.id := Table.empty
  picreget : Table PicregetRow PicregetRow.id := Table.empty
  notices : List Notice := []
  returned : Nat → Option Nat := fun _ => none
  calls : List (Nat × Nat) := []
  delivered : List (Nat × Fin PARK_PIC_NUM) := []
  rotated : List (Nat × Fin PARK_PIC_NUM) := []

/-- The answers while a record is handled. -/
structure RecordAnswers where
  online : Bool
  /-- What `vPaasT_DataMultiRealTimeDataEx` returns. -/
  message : Fin 3 → Option (List UInt8)
  stillOnline : Fin PARK_PIC_NUM → Bool
  /-- What `tpzehin_send_picture` returns. -/
  picture : Fin PARK_PIC_NUM → Int

/-- As the record thread sees them. -/
def RecordAnswers.seen (a : RecordAnswers) (waiting : Bool) : ZehinAnswers where
  online := a.online
  waiting := waiting
  message i := tpzehinSendMessage (a.message i) ≠ 0
  stillOnline := a.stillOnline
  picture i := a.picture i = 0

/-- `"%llu"`, read back by `atoll`. -/
def readLlu (id : Nat) : Nat := min id (2 ^ 63 - 1)

/-- The first row of `picreget` makes room. -/
def ZehinStore.rotate (s : ZehinStore) : ZehinStore :=
  match s.picreget.rows with
  | [] => s
  | r :: _ => { s with
      picreget := s.picreget.delete r.id
      rotated := s.rotated ++ [(r.owner, r.serial)] }

/-- `tpzehin_save_picture4reget` of a picture that it takes; `recordId` is `records.msgrecord_id`. -/
def tpzehinSavePicture4reget (rotateCount : Int) (owner recordId : Nat) (s : ZehinStore)
    (p : ZehinPicture) : ZehinStore :=
  let s := if rotateCount ≤ s.picreget.rows.length then s.rotate else s
  { s with
    picreget := s.picreget.insert
      (fun id => ⟨id, owner, p.serial, p.name, p.buf.length, s.msgreget.lastKey, readLlu recordId⟩)
      fun _ => rfl }

/-- The number that is a record id: what the first successful attempt returns. -/
def RecordAnswers.recordId (a : RecordAnswers) : Nat :=
  (((List.finRange 3).map fun i => tpzehinSendMessage (a.message i)).find? (· ≠ 0)).getD 0

/-- The record id that the platform returns when the record thread takes a message for sent. -/
def RecordAnswers.returns (a : RecordAnswers) : Option Nat :=
  ((List.finRange 3).find? fun i => tpzehinSendMessage (a.message i) ≠ 0).bind fun i =>
    if zehinHas (a.message i) then (a.message i).map fun text => (strtol text).toNat else none

/-- A record goes through `tpzehin_record_pthread`. -/
def ZehinStore.record (convertEnc : List UInt8 → List UInt8) (enable : Bool) (rotateCount : Int)
    (n : Notice) (a : RecordAnswers) (s : ZehinStore) : ZehinStore :=
  let owner := s.notices.length
  let r := tpzehinRecord convertEnc enable (a.seen (!s.msgreget.rows.isEmpty)) n.pictured
    (s.records.notify n)
  let s := { s with records := r.1, notices := s.notices ++ [n] }
  match r.2 with
  | .delivered _ sent saved =>
    saved.foldl (tpzehinSavePicture4reget rotateCount owner a.recordId) { s with
      returned := Function.update s.returned owner a.returns
      calls := s.calls ++ sent.map fun _ => (owner, a.recordId)
      delivered := s.delivered
        ++ (sent.filter fun p => a.picture p.serial = 0).map fun p => (owner, p.serial) }
  | .stored row pictures =>
    pictures.foldl (tpzehinSavePicture4reget rotateCount owner 0) { s with
      msgreget := s.msgreget.insert (fun id => (⟨id, owner, row⟩ : MsgregetRow)) fun _ => rfl }
  | .dropped _ => s

/-- `tpzehin_msg_reget`; `readBack` is what `atoll` makes of the text that the column `msgrecord_id`
holds after it was set to a number. -/
def tpzehinMsgReget (readBack : Nat → Nat) (ptr : Option (List UInt8)) (s : ZehinStore) :
    ZehinStore :=
  match s.msgreget.rows with
  | [] => s
  | m :: _ =>
    let recordId := tpzehinSendMessage ptr
    if recordId = 0 then s
    else
      { s with
        picreget := s.picreget.updateWhere (fun p => p.msgtableId = m.id)
          (fun p => { p with msgrecordId := readBack recordId }) fun _ => rfl
        msgreget := s.msgreget.delete m.id
        returned := Function.update s.returned m.owner
          (if zehinHas ptr then ptr.map fun text => (strtol text).toNat else none) }

/-- `tpzehin_pic_reget`; `piclens` is what `park_read_picture` returns, and `ret` what
`tpzehin_send_picture` returns for a picture with bytes. -/
def tpzehinPicReget (piclens ret : Int) (s : ZehinStore) : ZehinStore :=
  match s.picreget.rows.find? fun p => 0 < p.msgrecordId with
  | none => s
  | some p =>
    if piclens < 0 then { s with picreget := s.picreget.delete p.id }
    else
      let ret := if piclens = 0 then SF_FILEISNULL else ret
      let s := { s with calls := s.calls ++ [(p.owner, p.msgrecordId)] }
      if ret = 0 then
        { s with
          picreget := s.picreget.delete p.id
          delivered := s.delivered ++ [(p.owner, p.serial)] }
      else if ret = SF_FILEISNULL then { s with picreget := s.picreget.delete p.id }
      else s

/-- A record, and the rounds of the two functions. -/
inductive ZehinStoreOp where
  | record (n : Notice) (a : RecordAnswers)
  | msgReget (ptr : Option (List UInt8))
  | picReget (piclens ret : Int)

def zehinStoreStep (convertEnc : List UInt8 → List UInt8) (readBack : Nat → Nat) (enable : Bool)
    (rotateCount : Int) (s : ZehinStore) : ZehinStoreOp → Option ZehinStore
  | .record n a => some (s.record convertEnc enable rotateCount n a)
  | .msgReget ptr => some (tpzehinMsgReget readBack ptr s)
  | .picReget piclens ret => some (tpzehinPicReget piclens ret s)

/-- The picture has been taken by the platform, or it waits, or it made room. -/
def ZehinStore.Keeps (s : ZehinStore) (owner : Nat) (serial : Fin PARK_PIC_NUM) : Prop :=
  (owner, serial) ∈ s.delivered ∨ (∃ p ∈ s.picreget.rows, p.owner = owner ∧ p.serial = serial)
    ∨ (owner, serial) ∈ s.rotated

/-- Every picture is sent with the record id of its record, and none of a record that the platform has
is lost. -/
structure ZehinStore.Filed (s : ZehinStore) : Prop where
  own : ∀ c ∈ s.calls, s.returned c.1 = some c.2
  kept : ∀ k n, s.notices[k]? = some n → s.returned k ≠ none →
    ∀ p ∈ n.zehinPictures, p.Saved → s.Keeps k p.serial

/-- The platform does not answer with a negative number, nor with one that no `long long` holds. -/
def InRange (ptr : Option (List UInt8)) : Prop :=
  ∀ text, ptr = some text → 0 ≤ strtol text ∧ strtol text < 2 ^ 63

/-- The step leaves the pictures with their records. While a record is handled, the platform stays
online and a picture that it refuses can be saved; when a message is sent again, the pictures that have
its number have no record id; a picture that is sent again has its bytes. -/
def ZehinStore.Tied (enable : Bool) (s : ZehinStore) : ZehinStoreOp → Prop
  | .record _ a => (∀ i, InRange (a.message i)) ∧ (∀ i, a.stillOnline i = true)
      ∧ (enable = true ∨ ∀ i, a.picture i = 0)
  | .msgReget ptr => InRange ptr ∧ ∀ m ∈ s.msgreget.rows.head?, ∀ p ∈ s.picreget.rows,
      p.msgtableId = m.id → p.msgrecordId = 0
  | .picReget piclens ret => 0 < piclens ∧ ret ≠ SF_FILEISNULL

end VdCamera.Park
