import VdCamera.JsonCpp.Reader
import VdCamera.Misc.Encoding
import VdCamera.Misc.Run
import VdCamera.Park.ParkStatus
import VdCamera.Park.PicturePath
import VdCamera.Park.Records

/-!
# Messages stored for retransmission

The http platform (`http_record_handler` and `park_http_retrans_pthread`) and the ktetc platform
(`bitcom2ktetc`, `send_record2platform` and `retrans_thread`), from the record to the text that is
sent again. A step is `none` where it writes or reads beyond a buffer; texts stand without their
terminator.
-/

namespace VdCamera.Park

open Misc

abbrev MSG_LENGTH : Nat := 1024

/-- The rows of the table, oldest first, and whether the thread is still in its loop. Beside them:
what was to be sent and went to the store, what the thread has sent, and whether a message was copied
from beyond the memory of its text. -/
structure MessageStore where
  rows : List (List UInt8) := []
  running : Bool := true
  toResend : List (List UInt8) := []
  resent : List (List UInt8) := []
  overread : Bool := false

/-- One turn of either thread with retransmission enabled; `ret` is what sending returns. The row is
copied into 1024 bytes. -/
def retransRound (s : MessageStore) (ret : Int) : Option MessageStore :=
  if s.running then
    match s.rows with
    | [] => some s
    | msg :: rest =>
      if MSG_LENGTH ≤ msg.length then none
      else if JsonCpp.parse msg then
        if ret = 0 then some { s with rows := rest, resent := s.resent ++ [msg] } else some s
      else some { s with running := false }
  else some s

/-- An object with its members in the order of their names. -/
def membersOf : List (String × Json) → Members
  | [] => .nil
  | (name, value) :: rest => .cons (ascii name) value (membersOf rest)

/-- The eight numbers of the plate's place. -/
def plateFeature (db : DbParkRecord) : List UInt8 :=
  fmtInt (db.coordinateX 0) ++ ascii "/" ++ fmtInt (db.coordinateY 0) ++ ascii "/"
    ++ fmtInt (db.width 0) ++ ascii "/" ++ fmtInt (db.height 0) ++ ascii "/"
    ++ fmtInt (db.coordinateX 1) ++ ascii "/" ++ fmtInt (db.coordinateY 1) ++ ascii "/"
    ++ fmtInt (db.width 1) ++ ascii "/" ++ fmtInt (db.height 1)

/-- `cmdCode` is only there for a car that comes or goes. -/
def cmdCode (objectState : Int) : List (String × Json) :=
  if objectState = 1 then [("cmdCode", .int 3)]
  else if objectState = 0 then [("cmdCode", .int 4)]
  else []

section Http

/-- The names of the pictures, empty where the first one has none. -/
def photoName (r : ParkRecord) (i : Fin PARK_PIC_NUM) : List UInt8 :=
  if (r.picInfo 0).name = [] then [] else (r.picInfo i).name

/-- The value that `http_record_handler` builds; `serialNum` is `g_SerialNum`. -/
def httpJson (serialNum : List UInt8) (r : ParkRecord) : Json :=
  .obj (membersOf (cmdCode r.dbParkRecord.objectState ++
    [("data", .obj (membersOf [
        ("color", .str (fmtPad 2 r.dbParkRecord.plateColor)),
        ("confidence", .int (r.dbParkRecord.confidence 0)),
        ("dataTime", .str r.dbParkRecord.time),
        ("numplate", .str r.dbParkRecord.plateNum),
        ("photo", .str (photoName r 0)),
        ("photo1", .str (photoName r 1)),
        ("plateFeature", .str (plateFeature r.dbParkRecord)),
        ("status", .int r.dbParkRecord.status)])),
      ("devId", .str serialNum),
      ("psId", .str r.dbParkRecord.pointId)]))

/-- The first 1024 bytes from the text on: it stands in `cap` bytes that were cleared, and `beyond`
is what follows them. -/
def messageField (content : List UInt8) (cap : Nat) (beyond : Nat → UInt8) : List UInt8 :=
  (List.range MSG_LENGTH).map fun i =>
    if i < cap then (content[i]?).getD 0 else beyond i

/-- `http_record_handler`; `ret` is what `send_record2platform` returns. `plate_color` has room for
two characters. -/
def httpRecordHandler (enc : DoubleByte) (serialNum : List UInt8) (s : MessageStore)
    (r : ParkRecord) (beyond : Nat → UInt8) (ret : Int) : Option MessageStore :=
  if 3 ≤ (fmtPad 2 r.dbParkRecord.plateColor).length then none
  else
    let resultJson := JsonCpp.fastWrite (httpJson serialNum r)
    let cap := resultJson.length * 2
    let content := enc.toUtf8 resultJson
    if ret = -1 then do
      let message ← cstr (messageField content cap beyond)
      return { s with
        rows := s.rows ++ [message]
        toResend := s.toResend ++ [content]
        overread := s.overread || cap < MSG_LENGTH }
    else some s

inductive HttpOp
  | record (r : ParkRecord) (beyond : Nat → UInt8) (ret : Int)
  | round (ret : Int)

def httpStep (enc : DoubleByte) (serialNum : List UInt8) (s : MessageStore) :
    HttpOp → Option MessageStore
  | .record r beyond ret => httpRecordHandler enc serialNum s r beyond ret
  | .round ret => retransRound s ret

end Http

section Ktetc

/-- `ktetc_platform_info_t`, as far as it goes into a message. -/
structure KtetcPlatformInfo where
  comType : List UInt8
  parkCode : List UInt8
  devCode : List UInt8
  psCode : List UInt8

/-- What `bitcom2ktetc` makes a message of: the texts of its times, and `stack`, what follows
`plate_num` in memory. -/
structure KtetcInput where
  info : KtetcPlatformInfo
  db : DbParkRecord
  vehicleType : Int
  recordTime : List UInt8
  time : List UInt8
  inTime : List UInt8
  stack : List UInt8

/-- `construct_flowId`, in 22 bytes. -/
def flowId (k : KtetcInput) : List UInt8 :=
  (k.info.comType ++ fmtInt 1 ++ k.recordTime ++ ascii "001").take 21

/-- The plate as `string(plate_num)` reads it after its conversion into 32 bytes. -/
def vehPlate (enc : DoubleByte) (k : KtetcInput) : List UInt8 :=
  let written := iconvInto (enc.chars k.db.plateNum) 32
  (written ++ List.replicate (32 - written.length) 0 ++ k.stack).takeWhile (· ≠ 0)

/-- The value that `send_record2platform` builds; the numbers are unsigned. -/
def ktetcJson (enc : DoubleByte) (k : KtetcInput) : Json :=
  .obj (membersOf ([
      ("Image1", .str (flowId k ++ ascii "/1.jpg")),
      ("Image2", .str (flowId k ++ ascii "/2.jpg")),
      ("Image3", .str (ascii "0")),
      ("Image4", .str (ascii "0"))]
    ++ cmdCode (k.db.objectState % 2 ^ 32) ++
    [ ("comType", .str k.info.comType),
      ("confidence", .int (k.db.confidence 0 % 2 ^ 32)),
      ("dataTime", .str k.time),
      ("devCode", .str k.info.devCode),
      ("flowId", .str (flowId k)),
      ("inOutState", .int (k.db.objectState % 2 ^ 32)),
      ("inTime", .str k.inTime),
      ("parkCode", .str k.info.parkCode),
      ("plateColor", .str ((fmtPad 2 k.db.plateColor).take 2)),
      ("plateFeature", .str (plateFeature k.db)),
      ("psCode", .str k.info.psCode),
      ("vehColor", .str (ascii "0")),
      ("vehPlate", .str (vehPlate enc k)),
      ("vehType", .int (k.vehicleType % 2 ^ 32))]))

/-- What the three attempts return in the end. -/
def lastRet : List Int → Int
  | [] => 0
  | [ret] => ret
  | ret :: rets => if ret = 0 then 0 else lastRet rets

/-- `CParkKtetc::send_record2platform`: a message is sent only when none is stored. -/
def ktetcSendRecord (enc : DoubleByte) (s : MessageStore) (k : KtetcInput) (rets : Fin 3 → Int) :
    MessageStore :=
  let resultJson := JsonCpp.fastWrite (ktetcJson enc k)
  let stored := { s with
    rows := s.rows ++ [resultJson]
    toResend := s.toResend ++ [resultJson] }
  if s.rows ≠ [] then stored
  else if lastRet [rets 0, rets 1, rets 2] = -1 then stored
  else s

inductive KtetcOp
  | record (k : KtetcInput) (rets : Fin 3 → Int)
  | round (ret : Int)

def ktetcStep (enc : DoubleByte) (s : MessageStore) : KtetcOp → Option MessageStore
  | .record k rets => some (ktetcSendRecord enc s k rets)
  | .round ret => retransRound s ret

end Ktetc

end VdCamera.Park
