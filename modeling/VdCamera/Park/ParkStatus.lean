import VdCamera.Misc.RecentRing
import VdCamera.Misc.Run
import Mathlib.Data.List.Basic

/-!
# The parking history

`park_status/src/park_status.cpp`. The last records stand in a ring that is written to a file after
every change and read back when the process starts. The file is its JSON value. A field is the list of
its bytes; a copy that would leave it, or a text in it without a terminator, is `none`.
-/

namespace VdCamera.Park

open Misc

def TIME_STRING_LENGTH : Nat := 32

def PARK_PLATE_LENGTH : Nat := 32

def SPACE_CODE_LENGTH : Nat := 32

def PARK_RECORD_HISTORY_MAX : Nat := 10

def PICTURE_NAME_LENGTH : Nat := 128

/-- The text in a field. -/
def cstr (field : List UInt8) : Option (List UInt8) :=
  if 0 ∈ field then some (field.takeWhile (· ≠ 0)) else none

/-- The text and its terminator at the start of the field: `memcpy` with the length of the text, and the
`strncpy` that is followed by a terminator. -/
def copyText (text field : List UInt8) : Option (List UInt8) :=
  if text.length < field.length then some (text ++ 0 :: field.drop (text.length + 1)) else none

/-- `iconv` from GBK to UTF-8: the characters of a text, none of which has a terminator in it. -/
structure Iconv where
  chars : List UInt8 → List (List UInt8)
  proper : ∀ t, ∀ c ∈ chars t, 0 ∉ c

/-- The converted text. -/
def Iconv.text (conv : Iconv) (t : List UInt8) : List UInt8 := (conv.chars t).flatten

/-- The characters that go into the room, up to the first one that does not. -/
def iconvInto : List (List UInt8) → Nat → List UInt8
  | [], _ => []
  | c :: cs, room => if c.length ≤ room then c ++ iconvInto cs (room - c.length) else []

/-- `convert_enc_s` of a text with its terminator. -/
def convertEncS (conv : Iconv) (text field : List UInt8) : List UInt8 :=
  let written := iconvInto (conv.chars text ++ [[0]]) field.length
  written ++ field.drop written.length

inductive CurrentLightState where
  | nolight
  | green
  | greenFlash
  | red
  | redFlash
  | blue
  | blueFlash
  deriving DecidableEq, Repr

/-- `light_string_map_table`. -/
def lightStringMapTable : List (CurrentLightState × String) :=
  [(.nolight, "全灭"), (.green, "绿灯"), (.greenFlash, "绿闪"), (.red, "红灯"), (.redFlash, "红闪"),
    (.blue, "蓝灯"), (.blueFlash, "蓝闪")]

/-- `get_light_str_from_state`. -/
def getLightStrFromState (state : CurrentLightState) : String :=
  ((lightStringMapTable.find? fun item => item.1 = state).map Prod.snd).getD ""

/-- `get_light_from_str`. -/
def getLightFromStr (light : String) : CurrentLightState :=
  ((lightStringMapTable.find? fun item => item.2 = light).map Prod.fst).getD .nolight

/-- `PARK_RECORD_STATE`. -/
inductive ParkRecordState where
  | driveIn
  | driveOut
  deriving DecidableEq, Repr

/-- `CURRENT_PARK_STATE`. -/
inductive CurrentParkState where
  | nocar
  | hascar
  deriving DecidableEq, Repr

def CurrentParkState.toInt : CurrentParkState → Int
  | .nocar => 0
  | .hascar => 1

/-- `park_history_t`. -/
structure ParkHistory where
  index : UInt8 := 0
  plate : List UInt8 := List.replicate PARK_PLATE_LENGTH 0
  state : ParkRecordState := .driveIn
  time : List UInt8 := List.replicate TIME_STRING_LENGTH 0
  picName1 : List UInt8 := List.replicate PICTURE_NAME_LENGTH 0
  picName2 : List UInt8 := List.replicate PICTURE_NAME_LENGTH 0

/-- `parkStatus`. -/
structure ParkStatus where
  parkstate : CurrentParkState := .nocar
  spacecode : List UInt8 := List.replicate SPACE_CODE_LENGTH 0
  currentplate : List UInt8 := List.replicate PARK_PLATE_LENGTH 0
  currentlightstate : CurrentLightState := .nolight
  history : RecentRing ParkHistory := { slot := fun _ => {} }

/-- An item of `parkhistory` without its index. -/
structure HistoryItem where
  time : List UInt8
  plate : List UInt8
  picName1 : List UInt8
  picName2 : List UInt8
  state : String
  deriving DecidableEq, Repr

/-- The file. -/
structure HistoryFile where
  parkstate : Int
  currentplate : List UInt8
  spacecode : List UInt8
  parklightstate : String
  parkhistory : List (HistoryItem × Nat)
  deriving DecidableEq, Repr

/-- Whether a slot of the ring is in use. -/
def ParkHistory.used (h : ParkHistory) : Bool := h.index ≠ 0

def ParkRecordState.text : ParkRecordState → String
  | .driveIn => "驶入"
  | .driveOut => "驶离"

/-- The item that is appended for a slot. -/
def ParkHistory.item (h : ParkHistory) : Option HistoryItem := do
  let time ← cstr h.time
  let plate ← cstr h.plate
  let picName1 ← cstr h.picName1
  let picName2 ← cstr h.picName2
  return { time, plate, picName1, picName2, state := h.state.text }

/-- `dump_to_file`. -/
def ParkStatus.dumpToFile (p : ParkStatus) : Option HistoryFile := do
  let currentplate ← cstr p.currentplate
  let spacecode ← cstr p.spacecode
  let slots ← p.history.walk PARK_RECORD_HISTORY_MAX ParkHistory.used
  let items ← slots.mapM ParkHistory.item
  return {
    parkstate := p.parkstate.toInt
    currentplate
    spacecode
    parklightstate := getLightStrFromState p.currentlightstate
    parkhistory := items.zipIdx 1 }

/-- `parse_park_history`. The texts are read through the `c_str()` of strings that are gone by then:
`gone` is what is read there. -/
def parseParkHistory (gone : List UInt8 → List UInt8) (ring : RecentRing ParkHistory)
    (item : HistoryItem × Nat) : Option (RecentRing ParkHistory) := do
  let node := ring.slot (ring.next PARK_RECORD_HISTORY_MAX).toNat
  let time ← copyText (gone item.1.time) node.time
  let plate ← copyText (gone item.1.plate) node.plate
  let picName1 ← copyText (gone item.1.picName1) node.picName1
  let picName2 ← copyText (gone item.1.picName2) node.picName2
  return ring.push PARK_RECORD_HISTORY_MAX {
    index := UInt8.ofNat item.2
    state := if item.1.state = "驶入" then .driveIn else .driveOut
    time, plate, picName1, picName2 }

/-- `load_from_file` and `parse_from_json`; `spotId` is `g_arm_config.basic_param.spot_id`. -/
def ParkStatus.loadFromFile (gone : List UInt8 → List UInt8) (spotId : List UInt8)
    (file : HistoryFile) (p : ParkStatus) : Option ParkStatus := do
  let spacecode ← copyText spotId p.spacecode
  let currentplate ← copyText (gone file.currentplate) p.currentplate
  let history ← file.parkhistory.reverse.foldlM (parseParkHistory gone) p.history
  return {
    parkstate := if file.parkstate = CurrentParkState.hascar.toInt then .hascar else .nocar
    spacecode
    currentplate
    currentlightstate := getLightFromStr file.parklightstate
    history }

/-- A text without a terminator that fits a field. -/
structure FieldText (n : Nat) where
  text : List UInt8
  fits : text.length < n
  proper : 0 ∉ text

/-- The arguments of `push_record_2_history_list` for a record. -/
structure ParkEvent where
  objectState : Int
  plate : List UInt8
  time : FieldText TIME_STRING_LENGTH
  picName1 : Option (FieldText PICTURE_NAME_LENGTH)
  picName2 : Option (FieldText PICTURE_NAME_LENGTH)

/-- A picture's name in a cleared field. -/
def copyName (name : Option (FieldText PICTURE_NAME_LENGTH)) (field : List UInt8) :
    Option (List UInt8) :=
  match name with
  | some name => copyText name.text field
  | none => some field

/-- `push_record_2_history_list` for a record, up to `dump_to_file`. -/
def ParkStatus.pushRecord (conv : Iconv) (r : ParkEvent) (p : ParkStatus) : Option ParkStatus := do
  let p := if r.objectState = 1 then
      { p with
        parkstate := .hascar
        currentplate := convertEncS conv r.plate p.currentplate }
    else
      { p with
        parkstate := .nocar
        currentplate := List.replicate PARK_PLATE_LENGTH 0 }
  let node : ParkHistory := {}
  let time ← copyText r.time.text node.time
  let picName1 ← copyName r.picName1 node.picName1
  let picName2 ← copyName r.picName2 node.picName2
  return { p with history := p.history.push PARK_RECORD_HISTORY_MAX {
    index := 99
    plate := convertEncS conv r.plate node.plate
    state := if r.objectState = 1 then .driveIn else .driveOut
    time, picName1, picName2 } }

/-- `spot_id` of `char[16]`. -/
abbrev SpotId := FieldText 16

/-- The process, the file, and the records that were pushed, newest first. -/
structure HistoryWorld where
  spotId : SpotId
  running : Option ParkStatus := none
  file : Option HistoryFile := none
  records : List ParkEvent := []

/-- The instance, which the first call makes. -/
def HistoryWorld.started (gone : List UInt8 → List UInt8) (s : HistoryWorld) : Option ParkStatus :=
  match s.running, s.file with
  | some p, _ => some p
  | none, none => some {}
  | none, some file => ParkStatus.loadFromFile gone s.spotId.text file {}

/-- A record, a light change, and a restart of the process. -/
inductive HistoryOp where
  | record (r : ParkEvent)
  | light (text : String)
  | restart (spotId : SpotId)

def historyStep (conv : Iconv) (gone : List UInt8 → List UInt8) (s : HistoryWorld) :
    HistoryOp → Option HistoryWorld
  | .record r => do
    let p ← (← s.started gone).pushRecord conv r
    return { s with
      running := some p
      file := some (← p.dumpToFile)
      records := r :: s.records }
  | .light text => do
    let p := { ← s.started gone with currentlightstate := getLightFromStr text }
    return { s with
      running := some p
      file := some (← p.dumpToFile) }
  | .restart spotId => some { s with
      spotId
      running := none }

/-- How a record is listed. -/
def ParkEvent.item (conv : Iconv) (r : ParkEvent) : HistoryItem where
  time := r.time.text
  plate := conv.text r.plate
  picName1 := (r.picName1.map FieldText.text).getD []
  picName2 := (r.picName2.map FieldText.text).getD []
  state := if r.objectState = 1 then "驶入" else "驶离"

/-- The file lists the last records, newest first. -/
def HistoryWorld.Listed (conv : Iconv) (s : HistoryWorld) : Prop :=
  ∀ file, s.file = some file → file.parkhistory
    = ((s.records.take PARK_RECORD_HISTORY_MAX).map (ParkEvent.item conv)).zipIdx 1

/-- What a process with this spot id makes of the file is written as the same file. -/
def HistoryFile.Survives (gone : List UInt8 → List UInt8) (spotId : SpotId) (file : HistoryFile) :
    Prop :=
  (ParkStatus.loadFromFile gone spotId.text file {}).bind ParkStatus.dumpToFile = some file

instance (gone : List UInt8 → List UInt8) (spotId : SpotId) (file : HistoryFile) :
    Decidable (file.Survives gone spotId) := inferInstanceAs (Decidable (_ = _))

/-- The plate fits its field when it is converted, and the texts are still there when they are copied. -/
def HistoryOp.Fits (conv : Iconv) (gone : List UInt8 → List UInt8) : HistoryOp → Prop
  | .record r => (conv.text r.plate).length < PARK_PLATE_LENGTH
      ∧ ∀ t ∈ [[], r.time.text, conv.text r.plate, (r.item conv).picName1, (r.item conv).picName2],
        gone t = t
  | .light _ => gone [] = []
  | .restart _ => True

end VdCamera.Park
