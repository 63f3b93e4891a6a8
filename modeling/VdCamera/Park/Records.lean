import VdCamera.Misc.Text
import Mathlib.Data.Fintype.Pi

/-!
# Parking records

`storage/park_records_process.cpp`, `park_records_process.h`. What the camera's result becomes before
it goes to the platforms. Texts stand without their terminator.
-/

namespace VdCamera.Park

abbrev PARK_PIC_NUM : Nat := 2

instance : NeZero PARK_PIC_NUM := ⟨by decide⟩

/-- `DB_ParkRecord`, as far as the zehin and the bitcom platform read it. -/
structure DbParkRecord where
  plateNum : List UInt8 := []
  pointId : List UInt8 := []
  time : List UInt8 := []
  imageName : Fin PARK_PIC_NUM → List UInt8 := fun _ => []
  coordinateX : Fin PARK_PIC_NUM → Int := fun _ => 0
  coordinateY : Fin PARK_PIC_NUM → Int := fun _ => 0
  width : Fin PARK_PIC_NUM → Int := fun _ => 0
  height : Fin PARK_PIC_NUM → Int := fun _ => 0
  plateColor : Int := 0
  confidence : Fin PARK_PIC_NUM → Int := fun _ => 0
  objectState : Int := 0
  status : Int := 0
  deriving DecidableEq

/-- `EP_PicInfo`. `buf` is held by value, as many bytes as `size` says; in the source it points into the
ring of JPEG pictures in the CMEM, a place of which is written again when the ring has gone round. `tm`
stands for the text that is made of the time. -/
structure EpPicInfo where
  path : List (List UInt8) := []
  name : List UInt8 := []
  buf : List UInt8 := []
  tm : List UInt8 := []
  deriving DecidableEq, Repr

/-- `Park_record`. -/
structure ParkRecord where
  dbParkRecord : DbParkRecord := {}
  picInfo : Fin PARK_PIC_NUM → EpPicInfo := fun _ => {}
  deriving DecidableEq

/-- `ParkVehicleInfo`, as far as it goes into the fields above. -/
structure ParkVehicleInfo where
  strResult : List UInt8
  objectState : Int
  picNum : Nat
  xPos : Fin PARK_PIC_NUM → Int
  yPos : Fin PARK_PIC_NUM → Int
  width : Fin PARK_PIC_NUM → Int
  height : Fin PARK_PIC_NUM → Int
  confidence : Fin PARK_PIC_NUM → Int
  color : Int
  status : Int

/-- `analyze_park_record_info_motor_vehicle`; `pointId` is `EP_POINT_ID`. -/
def analyzeParkRecordInfoMotorVehicle (pointId : List UInt8) (result : ParkVehicleInfo)
    (picInfo : Fin PARK_PIC_NUM → EpPicInfo) : DbParkRecord :=
  let record : DbParkRecord := {
    plateNum := result.strResult.take 31
    objectState := result.objectState
    pointId := pointId.take 31 }
  if result.objectState = 0 ∨ result.objectState = 1 then
    let record := { record with
      time := (picInfo (if result.objectState = 1 then 1 else 0)).tm.take 31 }
    if 0 < result.picNum then
      let taken {α : Type} (zero : α) (f : Fin PARK_PIC_NUM → α) (i : Fin PARK_PIC_NUM) : α :=
        if i.val < result.picNum then f i else zero
      { record with
        imageName := taken [] fun i => (picInfo i).name.take 255
        coordinateX := taken 0 result.xPos
        coordinateY := taken 0 result.yPos
        width := taken 0 result.width
        height := taken 0 result.height
        plateColor := result.color
        confidence := taken 0 result.confidence
        status := result.status }
    else if result.objectState = 0 then { record with status := 4 }
    else record
  else record

/-- The record of a car that left without being seen. It names no picture. -/
structure LeaveRecord where
  record : ParkRecord
  unnamed : ∀ i, record.dbParkRecord.imageName i = []

theorem imageName_of_picNum_zero {pointId : List UInt8} {result : ParkVehicleInfo}
    {picInfo : Fin PARK_PIC_NUM → EpPicInfo} (h : result.picNum = 0) (i : Fin PARK_PIC_NUM) :
    (analyzeParkRecordInfoMotorVehicle pointId result picInfo).imageName i = [] := by
  unfold analyzeParkRecordInfoMotorVehicle
  simp only [h, Nat.lt_irrefl, if_false]
  split
  · split
    · rfl
    · rfl
  · rfl

/-- The record of `process_park_leave_info`; `now` is the time as a text. -/
def processParkLeaveInfo (pointId now : List UInt8) (result : ParkVehicleInfo) : LeaveRecord :=
  let picInfo : Fin PARK_PIC_NUM → EpPicInfo := fun i => if i = 0 then { tm := now } else {}
  { record := {
      dbParkRecord := analyzeParkRecordInfoMotorVehicle pointId { result with picNum := 0 } picInfo
      picInfo }
    unnamed := imageName_of_picNum_zero rfl }

/-- What a platform is notified of: `MSG_PARK_RECORD` or `MSG_PARK_INFO`. -/
inductive Notice where
  | record (r : ParkRecord)
  | info (r : LeaveRecord)

def Notice.parkRecord : Notice → ParkRecord
  | .record r => r
  | .info r => r.record

/-- Whether the notice has pictures. -/
def Notice.pictured : Notice → Bool
  | .record _ => true
  | .info _ => false

end VdCamera.Park
