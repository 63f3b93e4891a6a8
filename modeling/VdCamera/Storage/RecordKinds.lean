import VdCamera.Storage.RecordSql

/-!
# The records of the databases

`DB_TrafficRecord`, `DB_ParkRecord`, `DB_TrafficFlow` and `DB_TrafficFlowPedestrian` with the
functions of `storage/traffic_records_process.cpp:1699-1813`,
`storage/park_records_process.cpp:1186-1449` and `storage/traffic_flow_process.c:1053-1205` that
print and read them, and the column types of their tables. An array of two is a pair.
-/

namespace VdCamera.Storage

open Misc Cell

/-! ## Traffic records -/

structure DBTrafficRecord where
  ID : Int32
  plateNum : List UInt8
  plateType : Int32
  pointId : List UInt8
  pointName : List UInt8
  devId : List UInt8
  laneNum : Int32
  speed : Int32
  time : List UInt8
  collectionAgencies : List UInt8
  direction : Int32
  imagePath : List UInt8
  partitionPath : List UInt8
  color : Int32
  vehicleLogo : Int32
  objectiveType : Int32
  coordinateX : Int32
  coordinateY : Int32
  width : Int32
  height : Int32
  picFlag : Int32
  plateColor : Int32
  description : List UInt8
  ftpUser : List UInt8
  ftpPasswd : List UInt8
  ftpIp : List UInt8
  ftpPort : Int32
  flagSend : Int32
  flagStore : Int32
  vehicleType : Int32
  objState : Int32
  detectCoilTime : UInt32
  confidence : Int32
  deriving DecidableEq, Repr

/-- The columns as they are printed. -/
def DBTrafficRecord.cells (r : DBTrafficRecord) : List Cell :=
  [ s 32 r.plateNum,
    d r.plateType,
    s 32 r.pointId,
    s 100 r.pointName,
    s 32 r.devId,
    d02 r.laneNum,
    d r.speed,
    s 32 r.time,
    s 32 r.collectionAgencies,
    d r.direction,
    s 256 r.imagePath,
    s 64 r.partitionPath,
    d r.color,
    d r.vehicleLogo,
    d r.objectiveType,
    d r.coordinateX,
    d r.coordinateY,
    d r.width,
    d r.height,
    d r.picFlag,
    d r.plateColor,
    s 128 r.description,
    s 128 r.ftpUser,
    s 128 r.ftpPasswd,
    s 128 r.ftpIp,
    d r.ftpPort,
    d r.flagSend,
    d r.flagStore,
    d r.vehicleType ]

def dbFormatInsertSqlTrafficRecords (r : DBTrafficRecord) : List UInt8 :=
  formatInsert (ascii "traffic_records") r.cells

def dbUnformatReadSqlTrafficRecords (azResult : Nat → List UInt8) : DBTrafficRecord where
  ID := atoi (azResult 0)
  plateNum := azResult 1
  plateType := atoi (azResult 2)
  pointId := azResult 3
  pointName := azResult 4
  devId := azResult 5
  laneNum := atoi (azResult 6)
  speed := atoi (azResult 7)
  time := azResult 8
  collectionAgencies := azResult 9
  direction := atoi (azResult 10)
  imagePath := azResult 11
  partitionPath := azResult 12
  color := atoi (azResult 13)
  vehicleLogo := atoi (azResult 14)
  objectiveType := atoi (azResult 15)
  coordinateX := atoi (azResult 16)
  coordinateY := atoi (azResult 17)
  width := atoi (azResult 18)
  height := atoi (azResult 19)
  picFlag := atoi (azResult 20)
  plateColor := atoi (azResult 21)
  description := azResult 22
  ftpUser := azResult 23
  ftpPasswd := azResult 24
  ftpIp := azResult 25
  ftpPort := atoi (azResult 26)
  flagSend := atoi (azResult 27)
  flagStore := atoi (azResult 28)
  vehicleType := atoi (azResult 29)
  objState := 0
  detectCoilTime := 0
  confidence := 0

/-- `SQL_CREATE_TABLE_TRAFFIC_RECORDS` -/
def trafficRecords : RecordKind DBTrafficRecord where
  table := ascii "traffic_records"
  columns :=
    [ .varchar, .integer, .varchar, .varchar, .varchar, .integer, .integer, .varchar, .varchar,
      .integer, .varchar, .varchar, .integer, .integer, .integer, .integer, .integer, .integer,
      .integer, .integer, .integer, .varchar, .varchar, .varchar, .varchar, .integer, .integer,
      .integer, .integer ]
  cells := DBTrafficRecord.cells
  format := dbFormatInsertSqlTrafficRecords
  format_eq _ := rfl
  unformat := dbUnformatReadSqlTrafficRecords
  persisted id r := { r with ID := id, objState := 0, detectCoilTime := 0, confidence := 0 }

/-! ## Park records -/

structure DBParkRecord where
  ID : Int32
  plateNum : List UInt8
  plateType : Int32
  pointId : List UInt8
  pointName : List UInt8
  devId : List UInt8
  laneNum : Int32
  speed : Int32
  time : List UInt8
  collectionAgencies : List UInt8
  direction : Int32
  imagePath : List UInt8 × List UInt8
  imageName : List UInt8 × List UInt8
  aliyunImagePath : List UInt8 × List UInt8
  partitionPath : List UInt8
  color : Int32
  vehicleLogo : Int32
  objectiveType : Int32
  coordinateX : Int32 × Int32
  coordinateY : Int32 × Int32
  width : Int32 × Int32
  height : Int32 × Int32
  plateColor : Int32
  description : List UInt8
  ftpUser : List UInt8
  ftpPasswd : List UInt8
  ftpIp : List UInt8
  ftpPort : Int32
  flagSend : Int32
  flagStore : Int32
  vehicleType : Int32
  confidence : Int32 × Int32
  objectState : Int32
  status : Int32
  deriving DecidableEq, Repr

/-- The columns as they are printed. -/
def DBParkRecord.cells (r : DBParkRecord) : List Cell :=
  [ s 32 r.plateNum,
    d r.plateType,
    s 32 r.pointId,
    s 100 r.pointName,
    s 32 r.devId,
    d r.laneNum,
    d r.speed,
    s 32 r.time,
    s 32 r.collectionAgencies,
    d r.direction,
    s 256 r.imagePath.1,
    s 256 r.imagePath.2,
    s 64 r.partitionPath,
    d r.color,
    d r.vehicleLogo,
    d r.objectiveType,
    d r.coordinateX.1,
    d r.coordinateY.1,
    d r.width.1,
    d r.height.1,
    d r.coordinateX.2,
    d r.coordinateY.2,
    d r.width.2,
    d r.height.2,
    d r.plateColor,
    s 128 r.description,
    s 128 r.ftpUser,
    s 128 r.ftpPasswd,
    s 128 r.ftpIp,
    d r.ftpPort,
    d r.flagSend,
    d r.flagStore,
    d r.vehicleType,
    d r.confidence.1,
    d r.confidence.2,
    d r.objectState,
    d r.status,
    s 256 r.imageName.1,
    s 256 r.imageName.2 ]

def dbFormatInsertSqlParkRecords (r : DBParkRecord) : List UInt8 :=
  formatInsert (ascii "park_records") r.cells

def dbUnformatReadSqlParkRecords (azResult : Nat → List UInt8) : DBParkRecord where
  ID := atoi (azResult 0)
  plateNum := azResult 1
  plateType := atoi (azResult 2)
  pointId := azResult 3
  pointName := azResult 4
  devId := azResult 5
  laneNum := atoi (azResult 6)
  speed := atoi (azResult 7)
  time := azResult 8
  collectionAgencies := azResult 9
  direction := atoi (azResult 10)
  imagePath := (azResult 11, azResult 12)
  partitionPath := azResult 13
  color := atoi (azResult 14)
  vehicleLogo := atoi (azResult 15)
  objectiveType := atoi (azResult 16)
  coordinateX := (atoi (azResult 17), atoi (azResult 21))
  coordinateY := (atoi (azResult 18), atoi (azResult 22))
  width := (atoi (azResult 19), atoi (azResult 23))
  height := (atoi (azResult 20), atoi (azResult 24))
  plateColor := atoi (azResult 25)
  description := azResult 26
  ftpUser := azResult 27
  ftpPasswd := azResult 28
  ftpIp := azResult 29
  ftpPort := atoi (azResult 30)
  flagSend := atoi (azResult 31)
  flagStore := atoi (azResult 32)
  vehicleType := atoi (azResult 33)
  confidence := (atoi (azResult 34), atoi (azResult 35))
  objectState := atoi (azResult 36)
  status := atoi (azResult 37)
  imageName := (azResult 38, azResult 39)
  aliyunImagePath := ([], [])

/-- `SQL_CREATE_TABLE_PARK_RECORDS` -/
def parkRecords : RecordKind DBParkRecord where
  table := ascii "park_records"
  columns :=
    [ .varchar, .integer, .varchar, .varchar, .varchar, .integer, .integer, .varchar, .varchar,
      .integer, .varchar, .varchar, .varchar, .integer, .integer, .integer, .integer, .integer,
      .integer, .integer, .integer, .integer, .integer, .integer, .integer, .varchar, .varchar,
      .varchar, .varchar, .integer, .integer, .integer, .integer, .integer, .integer, .integer,
      .integer, .varchar, .varchar ]
  cells := DBParkRecord.cells
  format := dbFormatInsertSqlParkRecords
  format_eq _ := rfl
  unformat := dbUnformatReadSqlParkRecords
  persisted id r := { r with ID := id, aliyunImagePath := ([], []) }

/-! ## Traffic flow -/

structure DBTrafficFlow where
  ID : Int32
  sectionId : List UInt8
  sectionName : List UInt8
  largeCount : Int32
  smallCount : Int32
  commCount : Int32
  avgVolume : Int32
  avgSpeed : Int32
  occupancy : Int32
  queue : Int32
  travalTime : Int32
  pointId : List UInt8
  pointName : List UInt8
  devId : List UInt8
  devName : List UInt8
  uptime : List UInt8
  lanNum : Int32
  direction : Int32
  timeHeadway : Int32
  density : Int32
  carLen : Int32
  flagSend : Int32
  flagStore : Int32
  deriving DecidableEq, Repr

/-- The columns as they are printed. -/
def DBTrafficFlow.cells (r : DBTrafficFlow) : List Cell :=
  [ s 32 r.sectionId,
    s 100 r.sectionName,
    d r.largeCount,
    d r.smallCount,
    d r.commCount,
    d r.avgVolume,
    d r.avgSpeed,
    d r.occupancy,
    d r.queue,
    d r.travalTime,
    s 32 r.pointId,
    s 100 r.pointName,
    s 32 r.devId,
    s 64 r.devName,
    s 32 r.uptime,
    d r.lanNum,
    d r.direction,
    d r.timeHeadway,
    d r.density,
    d r.carLen,
    d r.flagSend,
    d r.flagStore ]

def dbFormatInsertSqlTrafficFlow (r : DBTrafficFlow) : List UInt8 :=
  formatInsert (ascii "traffic_flow") r.cells

def dbUnformatReadSqlTrafficFlow (azResult : Nat → List UInt8) : DBTrafficFlow where
  ID := atoi (azResult 0)
  sectionId := azResult 1
  sectionName := azResult 2
  largeCount := atoi (azResult 3)
  smallCount := atoi (azResult 4)
  commCount := atoi (azResult 5)
  avgVolume := atoi (azResult 6)
  avgSpeed := atoi (azResult 7)
  occupancy := atoi (azResult 8)
  queue := atoi (azResult 9)
  travalTime := atoi (azResult 10)
  pointId := azResult 11
  pointName := azResult 12
  devId := azResult 13
  devName := azResult 14
  uptime := azResult 15
  lanNum := atoi (azResult 16)
  direction := atoi (azResult 17)
  timeHeadway := atoi (azResult 18)
  density := atoi (azResult 19)
  carLen := atoi (azResult 20)
  flagSend := atoi (azResult 21)
  flagStore := atoi (azResult 22)

/-- `SQL_CREATE_TABLE_TRAFFIC_FLOW` -/
def trafficFlow : RecordKind DBTrafficFlow where
  table := ascii "traffic_flow"
  columns :=
    [ .varchar, .varchar, .integer, .integer, .integer, .integer, .integer, .integer, .integer,
      .integer, .varchar, .varchar, .varchar, .varchar, .varchar, .integer, .integer, .integer,
      .integer, .integer, .integer, .integer ]
  cells := DBTrafficFlow.cells
  format := dbFormatInsertSqlTrafficFlow
  format_eq _ := rfl
  unformat := dbUnformatReadSqlTrafficFlow
  persisted id r := { r with ID := id }

structure DBTrafficFlowPedestrian where
  ID : Int32
  flowLeft2right : Int32
  flowRight2left : Int32
  pointId : List UInt8
  pointName : List UInt8
  devId : List UInt8
  devName : List UInt8
  uptime : List UInt8
  flagSend : Int32
  flagStore : Int32
  deriving DecidableEq, Repr

/-- The columns as they are printed. -/
def DBTrafficFlowPedestrian.cells (r : DBTrafficFlowPedestrian) : List Cell :=
  [ d r.flowLeft2right,
    d r.flowRight2left,
    s 32 r.pointId,
    s 100 r.pointName,
    s 32 r.devId,
    s 64 r.devName,
    s 32 r.uptime,
    d r.flagSend,
    d r.flagStore ]

def dbFormatInsertSqlTrafficFlowPedestrian (r : DBTrafficFlowPedestrian) : List UInt8 :=
  formatInsert (ascii "traffic_flow_pedestrian") r.cells

def dbUnformatTrafficFlowPedestrianInfo (azResult : Nat → List UInt8) :
    DBTrafficFlowPedestrian where
  ID := atoi (azResult 0)
  flowLeft2right := atoi (azResult 1)
  flowRight2left := atoi (azResult 2)
  pointId := azResult 3
  pointName := azResult 4
  devId := azResult 5
  devName := azResult 6
  uptime := azResult 7
  flagSend := atoi (azResult 8)
  flagStore := atoi (azResult 9)

/-- `SQL_CREATE_TABLE_TRAFFIC_FLOW_PEDESTRIAN` -/
def trafficFlowPedestrian : RecordKind DBTrafficFlowPedestrian where
  table := ascii "traffic_flow_pedestrian"
  columns :=
    [ .integer, .integer, .varchar, .varchar, .varchar, .varchar, .varchar, .integer, .integer ]
  cells := DBTrafficFlowPedestrian.cells
  format := dbFormatInsertSqlTrafficFlowPedestrian
  format_eq _ := rfl
  unformat := dbUnformatTrafficFlowPedestrianInfo
  persisted id r := { r with ID := id }

/-! ## All kinds -/

/-- A record of one of the kinds whose strings fit their fields. -/
inductive StoredRecord where
  | traffic (r : { r // trafficRecords.Fits r })
  | park (r : { r // parkRecords.Fits r })
  | flow (r : { r // trafficFlow.Fits r })
  | pedestrian (r : { r // trafficFlowPedestrian.Fits r })

namespace StoredRecord

def ReadsBack (db : Database) (id : Int32) : StoredRecord → Prop
  | traffic r => trafficRecords.ReadsBack db id r.1
  | park r => parkRecords.ReadsBack db id r.1
  | flow r => trafficFlow.ReadsBack db id r.1
  | pedestrian r => trafficFlowPedestrian.ReadsBack db id r.1

def Unquoted : StoredRecord → Prop
  | traffic r => trafficRecords.Unquoted r.1
  | park r => parkRecords.Unquoted r.1
  | flow r => trafficFlow.Unquoted r.1
  | pedestrian r => trafficFlowPedestrian.Unquoted r.1

/-- The buffer of the statement has room for what is printed of the record: only a park record can
be too long for it. -/
def HasRoom : StoredRecord → Prop
  | park r => parkRecords.bytes r.1 ≤ 1892
  | _ => True

end StoredRecord

end VdCamera.Storage
