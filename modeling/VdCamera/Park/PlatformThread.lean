import VdCamera.JsonCpp.Value
import VdCamera.Misc.Registry

/-!
# The list of platforms

`g_platform_list` and its configuration file (src/tpi/src/platform_thread.cpp), with what the five
platforms of a parking device read from a JSON value and write to one. A result is `none` where the
program would write beyond a buffer, or ends in an assertion or an exception of the JSON library.
-/

namespace VdCamera.Park

open Misc JsonCpp

inductive EDeviceType
  | PARK
  | VP
  | VM
deriving DecidableEq

/-- `sprintf` into a buffer of `size` bytes. -/
def sprintfInto (size : Nat) (text : List UInt8) : Option (List UInt8) :=
  if text.length < size then some text else none

/-- `%d` of an `unsigned int`. -/
def fmtUInt (n : UInt32) : List UInt8 := fmtInt n.toInt32.toInt

/-- `atoi` into an `unsigned int`. -/
def atoui (text : List UInt8) : UInt32 := (atoi text).toUInt32

def isYes (text : List UInt8) : Bool := text = ascii "yes"

def yesNo (b : Bool) : Value := .string (ascii (if b then "yes" else "no"))

/-- The value that all platforms write. -/
def platformJson (platformType : String) (enable : Bool) (attrs : List (String × Value)) :
    Value :=
  .object [("attribute", .object attrs), ("enable", yesNo enable),
    ("platform_type", .string (ascii platformType))]

/-! ## zehin -/

structure ZehinPlatformInfo where
  enable : Bool
  retransmitionEnable : Bool
  sendStatusWhenRetransmition : Bool
  spaceStatusEnable : Bool
  lightCtlEnable : Bool
  rotateCount : UInt32
  deviceId : List UInt8
  centerIp : List UInt8
  sfIp : List UInt8
  cmdPort : UInt32
  heartbeatPort : UInt32
  sfPort : UInt32
deriving DecidableEq

namespace ZehinPlatformInfo

/-- What `CParkZehin::CParkZehin` sets. -/
def init : ZehinPlatformInfo where
  enable := false
  retransmitionEnable := false
  sendStatusWhenRetransmition := false
  spaceStatusEnable := false
  lightCtlEnable := true
  rotateCount := 0
  deviceId := []
  centerIp := []
  sfIp := []
  cmdPort := 0
  heartbeatPort := 0
  sfPort := 0

def setPlatformInfo (info : ZehinPlatformInfo) (root : Value) :
    Option (Int × ZehinPlatformInfo) := do
  if (← root.text "platform_type") ≠ ascii "zehin" then return (-1, info)
  let attrs ← root.index "attribute"
  let lightCtl ← attrs.index "light_ctl_enable"
  let lightCtlEnable ←
    if lightCtl.isNull then some info.lightCtlEnable else lightCtl.asString.map isYes
  return (0, {
    enable := isYes (← root.text "enable")
    retransmitionEnable := isYes (← attrs.text "retransmition_enable")
    sendStatusWhenRetransmition := isYes (← attrs.text "send_status_when_retransmition")
    spaceStatusEnable := isYes (← attrs.text "space_status_enable")
    lightCtlEnable
    rotateCount := atoui (← attrs.text "rotate_count")
    deviceId := ← attrs.text "device_id"
    centerIp := ← attrs.text "center_ip"
    sfIp := ← attrs.text "sf_ip"
    sfPort := atoui (← attrs.text "sf_port")
    cmdPort := atoui (← attrs.text "cmd_port")
    heartbeatPort := atoui (← attrs.text "heartbeat_port") })

def getPlatformInfoJson (info : ZehinPlatformInfo) : Option Value := do
  let centerPort ← sprintfInto 6 (fmtUInt info.cmdPort)
  let heartbeatPort ← sprintfInto 6 (fmtUInt info.heartbeatPort)
  let sfPort ← sprintfInto 6 (fmtUInt info.sfPort)
  let rotateCount ← sprintfInto 4 (fmtUInt info.rotateCount)
  return platformJson "zehin" info.enable [
    ("center_ip", .string info.centerIp),
    ("cmd_port", .string centerPort),
    ("device_id", .string info.deviceId),
    ("heartbeat_port", .string heartbeatPort),
    ("light_ctl_enable", yesNo info.lightCtlEnable),
    ("retransmition_enable", yesNo info.retransmitionEnable),
    ("rotate_count", .string rotateCount),
    ("send_status_when_retransmition", yesNo info.sendStatusWhenRetransmition),
    ("sf_ip", .string info.sfIp),
    ("sf_port", .string sfPort),
    ("space_status_enable", yesNo info.spaceStatusEnable)]

end ZehinPlatformInfo

/-! ## bitcom -/

structure BitcomPlatformInfo where
  enable : Bool
  retransmitionEnable : Bool
  rotateCount : UInt32
deriving DecidableEq

namespace BitcomPlatformInfo

def setPlatformInfo (info : BitcomPlatformInfo) (root : Value) :
    Option (Int × BitcomPlatformInfo) := do
  if (← root.text "platform_type") ≠ ascii "bitcom" then return (-1, info)
  let newState := isYes (← root.text "enable")
  let attrs ← root.index "attribute"
  return (0, {
    enable := newState
    retransmitionEnable := isYes (← attrs.text "retransmition_enable")
    rotateCount := atoui (← attrs.text "rotate_count") })

def getPlatformInfoJson (info : BitcomPlatformInfo) : Option Value := do
  let rotateCount ← sprintfInto 4 (fmtUInt info.rotateCount)
  return platformJson "bitcom" info.enable [
    ("retransmition_enable", yesNo info.retransmitionEnable),
    ("rotate_count", .string rotateCount)]

end BitcomPlatformInfo

/-! ## songli -/

/-- `stray` is a number that the memory of a new object held before any source was set. -/
inductive SongliPicSrc
  | FTP
  | ALIYUN
  | stray (n : Int32)
deriving DecidableEq

structure SongliPlatformInfo where
  enable : Bool
  retransmitionEnable : Bool
  uploadLightAction : Bool
  rotateCount : UInt32
  picSrc : SongliPicSrc
deriving DecidableEq

namespace SongliPlatformInfo

def setPlatformInfo (info : SongliPlatformInfo) (root : Value) :
    Option (Int × SongliPlatformInfo) := do
  if (← root.text "platform_type") ≠ ascii "songli" then return (-1, info)
  let attrs ← root.index "attribute"
  let uploadLightAction ← attrs.text "upload_light_action"
  let picSrc ← attrs.text "pic_src"
  return (0, {
    enable := isYes (← root.text "enable")
    retransmitionEnable := isYes (← attrs.text "retransmition_enable")
    rotateCount := atoui (← attrs.text "rotate_count")
    uploadLightAction :=
      if uploadLightAction = ascii "yes" then true
      else if uploadLightAction = ascii "no" then false
      else info.uploadLightAction
    picSrc :=
      if picSrc = ascii "ftp" then .FTP
      else if picSrc = ascii "aliyun" then .ALIYUN
      else info.picSrc })

def getPlatformInfoJson (info : SongliPlatformInfo) : Option Value := do
  let rotateCount ← sprintfInto 4 (fmtUInt info.rotateCount)
  return platformJson "songli" info.enable [
    ("pic_src", .string (ascii (if info.picSrc = .FTP then "ftp" else "aliyun"))),
    ("retransmition_enable", yesNo info.retransmitionEnable),
    ("rotate_count", .string rotateCount),
    ("upload_light_action", yesNo info.uploadLightAction)]

end SongliPlatformInfo

/-! ## http -/

structure HttpPlatformInfo where
  enable : Bool
  retransmitionEnable : Bool
  rotateCount : UInt32
  deviceId : List UInt8
  password : List UInt8
  url : List UInt8
  hbInterval : Int32
deriving DecidableEq

namespace HttpPlatformInfo

/-- The test of `password` sets the device's id. -/
def setPlatformInfo (info : HttpPlatformInfo) (root : Value) :
    Option (Int × HttpPlatformInfo) := do
  if (← root.text "platform_type") ≠ ascii "http" then return (-1, info)
  let attrs ← root.index "attribute"
  let enable ← root.text "enable"
  let info := if enable ≠ [] then { info with enable := isYes enable } else info
  let retransmition ← attrs.text "retransmition_enable"
  let info :=
    if retransmition ≠ [] then { info with retransmitionEnable := isYes retransmition } else info
  let rotateCount ← attrs.text "rotate_count"
  let info := if rotateCount ≠ [] then { info with rotateCount := atoui rotateCount } else info
  let deviceId ← attrs.text "device_id"
  let info := if deviceId ≠ [] then { info with deviceId } else info
  let password ← attrs.text "password"
  let info := if password ≠ [] then { info with deviceId := password } else info
  let url ← attrs.text "url"
  let info := if url ≠ [] then { info with url } else info
  let hbInterval ← (← attrs.index "hb_interval").asInt
  let info := if hbInterval ≠ 0 then { info with hbInterval } else info
  return (0, info)

def getPlatformInfoJson (info : HttpPlatformInfo) : Option Value := do
  let rotateCount ← sprintfInto 4 (fmtUInt info.rotateCount)
  return platformJson "http" info.enable [
    ("device_id", .string info.deviceId),
    ("hb_interval", .int info.hbInterval),
    ("password", .string info.password),
    ("retransmition_enable", yesNo info.retransmitionEnable),
    ("rotate_count", .string rotateCount),
    ("url", .string info.url)]

end HttpPlatformInfo

/-! ## ktetc -/

structure KtetcInfo where
  enable : Bool
  comType : List UInt8
  parkCode : List UInt8
  devCode : List UInt8
  psCode : List UInt8
  url : List UInt8
deriving DecidableEq

namespace KtetcInfo

def setPlatformInfo (info : KtetcInfo) (root : Value) :
    Option (Int × KtetcInfo) := do
  if (← root.text "platform_type") ≠ ascii "ktetc" then return (-1, info)
  let attrs ← root.index "attribute"
  return (0, {
    enable := isYes (← root.text "enable")
    comType := ← attrs.text "comType"
    parkCode := ← attrs.text "parkCode"
    devCode := ← attrs.text "devCode"
    psCode := ← attrs.text "psCode"
    url := ← attrs.text "url" })

def getPlatformInfoJson (info : KtetcInfo) : Value :=
  platformJson "ktetc" info.enable [
    ("comType", .string info.comType),
    ("devCode", .string info.devCode),
    ("parkCode", .string info.parkCode),
    ("psCode", .string info.psCode),
    ("url", .string info.url)]

end KtetcInfo

/-! ## The list -/

/-- A `CPlatform` of a parking device, by its `m_platform_info`. -/
inductive Platform
  | zehin (info : ZehinPlatformInfo)
  | bitcom (info : BitcomPlatformInfo)
  | songli (info : SongliPlatformInfo)
  | http (info : HttpPlatformInfo)
  | ktetc (info : KtetcInfo)
deriving DecidableEq

/-- What the memory of a new object holds in the members that its constructor does not set; a
`std::string` is empty. -/
structure NewMemory where
  bitcom : BitcomPlatformInfo
  songli : SongliPlatformInfo
  httpEnable : Bool
  httpRetransmitionEnable : Bool
  httpRotateCount : UInt32
  httpHbInterval : Int32
  ktetcEnable : Bool

namespace Platform

def getPlatformTypeStr : Platform → List UInt8
  | zehin _ => ascii "zehin"
  | bitcom _ => ascii "bitcom"
  | songli _ => ascii "songli"
  | http _ => ascii "http"
  | ktetc _ => ascii "ktetc"

def setPlatformInfo (root : Value) : Platform → Option (Int × Platform)
  | zehin info => (info.setPlatformInfo root).map fun (ret, info) => (ret, zehin info)
  | bitcom info => (info.setPlatformInfo root).map fun (ret, info) => (ret, bitcom info)
  | songli info => (info.setPlatformInfo root).map fun (ret, info) => (ret, songli info)
  | http info => (info.setPlatformInfo root).map fun (ret, info) => (ret, http info)
  | ktetc info => (info.setPlatformInfo root).map fun (ret, info) => (ret, ktetc info)

def getPlatformInfoJson : Platform → Option Value
  | zehin info => info.getPlatformInfoJson
  | bitcom info => info.getPlatformInfoJson
  | songli info => info.getPlatformInfoJson
  | http info => info.getPlatformInfoJson
  | ktetc info => some info.getPlatformInfoJson

end Platform

/-- `CPlatFormFactory::creator` -/
def creator (mem : NewMemory) (platformType : List UInt8) : EDeviceType → Option Platform
  | .PARK =>
    if platformType = ascii "zehin" then some (.zehin .init)
    else if platformType = ascii "bitcom" then some (.bitcom mem.bitcom)
    else if platformType = ascii "songli" then some (.songli mem.songli)
    else if platformType = ascii "http" then
      some (.http ⟨mem.httpEnable, mem.httpRetransmitionEnable, mem.httpRotateCount, [], [], [],
        mem.httpHbInterval⟩)
    else if platformType = ascii "ktetc" then some (.ktetc ⟨mem.ktetcEnable, [], [], [], [], []⟩)
    else none
  | _ => none

/-- `set_platform_info_from_json`; what the platform's own function returns is not looked at. -/
def setPlatformInfoFromJson (mem : NewMemory) (deviceType : EDeviceType) (root : Value)
    (platformList : List Platform) : Option (Int × List Platform) := do
  let ptType ← root.text "platform_type"
  let found (l : Platform) := l.getPlatformTypeStr = ptType
  if platformList.any fun l => found l then
    let platformList ←
      updateFirst (fun l => found l) (fun l => (l.setPlatformInfo root).map (·.2)) platformList
    return (0, platformList)
  else
    match creator mem ptType deviceType with
    | none => return (-1, platformList)
    | some p =>
      let (_, p) ← p.setPlatformInfo root
      return (0, platformList ++ [p])

/-- The list after one more value of `platform_list`. -/
def loadStep (mem : NewMemory) (deviceType : EDeviceType) (platformList : List Platform)
    (val : Value) : Option (List Platform) :=
  (setPlatformInfoFromJson mem deviceType val platformList).map (·.2)

/-- `load_configuration` of a file that holds `root`, or nothing that can be parsed. -/
def loadConfiguration (mem : NewMemory) (root : Option Value) (deviceType : EDeviceType)
    (platformList : List Platform) : Option (Int × EDeviceType × List Platform) :=
  match root with
  | none => some (-1, deviceType, platformList)
  | some root => do
    let deviceTypeStr ← root.text "device_type"
    let deviceType :=
      if deviceTypeStr = ascii "PARK" then .PARK
      else if deviceTypeStr = ascii "VP" then .VP
      else if deviceTypeStr = ascii "VM" then .VM
      else deviceType
    let vals ← (← root.index "platform_list").items
    let platformList ← vals.foldlM (loadStep mem deviceType) platformList
    return (0, deviceType, platformList)

def EDeviceType.str : EDeviceType → List UInt8
  | PARK => ascii "PARK"
  | VP => ascii "VP"
  | VM => ascii "VM"

/-- `dump_configuration`: what the file holds then. A list to which nothing was appended is null. -/
def dumpConfiguration (deviceType : EDeviceType) (platformList : List Platform) : Option Value := do
  let vals ← platformList.mapM Platform.getPlatformInfoJson
  return .object [("device_type", .string deviceType.str),
    ("platform_list", if vals.isEmpty then .null else .array vals)]

end VdCamera.Park
