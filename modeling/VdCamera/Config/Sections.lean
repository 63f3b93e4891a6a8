import VdCamera.Config.JsonCfg

/-!
# The sections of the configuration

The structures and the items of `global_cfg.c`, `dev_light_cfg.c`, `dev_led_cfg.c`,
`dev_audio_cfg.c`, `dev_cfg.c`, `dsp_cfg.c`, `pfm_bitcom_cfg.c` and `pfm_cfg.c`.
-/

namespace VdCamera.Config

open Misc

/-! ## `global` -/

structure GlobalCfg where
  prov : List UInt8
  city : List UInt8
  runMode : UInt8
  veMode : UInt8
  detectMode : UInt8
  rgMode : UInt8
deriving DecidableEq

def detectModeTab : EnumStr := [(0, ascii "video"), (1, ascii "coil"), (2, ascii "mix")]

def veModeTab : EnumStr := [(0, ascii "in"), (1, ascii "out")]

def rgModeTab : EnumStr :=
  [(0, ascii "front"), (1, ascii "front_record"), (2, ascii "background"), (3, ascii "mix")]

def globalCfgEntry : List (JsonCfgItem GlobalCfg) :=
  [stringItem (ascii "province") 32 (·.prov) fun v gc => { gc with prov := v },
   stringItem (ascii "city") 32 (·.city) fun v gc => { gc with city := v },
   -- an unknown name is read as coil, an unknown value is written as video
   enumItem (ascii "detect_mode") detectModeTab 3 1 (ascii "video") (·.detectMode)
     fun v gc => { gc with detectMode := v },
   enumItem (ascii "ve_mode") veModeTab 2 0 (ascii "in") (·.veMode)
     fun v gc => { gc with veMode := v },
   enumItem (ascii "road_gate_mode") rgModeTab 4 0 (ascii "front") (·.rgMode)
     fun v gc => { gc with rgMode := v }]

/-! ## `device` -/

structure LightCfg where
  whiteBright : UInt8
  whiteMode : UInt8
deriving DecidableEq

def whiteModeTab : EnumStr :=
  [(0, ascii "night_on"), (1, ascii "coil_toggle"), (2, ascii "always_on")]

def devLightCfgEntry : List (JsonCfgItem LightCfg) :=
  [boundedItem (ascii "white_bright") 100 100 100 (·.whiteBright)
     fun v lc => { lc with whiteBright := v },
   enumItem (ascii "white_mode") whiteModeTab 3 0 (ascii "night_on") (·.whiteMode)
     fun v lc => { lc with whiteMode := v }]

structure LedCfg where
  model : UInt8
  rebootHour : UInt8
  rebootWday : UInt8
  lattice : UInt8
  height : UInt8
  width : UInt8
  rebootEnable : Bool
  userContent : List UInt8
deriving DecidableEq

def ledModelTab : EnumStr :=
  [(0, ascii "degao"), (1, ascii "fly_eq20131"), (2, ascii "listen_a4")]

def devLedCfgEntry : List (JsonCfgItem LedCfg) :=
  [enumItem (ascii "model") ledModelTab 3 0 (ascii "degao") (·.model)
     fun v lc => { lc with model := v },
   boolItem (ascii "reboot_enable") (·.rebootEnable) fun v lc => { lc with rebootEnable := v },
   -- a reader takes Friday for a day that is none, a writer Saturday
   boundedItem (ascii "reboot_wday") 6 5 6 (·.rebootWday) fun v lc => { lc with rebootWday := v },
   boundedItem (ascii "reboot_hour") 23 2 2 (·.rebootHour) fun v lc => { lc with rebootHour := v },
   stringItem (ascii "user_content") 128 (·.userContent)
     fun v lc => { lc with userContent := v },
   byteItem (ascii "lattice") (·.lattice) fun v lc => { lc with lattice := v },
   byteItem (ascii "width") (·.width) fun v lc => { lc with width := v },
   byteItem (ascii "height") (·.height) fun v lc => { lc with height := v }]

structure AudioCfg where
  model : UInt8
  volume : UInt8
deriving DecidableEq

def audioModelTab : EnumStr := [(0, ascii "off"), (1, ascii "local")]

def devAudioCfgEntry : List (JsonCfgItem AudioCfg) :=
  [enumItem (ascii "model") audioModelTab 2 0 (ascii "off") (·.model)
     fun v ac => { ac with model := v },
   boundedItem (ascii "volume") 100 100 100 (·.volume) fun v ac => { ac with volume := v }]

structure DevCfg where
  light : LightCfg
  led : LedCfg
  audio : AudioCfg
deriving DecidableEq

def devCfgEntry : List (JsonCfgItem DevCfg) :=
  [sectionItem (ascii "light") devLightCfgEntry (·.light) fun v dc => { dc with light := v },
   sectionItem (ascii "led") devLedCfgEntry (·.led) fun v dc => { dc with led := v },
   sectionItem (ascii "audio") devAudioCfgEntry (·.audio) fun v dc => { dc with audio := v }]

/-! ## `dsp` -/

structure DspCfg where
  whiteListMatch : UInt8
  captureMode : UInt8
  nonMotorMode : UInt8
deriving DecidableEq

def nonMotorModeTab : EnumStr :=
  [(0, ascii "default"), (1, ascii "unlicensed"), (2, ascii "non-motor")]

def captureModeTab : EnumStr := [(0, ascii "default"), (1, ascii "realtime")]

def dspCfgEntry : List (JsonCfgItem DspCfg) :=
  [byteItem (ascii "white_list_match") (·.whiteListMatch)
     fun v dc => { dc with whiteListMatch := v },
   enumItem (ascii "non_motor_mode") nonMotorModeTab 3 0 (ascii "default") (·.nonMotorMode)
     fun v dc => { dc with nonMotorMode := v },
   enumItem (ascii "coil_capture_mode") captureModeTab 2 0 (ascii "default") (·.captureMode)
     fun v dc => { dc with captureMode := v }]

/-! ## `plateform` -/

structure PfmBitcomCfg where
  enable : Bool
  ftpEnable : Bool
  mqEnable : Bool
  httpLong : Bool
  servIp : InAddr
  upPort : UInt16
  downPort : UInt16
  id : List UInt8
deriving DecidableEq

def pfmBitcomCfgEntry : List (JsonCfgItem PfmBitcomCfg) :=
  [stringItem (ascii "id") 32 (·.id) fun v bc => { bc with id := v },
   boolItem (ascii "enable") (·.enable) fun v bc => { bc with enable := v },
   boolItem (ascii "ftp_enable") (·.ftpEnable) fun v bc => { bc with ftpEnable := v },
   boolItem (ascii "mq_enable") (·.mqEnable) fun v bc => { bc with mqEnable := v },
   addrItem (ascii "serv_ip") (ascii "192.168.9.70") (·.servIp)
     fun v bc => { bc with servIp := v },
   portItem (ascii "up_port") 8088 (·.upPort) fun v bc => { bc with upPort := v },
   portItem (ascii "down_port") 2015 (·.downPort) fun v bc => { bc with downPort := v }]

structure PfmCfg where
  resendRotate : UInt8
  bitcom : PfmBitcomCfg
deriving DecidableEq

def pfmCfgEntry : List (JsonCfgItem PfmCfg) :=
  [byteItem (ascii "resend_rotate") (·.resendRotate) fun v pc => { pc with resendRotate := v },
   sectionItem (ascii "bitcom") pfmBitcomCfgEntry (·.bitcom) fun v pc => { pc with bitcom := v }]

/-! ## The whole configuration -/

structure VeCfg where
  pfm : PfmCfg
  dsp : DspCfg
  dev : DevCfg
  global : GlobalCfg
deriving DecidableEq

def rootEntry : List (JsonCfgItem VeCfg) :=
  [sectionItem (ascii "global") globalCfgEntry (·.global) fun v vc => { vc with global := v },
   sectionItem (ascii "device") devCfgEntry (·.dev) fun v vc => { vc with dev := v },
   sectionItem (ascii "dsp") dspCfgEntry (·.dsp) fun v vc => { vc with dsp := v },
   sectionItem (ascii "plateform") pfmCfgEntry (·.pfm) fun v vc => { vc with pfm := v }]

end VdCamera.Config
