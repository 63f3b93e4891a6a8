import VdCamera.Dev.Light
import VdCamera.Misc.Run

/-!
# The white light

What `ve/dev/light.c` keeps for the white light, which its thread turns on and off by the time of day,
the coil and the configuration. The configuration and the time are read anew in every round, and at every
place where they are read, so that they are inputs of it. Every function gives the mutex of the white
light back.
-/

namespace VdCamera.Dev

open Misc Sys

variable {Opt : Type}

/-- `LIGHT_ID_WHITE`. -/
def LIGHT_ID_WHITE : Fin LIGHT_ID_END := ⟨3, by decide⟩

abbrev LIGHT_OFF : Int := 0

abbrev LIGHT_ON : Int := 1

/-- `WL_STATUS_OFF` and `WL_STATUS_ON`. -/
inductive WhiteStatus where
  | OFF
  | ON
  deriving DecidableEq, Repr

/-- `white_t`, and the brightness that `white_light_night` remembers. -/
structure WhiteLight where
  status : WhiteStatus := .OFF
  prevStatus : WhiteStatus := .OFF
  action : Int := LIGHT_OFF
  prevBright : UInt8 := 0

/-- `light_mng_t` with the white light. -/
structure LightSys (Opt : Type) where
  lm : LightMng Opt
  white : WhiteLight := {}

/-- What a round reads. -/
structure WhiteInput where
  detectMode : UInt8
  whiteMode : UInt8
  whiteBright : UInt8
  daytime : Bool

/-- The control that `white_light_set` makes. -/
def whiteCtrl (on : Bool) : LightCtrl where
  info i := if i = LIGHT_ID_WHITE then ⟨if on then 255 else 0, 0⟩ else ⟨0, 0⟩
  mask := (1 : UInt32) <<< 3

/-- `white_light_set`. The light does not flash, so that no clock is read for it. -/
def whiteLightSet (on : Bool) (s : LightSys Opt) : Option (LightSys Opt) :=
  (lightCtrlPut (whiteCtrl on) (fun _ => none) s.lm).map fun r => { s with lm := r.2 }

/-- `white_light_always`. -/
def whiteLightAlways (_ : WhiteInput) (s : LightSys Opt) : Option (WhiteStatus × LightSys Opt) :=
  match s.white.status with
  | .OFF => (whiteLightSet true s).map fun s => (.ON, s)
  | .ON => some (.ON, s)

/-- `white_light_night`. -/
def whiteLightNight (i : WhiteInput) (s : LightSys Opt) : Option (WhiteStatus × LightSys Opt) :=
  match s.white.status with
  | .ON => do
    let s ←
      if s.white.prevBright ≠ i.whiteBright then
        whiteLightSet true { s with white := { s.white with prevBright := i.whiteBright } }
      else some s
    if i.daytime then (whiteLightSet false s).map fun s => (.OFF, s) else some (.ON, s)
  | .OFF => if i.daytime then some (.OFF, s) else (whiteLightSet true s).map fun s => (.ON, s)

/-- `white_light_night_coil`. -/
def whiteLightNightCoil (i : WhiteInput) (s : LightSys Opt) : Option (WhiteStatus × LightSys Opt) :=
  match s.white.status with
  | .ON =>
    if s.white.action = LIGHT_OFF then
      (whiteLightSet false { s with white := { s.white with action := -1 } }).map fun s => (.OFF, s)
    else some (.ON, s)
  | .OFF =>
    if s.white.action = LIGHT_ON then
      let s := { s with white := { s.white with action := -1 } }
      if i.daytime then some (.OFF, s) else (whiteLightSet true s).map fun s => (.ON, s)
    else some (.OFF, s)

/-- `wlight_daemon_tab` and the three tables `wlight_ctrl_handle_tab`: by video the coil toggles
nothing. -/
def wlightCtrlHandle (detectMode whiteMode : UInt8) :
    Option (WhiteInput → LightSys Opt → Option (WhiteStatus × LightSys Opt)) :=
  if 3 ≤ detectMode then none
  else if whiteMode = 0 then some whiteLightNight
  else if whiteMode = 1 ∧ detectMode ≠ 0 then some whiteLightNightCoil
  else if whiteMode = 2 then some whiteLightAlways
  else none

/-- `white_light_update_status`. -/
def whiteLightUpdateStatus (next : WhiteStatus) (s : LightSys Opt) : LightSys Opt :=
  if next = s.white.status then s
  else { s with white := { s.white with prevStatus := s.white.status, status := next } }

/-- `white_light_daemon`. -/
def whiteLightDaemon (i : WhiteInput) (s : LightSys Opt) : Option (LightSys Opt) :=
  match wlightCtrlHandle i.detectMode i.whiteMode with
  | none => some s
  | some handle => (handle i s).map fun r => whiteLightUpdateStatus r.1 r.2

/-- `ve_light_ctrl_put` for other lights, `ve_cm_white_light_set`, and a round of `light_thread`: its
`light_ctrl_daemon` and its `white_light_daemon` are one step, between which no other thread comes. -/
inductive LightSysOp where
  | ctrlPut (ctrl : LightCtrl) (spares : getbit ctrl.mask LIGHT_ID_WHITE = false)
    (clock : Fin LIGHT_ID_END → Option Timespec)
  | coil (on : Bool) (runMode : Int)
  | round (clock : Option Timespec) (i : WhiteInput)

def lightSysStep (s : LightSys Opt) : LightSysOp → Option (LightSys Opt)
  | .ctrlPut ctrl _ clock => (lightCtrlPut ctrl clock s.lm).map fun r => { s with lm := r.2 }
  | .coil on runMode =>
    if runMode = 2 then
      some { s with white := { s.white with action := if on then LIGHT_ON else LIGHT_OFF } }
    else some s
  | .round clock i => do
    let lm ← lightCtrlDaemon clock s.lm
    whiteLightDaemon i { s with lm }

/-- `board_light_init`, for the drivers of the four lights. -/
def boardLightInit (red blue white green : Opt) (lm : LightMng Opt) : Option (LightMng Opt) :=
  runFrom lightStep lm [.regst 1 red, .regst 2 blue, .regst 3 white, .regst 0 green]

end VdCamera.Dev
