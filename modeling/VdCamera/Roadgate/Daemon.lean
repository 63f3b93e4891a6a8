import VdCamera.Misc.Run
import VdCamera.Roadgate.StateMachines

/-!
# The road gate daemon

`roadgate_daemon` of `roadgate.c` with the selection tables of `coil/coil.c`, `video/video.c` and
`mix/mix.c`. The configuration is read again on every tick.
-/

namespace VdCamera.Roadgate

open Misc

/-- `DETECT_MODE_*`. -/
inductive DetectMode where
  | video
  | coil
  | mix
  deriving DecidableEq, Repr

/-- `VE_MODE_*`. -/
inductive VeMode where
  | inward
  | outward
  deriving DecidableEq, Repr

/-- `ROAD_GATE_CTRL_*`. -/
inductive RgMode where
  | front
  | frontRecord
  | background
  | mix
  deriving DecidableEq, Repr

/-- What selects a machine. -/
structure Mode where
  detectMode : DetectMode
  veMode : VeMode
  rgMode : RgMode
  deriving DecidableEq, Repr

/-- The fields of `ve_cfg_t` that the daemon reads; `none` is a value from the enumeration's `END`
on. -/
structure Cfg where
  detectMode : Option DetectMode
  veMode : Option VeMode
  rgMode : Option RgMode
  deriving DecidableEq, Repr

/-- `cm_sm_tab` of `coil/coil.c:16-26`. -/
def coilTab : VeMode → RgMode → StatusHandle
  | .inward, .front => coilFrontEntrance
  | .inward, .frontRecord => coilFrontRecordEntrance
  | .inward, .background => coilCenterEntrance
  | .inward, .mix => coilMixEntrance
  | .outward, .front => coilFrontExport
  | .outward, .frontRecord => coilFrontRecordExport
  | .outward, .background => coilCenterExport
  | .outward, .mix => coilMixExport

/-- `cm_sm_tab` of `video/video.c`. -/
def videoTab : VeMode → RgMode → StatusHandle
  | .inward, .front => videoFrontEntrance
  | .inward, .frontRecord => videoFrontRecordEntrance
  | .inward, .background => videoCenterEntrance
  | .inward, .mix => videoMixEntrance
  | .outward, .front => videoFrontExport
  | .outward, .frontRecord => videoFrontRecordExport
  | .outward, .background => videoCenterExport
  | .outward, .mix => videoMixExport

/-- `mm_sm_tab` of `mix/mix.c`. -/
def mixTab : VeMode → RgMode → StatusHandle
  | .inward, .front => mixFrontEntrance
  | .inward, .frontRecord => mixFrontRecordEntrance
  | .inward, .background => mixCenterEntrance
  | .inward, .mix => mixMixEntrance
  | .outward, .front => mixFrontExport
  | .outward, .frontRecord => mixFrontRecordExport
  | .outward, .background => mixCenterExport
  | .outward, .mix => mixMixExport

/-- `rg_sm_tab` of `roadgate.c:44-48` with the table of the mode it leads to. -/
def rgSmTab (m : Mode) : StatusHandle :=
  match m.detectMode with
  | .coil => coilTab m.veMode m.rgMode
  | .video => videoTab m.veMode m.rgMode
  | .mix => mixTab m.veMode m.rgMode

/-- The machine a configuration selects; a field out of range stops the tick with an error log. -/
def Cfg.mode (cfg : Cfg) : Option Mode := do
  let detectMode ← cfg.detectMode
  let veMode ← cfg.veMode
  let rgMode ← cfg.rgMode
  return ⟨detectMode, veMode, rgMode⟩

/-- The input of a tick. -/
structure Tick where
  env : Env
  cfg : Cfg
  deriving DecidableEq, Repr

/-- The controls appended since the last tick are at the end of the list; nothing is logged yet. -/
def Gate.arrive (g : Gate) (env : Env) : Gate :=
  { g with rg := { g.rg with ctrlLs := g.rg.ctrlLs ++ env.newCtrls }, log := [] }

@[simp] theorem Gate.arrive_status (g : Gate) (env : Env) :
    (g.arrive env).rg.status = g.rg.status := rfl
@[simp] theorem Gate.arrive_prevStatus (g : Gate) (env : Env) :
    (g.arrive env).rg.prevStatus = g.rg.prevStatus := rfl
@[simp] theorem Gate.arrive_ctrlLs (g : Gate) (env : Env) :
    (g.arrive env).rg.ctrlLs = g.rg.ctrlLs ++ env.newCtrls := rfl
@[simp] theorem Gate.arrive_port (g : Gate) (env : Env) : (g.arrive env).port = g.port := rfl
@[simp] theorem Gate.arrive_log (g : Gate) (env : Env) : (g.arrive env).log = [] := rfl

/-- `roadgate_daemon` (`roadgate.c:40-73`). -/
def roadgateDaemon (g : Gate) (t : Tick) : Option Gate :=
  match t.cfg.mode with
  | none => some (g.arrive t.env)
  | some m => runMachine (rgSmTab m) t.env (g.arrive t.env)

/-- A tick of a gate that is configured for the coil front entrance. -/
def frontTick (g : Gate) (env : Env) : Option Gate :=
  runMachine coilFrontEntrance env (g.arrive env)

/-- The gate after `roadgate_ram_init` and `rg_dev_init`. -/
def gateInit : Gate := ⟨rgInit, rgDevInit, []⟩

/-! ## Inputs for runs -/

/-- A tick at time 0 with the two coils as given. -/
def envAt (inCoil safeCoil : Coil) (newCtrls : List RgCtrl) : Env :=
  ⟨inCoil, safeCoil, ⟨0, 0⟩, newCtrls⟩

def loUp : RgCtrl := ⟨.lo, .auto, .up, 0⟩

def manual (a : Action) : RgCtrl := ⟨.center, .manual, a, 0⟩

end VdCamera.Roadgate
