import VdCamera.Sys.TimeUtil

/-!
# Road gate data and ports

The gate's own data, and what a tick does to the outside.
-/

namespace VdCamera.Roadgate

open Sys

/-! ## Road gate data

`src/ve/dev/roadgate/roadgate_data.h` and `roadgate_data.c`: the enumerations, a control, the gate's
own data and the accessors the state machines use. The list of pending controls is a `List`, its
head being `ctrl_ls.next`.
-/

/-- `RG_CTRLER_*`: who sends a control. -/
inductive Ctrler where
  | lo
  | center
  deriving DecidableEq, Repr

/-- `RG_CTRL_*`: the type of a control. -/
inductive CtrlType where
  | auto
  | manual
  | other
  deriving DecidableEq, Repr

/-- `RG_ACTION_*`. -/
inductive Action where
  | dn
  | up
  | stop
  | ncSet
  | ncClr
  | noSet
  deriving DecidableEq, Repr

/-- `STATUS_*`: the states of the state machines. -/
inductive Status where
  | idle
  | centerOpen
  | centerClose
  | centerStop
  | centerNc
  | centerNcLoWait
  | centerNcCenterOpen
  | centerNcCenterClose
  | centerNcCenterStop
  | centerNo
  | loOpen
  deriving DecidableEq, Repr

/-- `rg_ctrl_t`; the timeout is in milliseconds. -/
structure RgCtrl where
  ctrler : Ctrler
  type : CtrlType
  action : Action
  timeout : Nat
  deriving DecidableEq, Repr

/-- `rg_t` without the thread's own fields. -/
structure Rg where
  status : Status
  prevStatus : Status
  ctrl : RgCtrl
  ctrlLs : List RgCtrl
  lastTime : Timeval
  deriving DecidableEq, Repr

/-- `rg_get_new_ctrl` (`roadgate_data.c:143-150`). -/
def rgGetNewCtrl (rg : Rg) : Option RgCtrl := rg.ctrlLs.head?

/-- `rg_update_curr_ctrl` (`roadgate_data.c:163-166`). -/
def rgUpdateCurrCtrl (rg : Rg) (c : RgCtrl) : Rg := { rg with ctrl := c }

/-- `rg_refresh_last_time` (`roadgate_data.c:186-190`). -/
def rgRefreshLastTime (rg : Rg) (now : Timeval) : Rg := { rg with lastTime := now }

/-- `rg_refresh_status` (`roadgate_data.c:192-200`). -/
def rgRefreshStatus (rg : Rg) (nextStatus : Status) : Rg :=
  if rg.status ≠ nextStatus then { rg with prevStatus := rg.status, status := nextStatus } else rg

@[simp] theorem rgRefreshStatus_status (rg : Rg) (st : Status) :
    (rgRefreshStatus rg st).status = st := by
  unfold rgRefreshStatus; split <;> simp_all

@[simp] theorem rgRefreshStatus_prevStatus (rg : Rg) (st : Status) :
    (rgRefreshStatus rg st).prevStatus = if rg.status = st then rg.prevStatus else rg.status := by
  unfold rgRefreshStatus; split <;> simp_all

@[simp] theorem rgRefreshStatus_ctrlLs (rg : Rg) (st : Status) :
    (rgRefreshStatus rg st).ctrlLs = rg.ctrlLs := by
  unfold rgRefreshStatus; split <;> rfl

/-- `rg_t` as `roadgate_ram_init` leaves it: a zeroed static with an empty list. -/
def rgInit : Rg where
  status := .idle
  prevStatus := .idle
  ctrl := ⟨.lo, .auto, .dn, 0⟩
  ctrlLs := []
  lastTime := ⟨0, 0⟩

/-! ## Road gate ports

`src/ve/dev/roadgate/roadgate_ports.c`. The three relays hang on the port expander PCF8574 and are
active low. What a tick does to the outside is kept in order in `Gate.log`: the bits it writes, the
readings of the safe coil, the notice it sends to the DSP and the controls it deletes. The I2C
writes succeed.
-/

/-- `RG_STOP_BIT`, `RG_DN_BIT`, `RG_UP_BIT`. -/
inductive RgBit where
  | stop
  | dn
  | up
  deriving DecidableEq, Repr

/-- The levels of the three output bits. -/
structure Pcf8574 where
  stop : Bool
  dn : Bool
  up : Bool
  deriving DecidableEq, Repr

/-- A reading of a coil: `COIL_DETECT_VEHICLE` is 0 and `COIL_DETECT_NONE` is 1, the two values
`gpio_get_filter` returns. -/
inductive Coil where
  | vehicle
  | none
  deriving DecidableEq, Repr

inductive PortOp where
  | setBit (bit : RgBit) (value : Bool)
  | readSafeCoil (value : Coil)
  | rgStatusSendtoDspUp
  | delCtrl (ctrl : RgCtrl)
  deriving DecidableEq, Repr

/-- `pcf8574_set_bit` on one of the three bits. -/
def Pcf8574.setBit (p : Pcf8574) (bit : RgBit) (value : Bool) : Pcf8574 :=
  match bit with
  | .stop => { p with stop := value }
  | .dn => { p with dn := value }
  | .up => { p with up := value }

/-- The effect of an operation on the port. -/
def Pcf8574.apply (p : Pcf8574) : PortOp → Pcf8574
  | .setBit bit value => p.setBit bit value
  | _ => p

/-- The up signal is asserted. -/
def Pcf8574.upOn (p : Pcf8574) : Bool := !p.up

/-- The down relay is asserted. -/
def Pcf8574.dnOn (p : Pcf8574) : Bool := !p.dn

/-- `rg_dev_init` (`roadgate_ports.c:102-107`). -/
def rgDevInit : Pcf8574 := ⟨true, true, true⟩

/-- What the environment shows a tick: the two coils, the clock, and the controls that
`roadgate_new_ctrl` has appended since the last tick. -/
structure Env where
  inCoil : Coil
  safeCoil : Coil
  now : Timeval
  newCtrls : List RgCtrl
  deriving DecidableEq, Repr

/-- The gate and the port; `log` is what the current tick has done so far. -/
structure Gate where
  rg : Rg
  port : Pcf8574
  log : List PortOp
  deriving DecidableEq, Repr

namespace Gate

/-- Perform one operation and record it. -/
def emit (g : Gate) (op : PortOp) : Gate := { g with port := g.port.apply op, log := g.log ++ [op] }

@[simp] theorem emit_rg (g : Gate) (op : PortOp) : (g.emit op).rg = g.rg := rfl
@[simp] theorem emit_port (g : Gate) (op : PortOp) : (g.emit op).port = g.port.apply op := rfl
@[simp] theorem emit_log (g : Gate) (op : PortOp) : (g.emit op).log = g.log ++ [op] := rfl

end Gate

@[simp] theorem Pcf8574.upOn_apply (p : Pcf8574) (op : PortOp) :
    (p.apply op).upOn = match op with | .setBit .up v => !v | _ => p.upOn := by
  cases op with
  | setBit bit v => cases bit <;> rfl
  | _ => rfl

@[simp] theorem Pcf8574.dnOn_apply (p : Pcf8574) (op : PortOp) :
    (p.apply op).dnOn = match op with | .setBit .dn v => !v | _ => p.dnOn := by
  cases op with
  | setBit bit v => cases bit <;> rfl
  | _ => rfl

/-- `rg_down` (`roadgate_ports.c:35-47`): a pulse on the down relay. -/
def rgDown (g : Gate) : Gate := (g.emit (.setBit .dn false)).emit (.setBit .dn true)

/-- `rg_set_up_signal` (`roadgate_ports.c:49-60`). -/
def rgSetUpSignal (g : Gate) : Gate := g.emit (.setBit .up false)

/-- `rg_clr_up_signal` (`roadgate_ports.c:62-66`). -/
def rgClrUpSignal (g : Gate) : Gate := g.emit (.setBit .up true)

/-- `rg_stop` (`roadgate_ports.c:68-81`): a pulse on the stop relay. -/
def rgStop (g : Gate) : Gate := (g.emit (.setBit .stop false)).emit (.setBit .stop true)

/-- `rg_down_s` (`roadgate_ports.c:93-100`). -/
def rgDownS (env : Env) (g : Gate) : Gate :=
  let g := g.emit (.readSafeCoil env.safeCoil)
  if env.safeCoil = .none then rgDown (rgClrUpSignal g) else g

/-- `rg_del_new_ctrl` (`roadgate_data.c:157-161`); the control deleted is always the first one. -/
def rgDelNewCtrl (g : Gate) (c : RgCtrl) : Gate :=
  { g.emit (.delCtrl c) with rg := { g.rg with ctrlLs := g.rg.ctrlLs.tail } }

/-- `rg_refresh_last_time` and `rg_update_curr_ctrl`, which every handler calls together. -/
def takeCtrl (env : Env) (g : Gate) (c : RgCtrl) : Gate :=
  { g with rg := rgUpdateCurrCtrl (rgRefreshLastTime g.rg env.now) c }

section Simp

variable (env : Env) (g : Gate) (c : RgCtrl)

@[simp] theorem rgDown_rg : (rgDown g).rg = g.rg := rfl
@[simp] theorem rgSetUpSignal_rg : (rgSetUpSignal g).rg = g.rg := rfl
@[simp] theorem rgClrUpSignal_rg : (rgClrUpSignal g).rg = g.rg := rfl
@[simp] theorem rgStop_rg : (rgStop g).rg = g.rg := rfl

@[simp] theorem rgDownS_rg : (rgDownS env g).rg = g.rg := by
  unfold rgDownS; dsimp only; split <;> rfl

@[simp] theorem rgDelNewCtrl_port : (rgDelNewCtrl g c).port = g.port := rfl
@[simp] theorem rgDelNewCtrl_log : (rgDelNewCtrl g c).log = g.log ++ [.delCtrl c] := rfl
@[simp] theorem rgDelNewCtrl_status : (rgDelNewCtrl g c).rg.status = g.rg.status := rfl
@[simp] theorem rgDelNewCtrl_prevStatus :
    (rgDelNewCtrl g c).rg.prevStatus = g.rg.prevStatus := rfl
@[simp] theorem rgDelNewCtrl_ctrlLs : (rgDelNewCtrl g c).rg.ctrlLs = g.rg.ctrlLs.tail := rfl

@[simp] theorem takeCtrl_port : (takeCtrl env g c).port = g.port := rfl
@[simp] theorem takeCtrl_log : (takeCtrl env g c).log = g.log := rfl
@[simp] theorem takeCtrl_status : (takeCtrl env g c).rg.status = g.rg.status := rfl
@[simp] theorem takeCtrl_prevStatus : (takeCtrl env g c).rg.prevStatus = g.rg.prevStatus := rfl
@[simp] theorem takeCtrl_ctrlLs : (takeCtrl env g c).rg.ctrlLs = g.rg.ctrlLs := rfl

@[simp] theorem rgSetUpSignal_upOn : (rgSetUpSignal g).port.upOn = true := rfl
@[simp] theorem rgClrUpSignal_upOn : (rgClrUpSignal g).port.upOn = false := rfl
@[simp] theorem rgStop_upOn : (rgStop g).port.upOn = g.port.upOn := rfl

@[simp] theorem rgDownS_upOn :
    (rgDownS env g).port.upOn = if env.safeCoil = .none then false else g.port.upOn := by
  unfold rgDownS; dsimp only; split <;> rfl

end Simp

end VdCamera.Roadgate
