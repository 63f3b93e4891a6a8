import VdCamera.Roadgate.Ports

/-!
# The handlers of the road gate state machines

The 24 state machines (coil, video and mix detection, four kinds of control, entrance and export)
are built from a few handler bodies that differ in their tables and in the condition under which an
open gate closes. Each body is one definition here, with those as parameters; the machines
(`Coil`, `Video`, `Mix`) apply them to the values of their source files.

A handler returns the gate after its actions and the next status; `runMachine` is what every machine
does with them.
-/

namespace VdCamera.Roadgate

open Sys

/-- `ctrl_handle_t`: what a control does and the status it leads to. -/
structure CtrlHandle where
  handle : Env → Gate → Gate
  status : Status

/-- A table of local controls, indexed by the action; `none` is a zeroed entry. -/
abbrev LoTab := Action → Option CtrlHandle

/-- A table of center controls, indexed by type and action. -/
abbrev CenterTab := CtrlType → Action → Option CtrlHandle

abbrev Handler := Env → Gate → Gate × Status

/-- `status_handle[STATUS_END]` of a machine; `none` is a NULL entry. -/
abbrev StatusHandle := Status → Option Handler

/-- The entry of the tables for a control. -/
def ctrlEntry (lo : LoTab) (center : CenterTab) (c : RgCtrl) : Option CtrlHandle :=
  match c.ctrler with
  | .lo => lo c.action
  | .center => center c.type c.action

/-- The table of a handler without local controls. -/
def noLo : LoTab := fun _ => none

/-- `timeval_is_overtime(&rg->last_time, rg->ctrl.timeout)`. -/
def overtime (env : Env) (g : Gate) : Bool :=
  timevalIsOvertime env.now g.rg.lastTime g.rg.ctrl.timeout

/-- `front_do_dummy` and its namesakes. -/
def doDummy (_env : Env) (g : Gate) : Gate := g

/-- A port function without a parameter, as a table entry. -/
def port (f : Gate → Gate) (_env : Env) (g : Gate) : Gate := f g

/-- `front_set_up_signal` of the coil entrances: raise the barrier if a vehicle is on the coil. -/
def frontSetUpSignal (env : Env) (g : Gate) : Gate :=
  if env.inCoil = .vehicle then rgSetUpSignal g else g

/-- `center_center_set_up_signal`: raise the barrier and tell the DSP. -/
def centerCenterSetUpSignal (_env : Env) (g : Gate) : Gate :=
  (rgSetUpSignal g).emit .rgStatusSendtoDspUp

/-- The body that the handlers for idle, normally closed, waiting and normally open share: with no
control pending the next status is `wait`; a control with an entry is carried out and taken over;
one without an entry leads to `miss`. The control is deleted in both cases. -/
def tableHandle (wait : Env → Gate → Status) (miss : Gate → RgCtrl → Status) (lo : LoTab)
    (center : CenterTab) : Handler := fun env g =>
  match rgGetNewCtrl g.rg with
  | none => (g, wait env g)
  | some c =>
    match ctrlEntry lo center c with
    | some h => (rgDelNewCtrl (takeCtrl env (h.handle env g) c) c, h.status)
    | none => (rgDelNewCtrl g c, miss g c)

/-- The current status. -/
def stay (g : Gate) : Status := g.rg.status

/-- `front_idle` for a control without an entry (`coil/front_entrance.c:82-98`): resume the previous
status, except for a manual `NC_CLR` after `CENTER_NC` or `CENTER_NO`. -/
def idleMiss (g : Gate) (c : RgCtrl) : Status :=
  if c.ctrler = .center ∧ c.type = .manual ∧ c.action = .ncClr ∧
      (g.rg.prevStatus = .centerNc ∨ g.rg.prevStatus = .centerNo) then g.rg.status
  else g.rg.prevStatus

/-- `front_idle` and its namesakes (`coil/front_entrance.c:30-103`). -/
def idleHandle (lo : LoTab) (center : CenterTab) : Handler :=
  tableHandle (fun _ => stay) idleMiss lo center

/-- `front_center_nc` and its namesakes (`coil/front_entrance.c:180-242`): a control without an
entry leads back to the previous status. -/
def centerNcHandle (lo : LoTab) (center : CenterTab) : Handler :=
  tableHandle (fun _ => stay) (fun g _ => g.rg.prevStatus) lo center

/-- `front_center_nc_lo_wait` (`coil/front_entrance.c:253-302`): wait until the vehicle leaves the
in-coil; a control without an entry is dropped. -/
def centerNcLoWaitHandle (center : CenterTab) : Handler :=
  tableHandle (fun env g => if env.inCoil = .none then .centerNc else stay g) (fun g _ => stay g) noLo
    center

/-- `front_center_no` (`coil/front_entrance.c:336-376`), the same in every machine: only a manual
`DN` of the center ends the normally open state. -/
def centerNoHandle : Handler :=
  tableHandle (fun _ => stay) (fun g _ => stay g) noLo fun
    | .manual, .dn => some ⟨rgDownS, .idle⟩
    | _, _ => none

/-- When an open gate is closed again. -/
inductive CloseRule where
  /-- the vehicle has left the in-coil -/
  | coilFree
  /-- the control has timed out -/
  | overtime
  /-- the control has timed out and the in-coil is free -/
  | overtimeCoilFree
  deriving DecidableEq, Repr

def CloseRule.eval (r : CloseRule) (env : Env) (g : Gate) : Bool :=
  match r with
  | .coilFree => env.inCoil == .none
  | .overtime => Roadgate.overtime env g
  | .overtimeCoilFree => env.inCoil == .none && Roadgate.overtime env g

/-- Close by the rule: clear the up signal and go to `next`; otherwise the status is `other`. -/
def closeBy (r : CloseRule) (next other : Status) (env : Env) (g : Gate) : Gate × Status :=
  if r.eval env g then (rgClrUpSignal g, next) else (g, other)

/-- A control that `front_lo_open` goes to idle for: a manual one of `jump`, or a local one. -/
def jumps (jump : List Action) (c : RgCtrl) : Bool :=
  (c.ctrler == .center && c.type == .manual && jump.contains c.action) || c.ctrler == .lo

/-- A control that `front_lo_open` does not delete. -/
def keeps (jump : List Action) (c : RgCtrl) : Bool :=
  jumps jump c ||
    (c.ctrler == .center && c.type == .manual && (c.action == .ncSet || c.action == .noSet))

/-- `front_lo_open` of the coil and mix entrances (`coil/front_entrance.c:105-150`). -/
def loOpenEntrance (jump : List Action) (r : CloseRule) : Handler := fun env g =>
  match rgGetNewCtrl g.rg with
  | none => closeBy r .idle (stay g) env g
  | some c =>
    closeBy r .idle (if jumps jump c then .idle else stay g) env
      (if keeps jump c then g else rgDelNewCtrl g c)

/-- `front_lo_open` of the exports (`coil/front_export.c:97-119`): idle at once when a control is
pending. -/
def openUntilCtrl (r : CloseRule) : Handler := fun env g =>
  match rgGetNewCtrl g.rg with
  | none => closeBy r .idle (stay g) env g
  | some _ => (g, .idle)

/-- `front_center_open` (`coil/front_entrance.c:152-168`): pending controls are not looked at. -/
def openUntilClosed (r : CloseRule) : Handler := fun env g => closeBy r .idle (stay g) env g

/-- `center_center_open` of `coil/center_entrance.c:94-117`: with a control pending, a timeout leads
to idle without clearing the up signal. -/
def centerCenterOpen : Handler := fun env g =>
  match rgGetNewCtrl g.rg with
  | none => closeBy .overtimeCoilFree .idle (stay g) env g
  | some _ => (g, if overtime env g then .idle else stay g)

/-- `front_center_close`, `front_center_stop` and their namesakes. -/
def toIdle : Handler := fun _ g => (g, .idle)

/-- The status after an open, close or stop during normal close, in the machines with a local wait
state (`coil/front_entrance.c:324-334`). -/
def backToNcOrWait (g : Gate) : Status :=
  if g.rg.prevStatus = .centerNcLoWait then .centerNcLoWait else .centerNc

/-- The same in the machines without that state. -/
def backToNc (_g : Gate) : Status := .centerNc

/-- `front_center_nc_center_close`, `front_center_nc_center_stop` and their namesakes. -/
def backHandle (back : Gate → Status) : Handler := fun _ g => (g, back g)

/-- `front_center_nc_center_open` (`coil/front_entrance.c:305-322`): back after a timeout, which
clears the up signal, or for a pending control, which does not. -/
def centerNcCenterOpenHandle (back : Gate → Status) : Handler := fun env g =>
  match rgGetNewCtrl g.rg with
  | none => closeBy .overtime (back g) (stay g) env g
  | some _ => (g, back g)

/-- `mix_center_nc_center_open` of `video/mix_entrance.c:195-205`: pending controls are not looked
at. -/
def centerNcCenterOpenUntilClosed : Handler := fun env g =>
  closeBy .overtime .centerNc (stay g) env g

/-- The `status_handle` table of an entrance machine with a local wait state: all eleven statuses.
-/
def entranceTable (idle loOpen centerOpen centerNc centerNcLoWait : Handler) : StatusHandle
  | .idle => some idle
  | .loOpen => some loOpen
  | .centerOpen => some centerOpen
  | .centerClose => some toIdle
  | .centerStop => some toIdle
  | .centerNc => some centerNc
  | .centerNcLoWait => some centerNcLoWait
  | .centerNcCenterOpen => some (centerNcCenterOpenHandle backToNcOrWait)
  | .centerNcCenterClose => some (backHandle backToNcOrWait)
  | .centerNcCenterStop => some (backHandle backToNcOrWait)
  | .centerNo => some centerNoHandle

/-- The table of a machine without the local wait state. -/
def exportTable (idle loOpen centerOpen centerNc centerNcCenterOpen : Handler) : StatusHandle
  | .idle => some idle
  | .loOpen => some loOpen
  | .centerOpen => some centerOpen
  | .centerClose => some toIdle
  | .centerStop => some toIdle
  | .centerNc => some centerNc
  | .centerNcLoWait => none
  | .centerNcCenterOpen => some centerNcCenterOpen
  | .centerNcCenterClose => some (backHandle backToNc)
  | .centerNcCenterStop => some (backHandle backToNc)
  | .centerNo => some centerNoHandle

/-- The table of a machine that only the center controls: neither the local wait state nor the
locally opened one. -/
def centerTable (idle centerOpen centerNc : Handler) : StatusHandle
  | .idle => some idle
  | .loOpen => none
  | .centerOpen => some centerOpen
  | .centerClose => some toIdle
  | .centerStop => some toIdle
  | .centerNc => some centerNc
  | .centerNcLoWait => none
  | .centerNcCenterOpen => some (centerNcCenterOpenHandle backToNc)
  | .centerNcCenterClose => some (backHandle backToNc)
  | .centerNcCenterStop => some (backHandle backToNc)
  | .centerNo => some centerNoHandle

/-- What a machine does in a tick (`coil_front_entrance`, `coil/front_entrance.c:379-404`): call the
handler of the status and refresh the status; `none` is a call through a NULL entry. -/
def runMachine (m : StatusHandle) (env : Env) (g : Gate) : Option Gate :=
  (m g.rg.status).map fun h =>
    let r := h env g
    { r.1 with rg := rgRefreshStatus r.1.rg r.2 }

end VdCamera.Roadgate
