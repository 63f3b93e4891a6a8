import VdCamera.Sys.Pool
import VdCamera.Sys.TimeUtil
import Mathlib.Logic.Function.Basic

/-!
# The light manager

`ve/dev/light.c`. A light is an entry of the manager's pool and stands in one of three lists: those
that wait, those that are to be set once and those that flash. `Opt` is what the driver of a light
hands in (`light_opt_t`).
-/

namespace VdCamera.Dev

open Sys

/-- The lights that a control names. -/
def LIGHT_ID_END : Nat := 4

/-- `light_info_t`. -/
structure LightInfo where
  value : UInt8
  intv : UInt8
  deriving DecidableEq, Repr

/-- `light_ctrl_t`. -/
structure LightCtrl where
  info : Fin LIGHT_ID_END → LightInfo
  mask : UInt32

/-- `getbit`. -/
def getbit (n : UInt32) (b : Nat) : Bool := n &&& (1 <<< UInt32.ofNat b) ≠ 0

/-- `light_t` without its link. -/
structure Light (Opt : Type) where
  id : UInt8
  opt : Opt
  info : LightInfo
  prevTm : Timespec
  prevVal : UInt8

/-- `light_mng_t` without the state of the white light, and beside it the calls of `opt.set`, the
ids whose registration has succeeded and the last control that was applied to each id. -/
structure LightMng (Opt : Type) where
  idleLs : List Nat := []
  steadyLs : List Nat := []
  flashLs : List Nat := []
  lightPo : Pool := createPool LIGHT_ID_END
  /-- Whether the mutex is held. -/
  mutex : Bool := false
  lightEntry : Nat → Light Opt
  calls : List (Opt × UInt8 × UInt8) := []
  registered : List UInt8 := []
  applied : UInt8 → Option LightInfo := fun _ => none

variable {Opt : Type}

/-- `light_ram_init`, which leaves in the entries what is there. -/
def lightRamInit (entry : Nat → Light Opt) : LightMng Opt where
  lightEntry := entry

/-- `pthread_mutex_lock`; `none` when it waits for ever. -/
def LightMng.lock (lm : LightMng Opt) : Option (LightMng Opt) :=
  if lm.mutex then none else some { lm with mutex := true }

/-- `pthread_mutex_unlock`. -/
def LightMng.unlock (lm : LightMng Opt) : LightMng Opt := { lm with mutex := false }

/-- `list_del` of an entry that stands in one of the lists. -/
def LightMng.unlink (b : Nat) (lm : LightMng Opt) : LightMng Opt :=
  { lm with
    idleLs := lm.idleLs.erase b
    steadyLs := lm.steadyLs.erase b
    flashLs := lm.flashLs.erase b }

/-- `list_move_tail` to `idle_ls`. -/
def LightMng.moveIdle (b : Nat) (lm : LightMng Opt) : LightMng Opt :=
  { lm.unlink b with idleLs := (lm.unlink b).idleLs ++ [b] }

/-- `list_move_tail` to `steady_ls`. -/
def LightMng.moveSteady (b : Nat) (lm : LightMng Opt) : LightMng Opt :=
  { lm.unlink b with steadyLs := (lm.unlink b).steadyLs ++ [b] }

/-- `list_move_tail` to `flash_ls`. -/
def LightMng.moveFlash (b : Nat) (lm : LightMng Opt) : LightMng Opt :=
  { lm.unlink b with flashLs := (lm.unlink b).flashLs ++ [b] }

/-- Stores `light` in an entry. -/
def LightMng.store (b : Nat) (light : Light Opt) (lm : LightMng Opt) : LightMng Opt :=
  { lm with lightEntry := Function.update lm.lightEntry b light }

/-- A call of `light->opt.set`. -/
def LightMng.set (b : Nat) (value : UInt8) (lm : LightMng Opt) : LightMng Opt :=
  let light := lm.lightEntry b
  { lm with calls := lm.calls ++ [(light.opt, light.id, value)] }

/-- `light_find_from_list`. -/
def lightFindFromList (lm : LightMng Opt) (ls : List Nat) (id : UInt8) : Option Nat :=
  ls.find? fun b => (lm.lightEntry b).id = id

/-- `__light_find`. -/
def lightFind (lm : LightMng Opt) (id : UInt8) : Option Nat :=
  match lightFindFromList lm lm.idleLs id with
  | some b => some b
  | none =>
    match lightFindFromList lm lm.steadyLs id with
    | some b => some b
    | none => lightFindFromList lm lm.flashLs id

/-- The end of `__light_regst`, for the entry that the pool has given. -/
def LightMng.enter (new : Nat) (po : Pool) (id : UInt8) (opt : Opt) (lm : LightMng Opt) :
    LightMng Opt :=
  { lm with
    lightPo := po
    lightEntry := Function.update lm.lightEntry new { lm.lightEntry new with id, opt }
    idleLs := lm.idleLs ++ [new]
    registered := lm.registered ++ [id] }

/-- `__light_regst`; `none` when the mutex is not free. -/
def lightRegst (id : UInt8) (opt : Opt) (lm : LightMng Opt) : Option (Int × LightMng Opt) := do
  let lm ← lm.lock
  match lightFind lm id with
  | some _ => some (-1, lm)
  | none =>
    match getFromPool lm.lightPo with
    | none => some (-1, lm)
    | some (new, po) => some (0, (lm.enter new po id opt).unlock)

/-- `light_ctrl_put_id`; `clock` is what `clock_gettime` stores, if it succeeds. -/
def lightCtrlPutId (id : UInt8) (info : LightInfo) (clock : Option Timespec) (lm : LightMng Opt) :
    Int × LightMng Opt :=
  match lightFind lm id with
  | none => (-1, lm)
  | some b =>
    let light := { lm.lightEntry b with info }
    let lm := { lm with applied := Function.update lm.applied id (some info) }
    if info.intv = 0 then
      (0, (lm.store b light).moveSteady b)
    else
      let light := { light with prevTm := clock.getD ⟨0, 0⟩, prevVal := 0 }
      (0, (lm.store b light).moveFlash b)

/-- The loop of `__light_ctrl_put`, which ends at the first light that is not there. -/
def lightCtrlPutLoop (ctrl : LightCtrl) (clock : Fin LIGHT_ID_END → Option Timespec) :
    List (Fin LIGHT_ID_END) → LightMng Opt → Int × LightMng Opt
  | [], lm => (0, lm)
  | i :: is, lm =>
    if getbit ctrl.mask i then
      let (ret, lm) := lightCtrlPutId (UInt8.ofNat i) (ctrl.info i) (clock i) lm
      if ret = 0 then lightCtrlPutLoop ctrl clock is lm else (-1, lm)
    else lightCtrlPutLoop ctrl clock is lm

/-- `__light_ctrl_put`. -/
def lightCtrlPut (ctrl : LightCtrl) (clock : Fin LIGHT_ID_END → Option Timespec)
    (lm : LightMng Opt) : Option (Int × LightMng Opt) := do
  let lm ← lm.lock
  let (ret, lm) := lightCtrlPutLoop ctrl clock (List.finRange LIGHT_ID_END) lm
  some (ret, lm.unlock)

/-- What `light_ctrl_daemon` does with a light of the steady list. -/
def steadyLight (lm : LightMng Opt) (b : Nat) : LightMng Opt :=
  (lm.set b (lm.lightEntry b).info.value).moveIdle b

/-- What `light_ctrl_daemon` does with a light of the flash list. -/
def flashLight (curr : Timespec) (lm : LightMng Opt) (b : Nat) : LightMng Opt :=
  let light := lm.lightEntry b
  let diff := timespecDiffMsec curr light.prevTm
  if diff ≥ light.info.intv.toNat * 100 ∨ diff ≤ 0 then
    let value := if light.prevVal = 0 then light.info.value else 0
    (lm.set b value).store b { light with prevVal := value, prevTm := curr }
  else lm

/-- `light_ctrl_daemon`; `clock` is what `clock_gettime` stores, if it succeeds. -/
def lightCtrlDaemon (clock : Option Timespec) (lm : LightMng Opt) : Option (LightMng Opt) := do
  let lm ← lm.lock
  let lm := lm.steadyLs.foldl steadyLight lm
  let lm := lm.flashLs.foldl (flashLight (clock.getD ⟨0, 0⟩)) lm
  some lm.unlock

/-- A call of one of the functions. -/
inductive LightOp (Opt : Type) where
  | regst (id : UInt8) (opt : Opt)
  | ctrlPut (ctrl : LightCtrl) (clock : Fin LIGHT_ID_END → Option Timespec)
  | daemon (clock : Option Timespec)

/-- The state a call leaves behind. -/
def lightStep (lm : LightMng Opt) : LightOp Opt → Option (LightMng Opt)
  | .regst id opt => (lightRegst id opt lm).map Prod.snd
  | .ctrlPut ctrl clock => (lightCtrlPut ctrl clock lm).map Prod.snd
  | .daemon clock => lightCtrlDaemon clock lm

/-- The ids that the calls register. -/
def registrations : List (LightOp Opt) → List UInt8
  | [] => []
  | .regst id _ :: ops => id :: registrations ops
  | .ctrlPut _ _ :: ops => registrations ops
  | .daemon _ :: ops => registrations ops

/-- The entries in the three lists. -/
def LightMng.lights (lm : LightMng Opt) : List Nat := lm.idleLs ++ lm.steadyLs ++ lm.flashLs

/-- The id in an entry. -/
def LightMng.idOf (lm : LightMng Opt) (b : Nat) : UInt8 := (lm.lightEntry b).id

/-- The last control that was applied to `id` makes it flash. -/
def LightMng.Flashes (lm : LightMng Opt) (id : UInt8) : Prop :=
  ∃ info, lm.applied id = some info ∧ info.intv ≠ 0

/-- The books of the manager are right. -/
structure LightMng.Bookkept (lm : LightMng Opt) : Prop where
  mutex : lm.mutex = false
  once : ∀ id ∈ lm.registered, (lm.lights.map lm.idOf).count id = 1
  used : lm.lightPo.nrUsed = lm.registered.length
  flash : ∀ id ∈ lm.registered, id ∈ lm.flashLs.map lm.idOf ↔ lm.Flashes id

end VdCamera.Dev
