import VdCamera.Dev.Light
import VdCamera.Sys.Pool

/-!
# The light manager in the memory of its entries

`ve/dev/light.c` with the pointers of its three lists and of its pool. It does what the manager with
lists of entry numbers does.
-/

namespace VdCamera.Dev

open Misc Misc.Links Sys

/-- The list heads of `light_mng_t` and the links of the entries. -/
inductive LightAddr where
  | idleLs
  | steadyLs
  | flashLs
  | free
  | link (b : Nat)
  deriving DecidableEq, Repr

/-- `list_entry(pos, light_t, link)`; a head is in no entry. -/
def lightOf : LightAddr → Option Nat
  | .link b => some b
  | _ => none

def lightLayout : PoolLayout LightAddr LIGHT_ID_END where
  free := .free
  block := .link
  block_inj _ _ _ _ heq := LightAddr.link.inj heq
  block_ne_free _ _ := nofun

variable {Opt : Type}

/-- `light_mng_t`, the links apart in one memory with those of the pool. -/
structure LinkLightMng (Opt : Type) where
  lightPo : LinkPool LightAddr
  mutex : Bool := false
  lightEntry : Nat → Light Opt
  calls : List (Opt × UInt8 × UInt8) := []
  registered : List UInt8 := []
  applied : UInt8 → Option LightInfo := fun _ => none

namespace LinkLightMng

/-- `__light_mng_init`. -/
def init (m : Links LightAddr) (entry : Nat → Light Opt) : Option (LinkLightMng Opt) := do
  let m := ((m.initHead .idleLs).initHead .steadyLs).initHead .flashLs
  return { lightPo := ← createLinkPool lightLayout m, lightEntry := entry }

def lock (lm : LinkLightMng Opt) : Option (LinkLightMng Opt) :=
  if lm.mutex then none else some { lm with mutex := true }

def unlock (lm : LinkLightMng Opt) : LinkLightMng Opt := { lm with mutex := false }

def store (b : Nat) (light : Light Opt) (lm : LinkLightMng Opt) : LinkLightMng Opt :=
  { lm with lightEntry := Function.update lm.lightEntry b light }

/-- A call of `light->opt.set`. -/
def set (b : Nat) (value : UInt8) (lm : LinkLightMng Opt) : LinkLightMng Opt :=
  let light := lm.lightEntry b
  { lm with calls := lm.calls ++ [(light.opt, light.id, value)] }

/-- A call that writes links. -/
def list (op : ListOp LightAddr) (lm : LinkLightMng Opt) : Option (LinkLightMng Opt) :=
  (listInPool op lm.lightPo).map fun lightPo => { lm with lightPo }

end LinkLightMng

/-- The rounds of a loop are one more than a list can have entries. -/
abbrev lightRounds : Nat := LIGHT_ID_END + 1

/-- `list_for_each_safe` from `pos` on, with `n` behind it; the body may move the entry at `pos`. -/
def lightForEachFrom (ls : LightAddr) (body : Nat → LinkLightMng Opt → Option (LinkLightMng Opt)) :
    Nat → LightAddr → LightAddr → LinkLightMng Opt → Option (LinkLightMng Opt)
  | 0, _, _, _ => none
  | fuel + 1, pos, n, lm =>
    if pos = ls then some lm
    else do
      let lm ← body (← lightOf pos) lm
      lightForEachFrom ls body fuel n (← lm.lightPo.links.next n) lm

def lightForEach (ls : LightAddr) (body : Nat → LinkLightMng Opt → Option (LinkLightMng Opt))
    (lm : LinkLightMng Opt) : Option (LinkLightMng Opt) := do
  let pos ← lm.lightPo.links.next ls
  lightForEachFrom ls body lightRounds pos (← lm.lightPo.links.next pos) lm

/-- The loop of `light_find_from_list`. -/
def linkLightFindFrom (lm : LinkLightMng Opt) (ls : LightAddr) (id : UInt8) :
    Nat → LightAddr → LightAddr → Option (Option Nat)
  | 0, _, _ => none
  | fuel + 1, pos, n =>
    if pos = ls then some none
    else do
      let b ← lightOf pos
      if (lm.lightEntry b).id = id then return some b
      else linkLightFindFrom lm ls id fuel n (← lm.lightPo.links.next n)

/-- `light_find_from_list`. -/
def linkLightFindFromList (lm : LinkLightMng Opt) (ls : LightAddr) (id : UInt8) :
    Option (Option Nat) := do
  let pos ← lm.lightPo.links.next ls
  linkLightFindFrom lm ls id lightRounds pos (← lm.lightPo.links.next pos)

/-- `__light_find`. -/
def linkLightFind (lm : LinkLightMng Opt) (id : UInt8) : Option (Option Nat) := do
  match ← linkLightFindFromList lm .idleLs id with
  | some b => return some b
  | none =>
    match ← linkLightFindFromList lm .steadyLs id with
    | some b => return some b
    | none => linkLightFindFromList lm .flashLs id

/-- `__light_regst`, from the entry that the pool has given on. -/
def LinkLightMng.enter (new : Nat) (id : UInt8) (opt : Opt) (lm : LinkLightMng Opt) :
    Option (LinkLightMng Opt) := do
  let lm := lm.store new { lm.lightEntry new with id, opt }
  let lm ← lm.list (.addTail (.link new) .idleLs)
  return { lm with registered := lm.registered ++ [id] }

/-- `__light_regst`. -/
def linkLightRegst (id : UInt8) (opt : Opt) (lm : LinkLightMng Opt) :
    Option (Int × LinkLightMng Opt) := do
  let lm ← lm.lock
  match ← linkLightFind lm id with
  | some _ => return (-1, lm)
  | none =>
    let (new, lightPo) ← getFromLinkPool lightLayout lm.lightPo
    match new with
    | none => return (-1, { lm with lightPo })
    | some link =>
      let lm ← LinkLightMng.enter (← lightOf link) id opt { lm with lightPo }
      return (0, lm.unlock)

/-- `light_ctrl_put_id`. -/
def linkLightCtrlPutId (id : UInt8) (info : LightInfo) (clock : Option Timespec)
    (lm : LinkLightMng Opt) : Option (Int × LinkLightMng Opt) := do
  match ← linkLightFind lm id with
  | none => return (-1, lm)
  | some b =>
    let light := { lm.lightEntry b with info }
    let lm := { lm with applied := Function.update lm.applied id (some info) }
    if info.intv = 0 then
      let lm ← (lm.store b light).list (.moveTail (.link b) .steadyLs)
      return (0, lm)
    else
      let light := { light with prevTm := clock.getD ⟨0, 0⟩, prevVal := 0 }
      let lm ← (lm.store b light).list (.moveTail (.link b) .flashLs)
      return (0, lm)

/-- The loop of `__light_ctrl_put`. -/
def linkLightCtrlPutLoop (ctrl : LightCtrl) (clock : Fin LIGHT_ID_END → Option Timespec) :
    List (Fin LIGHT_ID_END) → LinkLightMng Opt → Option (Int × LinkLightMng Opt)
  | [], lm => some (0, lm)
  | i :: is, lm =>
    if getbit ctrl.mask i then do
      let (ret, lm) ← linkLightCtrlPutId (UInt8.ofNat i) (ctrl.info i) (clock i) lm
      if ret = 0 then linkLightCtrlPutLoop ctrl clock is lm else return (-1, lm)
    else linkLightCtrlPutLoop ctrl clock is lm

/-- `__light_ctrl_put`. -/
def linkLightCtrlPut (ctrl : LightCtrl) (clock : Fin LIGHT_ID_END → Option Timespec)
    (lm : LinkLightMng Opt) : Option (Int × LinkLightMng Opt) := do
  let lm ← lm.lock
  let (ret, lm) ← linkLightCtrlPutLoop ctrl clock (List.finRange LIGHT_ID_END) lm
  return (ret, lm.unlock)

/-- What `light_ctrl_daemon` does with a light of the steady list. -/
def linkSteadyLight (b : Nat) (lm : LinkLightMng Opt) : Option (LinkLightMng Opt) :=
  (lm.set b (lm.lightEntry b).info.value).list (.moveTail (.link b) .idleLs)

/-- What `light_ctrl_daemon` does with a light of the flash list. -/
def linkFlashLight (curr : Timespec) (b : Nat) (lm : LinkLightMng Opt) : LinkLightMng Opt :=
  let light := lm.lightEntry b
  let diff := timespecDiffMsec curr light.prevTm
  if diff ≥ light.info.intv.toNat * 100 ∨ diff ≤ 0 then
    let value := if light.prevVal = 0 then light.info.value else 0
    (lm.set b value).store b { light with prevVal := value, prevTm := curr }
  else lm

/-- `light_ctrl_daemon`. -/
def linkLightCtrlDaemon (clock : Option Timespec) (lm : LinkLightMng Opt) :
    Option (LinkLightMng Opt) := do
  let lm ← lm.lock
  let lm ← lightForEach .steadyLs linkSteadyLight lm
  let lm ← lightForEach .flashLs (fun b lm => some (linkFlashLight (clock.getD ⟨0, 0⟩) b lm)) lm
  return lm.unlock

/-- What a call returns and leaves; `light_ctrl_daemon` returns 0. -/
def linkLightCall (lm : LinkLightMng Opt) : LightOp Opt → Option (Int × LinkLightMng Opt)
  | .regst id opt => linkLightRegst id opt lm
  | .ctrlPut ctrl clock => linkLightCtrlPut ctrl clock lm
  | .daemon clock => (linkLightCtrlDaemon clock lm).map fun lm => (0, lm)

def linkLightStep (lm : LinkLightMng Opt) (op : LightOp Opt) : Option (LinkLightMng Opt) :=
  (linkLightCall lm op).map Prod.snd

end VdCamera.Dev
