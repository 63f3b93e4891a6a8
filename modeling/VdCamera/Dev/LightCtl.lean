import VdCamera.Misc.Run
import VdCamera.Misc.Scan
import Mathlib.Data.List.FinRange
import Mathlib.Logic.Function.Basic

/-!
# The lights of a parking space

`light_ctl.c`. Each priority has an entry in a table; the lights of the highest entry are set, and those
of them that flash have a node in the flash list. A node points into the table: it is the place of the
light there. `prioMax` is `LIGHT_PRIO_MAX`, and `LIGHT_PRIO_NULL` is 0.
-/

namespace VdCamera.Dev

open Misc

def LIGHT_PRIO_NULL : Nat := 0

abbrev LIGHT_COLOR_MAX : Nat := 4

/-- `light_ctl_t`. -/
structure LightCtl where
  id : Fin LIGHT_COLOR_MAX
  brightness : Nat
  flashInterval : Nat
  deriving DecidableEq, Repr

/-- `LIGHT_ACTION_START`, `LIGHT_ACTION_STOP` and `LIGHT_ACTION_CHANGE`. -/
inductive LightAction where
  | start
  | stop
  | change
  deriving DecidableEq, Repr

/-- `light_ctl_msg_t` without its action, which is not read in the table. -/
structure LightEntry where
  priority : Nat
  lightActionList : Fin LIGHT_COLOR_MAX → LightCtl

/-- After `memset`. -/
def LightEntry.zero : LightEntry := ⟨LIGHT_PRIO_NULL, fun _ => ⟨0, 0, 0⟩⟩

/-- A `LIGHT_CTL_TYPE_SET` message. -/
structure LightCtlMsg (prioMax : Nat) extends LightEntry where
  action : LightAction
  prio_pos : LIGHT_PRIO_NULL < priority
  prio_lt : priority < prioMax

/-- A node of `light_flash_list`, as the entry and the slot that it points to. -/
abbrev FlashNode := Nat × Fin LIGHT_COLOR_MAX

/-- `list`, `light_flash_list` and `has_light_flash`; beside them the calls of `light_set_list`. -/
structure LightTable where
  list : Nat → LightEntry := fun _ => LightEntry.zero
  flash : List FlashNode := []
  hasLightFlash : Bool := false
  calls : List (Fin LIGHT_COLOR_MAX × Nat) := []

/-- What a node points to. -/
def LightTable.light (s : LightTable) (n : FlashNode) : LightCtl := (s.list n.1).lightActionList n.2

def LightTable.call (s : LightTable) (id : Fin LIGHT_COLOR_MAX) (brightness : Nat) : LightTable :=
  { s with calls := s.calls ++ [(id, brightness)] }

/-- `insert_light_action_prio_list`, `delete_light_action_prio_list` and
`change_light_action_prio_list`. -/
def LightTable.handle {prioMax : Nat} (s : LightTable) (msg : LightCtlMsg prioMax) : LightTable :=
  { s with list := Function.update s.list msg.priority (match msg.action with
      | .start => msg.toLightEntry
      | .stop => LightEntry.zero
      | .change => msg.toLightEntry) }

/-- `select_light_action_prio_list`, as the number of the entry. -/
def LightTable.select (prioMax : Nat) (s : LightTable) : Option Nat :=
  scanDown (fun i => (s.list i).priority ≠ LIGHT_PRIO_NULL) (LIGHT_PRIO_NULL + 1) (prioMax - 1)

/-- `light_flash_start`, where there is memory for the node. -/
def LightTable.flashStart (s : LightTable) (n : FlashNode) : LightTable :=
  let p := s.light n
  if 0 < p.brightness ∧ 0 < p.flashInterval then { s with flash := s.flash ++ [n] } else s

/-- `light_flash_stop`. -/
def LightTable.flashStop (s : LightTable) : LightTable := { s with flash := [] }

/-- A round of `light_flash_thread`, which holds the mutex of the list from its first look to its
last. -/
def LightTable.flashRound (s : LightTable) : LightTable :=
  match s.flash with
  | [] => s
  | n :: rest =>
    let p := s.light n
    let s := (s.call p.id p.brightness).call p.id 0
    if rest = [] then s else { s with flash := rest ++ [n] }

/-- The rounds that the thread makes meanwhile. -/
def LightTable.flashRounds : Nat → LightTable → LightTable
  | 0, s => s
  | n + 1, s => flashRounds n s.flashRound

/-- The red, the blue and the green light are off. -/
def LightEntry.AllOff (e : LightEntry) : Prop :=
  (e.lightActionList 0).brightness ||| (e.lightActionList 1).brightness
    ||| (e.lightActionList 2).brightness = 0

instance (e : LightEntry) : Decidable e.AllOff := inferInstanceAs (Decidable (_ = _))

/-- One turn of the first loop, after `rounds` rounds of the flash thread. -/
def LightTable.turnOn (active rounds : Nat) (s : LightTable) (i : Fin LIGHT_COLOR_MAX) : LightTable :=
  let s := s.flashRounds rounds
  let p := s.light (active, i)
  if 0 < p.brightness ∧ p.flashInterval = 0 then s.call p.id p.brightness
  else if 0 < p.brightness ∧ 0 < p.flashInterval then
    { s.flashStart (active, i) with hasLightFlash := true }
  else s

/-- One turn of the second loop. -/
def LightTable.turnOff (active : Nat) (s : LightTable) (i : Fin LIGHT_COLOR_MAX) : LightTable :=
  let p := s.light (active, i)
  if p.brightness = 0 then s.call p.id p.brightness else s

/-- `put_current_light_state`. The flash thread makes `rounds 4` rounds before the list is emptied and
`rounds i` rounds before light `i` is looked at. -/
def putCurrentLightState {prioMax : Nat} (msg : LightCtlMsg prioMax) (rounds : Nat → Nat)
    (s : LightTable) : LightTable :=
  let s := s.handle msg
  match s.select prioMax with
  | none => s
  | some active =>
    if (s.list active).AllOff then s
    else
      let s := s.flashRounds (rounds LIGHT_COLOR_MAX)
      let s := if s.hasLightFlash then { s.flashStop with hasLightFlash := false } else s
      let s := (List.finRange LIGHT_COLOR_MAX).foldl (fun s i => s.turnOn active (rounds i) i) s
      (List.finRange LIGHT_COLOR_MAX).foldl (LightTable.turnOff active) s

/-- A message, or a round of the flash thread. -/
inductive LightTableOp (prioMax : Nat) where
  | set (msg : LightCtlMsg prioMax) (rounds : Nat → Nat)
  | round

def lightTableStep (prioMax : Nat) (s : LightTable) : LightTableOp prioMax → Option LightTable
  | .set msg rounds => some (putCurrentLightState msg rounds s)
  | .round => some s.flashRound

/-- The node's light flashes. -/
def LightTable.Flashes (s : LightTable) (n : FlashNode) : Prop :=
  0 < (s.light n).brightness ∧ 0 < (s.light n).flashInterval

instance (s : LightTable) (n : FlashNode) : Decidable (s.Flashes n) :=
  inferInstanceAs (Decidable (_ ∧ _))

/-- The flash list has the lights of the active entry that flash, each once. -/
def LightTable.FlashesActive (prioMax : Nat) (s : LightTable) : Prop :=
  match s.select prioMax with
  | none => s.flash = []
  | some active =>
    (∀ n ∈ s.flash, n.1 = active ∧ s.Flashes n)
    ∧ (¬ (s.list active).AllOff → ∀ i, s.Flashes (active, i) → s.flash.count (active, i) = 1)

/-- A message that leaves no active entry, or one whose colours are off, finds no node in the flash
list. -/
def LightTable.TakenDown (prioMax : Nat) (s : LightTable) : LightTableOp prioMax → Prop
  | .set msg _ =>
    match (s.handle msg).select prioMax with
    | none => s.flash = []
    | some active => ((s.handle msg).list active).AllOff → s.flash = []
  | .round => True

end VdCamera.Dev
