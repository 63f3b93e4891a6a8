import VdCamera.Roadgate.Ports
import VdCamera.Misc.Run

/-!
# From the platform to the road gate

The platform thread copies a command it has received into `gstr_bitcom_pro.roadgate`
(`tabitcom_control`), the status thread polls the flag there, reads the words and enqueues a control
(`chk_status_thread` of `ve/platform/bitcom/thread.cpp`). Nothing orders the two threads: a copy
writes its words one by one, in any order, and each access of the status thread is a step of its
own.
-/

namespace VdCamera.Roadgate

open Misc

/-- The words of `str_pab_roadgate`. -/
inductive LinkWord where
  | validFlag
  | barriergate
  | bgkeeptime
  | bgmode
  deriving DecidableEq, Repr

/-- A command with the values of `BarrierGate` and `BGMode` that there are. -/
structure GateCmd where
  barriergate : Int
  bgkeeptime : Int
  bgmode : Int
  gate_valid : 1 ≤ barriergate ∧ barriergate < 7
  mode_valid : 1 ≤ bgmode ∧ bgmode < 4
  deriving DecidableEq, Repr

/-- What the copy writes into a word. -/
def GateCmd.word (cmd : GateCmd) : LinkWord → Int
  | .validFlag => 1
  | .barriergate => cmd.barriergate
  | .bgkeeptime => cmd.bgkeeptime
  | .bgmode => cmd.bgmode

/-- `action_tab`. -/
def actionTab : Int → Option Action
  | 1 => some .up
  | 2 => some .dn
  | 3 => some .stop
  | 4 => some .noSet
  | 5 => some .ncSet
  | 6 => some .ncClr
  | _ => none

/-- `type_tab`. -/
def typeTab : Int → Option CtrlType
  | 1 => some .auto
  | 2 => some .manual
  | 3 => some .other
  | _ => none

/-- The control that is made of the words; none when one is out of its table. -/
def newCtrl (action mode keeptime : Int) : Option RgCtrl := do
  let a ← actionTab action
  let t ← typeTab mode
  some { ctrler := .center, type := t, action := a, timeout := (keeptime * 1000 % 2 ^ 32).toNat }

/-- The control that a command stands for. -/
def GateCmd.ctrl (cmd : GateCmd) : Option RgCtrl :=
  newCtrl cmd.barriergate cmd.bgmode cmd.bgkeeptime

/-- Where the status thread is, with what it has read. -/
inductive StatusPlace where
  | poll
  | clear
  | readAction
  | readMode (action : Int)
  | readTimeout (action mode : Int)
  | newCtrl (action mode keeptime : Int)
  deriving DecidableEq, Repr

/-- The words in memory and the two threads: the commands received so far, of the last one the words
still to be copied, and the controls enqueued so far. A word is fresh when it has been written since
the status thread read it last (cleared it, for the flag). -/
structure Link where
  mem : LinkWord → Int := fun _ => 0
  fresh : LinkWord → Bool := fun _ => false
  received : List GateCmd := []
  pending : List LinkWord := []
  place : StatusPlace := .poll
  enqueued : List RgCtrl := []

/-- A step of either thread. -/
inductive LinkStep where
  | receive (cmd : GateCmd)
  | copy (w : LinkWord)
  | status (allocOk : Bool)
  deriving DecidableEq, Repr

/-- The status thread takes what is in a word. -/
def Link.take (s : Link) (w : LinkWord) (place : StatusPlace) : Link :=
  { s with fresh := Function.update s.fresh w false, place }

/-- One round of `chk_status_thread`, access by access. -/
def statusStep (allocOk : Bool) (s : Link) : Link :=
  match s.place with
  | .poll => if s.mem .validFlag = 1 then { s with place := .clear } else s
  | .clear => { s with mem := Function.update s.mem .validFlag 0 }.take .validFlag .readAction
  | .readAction => s.take .barriergate (.readMode (s.mem .barriergate))
  | .readMode action => s.take .bgmode (.readTimeout action (s.mem .bgmode))
  | .readTimeout action mode => s.take .bgkeeptime (.newCtrl action mode (s.mem .bgkeeptime))
  | .newCtrl action mode keeptime =>
    let ctrl := if allocOk then newCtrl action mode keeptime else none
    { s with enqueued := s.enqueued ++ ctrl.toList, place := .poll }

/-- A step of the link. -/
def linkStep (s : Link) : LinkStep → Option Link
  | .receive cmd =>
    if s.pending = [] then
      some { s with
        received := s.received ++ [cmd]
        pending := [.validFlag, .barriergate, .bgkeeptime, .bgmode] }
    else none
  | .copy w =>
    match s.received.getLast? with
    | some cmd =>
      if w ∈ s.pending then
        some { s with
          mem := Function.update s.mem w (cmd.word w)
          fresh := Function.update s.fresh w true
          pending := s.pending.erase w }
      else none
    | none => none
  | .status allocOk => some (statusStep allocOk s)

end VdCamera.Roadgate
