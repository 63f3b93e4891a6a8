import Mathlib.Logic.Function.Basic
import Mathlib.Tactic.Common
import Mathlib.Algebra.Order.Group.Int

/-!
# The queues of the LED screen

`ve/dev/led.c`, `dev/led/led.c`. Lines wait in one queue for each line of the screen; a thread shows
them. What the functions do between taking and giving back the mutex is one step; a call that adds
lines looks at the lock in one step and queues the lines in another.
-/

namespace VdCamera.Dev

def LED_MAX_LINES_NUM : Nat := 16

def LED_ACTION_DISP : UInt8 := 0x02

def LED_ACTION_AUDIO : UInt8 := 0x04

/-- `LED_STYLE_END`. -/
def LED_STYLE_END : UInt8 := 2

/-- `LED_MODE_END`. -/
def LED_MODE_END : UInt8 := 2

/-- `led_line_t` without the colour and the speed, which are for the drivers of the screens. -/
structure LedLine where
  idx : UInt8
  mode : UInt8
  action : UInt8
  style : UInt8
  duration : UInt8
  volume : UInt8
  cover : Bool
  text : List UInt8
  audio : List UInt8
  deriving DecidableEq, Repr

/-- `led_line_have_action`. -/
def ledLineHaveAction (line : LedLine) (action : UInt8) : Bool := line.action &&& action ≠ 0

/-- `led_line_param_chk` returns 0. -/
def ledLineParamChk (line : LedLine) : Bool :=
  !(line.idx.toNat > LED_MAX_LINES_NUM || line.style ≥ LED_STYLE_END || line.volume > 100
    || line.mode ≥ LED_MODE_END || (ledLineHaveAction line LED_ACTION_AUDIO && line.audio.isEmpty)
    || (ledLineHaveAction line LED_ACTION_DISP && line.text.isEmpty))

/-- `line_info_t`. -/
structure LineInfo where
  delay : Int := -1
  ls : List LedLine := []
  deriving DecidableEq, Repr

/-- What a tick puts out. -/
inductive LedEvent where
  /-- A line of the screen is cleared. -/
  | clear (idx : Nat)
  /-- A line's audio is handed on. -/
  | audio (line : LedLine)
  /-- The lines that were moved to the screen are shown. -/
  | refresh (lines : List LedLine)
  deriving DecidableEq, Repr

/-- `ve_led_t` without the model, and beside it what the ticks have put out. -/
structure VeLed where
  lock : Bool := false
  lines : Fin LED_MAX_LINES_NUM → LineInfo := fun _ => {}
  out : List LedEvent := []

/-- `__ve_led_set_lock`. -/
def veLedSetLock (lock : Bool) (led : VeLed) : VeLed :=
  if lock then { led with lock := true, lines := fun i => { led.lines i with delay := 0 } }
  else { led with lock := false }

/-- The loop of `__led_add_lines`, with the number of lines queued so far. The check lets one index
too many pass; `none`: a line of that index is linked into what lies behind the queues, the mutex,
and the program ends there. -/
def queueLines : List LedLine → Int → VeLed → Option (Int × VeLed)
  | [], cnt, led => some (cnt, led)
  | line :: lines, cnt, led =>
    if ledLineParamChk line then
      if h : line.idx.toNat < LED_MAX_LINES_NUM then
        let i : Fin LED_MAX_LINES_NUM := ⟨line.idx.toNat, h⟩
        queueLines lines (cnt + 1) { led with
          lines := Function.update led.lines i
            { led.lines i with ls := (led.lines i).ls ++ [line] } }
      else none
    else queueLines lines cnt led

/-- `find_curr_line`, which leaves only the line that it finds. -/
def findCurrLine (ls : List LedLine) : Option LedLine := ls.getLast?

/-- `delay` as `led_refresh_daemon` finds a line for the screen. -/
def delayNext (delay : Int) : Int :=
  if delay > 0 then delay - 1 else if delay = 0 then -1 else delay

/-- What `led_refresh_daemon` does for one line of the screen: the line that is moved to the screen,
and what becomes of the queue. -/
def refreshLine (info : LineInfo) : Option LedLine × LineInfo :=
  let delay := delayNext info.delay
  match findCurrLine info.ls with
  | none => (none, ⟨delay, []⟩)
  | some line =>
    if line.duration > 0 ∨ delay = -1 ∨ line.cover then
      let delay :=
        if ledLineHaveAction line LED_ACTION_DISP then
          if line.duration > 0 then ((line.duration.toNat : Int) + 2) * 100 else -1
        else delay
      (some line, ⟨delay, []⟩)
    else (none, ⟨delay, [line]⟩)

/-- The lines that a tick moves to the screen. -/
def VeLed.screen (led : VeLed) : List LedLine :=
  (List.finRange LED_MAX_LINES_NUM).filterMap fun i => (refreshLine (led.lines i)).1

/-- What a tick puts out for one line of the screen. -/
def lineEvents (led : VeLed) (i : Fin LED_MAX_LINES_NUM) : List LedEvent :=
  (if (led.lines i).delay = 0 then [.clear i] else [])
    ++ match (refreshLine (led.lines i)).1 with
      | some line => if ledLineHaveAction line LED_ACTION_AUDIO then [.audio line] else []
      | none => []

/-- `led_refresh_daemon`. -/
def ledRefreshDaemon (led : VeLed) : VeLed where
  lock := led.lock
  lines := fun i => (refreshLine (led.lines i)).2
  out := led.out ++ (List.finRange LED_MAX_LINES_NUM).flatMap (lineEvents led)
    ++ if led.screen.isEmpty then [] else [.refresh led.screen]

/-- The screen, and the calls of `led_add_lines` that have found the screen unlocked and have not
queued their lines. A number is the thread of the call. -/
structure LedSys where
  led : VeLed := {}
  adding : Nat → Option (List LedLine) := fun _ => none

/-- What happens between two moments at which the mutex is free. -/
inductive LedOp where
  /-- A call of `led_add_lines` looks at the lock. -/
  | check (thread : Nat) (lines : List LedLine)
  /-- It queues its lines; `locked`: `pthread_mutex_lock` succeeds. -/
  | queue (thread : Nat) (locked : Bool)
  | setLock (lock : Bool)
  | refresh

/-- `none` when the thread is not at the step or the program ends. -/
def ledStep (s : LedSys) : LedOp → Option LedSys
  | .check t lines =>
    match s.adding t with
    | some _ => none
    | none =>
      if s.led.lock then some s
      else some { s with adding := Function.update s.adding t (some lines) }
  | .queue t locked =>
    match s.adding t with
    | none => none
    | some lines =>
      let s := { s with adding := Function.update s.adding t none }
      if locked then (queueLines lines 0 s.led).map fun r => { s with led := r.2 } else some s
  | .setLock lock => some { s with led := veLedSetLock lock s.led }
  | .refresh => some { s with led := ledRefreshDaemon s.led }

/-- A tick that finds the screen locked shows nothing. -/
def Silent (s : LedSys) (op : LedOp) : Prop :=
  op = .refresh → s.led.lock = true → ∀ lines,
    .refresh lines ∉ (ledRefreshDaemon s.led).out.drop s.led.out.length

/-- A tick that finds the screen locked finds no line in a queue. -/
def NoneWaits (s : LedSys) (op : LedOp) : Prop :=
  op = .refresh → s.led.lock = true → ∀ i, (s.led.lines i).ls = []

end VdCamera.Dev
