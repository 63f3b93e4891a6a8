import VdCamera.Dev.Led
import VdCamera.JsonCpp.Value

/-!
# LED lines from the down tunnel

The lines of a control frame: `led_line_json_chk`, `parse_led_v09` and `parse_led_v10` of
`ve/platform/bitcom/proto.cpp` as `pro_decode` calls them, and the way of the lines through
`tabitcom_control` to the queues of `ve/dev/led.c`. A function is `none` where an assertion of the
JSON library ends the program.
-/

namespace VdCamera.Platform

open Dev JsonCpp
open Misc (ascii)

def LED_ACTION_CLR : UInt8 := 0x01

def LED_MODE_LINE : UInt8 := 0

def LED_MODE_PAGE : UInt8 := 1

def LED_STYLE_IMMEDIATE : UInt8 := 0

def LED_STYLE_SHIFT_LEFT : UInt8 := 1

def LED_TEXT_MAX_LEN : Nat := 1024

def LED_AUDIO_MAX_LEN : Nat := 1024 * 512

def VE_DTS_TYPE_CRTL : Int32 := 1

/-- The models of `model_tab`. -/
inductive LedModel
  | FLY_EQ20131
  | DEGAO
  | LISTEN_A4

/-- `nr_line_max`. -/
def LedModel.nrLineMax : LedModel → Nat
  | .FLY_EQ20131 => 4
  | .DEGAO => 1
  | .LISTEN_A4 => 4

/-- `ve_led_get_max_line_num`. -/
def veLedGetMaxLineNum (model : LedModel) : Nat := min model.nrLineMax LED_MAX_LINES_NUM

/-- What the decoding depends on besides the frame: the model at each time that it is looked at, what
the memory of each new line held before (`none`: there is none), the conversion from UTF-8 to GBK with
`none` where it fails, and what the conversion's buffer held. -/
structure LedEnv where
  model : Nat → LedModel
  alloc : Nat → Option LedLine
  gbk : List UInt8 → Option (List UInt8)
  stack : List UInt8

/-- A member, if it is an integer. -/
def intMember (v : Value) (key : String) : Option (Option Int32) := do
  match ← v.index key with
  | .int n => return some n
  | _ => return none

/-- `led_line_json_chk` returns 0. -/
def ledLineJsonChk (line : Value) (nlinesMax : Nat) : Option Bool := do
  let some idx ← intMember line "LineNumber" | return false
  if idx.toInt ≥ nlinesMax then return false
  let some action ← intMember line "Action" | return false
  if action < 1 ∨ action > 2 then return false
  if action = 2 then return true
  let some mode ← intMember line "LedMode" | return false
  if mode < 1 ∨ mode > 2 then return false
  let some _ ← intMember line "RollingSpeed" | return false
  let .string _ ← line.index "Text" | return false
  return true

/-- A number put into a field of eight bits. -/
def toUInt8 (n : Int32) : UInt8 := UInt8.ofInt n.toInt

/-- `led_line_malloc`. -/
def ledLineMalloc (stale : LedLine) : LedLine := { stale with text := [], audio := [] }

/-- `parse_led_v09`. -/
def parseLedV09 (env : LedEnv) (jsLed : Value) : Option (Int × List LedLine) := do
  if veLedGetMaxLineNum (env.model 0) > 0 then
    match env.alloc 0 with
    | none => return (0, [])
    | some stale =>
      let action := if (← (← jsLed.index "LedAction").asInt) = 1 then LED_ACTION_DISP else LED_ACTION_CLR
      let duration ← (← jsLed.index "LedDuration").asInt
      let content ← jsLed.index "LedContent"
      let s ← if content.isNull then some (ascii " ") else content.asCString
      let gbk := (env.gbk s).getD env.stack
      return (0, [{ ledLineMalloc stale with
        idx := 0
        mode := LED_MODE_LINE
        volume := 100
        action
        duration := toUInt8 duration
        text := (Value.cut gbk).take (LED_TEXT_MAX_LEN - 1) }])
  else return (0, [])

/-- The text of a line: `strlcpy` of what the conversion makes of it. -/
def ledText (env : LedEnv) (utf8 : List UInt8) : List UInt8 :=
  (Value.cut ((env.gbk utf8).getD (ascii "Welcome"))).take (LED_TEXT_MAX_LEN - 1)

/-- The body of the loop of `parse_led_v10` for a line that was checked and has its memory. -/
def parseLedLine (env : LedEnv) (volume : Int32) (mode : UInt8) (jsline : Value) (stale : LedLine) :
    Option LedLine := do
  let idx ← (← jsline.index "LineNumber").asInt
  let line := { ledLineMalloc stale with idx := toUInt8 idx, action := 0 }
  if (← (← jsline.index "Action").asInt) = 2 then
    return { line with action := line.action ||| LED_ACTION_CLR }
  else
    let style := if (← (← jsline.index "LedMode").asInt) = 1 then LED_STYLE_IMMEDIATE
      else LED_STYLE_SHIFT_LEFT
    let duration := (← intMember jsline "Duration").getD 0
    let cover := (← intMember jsline "Cover").getD 0
    let line := { line with
      volume := toUInt8 volume
      mode
      style
      duration := toUInt8 duration
      cover := cover ≠ 0 }
    let text ← jsline.index "Text"
    let line ← if text.isNull then some line else do
      let utf8 ← text.asCString
      some { line with text := ledText env utf8, action := line.action ||| LED_ACTION_DISP }
    let audio ← jsline.index "Audio"
    if audio.isNull then return line
    else
      let s ← audio.asCString
      return { line with
        audio := s.take (LED_AUDIO_MAX_LEN - 1), action := line.action ||| LED_ACTION_AUDIO }

/-- The loop of `parse_led_v10`, `i` lines after the first. -/
def parseLedLines (env : LedEnv) (volume : Int32) (mode : UInt8) :
    Nat → List Value → Option (List LedLine)
  | _, [] => some []
  | i, jsline :: jslines => do
    let rest := parseLedLines env volume mode (i + 1) jslines
    if ← ledLineJsonChk jsline (veLedGetMaxLineNum (env.model (i + 1))) then
      match env.alloc i with
      | none => rest
      | some stale =>
        let line ← parseLedLine env volume mode jsline stale
        return line :: (← rest)
    else rest

/-- `parse_led_v10`. -/
def parseLedV10 (env : LedEnv) (jsLed : Value) : Option (Int × List LedLine) := do
  let jslines ← jsLed.index "Lines"
  if jslines.size ≠ (← (← jsLed.index "LinesNumber").asUInt).toNat then return (-1, [])
  let nlines := min (veLedGetMaxLineNum (env.model 0)) jslines.size
  if nlines = 0 then return (-1, [])
  let volume ← (← jsLed.index "Volume").asInt
  let mode := if (← (← jsLed.index "Mode").asInt) = 1 then LED_MODE_LINE else LED_MODE_PAGE
  let lines ← parseLedLines env volume mode 0 ((← jslines.items).take nlines)
  return (0, lines)

/-- What `pro_decode` makes of the member `Led`: `valid_flag` and the lines; `major` is what it has read
as the version. -/
def proDecodeLed (env : LedEnv) (major : Int32) (root : Value) : Option (Bool × List LedLine) := do
  let jsLed ← root.index "Led"
  if jsLed.isNull then return (false, [])
  let (ret, lines) ← if major < 1 then parseLedV09 env jsLed else parseLedV10 env jsLed
  return (ret = 0, lines)

/-- `led_add_lines` in a moment at which no other thread holds the mutex; `locked`:
`pthread_mutex_lock` succeeds. -/
def ledAddLines (locked : Bool) (lines : List LedLine) (led : VeLed) : Option (Int × VeLed) :=
  if led.lock then some (0, led)
  else if locked then queueLines lines 0 led
  else some (-1, led)

/-- What `tabitcom_control` does with the lines of a frame of a type. -/
def tabitcomControlLed (type : Int32) (locked valid : Bool) (lines : List LedLine) (led : VeLed) :
    Option VeLed :=
  if type = VE_DTS_TYPE_CRTL ∧ valid = true ∧ 0 < lines.length then
    (ledAddLines locked lines led).map Prod.snd
  else some led

end VdCamera.Platform
