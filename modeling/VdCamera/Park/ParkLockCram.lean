import VdCamera.JsonCpp.Value
import VdCamera.Misc.CString
import VdCamera.Park.PicturePath
import VdCamera.Park.PlatformThread

/-!
# Messages of the park lock's gateway

`park_lock_cram_decode_data` (src/tpi/park/src/park_lock_cram_protocal.cpp) with the handlers of
park_lock_cram.c, and the payload that `park_lock_cram_ctrl` writes. A result is `none` where the
program leaves a table or a string, or goes through a null pointer.
-/

namespace VdCamera.Park

open Misc JsonCpp

/-- What is not decided here: whether the bytes of the string that `asString` returned can still be
read when the statement that called it is over, whether the log takes a null pointer for a string, and
whether `/tmp/park_lock_cram_state.txt` can be opened. -/
structure LockEnv where
  kept : Bool
  logsNull : Bool
  opened : Bool

def lastErrorCodeStr : List String := ["0 - OK", "1 - mag err"]

def resetSrcStr : List String :=
  ["0 - 摇臂自动复位", "1 - 远程控制复位", "2 - 蓝牙控制复位", "3 - 超声检测无车复位"]

def alarmCodeStr : List String := ["0 - 报警音", "1 - 没有报警音"]

def rockerPositionStr : List String := ["", "1 - 上锁", "2 - 解锁", "3 - 异常"]

/-- What the gateway's message makes the program do: the texts that are logged and the file that is
written, the command that is sent, or the locks that are logged. -/
inductive LockResp
  | none
  | state (lastErrorCode resetSrc alarmCode rockerPosition : String) (energy file : List UInt8)
  | refreshBegin
  | refreshFinish (payload : Option (List UInt8))
  | refreshError
  | lockList (locks : List (List UInt8))
deriving DecidableEq

/-- The payload of the command that `park_lock_cram_ctrl` sends, if it sends one; that of type 1 is
written into eight bytes. -/
def parkLockCramCtrl (type : Int32) (beepTime : Int32) : Option (Option (List UInt8)) :=
  if type = 1 then
    (sprintfInto 8 (ascii "[0A:" ++ fmtPad 2 beepTime.toInt ++ ascii "]")).map some
  else if type = 2 then some (ascii "[F0:01]")
  else if type = 3 then some (ascii "[F1:01]")
  else some none

/-- `table[(unsigned int)(c - 0x30)]` -/
def tableText (table : List String) (c : UInt8) : Option String := table[(c - 0x30).toNat]?

def parkLockCramRespState (env : LockEnv) (payload : List UInt8) : Option LockResp := do
  let lastErrorCode ← charAt payload 2
  let resetSrc ← charAt payload 4
  let alarmCode ← charAt payload 5
  let rockerPosition ← charAt payload 6
  let energy ← strncpyFrom payload 7 4
  let lastErrorCode ← tableText lastErrorCodeStr lastErrorCode
  let resetSrc ← tableText resetSrcStr resetSrc
  let alarmCode ← tableText alarmCodeStr alarmCode
  let rockerPosition ← tableText rockerPositionStr rockerPosition
  if env.opened then
    return .state lastErrorCode resetSrc alarmCode rockerPosition energy payload
  else none

def parkLockCramRespRefreshFinish : Option LockResp := do
  return .refreshFinish (← parkLockCramCtrl 3 0)

/-- Where there is no `node`, or no quote behind it, the null pointer is gone through. -/
def parkLockCramRespLockList (env : LockEnv) (payload : List UInt8) : Option LockResp := do
  let p ← strstr (ascii "node") payload
  let p ← advance ((ascii "node").length + 3) p
  let _ ← strstr (ascii "'") p
  -- the quote is overwritten with a terminator
  let locks := tokens 44 (p.takeWhile (· ≠ 39))
  if locks ≠ [] ∨ env.logsNull then return .lockList locks else none

/-- What is done with a payload that can be read. -/
def parkLockCramDispatch (env : LockEnv) (payload : List UInt8) : Option LockResp :=
  if (ascii "[4").isPrefixOf payload then parkLockCramRespState env payload
  else if payload = ascii "[F0:01]" then some .refreshBegin
  else if payload = ascii "[F0:02]" then parkLockCramRespRefreshFinish
  else if payload = ascii "[F0:03]" then some .refreshError
  else if (ascii "[F1:").isPrefixOf payload then parkLockCramRespLockList env payload
  else some .none

/-- `park_lock_cram_decode_data` of a text that is parsed as `root`. -/
def parkLockCramDecodeData (env : LockEnv) (root : Option Value) : Option (Int × LockResp) :=
  match root with
  | none => some (-1, .none)
  | some root => do
    let payload ← root.text "payload"
    if env.kept then return (0, ← parkLockCramDispatch env payload) else none

end VdCamera.Park
