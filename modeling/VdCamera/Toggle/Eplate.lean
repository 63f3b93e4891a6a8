import Mathlib.Algebra.Ring.Int.Defs
import Mathlib.Algebra.Ring.Nat
import VdCamera.Misc.Memory
import VdCamera.Misc.Peek
import VdCamera.Misc.Run

/-!
# Electronic plates

`toggle/eplate/eplate.c`. A thread reads frames from a serial line into a buffer and counts the
plates. `mem` is the memory from the start of the buffer on; its places from 1024 on are not the
buffer's.
-/

namespace VdCamera.Toggle

open Misc

/-- `sizeof(buf)`. -/
def SZ_BUF : Nat := 1024

def SZ_EPLATE_ID : Nat := 12

/-- `sizeof(eplate_hdr_t)`. -/
def SZ_EPLATE_HDR : Nat := 8

abbrev PeekByte := Peek Nat UInt8

/-- `EPLATE_GET_FRM_LEN`. -/
def EPLATE_GET_FRM_LEN (nr : UInt8) : Nat := SZ_EPLATE_HDR + nr.toNat * SZ_EPLATE_ID + 1

/-- `eplate_find_hdr` of at least one byte. -/
def eplateFindHdr (len : Nat) : PeekByte (Option Nat) := Peek.find (· = 0x0B) (List.range len)

/-- What becomes of the sum of the address bytes. -/
def eplateCs (sum : UInt8) : UInt8 := ((sum ^^^ 0xFF) + 1) ^^^ 0xFF

/-- The loop over the six address bytes. -/
def eplateSum (hdr : Nat) : PeekByte UInt8 := Peek.foldl (· + ·) 0 (List.range' (hdr + 1) 6)

/-- `eplate_chk_frm`. -/
def eplateChkFrm (hdr len : Nat) : PeekByte Int := do
  let frmLen := EPLATE_GET_FRM_LEN (← Peek.read (hdr + 7))
  if len < frmLen then
    return -1
  else
    let cs := eplateCs (← eplateSum hdr)
    let b ← Peek.read (hdr + frmLen - 1)
    return if cs ≠ b then -1 else 0

/-- `eplate_frm_is_heartbeat`. -/
def eplateFrmIsHeartbeat (len : Nat) : PeekByte Int := do
  match ← eplateFindHdr len with
  | none => return -1
  | some hdr =>
    let cs := eplateCs (← eplateSum hdr)
    let b ← Peek.read (hdr + 7)
    return if cs ≠ b then -1 else 0

/-- `eplate_parse`: with 0 comes what `epc_cnt` grows by. -/
def eplateParse (len : Nat) : PeekByte (Int × Nat) := do
  -- `print_buf`
  let _ ← Peek.foldl (fun _ _ => ()) () (List.range len)
  match ← eplateFindHdr len with
  | none => return (-1, 0)
  | some hdr =>
    if (← eplateChkFrm hdr (len - hdr)) < 0 then
      return (-1, 0)
    else
      return (0, (← Peek.read (hdr + 7)).toNat)

/-- What a round makes of the `wp` bytes received: whether they are dropped, and the ids that are
counted. -/
structure Verdict where
  dropped : Bool
  ids : Nat
  deriving DecidableEq, Repr

/-- The three tests of `eplate_rs485_thread`, of which the last ones are left out when one holds. -/
def eplateJudge (wp : Nat) : PeekByte Verdict := do
  if (← eplateFrmIsHeartbeat wp) = 0 then
    return ⟨true, 0⟩
  else
    let (ret, ids) ← eplateParse wp
    return if ret = 0 then ⟨true, ids⟩ else ⟨decide (SZ_BUF ≤ wp), 0⟩

/-- The thread's buffer and `eplate_t`; `epc_cnt` is an `int32_t`. -/
structure Eplate where
  mem : Nat → UInt8
  wp : Nat := 0
  epcCnt : Int := 0

/-- `read` puts the bytes after the `wp` that are there. -/
def Eplate.store (ep : Eplate) (bytes : List UInt8) : Eplate :=
  { ep with
    mem := overwrite ep.mem ep.wp bytes
    wp := ep.wp + bytes.length }

/-- A round of the loop whose `read` returns the bytes. -/
def Eplate.round (ep : Eplate) (bytes : List UInt8) : Eplate :=
  let ep := ep.store bytes
  let v := (eplateJudge ep.wp).value ep.mem
  { ep with
    epcCnt := (ep.epcCnt + v.ids).bmod (2 ^ 32)
    wp := if v.dropped then 0 else ep.wp }

/-- `read` returns some bytes, and no more than it was given room for. -/
def Eplate.step (ep : Eplate) (bytes : List UInt8) : Option Eplate :=
  if bytes ≠ [] ∧ ep.wp + bytes.length ≤ SZ_BUF then some (ep.round bytes) else none

/-- The bytes that a round has received decide what becomes of them, whatever stands behind them, and
no byte behind the buffer is read. -/
def Eplate.Contained (ep : Eplate) (bytes : List UInt8) : Prop :=
  let ep := ep.store bytes
  (∀ mem : Nat → UInt8, (∀ i < ep.wp, mem i = ep.mem i) →
    (eplateJudge ep.wp).value mem = (eplateJudge ep.wp).value ep.mem)
  ∧ ∀ i ∈ (eplateJudge ep.wp).places ep.mem, i < SZ_BUF

/-- The first header byte has come with seven bytes behind it. -/
def Eplate.HeaderWhole (ep : Eplate) (bytes : List UInt8) : Prop :=
  let ep := ep.store bytes
  ∀ hdr ∈ (eplateFindHdr ep.wp).value ep.mem, hdr + 8 ≤ ep.wp

/-- A frame of the line. -/
inductive EplateFrame where
  | heartbeat (mac : List UInt8) (six : mac.length = 6)
  | data (mac : List UInt8) (six : mac.length = 6) (nr : UInt8) (ids : List UInt8)
    (idsLength : ids.length = nr.toNat * SZ_EPLATE_ID)

namespace EplateFrame

/-- The checksum is over the address, whatever ids follow. -/
def cs (mac : List UInt8) : UInt8 := eplateCs (mac.foldl (· + ·) 0)

def bytes : EplateFrame → List UInt8
  | heartbeat mac _ => 0x0B :: mac ++ [cs mac]
  | data mac _ nr ids _ => 0x0B :: mac ++ nr :: ids ++ [cs mac]

/-- The ids that the frame announces. -/
def nr : EplateFrame → Nat
  | heartbeat _ _ => 0
  | data _ _ nr _ _ => nr.toNat

/-- The number of ids is the checksum of the address. -/
def Coincides : EplateFrame → Prop
  | heartbeat _ _ => False
  | data mac _ nr _ _ => nr = cs mac

end EplateFrame

/-- The ids of the frames that lie in the first `n` bytes. -/
def idsReceived : List EplateFrame → Nat → Nat
  | [], _ => 0
  | f :: fs, n => if f.bytes.length ≤ n then f.nr + idsReceived fs (n - f.bytes.length) else 0

/-- The frame of the byte `n` of the stream, and the byte's number in it. -/
def frameAt : List EplateFrame → Nat → Option (EplateFrame × Nat)
  | [], _ => none
  | f :: fs, n => if f.bytes.length ≤ n then frameAt fs (n - f.bytes.length) else some (f, n)

/-- The thread, and how many bytes of the stream it has received. -/
structure EplateLine where
  ep : Eplate
  received : Nat := 0

/-- A read of `k` bytes of the stream. -/
def eplateLineStep (frames : List EplateFrame) (s : EplateLine) (k : Nat) : Option EplateLine :=
  let stream := (frames.map EplateFrame.bytes).flatten
  if s.received + k ≤ stream.length then
    (s.ep.step ((stream.drop s.received).take k)).map fun ep => ⟨ep, s.received + k⟩
  else none

/-- The thread has counted the ids of the frames received completely. -/
def EplateLine.Counted (frames : List EplateFrame) (s : EplateLine) : Prop :=
  s.ep.epcCnt = idsReceived frames s.received

/-- The read ends in the frame in which it begins, not before the eighth byte of it; the frame goes into
the buffer, its number of ids is not its checksum, and the counter does not overflow. -/
def EplateLine.Alone (frames : List EplateFrame) (s : EplateLine) (k : Nat) : Prop :=
  ∀ f o, frameAt frames s.received = some (f, o) →
    o + k ≤ f.bytes.length ∧ SZ_EPLATE_HDR ≤ o + k ∧ f.bytes.length ≤ SZ_BUF ∧ ¬ f.Coincides
      ∧ idsReceived frames s.received + f.nr < 2 ^ 31

end VdCamera.Toggle
