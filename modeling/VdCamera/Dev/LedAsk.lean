import VdCamera.Misc.Bytes
import VdCamera.Misc.Memory
import VdCamera.Misc.Peek

/-!
# Answers of the LED cards

The functions that look for an answer in the bytes received from a serial line: `parse_ask_frm` of
`dev/led/listen.c`, `fly_led_chk_ask` and `voice_chk_ask` of `dev/led/fly_eq20131.c`. They are given as
programs that look at the memory from the start of the buffer on; `len` bytes of it were received.
-/

namespace VdCamera.Dev

open Misc

abbrev PeekByte := Peek Nat UInt8

/-- What was received, at least one byte, and what the buffer holds besides. -/
structure Received where
  bytes : List UInt8
  ne : bytes ≠ []
  rest : Nat → UInt8

/-- The memory from the start of the buffer on. -/
def Received.mem (r : Received) : Nat → UInt8 := overwrite r.rest 0 r.bytes

/-! ## The A4 card -/

/-- The start of an answer. -/
def askSof : List UInt8 := [0x55, 0xAA, 0x00, 0x00]

/-- The end of an answer. -/
def askEof : List UInt8 := [0x00, 0x00, 0x0D, 0x0A]

/-- A number of a packed structure. -/
def readNum (w i : Nat) : PeekByte Nat := do return leNat (← Peek.contents w i)

/-- The comparison in `ask_find_hdr`; it ends at the first difference. -/
def askHdrAt (flag : UInt8) (opt : Nat) (p : Nat) : PeekByte Bool := do
  if ← Peek.matchAt p askSof then
    if ← Peek.matchAt (p + 5) [flag] then
      return (← readNum 2 (p + 6)) = opt
    else return false
  else return false

/-- `ask_find_hdr`. -/
def askFindHdr (len : Nat) (flag : UInt8) (opt : Nat) : PeekByte (Option Nat) :=
  Peek.scan (askHdrAt flag opt) len 0

/-- `parse_ask_frm` from where it has found a header. -/
def parseAskAt (ask : Nat) : PeekByte Int := do
  let frmLen ← readNum 2 (ask + 18)
  let askLen ← readNum 4 (ask + 14)
  if frmLen ≠ askLen then return -1
  else if frmLen < 4 then return -1
  else if ← Peek.matchAt (ask + 20 + frmLen) askEof then
    let errno ← readNum 4 (ask + 20)
    return if errno ≠ 1 then -1 else 0
  else return -1

/-- `parse_ask_frm`. -/
def parseAskFrm (optCode : Nat) (len : Nat) : PeekByte Int := do
  match ← askFindHdr len 0 optCode with
  | none => return -1
  | some ask => parseAskAt ask

/-! ## The LED of the fly card -/

/-- `##FOK$`. -/
def okAsk : List UInt8 := [35, 35, 70, 79, 75, 36]

/-- `find_ask_frm_hdr` of at least one byte. -/
def findAskFrmHdr (size : Nat) : PeekByte (Option Nat) := Peek.findSub [35, 35] (size - 1) 0

/-- `find_ask_frm_end`. -/
def findAskFrmEnd (frm size : Nat) : PeekByte (Option Nat) := Peek.findSub [36] size frm

/-- `find_ask_frm`: the start, and the length that is put in place of `size`. -/
def findAskFrm (size : Nat) : PeekByte (Option (Nat × Nat)) := do
  match ← findAskFrmHdr size with
  | none => return none
  | some start =>
    match ← findAskFrmEnd start (size - (start + 1)) with
    | none => return none
    | some end_ => return some (start, end_ - start + 1)

/-- `fly_led_chk_ask`; `memcmp` may look at all its bytes. -/
def flyLedChkAsk (size : Nat) : PeekByte Int := do
  match ← findAskFrm size with
  | none => return -1
  | some (ask, len) =>
    let n := min okAsk.length len
    return if (← Peek.contents n ask) ≠ okAsk.take n then -1 else 0

/-! ## The voice of the fly card -/

/-- `voice_find_ask_hdr` of at least one byte. -/
def voiceFindAskHdr (len : Nat) : PeekByte (Option Nat) := Peek.findSub [0xFE, 0x99] (len - 1) 0

/-- `get_voice_485_frm_cs`. -/
def getVoice485FrmCs (buf len : Nat) : PeekByte UInt8 :=
  Peek.foldl (· ^^^ ·) 0 (List.range' buf len)

/-- `voice_find_ask_frm`. The length is sent with its high byte first; `data_len` may wrap, but the
check byte is where the length says all the same. -/
def voiceFindAskFrm (len : Nat) : PeekByte (Option Nat) := do
  match ← voiceFindAskHdr len with
  | none => return none
  | some hdr =>
    let high ← Peek.read (hdr + 2)
    let low ← Peek.read (hdr + 3)
    let l := 256 * high.toNat + low.toNat
    let cs ← getVoice485FrmCs (hdr + 1) l
    return if cs = (← Peek.read (hdr + 1 + l)) then some hdr else none

/-- `voice_chk_ask`. -/
def voiceChkAsk (len : Nat) : PeekByte Int := do
  return if (← voiceFindAskFrm len).isSome then 0 else -1

end VdCamera.Dev
