import VdCamera.Misc.Memory

/-!
# Frames of the Degao LED

`cvd_send` of `dev/led/degao.c` with its two buffers of 512 bytes on the stack. A write outside of
them makes the call fail; of the buffers' contents before the call nothing is known. What waits
before the bytes are sent is left out.
-/

namespace VdCamera.Dev

open Misc

def CVD_STX : UInt8 := 0x7F

def cvdXor (data : List UInt8) : UInt8 := data.foldl (· ^^^ ·) 0

def cvdSum (data : List UInt8) : UInt8 := data.foldl (· + ·) 0

/-- The loop of `cvd_esc`: `d` is counted from `dest`. -/
def cvdEscLoop (szDest : Nat) : List UInt8 → List UInt8 → Nat → Option (List UInt8 × Nat)
  | [], dest, d => some (dest, d)
  | s :: src, dest, d =>
    if d < szDest then do
      if s = CVD_STX then
        let dest ← put dest d [CVD_STX]
        let dest ← put dest (d + 1) [s]
        cvdEscLoop szDest src dest (d + 2)
      else
        let dest ← put dest d [s]
        cvdEscLoop szDest src dest (d + 1)
    else some (dest, d)

/-- `cvd_esc`, of a frame that begins with `stx`. -/
def cvdEsc (dest : List UInt8) (stx : UInt8) (src : List UInt8) : Option (List UInt8 × Int) := do
  let szDest := dest.length
  let dest ← put dest 0 [stx]
  let (dest, d) ← cvdEscLoop szDest src dest 1
  return (dest, if d = szDest then -1 else d)

/-- `cvd_send`: what is handed to `putnbyte`, if anything. -/
def cvdSend (buf txBuf : Vector UInt8 512) (addr cmd : UInt8) (data : List UInt8) :
    Option (Option (List UInt8)) := do
  let len := data.length
  if len > 512 - 4 then return none
  let buf ← put buf.toList 4 data
  let buf ← put buf 0 [CVD_STX, 0x80 + addr, UInt8.ofNat (len + 1), cmd]
  let buf ← put buf (4 + len) [cvdXor ((buf.drop 1).take (4 + len - 1))]
  let buf ← put buf (4 + len + 1) [cvdSum ((buf.drop 1).take (4 + len - 1))]
  let src := buf.take (4 + len + 2)
  let (txBuf, txLen) ← cvdEsc txBuf.toList (src.headD 0) src.tail
  if txLen > 0 then return some (txBuf.take txLen.toNat) else return none

end VdCamera.Dev
