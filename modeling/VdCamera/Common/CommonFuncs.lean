import Mathlib.Data.Int.Order.Basic
import VdCamera.Misc.Bytes
import VdCamera.Misc.Decimal

/-!
# Texts and transport

Functions of `commonfuncs.c` on lines of text and on what goes over a line. `char` is unsigned on the
target, and an `int` has 32 bits and wraps around.
-/

namespace VdCamera.Common

open Misc

/-! ## Values in a line of text

`get_value` and `get_str` of `commonfuncs.c`. A line is what stands before its terminator, and a pointer
into it what begins there; what reads on behind the terminator is `none`.
-/

def quote : UInt8 := 34

/-- A character that ends a value without quotes. -/
def endsWord (c : UInt8) : Bool := isSpace c || c = 59

section

-- `sizeof(buf)`, which is the size of a pointer.
variable (sizeofBuf : Nat)

/-- `while (isspace(*ch) && (ch++ < tmp))` from the index `i` of the line. -/
def skipSpaces : Nat → List UInt8 → List UInt8
  | _, [] => []
  | i, c :: ch =>
    if isSpace c then
      -- `ch` goes on also when the comparison fails
      if i < sizeofBuf then skipSpaces (i + 1) ch else ch
    else c :: ch

/-- The loop that copies a value without quotes. -/
def copyWord : List UInt8 → Option (List UInt8)
  | [] => none
  | c :: ch => if endsWord c then some [] else (copyWord ch).map (c :: ·)

/-- What `strchr` and `strncpy` make of what stands behind a quote; `none`: there is no other one. -/
def copyQuoted (ch : List UInt8) : Option (List UInt8) :=
  if quote ∈ ch then some (ch.takeWhile (· ≠ quote)) else none

/-- The part that the two functions have in common, from the index `i` on. The value; its length is
what is returned, and -1 for `some none`. -/
def copyValue (i : Nat) (ch : List UInt8) : Option (Option (List UInt8)) :=
  match skipSpaces sizeofBuf i ch with
  | [] => (copyWord []).map some
  | c :: ch => if c = quote then some (copyQuoted ch) else (copyWord (c :: ch)).map some

def getStr (buf : List UInt8) : Option (Option (List UInt8)) := copyValue sizeofBuf 0 buf

def getValue (buf : List UInt8) : Option (Option (List UInt8)) :=
  match buf.dropWhile (· ≠ 61) with
  | [] => some none
  | _ :: ch => copyValue sizeofBuf ((buf.takeWhile (· ≠ 61)).length + 1) ch

end

/-! ## Bytes without 0x00 and 0xFF

The transport encoding of `commonfuncs.c`. `char` is unsigned on the target, and an `int` has 32 bits
and wraps around.
-/

def SUCCESS : Int := 0

def FAILURE : Int := -2

/-- `char_256_to_254`: the low digit and the high one. -/
def char256To254 (src : UInt8) : List UInt8 := [src % 254 + 1, src / 254 + 1]

/-- `covert_256_to_254`. -/
def covert256To254 (src : List UInt8) : List UInt8 := src.flatMap char256To254

/-- `char_254_to_256`; `none` for `FAILURE`. -/
def char254To256 (low high : UInt8) : Option UInt8 :=
  if high = 0 ∨ high > 2 ∨ low = 0 ∨ low = 255 then none
  else some ((high - 1) * 254 + (low - 1))

/-- The loop of `covert_254_to_256`, with what it has written. -/
def covertPairs : List UInt8 → Int × List UInt8
  | low :: high :: src =>
    match char254To256 low high with
    | none => (FAILURE, [])
    | some value => ((covertPairs src).1, value :: (covertPairs src).2)
  | _ => (SUCCESS, [])

/-- `covert_254_to_256`. -/
def covert254To256 (src : List UInt8) : Int × List UInt8 :=
  if src.length % 2 ≠ 0 then (FAILURE, []) else covertPairs src

def vpotInt256To254 (a : Int32) : Int32 :=
  let b := a % 254 + 1
  let a := a / 254
  let b := b + ((a % 254 + 1) <<< 8)
  let a := a / 254
  let b := b + ((a % 254 + 1) <<< 16)
  let a := a / 254
  b + ((a % 254 + 1) <<< 24)

def vpotInt254To256 (b : Int32) : Int32 :=
  let a := b % 256 - 1
  let b := b >>> 8
  let a := a + (b % 256 - 1) * 254
  let b := b >>> 8
  let a := a + (b % 256 - 1) * 254 * 254
  let b := b >>> 8
  a + (b % 256 - 1) * 254 * 254 * 254

end VdCamera.Common
