import Mathlib.Algebra.Ring.Int.Defs
import Mathlib.Algebra.Ring.Nat
import VdCamera.Misc.Loop
import VdCamera.Misc.Scan

/-!
# Timestamps of a PS stream

`h264_ps_adjust_timestamp` of `src/h264/h264_buffer.cpp` with the functions it calls. The buffer is
the memory from `buf` on, since the loop reads and writes timestamps behind `buf_len` as well; a
`long long` is an `Int`, its low bits and its arithmetic shifts being remainders and quotients.
-/

namespace VdCamera.H264

open Misc

/-- The memory from `buf` on. -/
abbrev Mem := Nat → UInt8

def Mem.set (m : Mem) (i : Nat) (v : UInt8) : Mem := fun j => if j = i then v else m j

/-- The comparison in `find_str_in_buf`. -/
def strAt (m : Mem) : Nat → List UInt8 → Bool
  | _, [] => true
  | p, c :: cs => m p == c && strAt m (p + 1) cs

/-- `find_str_in_buf(buf + start, len, str, len_str)` (`h264_buffer.cpp:1127-1157`): a position
relative to `start`. -/
def findStrInBuf (m : Mem) (start : Nat) (len : Int) (str : List UInt8) : Option Nat :=
  scanUp (fun i => strAt m (start + i) str) (len + 1 - str.length).toNat 0

def strPackHeader : List UInt8 := [0x00, 0x00, 0x01, 0xBA]

def strPESHeader : List UInt8 := [0x00, 0x00, 0x01, 0xE0]

/-- `h264_get_timestamp_packheader` (`h264_buffer.cpp:1159-1188`). -/
def h264GetTimestampPackheader (m : Mem) (p : Nat) : Int :=
  let ts : Nat := ((m p &&& 0x38) >>> 3).toNat
  let ts := ts * 2 ^ 2 + (m p &&& 0x03).toNat
  let ts := ts * 2 ^ 8 + (m (p + 1)).toNat
  let ts := ts * 2 ^ 5 + ((m (p + 2) &&& 0xf8) >>> 3).toNat
  let ts := ts * 2 ^ 2 + (m (p + 2) &&& 0x03).toNat
  let ts := ts * 2 ^ 8 + (m (p + 3)).toNat
  let ts := ts * 2 ^ 5 + ((m (p + 4) &&& 0xf8) >>> 3).toNat
  ts

/-- `h264_change_timestamp_packheader` (`h264_buffer.cpp:1190-1226`). -/
def h264ChangeTimestampPackheader (m : Mem) (p : Nat) (ts : Int) : Mem :=
  let m := m.set (p + 4) ((m (p + 4) &&& 0x07) + UInt8.ofInt (ts % 2 ^ 5 * 2 ^ 3))
  let ts := ts / 2 ^ 5
  let m := m.set (p + 3) (UInt8.ofInt (ts % 2 ^ 8))
  let ts := ts / 2 ^ 8
  let m := m.set (p + 2) ((m (p + 2) &&& 0xfc) + UInt8.ofInt (ts % 2 ^ 2))
  let ts := ts / 2 ^ 2
  let m := m.set (p + 2) ((m (p + 2) &&& 0x07) + UInt8.ofInt (ts % 2 ^ 5 * 2 ^ 3))
  let ts := ts / 2 ^ 5
  let m := m.set (p + 1) (UInt8.ofInt (ts % 2 ^ 8))
  let ts := ts / 2 ^ 8
  let m := m.set p ((m p &&& 0xfc) + UInt8.ofInt (ts % 2 ^ 2))
  let ts := ts / 2 ^ 2
  m.set p ((m p &&& 0xc7) + UInt8.ofInt (ts % 2 ^ 3 * 2 ^ 3))

/-- `h264_get_timestamp_PESheader` (`h264_buffer.cpp:1229-1249`). -/
def h264GetTimestampPESheader (m : Mem) (p : Nat) : Int :=
  let ts : Nat := ((m p &&& 0x0E) >>> 1).toNat
  let ts := ts * 2 ^ 8 + (m (p + 1)).toNat
  let ts := ts * 2 ^ 7 + ((m (p + 2) &&& 0xfe) >>> 1).toNat
  let ts := ts * 2 ^ 8 + (m (p + 3)).toNat
  let ts := ts * 2 ^ 7 + ((m (p + 4) &&& 0xfe) >>> 1).toNat
  ts

/-- One of the two timestamps that `h264_change_timestamp_PESheader` sets. -/
def setTimestampPES (m : Mem) (p : Nat) (ts : Int) : Mem :=
  let m := m.set (p + 4) ((m (p + 4) &&& 0x01) + UInt8.ofInt (ts % 2 ^ 7 * 2 ^ 1))
  let ts := ts / 2 ^ 7
  let m := m.set (p + 3) (UInt8.ofInt (ts % 2 ^ 8))
  let ts := ts / 2 ^ 8
  let m := m.set (p + 2) ((m (p + 2) &&& 0x01) + UInt8.ofInt (ts % 2 ^ 7 * 2 ^ 1))
  let ts := ts / 2 ^ 7
  let m := m.set (p + 1) (UInt8.ofInt (ts % 2 ^ 8))
  let ts := ts / 2 ^ 8
  m.set p ((m p &&& 0xf1) + UInt8.ofInt (ts % 2 ^ 3 * 2 ^ 1))

/-- `h264_change_timestamp_PESheader` (`h264_buffer.cpp:1251-1301`): PTS and DTS. -/
def h264ChangeTimestampPESheader (m : Mem) (p : Nat) (ts : Int) : Mem :=
  setTimestampPES (setTimestampPES m p ts) (p + 5) ts

/-- `flag_timestamp`. -/
inductive Header where
  | pack
  | PES
  deriving DecidableEq, Repr

/-- `INTERVAL_TIMESTAMP`. -/
def intervalTimestamp : Int := 3600

/-- The variables of the loop; a header position of `none` is a negative one. -/
structure PsState where
  buf : Mem
  posBuf : Nat
  posPackHeader : Option Nat
  posPackTotal : Nat
  posPESTotal : Nat
  timestampOld : Int
  flagFirstStamp : Bool
  flagTimestampOld : Header

/-- The variables before the loop (`h264_buffer.cpp:1328-1362`). -/
def psInit (buf : Mem) (timestampStart : Int) : PsState where
  buf := buf
  posBuf := 0
  posPackHeader := some 0
  posPackTotal := 0
  posPESTotal := 0
  timestampOld := if timestampStart ≠ -1 then timestampStart else 0
  flagFirstStamp := true
  flagTimestampOld := .PES

/-- The search for the next pack header, which is left out while the last one found is behind the
last PES header (`h264_buffer.cpp:1367-1382`). -/
def psFindPack (bufLen : Int) (s : PsState) : PsState :=
  if s.posPESTotal ≥ s.posPackTotal then
    match findStrInBuf s.buf s.posBuf (bufLen - s.posBuf) strPackHeader with
    | none => { s with posPackHeader := none }
    | some k => { s with posPackHeader := some k, posPackTotal := s.posBuf + k }
  else s

/-- The search for the next PES header; `none` is the break (`h264_buffer.cpp:1384-1400`). -/
def psFindPES (bufLen : Int) (s : PsState) : Option PsState :=
  match findStrInBuf s.buf s.posBuf (bufLen - s.posBuf) strPESHeader with
  | none => if s.posPackHeader = none then none else some s
  | some e => some { s with posPESTotal := s.posBuf + e }

/-- The choice of the nearer header (`h264_buffer.cpp:1402-1414`). -/
def psChoose (s : PsState) : Header × PsState :=
  if s.posPESTotal > s.posPackTotal ∧ s.posPackHeader ≠ none then
    (.pack, { s with posBuf := s.posPackTotal })
  else (.PES, { s with posBuf := s.posPESTotal })

/-- The timestamp of the header is used as it is. -/
def tsUsable (timestampStart : Int) (s : PsState) (ts : Int) : Bool :=
  (s.flagFirstStamp && timestampStart == -1) ||
    (decide (0 ≤ ts - s.timestampOld) && decide (ts - s.timestampOld ≤ intervalTimestamp * 2))

/-- The pack header branch (`h264_buffer.cpp:1421-1445`). -/
def psPack (timestampStart : Int) (s : PsState) : PsState :=
  let s := { s with posBuf := s.posBuf + 4 }
  let ts := h264GetTimestampPackheader s.buf s.posBuf
  if ts = 0 then s
  else if tsUsable timestampStart s ts then { s with flagFirstStamp := false, timestampOld := ts }
  else
    let tsSet := s.timestampOld + intervalTimestamp
    { s with buf := h264ChangeTimestampPackheader s.buf s.posBuf tsSet, timestampOld := tsSet }

/-- The PES header branch (`h264_buffer.cpp:1446-1479`). -/
def psPES (timestampStart : Int) (s : PsState) : PsState :=
  let s := { s with posBuf := s.posBuf + 9 }
  let ts := h264GetTimestampPESheader s.buf s.posBuf
  if ts = 0 then s
  else if tsUsable timestampStart s ts then { s with flagFirstStamp := false, timestampOld := ts }
  else
    let tsSet :=
      if s.flagTimestampOld = .pack then s.timestampOld else s.timestampOld + intervalTimestamp
    { s with buf := h264ChangeTimestampPESheader s.buf s.posBuf tsSet, timestampOld := tsSet }

/-- One iteration of `while(1)`; `none` is the break. -/
def psStep (bufLen timestampStart : Int) (s : PsState) : Option PsState :=
  (psFindPES bufLen (psFindPack bufLen s)).map fun s =>
    match psChoose s with
    | (.pack, s) => { psPack timestampStart s with flagTimestampOld := .pack }
    | (.PES, s) => { psPES timestampStart s with flagTimestampOld := .PES }

/-- `h264_ps_adjust_timestamp` (`h264_buffer.cpp:1310-1492`): the return value and the last
timestamp with the buffer; `none` when the fuel does not suffice for the loop. -/
def h264PsAdjustTimestamp (fuel : Nat) (buf : Mem) (bufLen timestampStart : Int) :
    Option (Int × Option Int × Mem) :=
  if bufLen ≤ 0 then some (-1, none, buf)
  else
    (loop (psStep bufLen timestampStart) fuel (psInit buf timestampStart)).map fun s =>
      (0, some s.timestampOld, s.buf)

end VdCamera.H264
