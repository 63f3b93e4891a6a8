import Mathlib.Algebra.Ring.Int.Defs
import Mathlib.Algebra.Ring.Nat
import VdCamera.Misc.Scan

/-!
# The H.264 ring

`H264Buffer` of `src/h264/h264_buffer.h` and the record lookup of `h264_buffer.cpp`. The index table
and the data are in shared memory that another processor writes; a lookup only reads them. Times are
`Int`; the pointers of the result are offsets into `buf_h264`.
-/

namespace VdCamera.H264

open Misc

/-- `H264_Index`: what the table says of a frame. -/
structure H264Index where
  bufH264Index : Nat
  bufH264IndexMax : Nat
  h264Position : Nat
  h264Len : Nat
  seconds : Int
  isIFrame : Nat
  h264Id : Int
  deriving DecidableEq, Repr

/-- The parts of `H264Buffer` and `H264_Buffer_Head` that a lookup reads. -/
structure H264Buffer where
  /-- `virtAddr_cmem` is not NULL -/
  attached : Bool
  maxIndexH264 : Nat
  lenBufH264 : Nat
  indexRecvH264 : Nat
  indexH264 : Nat → H264Index

/-- A segment of the result: `h264_buf_seg[i] - buf_h264` and `h264_buf_seg_size[i]`. -/
structure Seg where
  buf : Nat
  size : Nat
  deriving DecidableEq, Repr

/-- `H264_Seg_Info`. -/
structure H264SegInfo where
  h264Seg : Nat
  seg0 : Seg
  seg1 : Seg
  secondsRecordRet : Int
  deriving DecidableEq, Repr

namespace H264Buffer

variable (b : H264Buffer)

/-- `index_h264[0].buf_h264_index_max`. -/
def indexMax : Nat := (b.indexH264 0).bufH264IndexMax

/-- `flag_buf_continuous`. -/
def bufContinuous (flagFlushed : Bool) : Bool :=
  !flagFlushed || decide (b.indexMax ≤ b.indexRecvH264)

/-- The number of iterations of the two searches. -/
def searchLen (flagFlushed : Bool) : Nat :=
  if b.bufContinuous flagFlushed then b.indexRecvH264 else b.indexMax

/-- `index_tmp` of the two searches. -/
def indexTmp (flagFlushed : Bool) (i : Nat) : Nat :=
  if b.bufContinuous flagFlushed then i else (b.indexRecvH264 + 1 + i) % (b.indexMax + 1)

/-- The test of the two searches. -/
def atSec (flagFlushed : Bool) (sec : Int) (i : Nat) : Bool :=
  (b.indexH264 (b.indexTmp flagFlushed i)).seconds == sec

/-- `get_frame_at_sec_forward` (`h264_buffer.cpp:494-551`): the first frame of the second, from the
oldest to the newest; `none` is `index_record == -1`. -/
def getFrameAtSecForward (sec : Int) (flagFlushed : Bool) : Option Nat :=
  (scanUp (b.atSec flagFlushed sec) (b.searchLen flagFlushed) 0).map (b.indexTmp flagFlushed)

/-- `get_frame_at_sec_backward` (`h264_buffer.cpp:554-618`): the last frame of the second. -/
def getFrameAtSecBackward (sec : Int) (flagFlushed : Bool) : Option Nat :=
  (scanBlock (b.atSec flagFlushed sec) (b.searchLen flagFlushed) 0 none).map
    (b.indexTmp flagFlushed)

/-- The return value of a search and its `index_record`. -/
def foundRet : Option Nat → Int × Int
  | none => (-1, -1)
  | some i => (0, i)

/-- The same with the check of `virtAddr_cmem` in front, where `index_record` keeps its value. -/
def searchRet (indexRecord : Int) (found : Option Nat) : Int × Int :=
  if !b.attached then (-1, indexRecord) else foundRet found

/-- The slots whose second `get_frame_at_sec_forward` looks at. -/
def examinedForward (sec : Int) (flagFlushed : Bool) : List Nat :=
  (scanUpSeen (b.atSec flagFlushed sec) (b.searchLen flagFlushed) 0).map (b.indexTmp flagFlushed)

/-- The slots whose second `get_frame_at_sec_backward` looks at. -/
def examinedBackward (sec : Int) (flagFlushed : Bool) : List Nat :=
  (scanBlockSeen (b.atSec flagFlushed sec) (b.searchLen flagFlushed) 0 none).map
    (b.indexTmp flagFlushed)

/-- The seconds tried for the start, in this order. -/
def startSecs (sec : Int) : List Int := [sec, sec - 1, sec - 2, sec + 1, sec + 2]

/-- The seconds tried for the end. -/
def endSecs (sec : Int) : List Int := [sec, sec - 1, sec + 1, sec - 2, sec + 2]

/-- `get_frame_at_sec` (`h264_buffer.cpp:624-745`). -/
def getFrameAtSec (secStart secEnd : Int) (flagFlushed : Bool) : Option (Nat × Nat) := do
  let indexStart ← (startSecs secStart).findSome? fun s => b.getFrameAtSecForward s flagFlushed
  let indexEnd ← (endSecs secEnd).findSome? fun s => b.getFrameAtSecBackward s flagFlushed
  return (indexStart, indexEnd)

def isI (i : Nat) : Bool := (b.indexH264 i).isIFrame == 1

/-- `get_I_frame_by_index` (`h264_buffer.cpp:749-828`): the first I frame before the index, down to
slot 0 and, in a full ring, from the highest slot down to the one being written. -/
def getIFrameByIndex (indexStart : Nat) (flagFlushed : Bool) : Option Nat :=
  if b.bufContinuous flagFlushed then scanDown b.isI 0 indexStart
  else if indexStart < b.indexRecvH264 then
    (scanDown b.isI 0 indexStart).or (scanDown b.isI (b.indexRecvH264 + 1) b.indexMax)
  else scanDown b.isI (b.indexRecvH264 + 1) indexStart

/-- The sum of the lengths of the slots `i, …, i + n - 1`. -/
def lenCopy (i n : Nat) : Nat := ((List.range' i n).map fun j => (b.indexH264 j).h264Len).sum

/-- The detection of a ring that has been filled once (`h264_buffer.cpp:359-380`). -/
def detectFlushed (flagFlushed : Bool) : Bool :=
  if flagFlushed then true
  else
    let indexValid := if b.indexRecvH264 > 1 then b.indexRecvH264 - 1 else b.indexRecvH264 + 1
    if (b.indexH264 indexValid).bufH264Index = indexValid ∧
        (b.indexH264 indexValid).h264Id ≠ indexValid then true
    else decide (indexValid > b.indexRecvH264) &&
      decide ((b.indexH264 indexValid).bufH264Index = indexValid)

/-- The end second after the adjustment to the wanted length (`h264_buffer.cpp:382-394`). -/
def adjustEnd (secStart secEnd secondsRecord secLast : Int) : Int :=
  if secondsRecord > secEnd - secStart then
    if secStart + secondsRecord > secLast then secLast else secStart + secondsRecord
  else secEnd

/-- `index_last`, the newest finished frame. -/
def indexLast : Nat := if b.indexRecvH264 > 0 then b.indexRecvH264 - 1 else b.indexMax

/-- The segments from the slot `s` to the slot `e` (`h264_buffer.cpp:421-462`). -/
def fillSegs (info : H264SegInfo) (s e : Nat) : H264SegInfo :=
  if s ≤ e then
    { info with
      h264Seg := 1
      seg0 := ⟨(b.indexH264 s).h264Position, b.lenCopy s (e + 1 - s)⟩ }
  else
    { info with
      h264Seg := 2
      seg0 := ⟨(b.indexH264 s).h264Position, b.lenCopy s (b.indexMax + 1 - s)⟩
      seg1 := ⟨(b.indexH264 0).h264Position, b.lenCopy 0 (e + 1)⟩ }

/-- `illegal_video_seconds`, or 5 where it is out of range. -/
def secondsRecord (illegalVideoSeconds : Int) : Int :=
  if illegalVideoSeconds < 5 ∨ illegalVideoSeconds > 120 then 5 else illegalVideoSeconds

/-- `get_h264_for_record` (`h264_buffer.cpp:289-478`): the return value, the filled
`h264_record_info` and the static `flag_flushed` after the call. -/
def getH264ForRecord (info : H264SegInfo) (secStart secEnd illegalVideoSeconds : Int)
    (flagFlushed : Bool) : Int × H264SegInfo × Bool :=
  if !b.attached then (-1, info, flagFlushed)
  else if secEnd - secStart < 0 ∨ secEnd - secStart > 120 then (-1, info, flagFlushed)
  else
    let info := { info with h264Seg := 0 }
    if secStart > secEnd then (-1, info, flagFlushed)
    else if b.indexLast ≥ b.maxIndexH264 then (-1, info, flagFlushed)
    else
      let secLast := (b.indexH264 b.indexLast).seconds
      if secStart > secLast then (-1, info, flagFlushed)
      else
        let flagFlushed := b.detectFlushed flagFlushed
        let secEnd := adjustEnd secStart secEnd (secondsRecord illegalVideoSeconds) secLast
        match b.getFrameAtSec secStart secEnd flagFlushed with
        | none => (-1, info, flagFlushed)
        | some (s, e) =>
          match b.getIFrameByIndex s flagFlushed with
          | none => (-1, info, flagFlushed)
          | some s =>
            (0, { b.fillSegs info s e with secondsRecordRet := secEnd - secStart }, flagFlushed)

end H264Buffer

end VdCamera.H264
