import VdCamera.H264.Buffer
import VdCamera.Misc.Intervals

/-!
# The video of a violation

`adjust_PD_h264_time`, `get_PD_h264` and `change_h264_timestamp` of `toggle/dsp/proc_result.cpp`.
`mk_time`, `get_h264_for_record` and `h264_ps_adjust_timestamp` are parameters; a write behind the end
of an array gives `none`.
-/

namespace VdCamera.Toggle

open H264 (Seg H264SegInfo)

def MAX_CAPTURE_NUM : Nat := 4
def MAX_H264_SEG_NUM : Nat := MAX_CAPTURE_NUM + 1

/-- `VD_Time`. -/
structure VDTime where
  year : Int := 0
  mon : Int := 0
  mday : Int := 0
  hour : Int := 0
  min : Int := 0
  sec : Int := 0
  deriving DecidableEq, Repr

/-- `videoTime` of a picture. -/
structure VideoTime where
  start : VDTime := {}
  stop : VDTime := {}
  deriving DecidableEq, Repr

variable (mkTime : VDTime → Int32)

/-! ## Merging -/

/-- The variables of `adjust_PD_h264_time` with the `videoTime` of all pictures. -/
structure Adjust where
  videos : List VideoTime
  indexOld : Nat := 0
  timeStartOld : Int32 := 0
  timeEndOld : Int32 := 0

/-- The body of its loop. -/
def adjustStep (a : Adjust) (i : Nat) : Adjust :=
  let video := a.videos.getD i {}
  let start := mkTime video.start
  let stop := mkTime video.stop
  let a :=
    if 1 ≤ i ∧ start - a.timeEndOld < 2 ∧ a.timeStartOld ≤ start then
      { a with videos := (a.videos.modify a.indexOld ({ · with stop := video.stop })).set i {} }
    else { a with indexOld := i }
  { a with timeStartOld := start, timeEndOld := stop }

/-- `adjust_PD_h264_time`, of an array of any length. -/
def adjustPDH264Time (videos : List VideoTime) : List VideoTime :=
  ((List.range videos.length).foldl (adjustStep mkTime) { videos }).videos

/-! ## Getting the video -/

/-- `H264_Record_Info`. -/
structure H264RecordInfo where
  h264Seg : Nat := 0
  h264BufSeg : List Seg := List.replicate MAX_H264_SEG_NUM ⟨0, 0⟩
  secondsRecordRet : Int := 0
  deriving DecidableEq, Repr

/-- The variables of `get_PD_h264`. -/
structure GetPD where
  info : H264RecordInfo := {}
  index : Nat := 0
  hasH264 : Bool := false
  deriving DecidableEq, Repr

/-- A segment is written at `index`. -/
def GetPD.push (g : GetPD) (seg : Seg) : Option GetPD :=
  if g.index < MAX_H264_SEG_NUM then
    some { g with
      info := { g.info with h264BufSeg := g.info.h264BufSeg.set g.index seg }
      index := g.index + 1 }
  else none

/-- The segments of one call are added. -/
def GetPD.add (g : GetPD) (seg : H264SegInfo) : Option GetPD := do
  let g := { g with
    hasH264 := true
    info := { g.info with
      h264Seg := g.info.h264Seg + seg.h264Seg
      secondsRecordRet := g.info.secondsRecordRet + seg.secondsRecordRet } }
  let g ← g.push seg.seg0
  if seg.h264Seg = 2 then g.push seg.seg1 else some g

/-- The loop over the results of the calls of `get_h264_for_record`. -/
def getSegs : List (Option H264SegInfo) → GetPD → Option GetPD
  | [], g => some g
  | none :: rest, g => getSegs rest g
  | some seg :: rest, g =>
    if g.info.h264Seg + seg.h264Seg > MAX_H264_SEG_NUM then some g
    else (g.add seg).bind (getSegs rest)

/-- `change_h264_timestamp` of the segments from a starting timestamp on; `psAdjust` returns the result
and the last timestamp. -/
def changeH264Timestamp (psAdjust : Seg → Int → Int × Int) : List Seg → Int → Int
  | [], _ => 0
  | seg :: segs, timestampStart =>
    let r := psAdjust seg timestampStart
    if r.1 < 0 then -1 else changeH264Timestamp psAdjust segs r.2

/-- `get_PD_h264`: the result and the record; `get i` is the `i`-th call of `get_h264_for_record`. -/
def getPDH264 (get : Nat → Int32 → Int32 → Option H264SegInfo) (psAdjust : Seg → Int → Int × Int)
    (videos : List VideoTime) : Option (Int × H264RecordInfo) :=
  let calls := (adjustPDH264Time mkTime videos).mapIdx fun i video =>
    get i (mkTime video.start) (mkTime video.stop)
  (getSegs calls {}).map fun g =>
    if g.hasH264 then
      let ret := changeH264Timestamp psAdjust (g.info.h264BufSeg.take g.info.h264Seg) (-1)
      (if ret ≠ 0 then -1 else 0, g.info)
    else (-1, g.info)

end VdCamera.Toggle
