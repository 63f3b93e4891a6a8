import VdCamera.JsonCpp.FastWriter
import VdCamera.Misc.Memory
import VdCamera.Platform.DownTunnel
import VdCamera.Platform.HttpResend

/-!
# Encoding for the bitcom platform

`respond_tcp` and `record_http` of `ve/platform/bitcom/proto.cpp`. A buffer is what it holds before the
call; a write outside of it makes the call fail. The sizes are those that `pro_encode` takes from an
`int`, so that no `ssize_t` wraps.
-/

namespace VdCamera.Platform

open Misc

/-- `snprintf` at a place of a buffer. -/
def snprintfAt (buf : List UInt8) (wp : Int) (room : Nat) (text : List UInt8) :
    Option (List UInt8) :=
  put buf wp (if room = 0 then [] else text.take (room - 1) ++ [0])

/-! ## The answer of the down tunnel -/

/-- What `respond_tcp` reads of `str_bitcom_pro`: the texts of two fields of 32 bytes. -/
structure BitcomPro where
  hdr : List UInt8
  daddr : List UInt8
  hdr_text : 0 ∉ hdr ∧ hdr.length < 32
  daddr_text : 0 ∉ daddr ∧ daddr.length < 32

def VE_DTS_TYPE_ASK : Int := 100

/-- `Json::StyledWriter` for an object of numbers, which are in the order of their names. -/
def styledWrite (members : List (String × Int)) : List UInt8 :=
  let lines := members.map fun m =>
    ascii "\n   " ++ valueToQuoted m.1 ++ ascii " : " ++ fmtInt m.2
  ascii "\x7b" ++ (lines.intersperse (ascii ",")).flatten ++ ascii "\n\x7d\n"
where
  valueToQuoted (name : String) : List UInt8 := JsonCpp.valueToQuotedString (ascii name)

/-- `ask` of `respond_tcp`. -/
def respondAsk (senseCoilState : Int32) : List UInt8 :=
  styledWrite [("desc", senseCoilState.toInt), ("ret", 1)]

/-- The text that `respond_tcp` prints of its data and its header. -/
def BitcomPro.frame (proto : BitcomPro) (ask : List UInt8) : List UInt8 :=
  let data := ask ++ [0]
  let cs := getSumChk (data.take ask.length)
  proto.hdr ++ comma :: (proto.daddr ++ comma :: (fmtInt VE_DTS_TYPE_ASK ++ comma ::
    (fmtInt (Int32.ofNat cs).toInt ++ comma :: (fmtInt ask.length ++ comma ::
      data.takeWhile (· ≠ 0)))))

/-- `respond_tcp` from where it has the text of its answer. -/
def respondTcpText (buf : List UInt8) (proto : BitcomPro) (ask : List UInt8) :
    Option (List UInt8 × Int) := do
  if ask.length + 1 > 1024 then return (buf, -1)
  let frame := proto.frame ask
  let buf' ← snprintfAt buf 0 buf.length frame
  return (buf', min (buf.length - 1) frame.length)

/-- `respond_tcp`. -/
def respondTcp (buf : List UInt8) (proto : BitcomPro) (senseCoilState : Int32) :
    Option (List UInt8 × Int) :=
  respondTcpText buf proto (respondAsk senseCoilState)

/-! ## The request for a record -/

/-- `len` of `record_http` before the header is printed. -/
def RecordHttp.contentLength (r : RecordHttp) : Nat :=
  let boundary := boundaryOf r.sec
  let jsonHdrLen := (crlf ++ dashes ++ boundary ++ crlf ++ jsonType).length
  let picHdrLen := (dashes ++ boundary ++ crlf ++ jpegType).length
  let picEndLen := crlf.length
  let eboundaryLen := (dashes ++ boundary ++ dashes).length
  jsonHdrLen + eboundaryLen + r.json.length +
    match r.pic with
    | some pic => picHdrLen + pic.length + picEndLen
    | none => 0

/-- The buffer, `wp` from its beginning, and `left`. -/
structure HttpOut where
  buf : List UInt8
  wp : Int
  left : Int

/-- The copy of one piece: `memcpy` of a negative length copies more than there is. -/
def HttpOut.copy (o : HttpOut) (piece : List UInt8) : Option HttpOut := do
  let len := min o.left piece.length
  if len < 0 then none
  let buf ← put o.buf o.wp (piece.take len.toNat)
  return { buf, wp := o.wp + len, left := o.left - len }

/-- `record_http` with its buffer: what the buffer holds then, and the length that is returned. -/
def recordHttpInto (buf : List UInt8) (r : RecordHttp) : Option (List UInt8 × Int) := do
  let size : Int := buf.length
  -- a byte remains for the terminator
  let left := size - 1
  let header := httpHeader r.info (boundaryOf r.sec) r.contentLength
  let room := if 0 ≤ left then left.toNat else (left + 2 ^ 32).toNat
  let buf ← snprintfAt buf 0 room header
  let len := min (header.length : Int) (left - 1)
  let o ← r.pieces.foldlM HttpOut.copy { buf, wp := len, left := left - len }
  let buf ← put o.buf o.wp [0]
  return (buf, size - o.left)

end VdCamera.Platform
