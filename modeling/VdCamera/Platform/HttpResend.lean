import VdCamera.Misc.Text
import VdCamera.Platform.ResendStore

/-!
# Records sent again over HTTP

The frame of a record (`record_http` of `ve/platform/bitcom/proto.cpp`), what is kept of it when it
could not be sent, and the frame that is made of that (`http_resend.c`). The JSON text of a record
is what the JSON writer makes of it. Texts are given without the zero at their end.
`SIZE_JPEG_BUFFER`, whose definition is not part of the sources, is a parameter.
-/

namespace VdCamera.Platform

open Misc

/-- `SABITCOM_HTTP_JSON_SIZE`. -/
def SABITCOM_HTTP_JSON_SIZE : Nat := 2048

def dashes : List UInt8 := ascii "--"

def jsonType : List UInt8 := ascii "Content-Type: application/json;charset=UTF-8\r\n"

def jpegType : List UInt8 := ascii "Content-Type: image/jpeg\r\n"

/-- The boundary made at a time in seconds. -/
def boundaryOf (sec : Nat) : List UInt8 :=
  ascii "----------COMPANYMSG" ++ fmtHex 12 (sec % 2 ^ 32)

/-- `tabitcom_http_info_t`, and the settings that `record_http` reads. -/
structure TabitcomHttpInfo where
  devId : List UInt8
  servIp : List UInt8
  port : Int
  usrAgent : List UInt8
  deriving DecidableEq, Repr

/-- The header of both frames. -/
def httpHeader (info : TabitcomHttpInfo) (boundary : List UInt8) (len : Nat) : List UInt8 :=
  ascii "POST /COMPANY/Devices/" ++ info.devId ++ ascii "/Datas HTTP/1.1\r\n" ++
    (ascii "Content-Type: multipart/form-data;boundary=" ++ boundary ++ crlf) ++
    (ascii "Content-Length: " ++ fmtInt len ++ crlf) ++
    (ascii "Host: " ++ info.servIp ++ ascii ":" ++ fmtInt info.port ++ crlf) ++
    ascii "Connection: Keep-alive\r\n" ++
    (ascii "User-Agent: " ++ info.usrAgent) ++ (crlf ++ crlf)

/-! ## The frame of a record -/

/-- What `record_http` is given: the JSON text of the record, its picture if it has one, the time
and the settings. -/
structure RecordHttp where
  json : List UInt8
  pic : Option (List UInt8)
  sec : Nat
  info : TabitcomHttpInfo

/-- What follows the header, piece by piece. -/
def RecordHttp.pieces (r : RecordHttp) : List (List UInt8) :=
  let boundary := boundaryOf r.sec
  [crlf ++ dashes ++ boundary ++ crlf ++ jsonType, r.json] ++
    (match r.pic with
    | some pic => [dashes ++ boundary ++ crlf ++ jpegType, pic, crlf]
    | none => []) ++
    [dashes ++ boundary ++ dashes]

/-- `record_http` into a buffer of `size` bytes; each piece is cut at what is left, and the header
one byte before. -/
def recordHttp (size : Nat) (r : RecordHttp) : List UInt8 :=
  let hdr := httpHeader r.info (boundaryOf r.sec) r.pieces.flatten.length
  r.pieces.foldl (fun out piece => out ++ piece.take (size - 1 - out.length))
    (hdr.take (size - 1 - 1))

/-! ## What is kept -/

/-- `http_record_get_boundary`: everything up to the line feed. -/
def httpRecordGetBoundary (record : List UInt8) (szBuf : Nat) : Option (List UInt8) := do
  let contentType ← strstr (ascii "Content-Type: ") record
  let boundary ← strstr (ascii "boundary=") contentType
  let src := boundary.drop (ascii "boundary=").length
  some ((src.takeWhile (· ≠ 10)).take szBuf)

/-- `http_record_get_json`. -/
def httpRecordGetJson (data boundary : List UInt8) (szBuf : Nat) : Option (List UInt8) := do
  let ident ← strstr jsonType data
  let src := ident.drop jsonType.length
  let srcEnd ← strstr boundary src
  let len := src.length - srcEnd.length
  if len > szBuf - 1 then none else some (src.take len)

/-- `sabitcom_http_resend_t`. -/
structure SabitcomHttpResend where
  json : List UInt8
  name : List UInt8
  pic : List UInt8
  deriving DecidableEq, Repr

/-- `tabitcom_http_get_resend_info`; the name is made of the time and a counter. -/
def tabitcomHttpGetResendInfo (sizeJpegBuffer : Nat) (http pic name : List UInt8) :
    Option SabitcomHttpResend := do
  let boundary ← httpRecordGetBoundary http 256
  let json ← httpRecordGetJson http boundary SABITCOM_HTTP_JSON_SIZE
  some { json, name, pic := pic.take sizeJpegBuffer }

/-! ## The frame that is made of it -/

/-- The text of `json_body`. -/
def jsonBody (boundary json : List UInt8) : List UInt8 :=
  dashes ++ boundary ++ crlf ++ jsonType ++ json ++ crlf ++ dashes ++ boundary

/-- The content of `image_body`. -/
def imageBody (boundary pic : List UInt8) : List UInt8 :=
  jpegType ++ pic ++ (dashes ++ boundary ++ dashes)

/-- `http_recombine` at the time `sec`; `none` when the picture or the header passes the end of its
buffer, where the function copies what it has not written. -/
def httpRecombine (szDest sec : Nat) (info : TabitcomHttpInfo) (json pic : List UInt8) :
    Option (List UInt8) :=
  let boundary := boundaryOf sec
  let jsonBody := (jsonBody boundary json).take (1024 - 1)
  let imageBody := imageBody boundary pic
  let hdr := (httpHeader info boundary (jsonBody.length + imageBody.length)).take (1024 - 1)
  if imageBody.length < 1024 * 1024 ∧ (hdr ++ jsonBody).length < szDest then
    some (hdr ++ jsonBody ++ imageBody.take (szDest - (hdr ++ jsonBody).length))
  else none

/-! ## Records kept to be sent again over HTTP

The store of `http_resend.c`, its two settings and the rounds of its thread. A function has no
result where the code reads past an array.
-/

/-- `http_resend_t`. -/
structure HttpResend where
  store : ResendStore (List UInt8)
  nrRecord : Int
  backoffPtr : Nat
  on : Bool

/-- `tabitcom_http_resend_ram_init` on a new database. -/
def tabitcomHttpResendRamInit (picDir : List UInt8) (h : picDir.length < 256) (nrRecord : Int) :
    HttpResend :=
  ⟨ResendStore.empty picDir h, nrRecord, 0, true⟩

/-- `tabitcom_http_resend_set_switch`. -/
def tabitcomHttpResendSetSwitch (on : Bool) (s : HttpResend) : HttpResend := { s with on }

/-- `tabitcom_http_resend_set_record_num`. -/
def tabitcomHttpResendSetRecordNum (nr : Int) (s : HttpResend) : HttpResend :=
  { s with nrRecord := nr }

/-- `tabitcom_http_resend_put`. -/
def tabitcomHttpResendPut (sizeJpegBuffer : Nat) (item : SabitcomHttpResend) (openOk : Bool)
    (s : HttpResend) : Option HttpResend :=
  if s.on then
    if item.pic.length ≤ sizeJpegBuffer then do
      let store ← s.store.put s.nrRecord item.name item.json item.pic openOk
      some { s with store }
    else none
  else some s

/-- A round of `http_resend_pthread` at the time `sec`. A frame that `http_recombine` makes of what
it has not written has a length, too. -/
def httpResendRound (sizeJpegBuffer sec : Nat) (info : TabitcomHttpInfo) (openOk sendOk : Bool)
    (s : HttpResend) : HttpResend :=
  if s.on then
    match s.store.select with
    | none => s
    | some item =>
      match s.store.read sizeJpegBuffer openOk item.name with
      | none => { s with store := s.store.delId item.id }
      | some pic =>
        if pic = [] then { s with store := s.store.delId item.id }
        else if httpRecombine sizeJpegBuffer sec info item.info pic = some [] then
          { s with store := (s.store.delId item.id).remove item.name }
        else if sendOk then
          { s with store := (s.store.delId item.id).remove item.name, backoffPtr := 0 }
        else { s with backoffPtr := nextBackoff s.backoffPtr }
  else s

/-- A call of one of the functions, or a round of the thread. -/
inductive HttpEvent where
  | put (item : SabitcomHttpResend) (openOk : Bool)
  | setRecordNum (nr : Int)
  | setSwitch (on : Bool)
  | round (info : TabitcomHttpInfo) (sec : Nat) (openOk sendOk : Bool)
  deriving DecidableEq, Repr

def httpStep (sizeJpegBuffer : Nat) (s : HttpResend) : HttpEvent → Option HttpResend
  | .put item openOk => tabitcomHttpResendPut sizeJpegBuffer item openOk s
  | .setRecordNum nr => some (tabitcomHttpResendSetRecordNum nr s)
  | .setSwitch on => some (tabitcomHttpResendSetSwitch on s)
  | .round info sec openOk sendOk => some (httpResendRound sizeJpegBuffer sec info openOk sendOk s)

end VdCamera.Platform
