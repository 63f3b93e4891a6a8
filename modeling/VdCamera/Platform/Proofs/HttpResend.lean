import VdCamera.Platform.HttpResend

/-!
# What is sent again is no multipart request

The frame of a record is a multipart request, the frame that `http_recombine` makes is not: the
boundary between its two parts is not at the end of a line. The two ends of the frames are compared
from behind.
-/

namespace VdCamera.Platform

open Misc

/-- The body of a multipart request with a JSON text and a picture. Before a boundary there may be a
line end or not. -/
def multipartBody (boundary pre json sep₁ pic sep₂ : List UInt8) : List UInt8 :=
  pre ++ (dashes ++ boundary ++ crlf ++ jsonType ++ json) ++
    (sep₁ ++ dashes ++ boundary ++ crlf ++ jpegType ++ pic) ++ (sep₂ ++ dashes ++ boundary ++ dashes)

/-- The frame is a multipart request with this boundary, JSON text and picture: a header that names
the boundary and the length of the body, an empty line and the body. -/
def IsMultipart (boundary frame json pic : List UInt8) : Prop :=
  ∃ head pre sep₁ sep₂, (pre = [] ∨ pre = crlf) ∧ (sep₁ = [] ∨ sep₁ = crlf) ∧
    (sep₂ = [] ∨ sep₂ = crlf) ∧
    frame = head ++ (crlf ++ crlf) ++ multipartBody boundary pre json sep₁ pic sep₂ ∧
    ascii "Content-Type: multipart/form-data;boundary=" ++ boundary ++ crlf <:+: head ++ crlf ∧
    ascii "Content-Length: " ++ fmtInt (multipartBody boundary pre json sep₁ pic sep₂).length ++ crlf
      <:+: head ++ crlf

variable {r : RecordHttp} {size szDest sec : Nat} {info : TabitcomHttpInfo}
variable {boundary json pic frame out bs : List UInt8}

/-! ## The frame of a record -/

theorem foldl_take_eq {pieces : List (List UInt8)} (h : (out ++ pieces.flatten).length ≤ size) :
    pieces.foldl (fun out piece => out ++ piece.take (size - out.length)) out =
      out ++ pieces.flatten := by
  induction pieces generalizing out with
  | nil => simp
  | cons piece pieces ih =>
    rw [List.flatten_cons, ← List.append_assoc] at h ⊢
    have hpiece : piece.take (size - out.length) = piece := by
      apply List.take_of_length_le
      simp only [List.length_append] at h
      omega
    rw [List.foldl_cons, hpiece]
    exact ih h

/-- A record that fits its buffer. -/
def RecordHttp.Fits (r : RecordHttp) (size : Nat) : Prop :=
  (httpHeader r.info (boundaryOf r.sec) r.pieces.flatten.length ++ r.pieces.flatten).length + 1 ≤
    size

theorem length_pieces_pos (r : RecordHttp) : 0 < r.pieces.flatten.length := by
  simp [RecordHttp.pieces, crlf]

theorem recordHttp_eq (h : r.Fits size) :
    recordHttp size r =
      httpHeader r.info (boundaryOf r.sec) r.pieces.flatten.length ++ r.pieces.flatten := by
  have hpos := length_pieces_pos r
  unfold RecordHttp.Fits at h
  have hlen := h
  rw [List.length_append] at hlen
  unfold recordHttp
  dsimp only
  rw [List.take_of_length_le (by omega)]
  exact foldl_take_eq (by omega)

/-- The lines of the header after that of the length. -/
def headerRest (info : TabitcomHttpInfo) : List UInt8 :=
  (ascii "Host: " ++ info.servIp ++ ascii ":" ++ fmtInt info.port ++ crlf) ++
    ascii "Connection: Keep-alive\r\n" ++ (ascii "User-Agent: " ++ info.usrAgent)

/-- A frame whose body is multipart and whose header is `httpHeader`. -/
theorem isMultipart_of_body {pre sep₁ sep₂ : List UInt8} (hpre : pre = [] ∨ pre = crlf)
    (h₁ : sep₁ = [] ∨ sep₁ = crlf) (h₂ : sep₂ = [] ∨ sep₂ = crlf) :
    IsMultipart boundary
      (httpHeader info boundary (multipartBody boundary pre json sep₁ pic sep₂).length ++
        multipartBody boundary pre json sep₁ pic sep₂) json pic := by
  generalize hbody : multipartBody boundary pre json sep₁ pic sep₂ = body
  let post := ascii "POST /COMPANY/Devices/" ++ info.devId ++ ascii "/Datas HTTP/1.1\r\n"
  let type := ascii "Content-Type: multipart/form-data;boundary=" ++ boundary ++ crlf
  let length := ascii "Content-Length: " ++ fmtInt body.length ++ crlf
  refine ⟨post ++ type ++ length ++ headerRest info, pre, sep₁, sep₂, hpre, h₁, h₂, ?_, ?_, ?_⟩
  · rw [hbody, httpHeader, headerRest]
    simp only [List.append_assoc, post, type, length]
  · exact ⟨post, length ++ headerRest info ++ crlf, by simp only [List.append_assoc, type]⟩
  · rw [hbody]
    exact ⟨post ++ type, headerRest info ++ crlf, by simp only [List.append_assoc, length]⟩

/-- The frame of a record with a picture is a multipart request. -/
theorem recordHttp_isMultipart (h : r.Fits size) (hpic : r.pic = some pic) :
    IsMultipart (boundaryOf r.sec) (recordHttp size r) r.json pic := by
  have hbody : r.pieces.flatten = multipartBody (boundaryOf r.sec) crlf r.json [] pic crlf := by
    simp [RecordHttp.pieces, hpic, multipartBody]
  rw [recordHttp_eq h, hbody]
  exact isMultipart_of_body (Or.inr rfl) (Or.inl rfl) (Or.inr rfl)

/-! ## The frame that is made of what is kept -/

/-- What is kept of a record, and its picture, fit the buffers of `http_recombine`. -/
def FitsRecombine (szDest sec : Nat) (info : TabitcomHttpInfo) (json pic : List UInt8) : Prop :=
  let boundary := boundaryOf sec
  let body := jsonBody boundary json ++ imageBody boundary pic
  (jsonBody boundary json).length < 1024 ∧ (imageBody boundary pic).length < 1024 * 1024 ∧
    (httpHeader info boundary body.length).length < 1024 ∧
    (httpHeader info boundary body.length ++ body).length ≤ szDest

/-- The boundary ends with two hexadecimal digits. -/
theorem boundaryOf_eq (sec : Nat) : ∃ bs a b, boundaryOf sec = bs ++ [a, b] ∧ b ≠ 10 ∧ a ≠ 67 := by
  rw [boundaryOf, fmtHex_two, ← List.append_assoc]
  exact ⟨_, _, _, rfl, (hexDigit_ne (Nat.mod_lt _ (by decide))).1,
    (hexDigit_ne (Nat.mod_lt _ (by decide))).2⟩

theorem jpegType_eq_cons : ∃ bs, jpegType = 67 :: bs := ⟨_, rfl⟩

/-- The frame of `http_recombine`, when everything fits. -/
theorem httpRecombine_eq (h : FitsRecombine szDest sec info json pic) :
    httpRecombine szDest sec info json pic = some
      (httpHeader info (boundaryOf sec)
          (jsonBody (boundaryOf sec) json ++ imageBody (boundaryOf sec) pic).length ++
        (jsonBody (boundaryOf sec) json ++ imageBody (boundaryOf sec) pic)) := by
  obtain ⟨hjson, himage, hhdr, hdest⟩ := h
  have hpos : 0 < (imageBody (boundaryOf sec) pic).length := by
    obtain ⟨bs, hbs⟩ := jpegType_eq_cons
    simp [imageBody, hbs]
  have htake : (jsonBody (boundaryOf sec) json).take (1024 - 1) = jsonBody (boundaryOf sec) json :=
    List.take_of_length_le (by omega)
  unfold httpRecombine
  dsimp only at hhdr hdest ⊢
  rw [htake, ← List.length_append]
  generalize httpHeader info (boundaryOf sec)
    (jsonBody (boundaryOf sec) json ++ imageBody (boundaryOf sec) pic).length = hdr at hhdr hdest ⊢
  rw [List.length_append, List.length_append] at hdest
  rw [List.take_of_length_le (show hdr.length ≤ 1024 - 1 by omega), List.length_append,
    if_pos ⟨himage, by omega⟩, List.take_of_length_le (by omega), List.append_assoc]

/-- A text that ends with two bytes and one that ends with a line end, a common piece behind them
and perhaps a line end behind that of the second: they differ in the last byte or in the first of
the piece. -/
theorem ne_of_ends {front back bs piece sep : List UInt8} {a b x : UInt8} (hb : b ≠ 10) (ha : a ≠ x)
    (hsep : sep = [] ∨ sep = crlf) :
    front ++ (bs ++ [a, b]) ++ x :: piece ≠ back ++ crlf ++ (x :: piece ++ sep) := by
  intro heq
  rcases hsep with rfl | rfl
  · rw [List.append_nil] at heq
    have hfront := List.append_cancel_right heq
    rw [← List.append_assoc] at hfront
    have hends := (List.append_inj' hfront rfl).2
    exact hb (List.cons.inj (List.cons.inj hends).2).1
  · rw [← List.append_assoc front, List.append_assoc (front ++ bs)] at heq
    have hends := (List.append_inj' heq (by simp [crlf])).2
    exact ha (List.cons.inj hends).1

theorem jsonBody_eq (boundary json : List UInt8) :
    ∃ front, jsonBody boundary json = front ++ boundary := ⟨_, rfl⟩

/-- Seen from behind, no frame that ends as `http_recombine`'s does is multipart: the boundary
before the picture is not followed by a line end. -/
theorem not_isMultipart_of_suffix
    (hsuffix : boundaryOf sec ++ imageBody (boundaryOf sec) pic <:+ frame) :
    ¬ IsMultipart (boundaryOf sec) frame json pic := by
  rintro ⟨head, pre, sep₁, sep₂, -, -, hsep, rfl, -, -⟩
  obtain ⟨front, hfront⟩ := hsuffix
  obtain ⟨bs, a, b, hbs, hb, ha⟩ := boundaryOf_eq sec
  obtain ⟨type, htype⟩ := jpegType_eq_cons
  generalize boundaryOf sec = boundary at hfront hbs
  let back := head ++ (crlf ++ crlf) ++ (pre ++ (dashes ++ boundary ++ crlf ++ jsonType ++ json) ++
    (sep₁ ++ dashes ++ boundary))
  have hcancel : front ++ boundary ++ (jpegType ++ pic) ++ (dashes ++ boundary ++ dashes) =
      back ++ crlf ++ (jpegType ++ pic ++ sep₂) ++ (dashes ++ boundary ++ dashes) := by
    simpa only [back, imageBody, multipartBody, List.append_assoc] using hfront
  have hends := List.append_cancel_right hcancel
  rw [hbs, htype, List.cons_append] at hends
  exact ne_of_ends hb ha hsep hends

/-- What `http_recombine` makes of a JSON text and a picture that fit, whatever the text. -/
theorem httpRecombine_not_isMultipart {json' : List UInt8}
    (h : FitsRecombine szDest sec info json pic) :
    ∃ frame, httpRecombine szDest sec info json pic = some frame ∧
      ¬ IsMultipart (boundaryOf sec) frame json' pic := by
  refine ⟨_, httpRecombine_eq h, not_isMultipart_of_suffix ?_⟩
  obtain ⟨front, hfront⟩ := jsonBody_eq (boundaryOf sec) json
  rw [hfront, List.append_assoc, ← List.append_assoc _ front]
  exact List.suffix_append _ _

/-- The picture that is kept is the one of the record, if it fits. -/
theorem pic_of_getResendInfo {sizeJpegBuffer : Nat} {http name : List UInt8}
    {item : SabitcomHttpResend}
    (hitem : tabitcomHttpGetResendInfo sizeJpegBuffer http pic name = some item)
    (hpic : pic.length ≤ sizeJpegBuffer) : item.pic = pic := by
  simp only [tabitcomHttpGetResendInfo, Option.bind_eq_bind, Option.bind_eq_some_iff,
    Option.some.injEq] at hitem
  obtain ⟨-, -, -, -, rfl⟩ := hitem
  exact List.take_of_length_le hpic

/-- For every record with a picture and whatever is kept of it: its frame is a multipart request,
and what `http_recombine` makes is none with the same JSON text and picture. -/
theorem httpResend_not_isMultipart {sizeJpegBuffer : Nat} {name : List UInt8}
    {item : SabitcomHttpResend} (hfits : r.Fits size) (hpic : r.pic = some pic)
    (hitem : tabitcomHttpGetResendInfo sizeJpegBuffer (recordHttp size r) pic name = some item)
    (hkept : pic.length ≤ sizeJpegBuffer)
    (hrecombine : FitsRecombine sizeJpegBuffer sec info item.json item.pic) :
    IsMultipart (boundaryOf r.sec) (recordHttp size r) r.json pic ∧
      ∃ frame, httpRecombine sizeJpegBuffer sec info item.json item.pic = some frame ∧
        ¬ IsMultipart (boundaryOf sec) frame r.json pic := by
  rw [pic_of_getResendInfo hitem hkept] at hrecombine ⊢
  exact ⟨recordHttp_isMultipart hfits hpic, httpRecombine_not_isMultipart hrecombine⟩

def quotes : List UInt8 := [34, 34]

/-- The members of the first record that is sent, when no plate has been read and nothing but the time and
the lane is set. -/
def firstMembers : List (String × List UInt8) :=
  [("AlarmAction", ascii "1"), ("CombinedPicUrl", quotes), ("Confidence", ascii "0"),
   ("DetectCoilTime", ascii "0"), ("IsPicUrl", ascii "0"), ("LaneIndex", ascii "1"),
   ("LaneMaxSpeed", ascii "0.0"), ("LaneMiniSpeed", ascii "0.0"), ("Latitude", ascii "0.0"),
   ("Longitude", ascii "0.0"), ("PassTime", ascii "\"2016-07-20 08:00:00\""),
   ("PicCount", ascii "1"), ("PicType", ascii "[ 1 ]"), ("PlateColor", ascii "0"),
   ("PlateInfo1", quotes), ("PlateInfo2", ascii "\"" ++ [0xC2, 0xB3] ++ ascii "B88888\""),
   ("PlatePicUrl", quotes), ("PlateType", ascii "0"), ("VehicleColor", ascii "\"H\""),
   ("VehicleColorDepth", ascii "0"), ("VehicleInfoState", ascii "0"),
   ("VehicleLength", ascii "0"), ("VehiclePic1Url", quotes), ("VehiclePic2Url", quotes),
   ("VehiclePic3Url", quotes), ("VehicleSpeed", ascii "0.0"), ("VehicleState", ascii "1"),
   ("VehicleSubType", ascii "0"), ("VehicleType", ascii "0"), ("direction", ascii "0"),
   ("position", ascii "[ 0, 0, 0, 0 ]"), ("sn", ascii "0")]

/-- Its JSON text. -/
def firstText : List UInt8 :=
  ascii "\x7b\n" ++
    ((firstMembers.map fun x => ascii "   \"" ++ ascii x.1 ++ ascii "\" : " ++ x.2).intersperse
      (ascii ",\n")).flatten ++ ascii "\n\x7d\n"

/-- It with a picture of one byte. -/
def firstRecord : RecordHttp where
  json := firstText
  pic := some [255]
  sec := 0
  info := { devId := [49], servIp := [49], port := 80, usrAgent := ascii "ice_wind" }

/-- What is kept of it; the text has two hyphens of the boundary line behind it. -/
def firstKept : SabitcomHttpResend := { json := firstText ++ ascii "--", name := [], pic := [255] }

theorem firstRecord_kept :
    tabitcomHttpGetResendInfo (1024 * 1024) (recordHttp 4096 firstRecord) [255] [] =
      some firstKept := by
  decide +kernel

theorem firstKept_fits :
    FitsRecombine (1024 * 1024) 0 firstRecord.info firstKept.json firstKept.pic := by
  unfold FitsRecombine
  decide +kernel

theorem httpResend_not_isMultipart_first :
    ∃ frame,
      httpRecombine (1024 * 1024) 0 firstRecord.info firstKept.json firstKept.pic = some frame ∧
        ¬ IsMultipart (boundaryOf 0) frame firstRecord.json [255] := by
  have hfits : firstRecord.Fits 4096 := by
    unfold RecordHttp.Fits
    decide +kernel
  exact (httpResend_not_isMultipart hfits rfl firstRecord_kept (by decide) firstKept_fits).2

/-- The frame sent again for it is not the multipart request that failed. -/
theorem firstRecord_not_resent :
    tabitcomHttpGetResendInfo (1024 * 1024) (recordHttp 4096 firstRecord) [255] [] =
        some firstKept ∧
      ∃ frame,
        httpRecombine (1024 * 1024) 0 firstRecord.info firstKept.json firstKept.pic = some frame ∧
          ¬ IsMultipart (boundaryOf 0) frame firstRecord.json [255] :=
  ⟨firstRecord_kept, httpRecombine_not_isMultipart firstKept_fits⟩

end VdCamera.Platform
