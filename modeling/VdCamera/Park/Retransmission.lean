import VdCamera.Misc.Decimal
import VdCamera.Misc.StoreForward
import VdCamera.Park.MessageStore
import VdCamera.Park.ZehinRecords

/-!
# Store and forward to the zehin and the ktetc platform

`tpi/park/zehin/src/tpzehin_records.cpp`, `tpi/park/ktetc/src/park_ktetc.cpp` and their tables, with
retransmission enabled. Each platform has a thread that sends records and one that sends the rows of
`msgreget` or `retrans`.
-/

namespace VdCamera.Park

open Misc

/-- `atoll`, with a `long long` of 64 bits. -/
def atoll (text : List UInt8) : Int := max (-2 ^ 63) (min (2 ^ 63 - 1) (strtol text))

/-- `tpzehin_send_message`, an `unsigned long long`: what `vPaasT_DataMultiRealTimeDataEx` returns is
`NULL` or a text. -/
def tpzehinSendMessage (ptr : Option (List UInt8)) : Nat :=
  match ptr with
  | some text => (atoll text % 2 ^ 64).toNat
  | none => 0

/-- The platform has the message: the text is a positive number. -/
def zehinHas (ptr : Option (List UInt8)) : Bool :=
  match ptr with
  | some text => 0 < strtol text
  | none => false

/-- The message that `tpzehin_msg_reget` makes of a row. -/
def regetMsg (convertEnc : List UInt8 → List UInt8) (row : ZehinMsg) : ZehinMsg :=
  { row with plateNum := convertEnc row.plateNum }

/-- The row has the texts of the message, with the plate as it was before the conversion. -/
theorem regetMsg_zehinRow (convertEnc : List UInt8 → List UInt8) (field : DbParkRecord) :
    regetMsg convertEnc (field.zehinRow convertEnc) = field.zehinMsg convertEnc := rfl

/-- `tpzehin_record_pthread` and `tpzehin_msg_reget`. -/
def zehinCarrier (convertEnc : List UInt8 → List UInt8) :
    Carrier DbParkRecord ZehinMsg ZehinMsg (Option (List UInt8)) where
  live := DbParkRecord.zehinMsg convertEnc
  row := DbParkRecord.zehinRow convertEnc
  again row := some (regetMsg convertEnc row)
  took ptr := tpzehinSendMessage ptr ≠ 0
  has := zehinHas
  checksOnline := true
  again_row r _ h := (Option.some.inj h).symm.trans (regetMsg_zehinRow convertEnc r)

/-- `CParkKtetc::send_record2platform` and `CParkKtetc::retrans_thread`. `fastWriter` makes the text
of a `ktetc_t`, one that has room in the buffer into which `retrans_thread` copies a row, and `parse`
says whether `Json::Reader` reads a text; the text itself is sent again. An answer says whether
`curl_http_post` returns 0. -/
def ktetcCarrier {κ : Type*} (fastWriter : κ → {text : List UInt8 // text.length < MSG_LENGTH})
    (parse : List UInt8 → Bool) : Carrier κ (List UInt8) (List UInt8) Bool where
  live r := (fastWriter r).1
  row r := (fastWriter r).1
  again text := if parse text then some text else none
  took ok := ok
  has ok := ok
  checksOnline := false
  again_row r t h := by
    split at h
    · exact (Option.some.inj h).symm
    · cases h

/-- A thread that sends does not get a negative number. -/
def AnswersNotNegative (convertEnc : List UInt8 → List UInt8)
    (s : StoreForward DbParkRecord ZehinMsg ZehinMsg)
    (op : StoreForwardOp DbParkRecord (Option (List UInt8))) : Prop :=
  ∀ text, some text ∈ s.answered (zehinCarrier convertEnc) op → 0 ≤ strtol text

end VdCamera.Park
