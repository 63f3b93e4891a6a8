import VdCamera.Platform.MqSend
import VdCamera.Platform.ResendStore

/-!
# From the send queue to the message server

`ve/platform/bitcom/record.cpp` with `mq_resend.c` and `mq_resend_db.c`: a text that `mq_send_thread`
could not send goes into a table, from which a second thread sends the newest one again. Between the
failure and the table the mutex of the table is taken, so that storing a text is a step of its own. The
statements of the database succeed.
-/

namespace VdCamera.Platform

open Misc

/-- A row of `mq_resend`. -/
structure MqRow where
  id : Nat
  text : List UInt8
  deriving DecidableEq, Repr

abbrev MqTable := Table MqRow MqRow.id

/-- `sabitcom_mq_resend_insert`. -/
def sabitcomMqResendInsert (text : List UInt8) (sqlite : MqTable) : MqTable :=
  sqlite.insert (fun id => ⟨id, text⟩) fun _ => rfl

/-- `sabitcom_mq_resend_select`. -/
def sabitcomMqResendSelect (sqlite : MqTable) : Option MqRow := sqlite.rows.getLast?

/-- `sabitcom_mq_resend_del_redundant`: the rows that are deleted, and the others. `none` when the
limit is past `int32_t`. -/
def sabitcomMqResendDelRedundant (resv : Int) (sqlite : MqTable) : Option (List MqRow × MqTable) :=
  let limit : Int := sqlite.rows.length - resv + 1
  if 2 ^ 31 ≤ limit then none
  else if limit ≤ 0 then some ([], sqlite)
  else
    let selected := sqlite.rows.take limit.toNat
    some (selected, selected.foldl (fun sqlite r => sqlite.delete r.id) sqlite)

/-- `mq_send` and `mq_resend`; beside them the text that `mq_send_thread` has to store, the texts for
which `tabitcom_mq_send` returned 0, and those of the rows that were deleted as redundant. -/
structure MqLine where
  mq : MqSend
  storing : Option (List UInt8) := none
  sqlite : MqTable := Table.empty
  resv : Int
  backoffPtr : Nat := 0
  delivered : List (List UInt8) := []
  dropped : List (List UInt8) := []

/-- `mq_send_thread` behind its critical section, up to the storing of what it could not send. -/
def mqLineSend (ok : Bool) (s : MqLine) : MqLine :=
  let text := s.mq.buf.content
  { s with
    mq := mqSendSend ok s.mq
    delivered := if ok then s.delivered ++ text.toList else s.delivered
    storing := if ok then none else text }

/-- `tabitcom_mq_resend_put`. `none`: `item.text` has no end, or the limit is past `int32_t`. -/
def tabitcomMqResendPut (text : List UInt8) (s : MqLine) : Option MqLine :=
  if text.length < SABITCOM_MQ_TEXT_SIZE then do
    let (redundant, sqlite) ← sabitcomMqResendDelRedundant s.resv s.sqlite
    some { s with
      sqlite := sabitcomMqResendInsert text sqlite
      dropped := s.dropped ++ redundant.map MqRow.text }
  else none

/-- A round of `mq_resend_pthread`. -/
def mqResendRound (ok : Bool) (s : MqLine) : MqLine :=
  match sabitcomMqResendSelect s.sqlite with
  | some item =>
    if ok then
      { s with
        sqlite := s.sqlite.delete item.id
        backoffPtr := 0
        delivered := s.delivered ++ [item.text] }
    else { s with backoffPtr := nextBackoff s.backoffPtr }
  | none => s

/-- A call of `mq_send_put`, the three parts of an iteration of `mq_send_thread`, and a round of
`mq_resend_pthread`; `ok`: `tabitcom_mq_send` returns 0. -/
inductive MqLineOp where
  | put (text : List UInt8)
  | take
  | send (ok : Bool)
  | store
  | round (ok : Bool)
  deriving DecidableEq, Repr

/-- `none` when the thread is at another part, or something goes astray. -/
def mqLineStep (s : MqLine) : MqLineOp → Option MqLine
  | .put text => some { s with mq := (mqSendPut text s.mq).2 }
  | .take =>
    if s.mq.sending ∨ s.storing.isSome then none else some { s with mq := mqSendTake s.mq }
  | .send ok => if s.mq.sending then some (mqLineSend ok s) else none
  | .store => s.storing.bind fun text => tabitcomMqResendPut text { s with storing := none }
  | .round ok => some (mqResendRound ok s)

end VdCamera.Platform
