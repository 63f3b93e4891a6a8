import VdCamera.Misc.Places
import VdCamera.Misc.Run

/-!
# The send queue of the message server

`ve/platform/bitcom/record.cpp`. Texts wait in slots; a thread goes round the slots, copies what it
finds into a buffer of its own and sends the buffer. What the functions do between taking and giving
back the mutex is one step.
-/

namespace VdCamera.Platform

open Misc

/-- The slots of `mq_send_t`. -/
def MQ_SEND_NUM : Nat := 32

def SABITCOM_MQ_TEXT_SIZE : Nat := 2048

/-- `mq_text_t`. -/
structure MqText where
  data : List UInt8
  valid : Bool
  deriving DecidableEq, Repr

/-- What a slot or the buffer holds. -/
def MqText.content (t : MqText) : Option (List UInt8) := if t.valid then some t.data else none

/-- `mq_send_t` with the locals of `mq_send_thread`; beside them the texts that `mq_send_put` has
accepted, the calls of `tabitcom_mq_send` with their success, and the texts handed to
`tabitcom_mq_resend_put`. -/
structure MqSend where
  text : Fin MQ_SEND_NUM → MqText := fun _ => ⟨[], false⟩
  p : Fin MQ_SEND_NUM := ⟨0, by decide⟩
  /-- The local copy. -/
  buf : MqText
  /-- The thread has left the critical section and has not looked at its copy. -/
  sending : Bool := false
  accepted : List (List UInt8) := []
  sent : List (List UInt8 × Bool) := []
  stored : List (List UInt8) := []

/-- `mq_send_put`. -/
def mqSendPut (text : List UInt8) (s : MqSend) : Int × MqSend :=
  match (List.finRange MQ_SEND_NUM).find? fun i => !(s.text i).valid with
  | some i =>
    (0, { s with
      text := Function.update s.text i ⟨text, true⟩
      accepted := s.accepted ++ [text] })
  | none => (-1, s)

/-- `mq_send_thread` in its critical section. -/
def mqSendTake (s : MqSend) : MqSend :=
  let s :=
    if (s.text s.p).valid then
      { s with
        buf := s.text s.p
        text := Function.update s.text s.p { s.text s.p with valid := false } }
    else s
  { s with p := nextPlace s.p, sending := true }

/-- `mq_send_thread` behind its critical section; `ok`: `tabitcom_mq_send` returns 0. -/
def mqSendSend (ok : Bool) (s : MqSend) : MqSend :=
  let s :=
    if s.buf.valid then
      { s with
        buf := { s.buf with valid := false }
        sent := s.sent ++ [(s.buf.data, ok)]
        stored :=
          if ok then s.stored else s.stored ++ [s.buf.data.take SABITCOM_MQ_TEXT_SIZE] }
    else s
  { s with sending := false }

/-- A call of `mq_send_put`, and the two parts of an iteration of `mq_send_thread`. -/
inductive MqOp where
  | put (text : List UInt8)
  | take
  | send (ok : Bool)
  deriving DecidableEq, Repr

/-- `none` when the thread is at its other part. -/
def mqStep (s : MqSend) : MqOp → Option MqSend
  | .put text => some (mqSendPut text s).2
  | .take => if s.sending then none else some (mqSendTake s)
  | .send ok => if s.sending then some (mqSendSend ok s) else none

/-- The texts that wait in the slots. -/
def MqSend.queued (s : MqSend) : List (List UInt8) :=
  (List.finRange MQ_SEND_NUM).filterMap fun i => (s.text i).content

/-- The text that the thread is about to send. -/
def MqSend.inHand (s : MqSend) : List (List UInt8) :=
  if s.sending then s.buf.content.toList else []

/-- The texts that were passed to `tabitcom_mq_send`. -/
def MqSend.passed (s : MqSend) : List (List UInt8) := s.sent.map Prod.fst

/-- The accepted texts are those passed and those still to be passed. -/
def MqSend.Balanced (s : MqSend) : Prop :=
  s.accepted.Perm (s.passed ++ s.inHand ++ s.queued)

/-- The texts stored for resending are those whose sending failed. -/
def MqSend.ResendsFailed (s : MqSend) : Prop :=
  s.stored = (s.sent.filter fun c => !c.2).map fun c => c.1.take SABITCOM_MQ_TEXT_SIZE

/-- Only full slots refuse a text. -/
def RefusesWhenFull (s : MqSend) (op : MqOp) : Prop :=
  ∀ text, op = .put text → (mqSendPut text s).1 ≠ 0 → s.queued.length = MQ_SEND_NUM

/-- How often the thread looks at a slot. -/
def takes (ops : List MqOp) : Nat := ops.count .take

/-- The queue delivers each accepted text exactly once in the run. -/
structure Delivers (buf : MqText) (ops : List MqOp) : Prop where
  once : Along mqStep (After mqStep MqSend.Balanced) { buf } ops
  resends : Along mqStep (After mqStep MqSend.ResendsFailed) { buf } ops
  refuses : Along mqStep RefusesWhenFull { buf } ops
  /-- Once round the slots the thread passes what was waiting. -/
  progress : ∀ xs ys s s', ops = xs ++ ys → runFrom mqStep { buf } xs = some s →
    runFrom mqStep s ys = some s' → MQ_SEND_NUM ≤ takes ys →
    (s.passed ++ s.inHand ++ s.queued).Subperm (s'.passed ++ s'.inHand)

end VdCamera.Platform
