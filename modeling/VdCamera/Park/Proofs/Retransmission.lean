import VdCamera.Park.Retransmission

/-!
# What store and forward keeps

The zehin platform refuses a message with a number that may be negative; as an `unsigned long long`
it is positive.
-/

namespace VdCamera.Park

open Misc

theorem tpzehinSendMessage_ne_zero (text : List UInt8) :
    tpzehinSendMessage (some text) ≠ 0 ↔ strtol text ≠ 0 := by
  simp only [tpzehinSendMessage, atoll]
  omega

/-- An answer is taken for what it means when it is no negative number. -/
theorem took_eq_has_iff (convertEnc : List UInt8 → List UInt8) (ptr : Option (List UInt8)) :
    (zehinCarrier convertEnc).took ptr = (zehinCarrier convertEnc).has ptr
      ↔ ∀ text, ptr = some text → 0 ≤ strtol text := by
  cases ptr with
  | none => exact ⟨fun _ => nofun, fun _ => rfl⟩
  | some text =>
    have htook : (zehinCarrier convertEnc).took (some text) = decide (strtol text ≠ 0) :=
      decide_eq_decide.mpr (tpzehinSendMessage_ne_zero text)
    have hhas : (zehinCarrier convertEnc).has (some text) = decide (0 < strtol text) := rfl
    rw [htook, hhas, decide_eq_decide]
    constructor
    · intro h _ heq
      cases heq
      omega
    · intro h
      have hnonneg := h text rfl
      omega

theorem agrees_iff_notNegative (convertEnc : List UInt8 → List UInt8)
    (s : StoreForward DbParkRecord ZehinMsg ZehinMsg)
    (op : StoreForwardOp DbParkRecord (Option (List UInt8))) :
    (zehinCarrier convertEnc).Agrees s op ↔ AnswersNotNegative convertEnc s op := by
  constructor
  · intro h text htext
    exact (took_eq_has_iff convertEnc _).mp (h _ htext) text rfl
  · intro h ptr hptr
    apply (took_eq_has_iff convertEnc ptr).mpr
    rintro text rfl
    exact h text hptr

/-- The zehin platform gets the records in order, and the rest are in the store and in hand, exactly
along the runs in which no answer to a message is a negative number; the ktetc platform does along
every run with texts that have room in the buffer. -/
theorem retransmission_keeps_iff (convertEnc : List UInt8 → List UInt8) {κ : Type*}
    (fastWriter : κ → {text : List UInt8 // text.length < MSG_LENGTH}) (parse : List UInt8 → Bool) :
    (∀ ops, Along (storeForwardStep (zehinCarrier convertEnc))
        (After (storeForwardStep (zehinCarrier convertEnc))
          (StoreForward.Forwarded (zehinCarrier convertEnc))) {} ops
      ↔ Along (storeForwardStep (zehinCarrier convertEnc)) (AnswersNotNegative convertEnc) {} ops)
    ∧ ∀ ops, Along (storeForwardStep (ktetcCarrier fastWriter parse))
        (After (storeForwardStep (ktetcCarrier fastWriter parse))
          (StoreForward.Forwarded (ktetcCarrier fastWriter parse))) {} ops := by
  constructor
  · intro ops
    rw [along_forwarded_iff]
    constructor
    · intro h
      exact h.mono fun s op => (agrees_iff_notNegative convertEnc s op).mp
    · intro h
      exact h.mono fun s op => (agrees_iff_notNegative convertEnc s op).mpr
  · intro ops
    rw [along_forwarded_iff]
    exact along_true.mono fun s op _ a _ => rfl

/-- The platform refuses a record with `-1`: the record is neither with the platform nor stored. -/
theorem retransmission_loses_negative :
    ¬ Along (storeForwardStep (zehinCarrier id))
      (After (storeForwardStep (zehinCarrier id)) (StoreForward.Forwarded (zehinCarrier id))) {}
      [.hand {}, .look true, .attempt (some [45, 49])] := by
  intro h
  obtain ⟨-, h⟩ := h
  obtain ⟨-, h⟩ := h _ rfl
  obtain ⟨hattempt, -⟩ := h _ rfl
  have htook : (zehinCarrier id).took (some [45, 49]) = true := by decide
  have hlen := (hattempt _ rfl).length
  simp only [htook, if_true] at hlen
  exact absurd hlen (by decide)

end VdCamera.Park
