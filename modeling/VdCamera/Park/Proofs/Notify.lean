import VdCamera.Park.Proofs.ZehinRecords
import VdCamera.Park.Proofs.BitcomRecords

/-!
# Notices and the one slot of a platform

Both platforms pass a record through a slot and queue only that there is one. Every record arrives as
it was notified when it is notified after the slot has been read for the one before.
-/

namespace VdCamera.Park

open Misc

/-- In every run in which a notice finds the slot read, what goes to the zehin and to the bitcom
platform is what was notified, once, in order and unmixed. -/
theorem notices_conveyed (convertEnc : List UInt8 → List UInt8) (enable : Bool) :
    (∀ ops, Along (zehinStep convertEnc enable) ZehinUndisturbed {} ops →
      Along (zehinStep convertEnc enable)
        (After (zehinStep convertEnc enable) (ZehinLine.Conveys convertEnc)) {} ops)
    ∧ ∀ ops, Along (bitcomStep enable) BitcomUndisturbed {} ops →
      Along (bitcomStep enable) (After (bitcomStep enable) BitcomLine.Conveys) {} ops :=
  ⟨fun _ hu => zehin_conveys_along hu, fun _ hu => bitcom_conveys_along hu⟩

/-- The answers of a platform that takes everything. -/
def takesAll : ZehinAnswers where
  online := true
  waiting := false
  message _ := true
  stillOnline _ := true
  picture _ := true

/-- A car with the plate comes. -/
def arrival (plateNum : List UInt8) : Notice :=
  .record { dbParkRecord := { plateNum, objectState := 1 } }

/-- The way of a token from `notify` to the record thread. -/
def conveyed : List ZehinOp := [.queue, .dispatch, .forward, .receive, .handle takesAll]

/-- A car with the plate comes, and the bitcom platform takes its message and its pictures. -/
def bitcomTakes (plateNum : List UInt8) : List BitcomOp :=
  [.notify (arrival plateNum), .write, .write, .write, .write, .queue, .receive, .raise,
    .message .start, .message (.attempt true), .message .clear,
    .picture .start, .picture (.attempt true), .picture .clear]

theorem notices_conveyed_two :
    Along (zehinStep id true) (After (zehinStep id true) (ZehinLine.Conveys id)) {}
      (.notify (arrival [65]) :: conveyed ++ .notify (arrival [66]) :: conveyed)
    ∧ Along (bitcomStep true) (After (bitcomStep true) BitcomLine.Conveys) {}
      (bitcomTakes [65] ++ bitcomTakes [66]) := by
  constructor
  · apply (notices_conveyed id true).1
    simp [Along, conveyed, ZehinUndisturbed, zehinStep, ZehinLine.tokens, takesAll]
  · apply (notices_conveyed id true).2
    simp [Along, bitcomTakes, BitcomUndisturbed, bitcomStep, arrival, Notice.writes,
      TpbitcomRecords.write, Uploader.step, Uploader.Reads]

/-- A second car comes before the record thread has read the slot for the first one: the second one's
message is sent twice. -/
theorem notices_not_conveyed_overwritten :
    ¬ Along (zehinStep id true) (After (zehinStep id true) (ZehinLine.Conveys id)) {}
      (.notify (arrival [65]) :: .queue :: .notify (arrival [66]) :: conveyed) := by
  intro h
  obtain ⟨-, h⟩ := h
  obtain ⟨-, h⟩ := h _ rfl
  obtain ⟨-, h⟩ := h _ rfl
  obtain ⟨-, h⟩ := h _ rfl
  obtain ⟨-, h⟩ := h _ rfl
  obtain ⟨-, h⟩ := h _ rfl
  obtain ⟨-, h⟩ := h _ rfl
  obtain ⟨hhandle, -⟩ := h _ rfl
  obtain ⟨hall, -⟩ := hhandle _ rfl
  cases hall with
  | cons hfirst hrest =>
    have hplate := congrArg ZehinMsg.plateNum hfirst.1
    exact absurd hplate (by decide)

end VdCamera.Park
