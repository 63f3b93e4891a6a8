import VdCamera.Park.ZehinRecords

/-!
# What the zehin platform gets of the notices

With at most one token under way the slot holds the notice that the token was sent for.
-/

namespace VdCamera.Park

open Misc

variable {convertEnc : List UInt8 → List UInt8} {enable : Bool} {s s' : ZehinLine} {op : ZehinOp}
  {n : Notice} {records : TpzehinRecords} {answers : ZehinAnswers}

/-- The slot holds what a record thread needs of the notice. -/
def TpzehinRecords.Holds (records : TpzehinRecords) (n : Notice) : Prop :=
  records.field = n.parkRecord.dbParkRecord
    ∧ (n.pictured = true → ∀ i, records.picture i = (n.parkRecord.picInfo i).buf)

theorem holds_notify (records : TpzehinRecords) (n : Notice) : (records.notify n).Holds n := by
  cases n with
  | record r => exact ⟨rfl, fun _ _ => rfl⟩
  | info r => exact ⟨rfl, nofun⟩

/-- The names of the pictures are not touched when the message is constructed. -/
theorem imageName_constructMsg (field : DbParkRecord) :
    (tpzehinConstructMsg convertEnc field).2.imageName = field.imageName := rfl

/-- A platform that stays online is sent every picture of the slot, and those that it refuses go to
the store if they can be saved. -/
theorem pictureHandler_online (enable : Bool) (records : TpzehinRecords)
    (h : ∀ i, answers.stillOnline i = true) (is : List (Fin PARK_PIC_NUM)) :
    tpzehinPictureHandler enable answers records is = (is.map records.pic, (is.map records.pic).filter
      fun p => !answers.picture p.serial && enable && p.Saved) := by
  induction is with
  | nil => rfl
  | cons i is ih =>
    simp only [tpzehinPictureHandler, h i, if_true, ih, List.map_cons, List.filter_cons]
    rfl

theorem pic_of_holds (h : records.Holds n) (hn : n.pictured = true)
    {field : DbParkRecord} (hfield : field.imageName = records.field.imageName) :
    (List.finRange PARK_PIC_NUM).map ({ records with field } : TpzehinRecords).pic
      = n.zehinPictures := by
  cases n with
  | info r => cases hn
  | record r =>
    obtain ⟨hf, hp⟩ := h
    show _ = List.map _ _
    apply List.map_congr_left
    intro i _
    show (⟨i, field.imageName i, records.picture i⟩ : ZehinPicture) = _
    rw [hfield, hf, hp rfl i]
    rfl

/-- A leave record names no picture, so none that is still in the slot is saved with it. -/
theorem saved_of_holds (h : records.Holds n)
    {field : DbParkRecord} (hfield : field.imageName = records.field.imageName) :
    ((List.finRange PARK_PIC_NUM).map ({ records with field } : TpzehinRecords).pic).filter
      (·.Saved) = n.zehinPictures.filter (·.Saved) := by
  cases n with
  | record r => rw [pic_of_holds h rfl hfield]
  | info r =>
    rw [Notice.zehinPictures, List.filter_nil, List.filter_eq_nil_iff]
    intro p hp
    obtain ⟨i, -, rfl⟩ := List.mem_map.mp hp
    have hname : field.imageName i = [] := by
      rw [hfield, h.1]
      exact r.unnamed i
    simp [ZehinPicture.Saved, TpzehinRecords.pic, hname]

theorem handedAs_save (h : records.Holds n) :
    n.HandedAs convertEnc (tpzehinSaveMsg4reget (tpzehinConstructMsg convertEnc records.field).1
      { records with field := (tpzehinConstructMsg convertEnc records.field).2 }) := by
  refine ⟨?_, saved_of_holds h (imageName_constructMsg _)⟩
  show DbParkRecord.zehinRow convertEnc records.field = _
  rw [h.1]

/-- What a notice becomes when the platform stays online. -/
def Notice.RecordedAs (convertEnc : List UInt8 → List UInt8) (enable : Bool) (answers : ZehinAnswers)
    (n : Notice) : ZehinHanded → Prop
  | .delivered msg sent saved =>
    (List.finRange 3).any answers.message = true
      ∧ msg = n.parkRecord.dbParkRecord.zehinMsg convertEnc ∧ sent = n.zehinPictures
      ∧ saved = n.zehinPictures.filter fun p => !answers.picture p.serial && enable && p.Saved
  | .stored row pictures =>
    row = n.parkRecord.dbParkRecord.zehinRow convertEnc
      ∧ pictures = n.zehinPictures.filter (·.Saved)
  | .dropped msg => msg = n.parkRecord.dbParkRecord.zehinMsg convertEnc

theorem recordedAs_record (convertEnc : List UInt8 → List UInt8) (enable : Bool)
    (answers : ZehinAnswers) (h : records.Holds n) (hon : ∀ i, answers.stillOnline i = true) :
    n.RecordedAs convertEnc enable answers
      (tpzehinRecord convertEnc enable answers n.pictured records).2 := by
  have hmsg : records.field.zehinMsg convertEnc = n.parkRecord.dbParkRecord.zehinMsg convertEnc := by
    rw [h.1]
  unfold tpzehinRecord
  simp only
  split
  · exact handedAs_save h
  · split
    · rename_i hany
      refine ⟨hany, hmsg, ?_⟩
      cases hn : n.pictured with
      | true =>
        simp only [if_true]
        rw [pictureHandler_online enable _ hon, pic_of_holds h hn (imageName_constructMsg _)]
        exact ⟨rfl, rfl⟩
      | false =>
        cases n with
        | record r => cases hn
        | info r => exact ⟨rfl, rfl⟩
    · split
      · exact handedAs_save h
      · exact hmsg

/-- A slot that holds the notice is handed on as the notice. -/
theorem handedAs_record (convertEnc : List UInt8 → List UInt8) (enable : Bool)
    (h : records.Holds n) (hon : ∀ i, answers.stillOnline i = true) :
    n.HandedAs convertEnc
      (tpzehinRecord convertEnc enable answers n.pictured records).2 := by
  have hrecord := recordedAs_record convertEnc enable answers h hon
  cases hr : (tpzehinRecord convertEnc enable answers n.pictured records).2 with
  | delivered msg sent saved =>
    rw [hr] at hrecord
    obtain ⟨-, hmsg, hsent, hsaved⟩ := hrecord
    exact ⟨hmsg, hsent, hsaved ▸ List.filter_sublist⟩
  | stored row pictures =>
    rw [hr] at hrecord
    exact hrecord
  | dropped msg =>
    rw [hr] at hrecord
    exact hrecord

/-! ## Runs -/

/-- The tokens under way are those of the notices that have not been handed on, at most one, and the
slot holds it. -/
def ZehinLine.Inv (convertEnc : List UInt8 → List UInt8) (s : ZehinLine) : Prop :=
  ∃ done waiting, s.notified = done ++ waiting
    ∧ List.Forall₂ (Notice.HandedAs convertEnc) done s.handed
    ∧ s.tokens = waiting.map Notice.pictured ∧ waiting.length ≤ 1
    ∧ ∀ n ∈ waiting, s.records.Holds n

theorem ZehinLine.Inv.conveys (h : s.Inv convertEnc) : s.Conveys convertEnc := by
  obtain ⟨done, waiting, hnotified, hdone, htokens, -, -⟩ := h
  have hlen := hdone.length_eq
  refine ⟨?_, ?_⟩
  · rw [hnotified, ← hlen, List.take_left']
    · exact hdone
    · rfl
  · intro hrest
    have hnil : waiting = [] := by simpa [hrest] using htokens
    rw [hnotified, hnil, List.append_nil, hlen]

theorem ZehinLine.Inv.notify (h : s.Inv convertEnc) (hrest : s.tokens = [])
    (hidle : s.notifying = none) (n : Notice) :
    ({ s with
        records := s.records.notify n
        notifying := some n.pictured
        notified := s.notified ++ [n] } : ZehinLine).Inv convertEnc := by
  obtain ⟨done, waiting, hnotified, hdone, htokens, -, -⟩ := h
  have hnil : waiting = [] := by simpa [hrest] using htokens
  refine ⟨done, [n], ?_, hdone, ?_, Nat.le_refl 1, ?_⟩
  · rw [hnotified, hnil, List.append_nil]
  · have htoken : ∀ t : Option Bool, s.recording.toList ++ s.zehin ++ s.dispatching.toList ++ s.park
        ++ t.toList = t.toList := by
      intro t
      simp only [ZehinLine.tokens, hidle, Option.toList_none, List.append_nil] at hrest
      rw [hrest, List.nil_append]
    exact htoken _
  · intro m hm
    rw [List.mem_singleton.mp hm]
    exact holds_notify _ _

theorem ZehinLine.Inv.handle {t : Bool} (h : s.Inv convertEnc) (hrec : s.recording = some t)
    (hon : ∀ i, answers.stillOnline i = true) :
    ({ s with
        records := (tpzehinRecord convertEnc enable answers t s.records).1
        recording := none
        handed := s.handed ++ [(tpzehinRecord convertEnc enable answers t s.records).2] } :
      ZehinLine).Inv convertEnc := by
  obtain ⟨done, waiting, hnotified, hdone, htokens, hone, hholds⟩ := h
  rw [ZehinLine.tokens, hrec, Option.toList_some] at htokens
  obtain ⟨n, rfl⟩ : ∃ n, waiting = [n] := by
    cases waiting with
    | nil => cases htokens
    | cons n rest =>
      have hrest : rest = [] := List.eq_nil_of_length_eq_zero (by simpa using hone)
      exact ⟨n, by rw [hrest]⟩
  rw [List.map_singleton, List.append_assoc, List.append_assoc, List.append_assoc,
    List.singleton_append, List.cons_eq_cons] at htokens
  obtain ⟨rfl, hnil⟩ := htokens
  refine ⟨done ++ [n], [], ?_, ?_, ?_, Nat.zero_le 1, nofun⟩
  · rw [hnotified, List.append_nil]
  · have hn := handedAs_record convertEnc enable
      (hholds n (List.mem_singleton_self n)) hon
    exact List.rel_append hdone (.cons hn .nil)
  · simpa [ZehinLine.tokens] using hnil

/-- The other steps move a token on. -/
theorem ZehinLine.Inv.move (h : s.Inv convertEnc) (htokens : s'.tokens = s.tokens)
    (hrecords : s'.records = s.records) (hnotified : s'.notified = s.notified)
    (hhanded : s'.handed = s.handed) : s'.Inv convertEnc := by
  unfold ZehinLine.Inv
  rw [htokens, hrecords, hnotified, hhanded]
  exact h

theorem ZehinLine.Inv.step (h : s.Inv convertEnc) (hu : ZehinUndisturbed s op)
    (hstep : zehinStep convertEnc enable s op = some s') : s'.Inv convertEnc := by
  cases op with
  | notify n =>
    rw [zehinStep] at hstep
    split at hstep
    · cases hstep
    · rename_i hidle
      cases hstep
      exact h.notify hu hidle n
  | queue =>
    rw [zehinStep] at hstep
    split at hstep
    · cases hstep
    · rename_i t ht
      cases hstep
      refine h.move ?_ rfl rfl rfl
      simp [ZehinLine.tokens, ht]
  | dispatch =>
    rw [zehinStep] at hstep
    split at hstep
    · rename_i t park hidle hpark
      cases hstep
      refine h.move ?_ rfl rfl rfl
      simp [ZehinLine.tokens, hidle, hpark]
    · cases hstep
  | forward =>
    rw [zehinStep] at hstep
    split at hstep
    · cases hstep
    · rename_i t ht
      cases hstep
      refine h.move ?_ rfl rfl rfl
      simp [ZehinLine.tokens, ht]
  | receive =>
    rw [zehinStep] at hstep
    split at hstep
    · rename_i t zehin hidle hzehin
      cases hstep
      refine h.move ?_ rfl rfl rfl
      simp [ZehinLine.tokens, hidle, hzehin]
    · cases hstep
  | handle answers =>
    rw [zehinStep] at hstep
    split at hstep
    · cases hstep
    · rename_i t ht
      cases hstep
      exact h.handle ht hu

theorem zehinLine_inv_init : ({} : ZehinLine).Inv convertEnc :=
  ⟨[], [], rfl, .nil, rfl, Nat.zero_le 1, nofun⟩

/-- In a run in which every notice finds no token under way the platform gets the notices. -/
theorem zehin_conveys_along {ops : List ZehinOp}
    (hu : Along (zehinStep convertEnc enable) ZehinUndisturbed {} ops) :
    Along (zehinStep convertEnc enable)
      (After (zehinStep convertEnc enable) (ZehinLine.Conveys convertEnc)) {} ops := by
  apply hu.of_invariant zehinLine_inv_init
  · intro s op s' h hu hstep
    exact h.step hu hstep
  · intro s op h hu s' hstep
    exact (h.step hu hstep).conveys

end VdCamera.Park
