import VdCamera.Park.ParkStatus

/-!
# The history over restarts

What the instance shows as texts is a view; a record, a light change and a load change it as the ring
changes, and the file is its view.
-/

namespace VdCamera.Park

open Misc

variable {conv : Iconv} {gone : List UInt8 → List UInt8} {text field : List UInt8} {n : Nat}
  {p p' : ParkStatus} {h : ParkHistory} {item : HistoryItem} {items : List HistoryItem}
  {slots : List ParkHistory} {ring : RecentRing ParkHistory} {r : ParkEvent} {s s' : HistoryWorld}
  {op : HistoryOp}

/-! ## Fields -/

theorem cstr_of_proper (hp : 0 ∉ text) (rest : List UInt8) : cstr (text ++ 0 :: rest) = some text := by
  have hmem : (0 : UInt8) ∈ text ++ 0 :: rest := List.mem_append_right _ List.mem_cons_self
  rw [cstr, if_pos hmem, List.takeWhile_append_of_pos, List.takeWhile_cons_of_neg (by simp),
    List.append_nil]
  intro b hb
  exact decide_eq_true fun h0 => hp (h0 ▸ hb)

/-- A text that fits a field is in it after the copy, and the field keeps its length. -/
theorem copyText_of_lt (hlt : text.length < field.length) (hp : 0 ∉ text) :
    ∃ field', copyText text field = some field' ∧ cstr field' = some text
      ∧ field'.length = field.length := by
  refine ⟨_, if_pos hlt, cstr_of_proper hp _, ?_⟩
  rw [List.length_append, List.length_cons, List.length_drop]
  omega

theorem cstr_replicate (hn : 0 < n) : cstr (List.replicate n 0) = some [] := by
  obtain ⟨n, rfl⟩ : ∃ k, n = k + 1 := ⟨n - 1, by omega⟩
  exact cstr_of_proper List.not_mem_nil _

theorem iconvInto_all (cs : List (List UInt8)) {room : Nat} (h : cs.flatten.length ≤ room) :
    iconvInto cs room = cs.flatten := by
  induction cs generalizing room with
  | nil => rfl
  | cons c cs ih =>
    rw [List.flatten_cons, List.length_append] at h
    rw [iconvInto, if_pos (by omega), ih (by omega), List.flatten_cons]

theorem Iconv.text_proper (conv : Iconv) (t : List UInt8) : 0 ∉ conv.text t := by
  intro h0
  obtain ⟨c, hc, h0⟩ := List.mem_flatten.1 h0
  exact conv.proper t c hc h0

/-- A plate that fits when it is converted is in the field after the conversion. -/
theorem convertEncS_of_lt (conv : Iconv) (text field : List UInt8)
    (hlt : (conv.text text).length < field.length) :
    cstr (convertEncS conv text field) = some (conv.text text)
      ∧ (convertEncS conv text field).length = field.length := by
  have hall : iconvInto (conv.chars text ++ [[0]]) field.length = conv.text text ++ [0] := by
    rw [iconvInto_all _ (by
      rw [List.flatten_append, List.length_append]
      exact hlt), List.flatten_append]
    rfl
  rw [convertEncS, hall]
  constructor
  · rw [List.append_assoc]
    exact cstr_of_proper (conv.text_proper text) _
  · simp only [List.length_append, List.length_drop, List.length_singleton]
    omega

theorem light_of_str (state : CurrentLightState) :
    getLightFromStr (getLightStrFromState state) = state := by
  cases state <;> decide

/-! ## The view -/

/-- What an instance shows. -/
structure HistoryView where
  parkstate : CurrentParkState
  currentplate : List UInt8
  spacecode : List UInt8
  light : CurrentLightState
  items : List HistoryItem

def HistoryView.file (v : HistoryView) : HistoryFile where
  parkstate := v.parkstate.toInt
  currentplate := v.currentplate
  spacecode := v.spacecode
  parklightstate := getLightStrFromState v.light
  parkhistory := v.items.zipIdx 1

/-- The fields of a slot have their lengths. -/
structure ParkHistory.Sized (h : ParkHistory) : Prop where
  plate : h.plate.length = PARK_PLATE_LENGTH
  time : h.time.length = TIME_STRING_LENGTH
  picName1 : h.picName1.length = PICTURE_NAME_LENGTH
  picName2 : h.picName2.length = PICTURE_NAME_LENGTH

/-- The ring holds slots that show the items. -/
structure RingShows (ring : RecentRing ParkHistory) (items : List HistoryItem) : Prop where
  sized : ∀ j, (ring.slot j).Sized
  holds : ∃ slots, ring.Holds PARK_RECORD_HISTORY_MAX ParkHistory.used slots
    ∧ slots.map ParkHistory.item = items.map some

/-- The instance shows the view. -/
structure ParkStatus.Shows (p : ParkStatus) (v : HistoryView) : Prop where
  parkstate : p.parkstate = v.parkstate
  light : p.currentlightstate = v.light
  currentplate : cstr p.currentplate = some v.currentplate
  plateLength : p.currentplate.length = PARK_PLATE_LENGTH
  spacecode : cstr p.spacecode = some v.spacecode
  ring : RingShows p.history v.items

theorem mapM_item (hmap : slots.map ParkHistory.item = items.map some) :
    slots.mapM ParkHistory.item = some items := by
  induction slots generalizing items with
  | nil =>
    cases items with
    | nil => rfl
    | cons => cases hmap
  | cons h slots ih =>
    cases items with
    | nil => cases hmap
    | cons item items =>
      rw [List.map_cons, List.map_cons, List.cons.injEq] at hmap
      rw [List.mapM_cons, hmap.1, ih hmap.2]
      rfl

/-- The file is the view. -/
theorem ParkStatus.Shows.dump {v : HistoryView} (h : p.Shows v) : p.dumpToFile = some v.file := by
  obtain ⟨slots, hholds, hmap⟩ := h.ring.holds
  have hwalk : p.history.walk PARK_RECORD_HISTORY_MAX ParkHistory.used = some slots :=
    hholds.walk (by decide)
  simp [ParkStatus.dumpToFile, h.currentplate, h.spacecode, hwalk, mapM_item hmap, h.parkstate,
    h.light, HistoryView.file]

theorem sized_blank : ({} : ParkHistory).Sized := ⟨rfl, rfl, rfl, rfl⟩

theorem shows_blank : ({} : ParkStatus).Shows ⟨.nocar, [], [], .nolight, []⟩ where
  parkstate := rfl
  light := rfl
  currentplate := cstr_replicate (by decide)
  plateLength := rfl
  spacecode := cstr_replicate (by decide)
  ring := ⟨fun _ => sized_blank, [], RecentRing.Holds.empty (by decide) (fun _ _ => rfl) rfl, rfl⟩

/-- A slot that is in use and shows an item makes it the newest one. -/
theorem RingShows.push (hr : RingShows ring items) (hs : h.Sized) (hu : h.used = true)
    (hi : h.item = some item) :
    RingShows (ring.push PARK_RECORD_HISTORY_MAX h)
      ((item :: items).take PARK_RECORD_HISTORY_MAX) := by
  obtain ⟨slots, hholds, hmap⟩ := hr.holds
  refine ⟨fun j => ?_, _, hholds.push (by decide) hu, ?_⟩
  · show (Function.update ring.slot _ h j).Sized
    by_cases hj : j = (ring.next PARK_RECORD_HISTORY_MAX).toNat
    · rw [hj, Function.update_self]
      exact hs
    · rw [Function.update_of_ne hj]
      exact hr.sized j
  · rw [List.map_take, List.map_take, List.map_cons, List.map_cons, hi, hmap]

/-! ## A record -/

def HistoryView.push (conv : Iconv) (r : ParkEvent) (v : HistoryView) : HistoryView :=
  { v with
    parkstate := if r.objectState = 1 then .hascar else .nocar
    currentplate := if r.objectState = 1 then conv.text r.plate else []
    items := (r.item conv :: v.items).take PARK_RECORD_HISTORY_MAX }

theorem copyName_spec (name : Option (FieldText PICTURE_NAME_LENGTH)) :
    ∃ field', copyName name (List.replicate PICTURE_NAME_LENGTH 0) = some field'
      ∧ cstr field' = some ((name.map FieldText.text).getD [])
      ∧ field'.length = PICTURE_NAME_LENGTH := by
  cases name with
  | none => exact ⟨_, rfl, cstr_replicate (by decide), List.length_replicate⟩
  | some name =>
    have hlt : name.text.length < (List.replicate PICTURE_NAME_LENGTH (0 : UInt8)).length := by
      rw [List.length_replicate]
      exact name.fits
    obtain ⟨field', hcopy, hcstr, hlen⟩ := copyText_of_lt hlt name.proper
    exact ⟨field', hcopy, hcstr, by rw [hlen, List.length_replicate]⟩

theorem ParkStatus.Shows.pushRecord {v : HistoryView} (h : p.Shows v)
    (hfit : (conv.text r.plate).length < PARK_PLATE_LENGTH) :
    ∃ p', p.pushRecord conv r = some p' ∧ p'.Shows (v.push conv r) := by
  have hlt : r.time.text.length < (List.replicate TIME_STRING_LENGTH (0 : UInt8)).length := by
    rw [List.length_replicate]
    exact r.time.fits
  obtain ⟨time, htime, htext, htlen⟩ := copyText_of_lt hlt r.time.proper
  obtain ⟨pic1, hpic1, htext1, hlen1⟩ := copyName_spec r.picName1
  obtain ⟨pic2, hpic2, htext2, hlen2⟩ := copyName_spec r.picName2
  obtain ⟨hplate, hplen⟩ := convertEncS_of_lt conv r.plate (List.replicate PARK_PLATE_LENGTH 0)
    (by rwa [List.length_replicate])
  rw [List.length_replicate] at htlen hplen
  let node : ParkHistory := {
    index := 99
    plate := convertEncS conv r.plate (List.replicate PARK_PLATE_LENGTH 0)
    state := if r.objectState = 1 then .driveIn else .driveOut
    time, picName1 := pic1, picName2 := pic2 }
  have hitem : node.item = some (r.item conv) := by
    simp only [ParkHistory.item, node, htext, hplate, htext1, htext2, Option.bind_eq_bind,
      Option.bind_some]
    by_cases hin : r.objectState = 1
    · simp only [if_pos hin, ParkRecordState.text, ParkEvent.item]
      rfl
    · simp only [if_neg hin, ParkRecordState.text, ParkEvent.item]
      rfl
  have hring := h.ring.push (h := node) ⟨hplen, htlen, hlen1, hlen2⟩ rfl hitem
  by_cases hin : r.objectState = 1
  · obtain ⟨hcur, hcurlen⟩ := convertEncS_of_lt conv r.plate p.currentplate (by rwa [h.plateLength])
    refine ⟨{ p with
      parkstate := .hascar
      currentplate := convertEncS conv r.plate p.currentplate
      history := p.history.push PARK_RECORD_HISTORY_MAX node }, ?_, ?_⟩
    · simp only [ParkStatus.pushRecord, if_pos hin, htime, hpic1, hpic2, Option.bind_eq_bind,
        Option.bind_some, node]
      rfl
    · rw [HistoryView.push, if_pos hin, if_pos hin]
      exact ⟨rfl, h.light, hcur, hcurlen.trans h.plateLength, h.spacecode, hring⟩
  · refine ⟨{ p with
      parkstate := .nocar
      currentplate := List.replicate PARK_PLATE_LENGTH 0
      history := p.history.push PARK_RECORD_HISTORY_MAX node }, ?_, ?_⟩
    · simp only [ParkStatus.pushRecord, if_neg hin, htime, hpic1, hpic2, Option.bind_eq_bind,
        Option.bind_some, node]
      rfl
    · rw [HistoryView.push, if_neg hin, if_neg hin]
      exact ⟨rfl, h.light, cstr_replicate (by decide), rfl, h.spacecode, hring⟩

/-! ## A restart -/

/-- The texts of an item fit their fields and are still there when they are copied. -/
structure HistoryItem.Kept (gone : List UInt8 → List UInt8) (item : HistoryItem) : Prop where
  time : item.time.length < TIME_STRING_LENGTH ∧ 0 ∉ item.time ∧ gone item.time = item.time
  plate : item.plate.length < PARK_PLATE_LENGTH ∧ 0 ∉ item.plate ∧ gone item.plate = item.plate
  picName1 : item.picName1.length < PICTURE_NAME_LENGTH ∧ 0 ∉ item.picName1
    ∧ gone item.picName1 = item.picName1
  picName2 : item.picName2.length < PICTURE_NAME_LENGTH ∧ 0 ∉ item.picName2
    ∧ gone item.picName2 = item.picName2
  state : ∃ st : ParkRecordState, item.state = st.text

/-- The texts of a view fit their fields and are still there when they are copied. -/
structure HistoryView.Kept (gone : List UInt8 → List UInt8) (v : HistoryView) : Prop where
  currentplate : v.currentplate.length < PARK_PLATE_LENGTH ∧ 0 ∉ v.currentplate
    ∧ gone v.currentplate = v.currentplate
  le : v.items.length ≤ PARK_RECORD_HISTORY_MAX
  items : ∀ item ∈ v.items, item.Kept gone

theorem copyText_gone {m : Nat} (hk : text.length < m ∧ 0 ∉ text ∧ gone text = text)
    (hlen : field.length = m) : ∃ field', copyText (gone text) field = some field'
      ∧ cstr field' = some text ∧ field'.length = m := by
  obtain ⟨hlt, hp, hgone⟩ := hk
  rw [hgone]
  obtain ⟨field', hcopy, hcstr, hlen'⟩ := copyText_of_lt (by rwa [hlen]) hp
  exact ⟨field', hcopy, hcstr, hlen'.trans hlen⟩

theorem parse_kept {index : Nat} (hk : item.Kept gone) (hr : RingShows ring items)
    (hindex : 0 < index ∧ index < 256) :
    ∃ ring', parseParkHistory gone ring (item, index) = some ring'
      ∧ RingShows ring' ((item :: items).take PARK_RECORD_HISTORY_MAX) := by
  have hs := hr.sized (ring.next PARK_RECORD_HISTORY_MAX).toNat
  obtain ⟨time, htime, htext, htlen⟩ := copyText_gone hk.time hs.time
  obtain ⟨plate, hplate, hptext, hplen⟩ := copyText_gone hk.plate hs.plate
  obtain ⟨pic1, hpic1, htext1, hlen1⟩ := copyText_gone hk.picName1 hs.picName1
  obtain ⟨pic2, hpic2, htext2, hlen2⟩ := copyText_gone hk.picName2 hs.picName2
  obtain ⟨st, hst⟩ := hk.state
  let node : ParkHistory := {
    index := UInt8.ofNat index
    plate
    state := if item.state = "驶入" then .driveIn else .driveOut
    time
    picName1 := pic1
    picName2 := pic2 }
  have hstate : node.state.text = item.state := by
    rw [hst]
    cases st with
    | driveIn =>
      simp only [node, hst, ParkRecordState.text, if_true]
    | driveOut =>
      have hne : ParkRecordState.driveOut.text ≠ "驶入" := by decide
      simp only [node, hst, if_neg hne]
  have hused : node.used = true := by
    simp only [ParkHistory.used, node, decide_eq_true_eq]
    intro h0
    have h0 : (UInt8.ofNat index).toNat = 0 := congrArg UInt8.toNat h0
    rw [UInt8.toNat_ofNat', Nat.mod_eq_of_lt hindex.2] at h0
    omega
  have hitem : node.item = some item := by
    simp only [ParkHistory.item, node, htext, hptext, htext1, htext2, Option.bind_eq_bind,
      Option.bind_some]
    rw [show (if item.state = "驶入" then ParkRecordState.driveIn
      else ParkRecordState.driveOut).text = item.state from hstate]
    rfl
  refine ⟨ring.push PARK_RECORD_HISTORY_MAX node, ?_, hr.push ⟨hplen, htlen, hlen1, hlen2⟩ hused hitem⟩
  simp only [parseParkHistory, htime, hplate, hpic1, hpic2, Option.bind_eq_bind, Option.bind_some,
    node]
  rfl

/-- The items are read back from the oldest one on. -/
theorem parse_items {ring₀ : RecentRing ParkHistory} (hr : RingShows ring₀ [])
    (l : List (HistoryItem × Nat)) (hk : ∀ i ∈ l, i.1.Kept gone) (hi : ∀ i ∈ l, 0 < i.2 ∧ i.2 < 256)
    (hle : l.length ≤ PARK_RECORD_HISTORY_MAX) :
    ∃ ring, l.reverse.foldlM (parseParkHistory gone) ring₀ = some ring
      ∧ RingShows ring (l.map Prod.fst) := by
  induction l with
  | nil => exact ⟨ring₀, rfl, hr⟩
  | cons i l ih =>
    obtain ⟨ring, hfold, hshows⟩ := ih (fun j hj => hk j (List.mem_cons_of_mem i hj))
      (fun j hj => hi j (List.mem_cons_of_mem i hj)) (Nat.le_of_succ_le hle)
    obtain ⟨ring', hparse, hshows'⟩ :=
      parse_kept (hk i List.mem_cons_self) hshows (hi i List.mem_cons_self)
    refine ⟨ring', ?_, ?_⟩
    · rw [List.reverse_cons, List.foldlM_append, hfold]
      simp only [List.foldlM_cons, List.foldlM_nil, hparse, Option.bind_eq_bind, Option.bind_some]
      rfl
    · rwa [List.take_of_length_le (by rwa [List.length_cons, List.length_map])] at hshows'

theorem load_kept {v : HistoryView} (hk : v.Kept gone) (spotId : SpotId) :
    ∃ p, ParkStatus.loadFromFile gone spotId.text v.file {} = some p
      ∧ p.Shows { v with spacecode := spotId.text } := by
  have hspot : spotId.text.length < (List.replicate SPACE_CODE_LENGTH (0 : UInt8)).length := by
    have := spotId.fits
    rw [List.length_replicate, SPACE_CODE_LENGTH]
    omega
  obtain ⟨spacecode, hscopy, hstext, -⟩ := copyText_of_lt hspot spotId.proper
  obtain ⟨current, hccopy, hctext, hclen⟩ := copyText_gone hk.currentplate
    (List.length_replicate : (List.replicate PARK_PLATE_LENGTH (0 : UInt8)).length = _)
  have hle := hk.le
  obtain ⟨ring, hfold, hring⟩ := parse_items shows_blank.ring (v.items.zipIdx 1)
    (fun i hi => hk.items _ (List.fst_mem_of_mem_zipIdx hi))
    (fun i hi => by
      have := List.snd_lt_of_mem_zipIdx hi
      have := List.le_snd_of_mem_zipIdx hi
      rw [PARK_RECORD_HISTORY_MAX] at hle
      omega) (by rwa [List.length_zipIdx])
  rw [List.zipIdx_map_fst] at hring
  let p : ParkStatus := {
    parkstate := if v.parkstate.toInt = CurrentParkState.hascar.toInt then .hascar else .nocar
    spacecode
    currentplate := current
    currentlightstate := getLightFromStr (getLightStrFromState v.light)
    history := ring }
  refine ⟨p, ?_, ⟨?_, light_of_str v.light, hctext, hclen, hstext, hring⟩⟩
  · simp only [ParkStatus.loadFromFile, HistoryView.file, hscopy, hccopy, hfold,
      Option.bind_eq_bind, Option.bind_some]
    rfl
  · show (if v.parkstate.toInt = CurrentParkState.hascar.toInt then CurrentParkState.hascar
      else .nocar) = v.parkstate
    cases v.parkstate <;> rfl

/-- What is loaded is written again as it was, but for the space code. -/
theorem survives_iff {v : HistoryView} (hk : v.Kept gone) (spotId : SpotId) :
    v.file.Survives gone spotId ↔ v.file.spacecode = spotId.text := by
  obtain ⟨p, hload, hshows⟩ := load_kept hk spotId
  rw [HistoryFile.Survives, hload, Option.bind_some, hshows.dump, Option.some.injEq]
  constructor
  · intro heq
    exact (congrArg HistoryFile.spacecode heq).symm
  · intro heq
    rw [← heq]
    rfl

/-! ## Runs -/

/-- The items that the records give. -/
def HistoryWorld.listed (conv : Iconv) (s : HistoryWorld) : List HistoryItem :=
  (s.records.take PARK_RECORD_HISTORY_MAX).map (ParkEvent.item conv)

/-- The instance that the process has, or will make, shows the records, and so does the file. -/
structure HistoryWorld.Inv (conv : Iconv) (gone : List UInt8 → List UInt8) (s : HistoryWorld) :
    Prop where
  started : ∃ v p, s.started gone = some p ∧ p.Shows v ∧ v.items = s.listed conv
    ∧ (gone [] = [] → v.Kept gone)
  file : s.file = none ∧ s.records = [] ∨ ∃ w : HistoryView, s.file = some w.file ∧ w.Kept gone
    ∧ w.items = s.listed conv

theorem kept_blank (hnil : gone [] = []) : HistoryView.Kept gone ⟨.nocar, [], [], .nolight, []⟩ where
  currentplate := ⟨by decide, List.not_mem_nil, hnil⟩
  le := Nat.zero_le _
  items item hi := absurd hi List.not_mem_nil

theorem HistoryWorld.inv_init (conv : Iconv) (gone : List UInt8 → List UInt8) (spotId : SpotId) :
    HistoryWorld.Inv conv gone { spotId } :=
  ⟨⟨_, _, rfl, shows_blank, rfl, kept_blank⟩, .inl ⟨rfl, rfl⟩⟩

/-- A name that was given, or none, fits and is proper. -/
theorem name_fits (name : Option (FieldText PICTURE_NAME_LENGTH)) :
    ((name.map FieldText.text).getD []).length < PICTURE_NAME_LENGTH
      ∧ 0 ∉ (name.map FieldText.text).getD [] := by
  cases name with
  | none => exact ⟨by decide, List.not_mem_nil⟩
  | some name => exact ⟨name.fits, name.proper⟩

theorem HistoryView.Kept.push {v : HistoryView} (hv : v.Kept gone)
    (hf : (HistoryOp.record r).Fits conv gone) : (v.push conv r).Kept gone := by
  obtain ⟨hfit, hgone⟩ := hf
  have hplate : (conv.text r.plate).length < PARK_PLATE_LENGTH ∧ 0 ∉ conv.text r.plate
      ∧ gone (conv.text r.plate) = conv.text r.plate :=
    ⟨hfit, conv.text_proper _, hgone _ (by simp)⟩
  have hitem : (r.item conv).Kept gone := {
    time := ⟨r.time.fits, r.time.proper, hgone _ (by simp [ParkEvent.item])⟩
    plate := hplate
    picName1 := ⟨(name_fits _).1, (name_fits _).2, hgone _ (by simp)⟩
    picName2 := ⟨(name_fits _).1, (name_fits _).2, hgone _ (by simp)⟩
    state := by
      by_cases hin : r.objectState = 1
      · exact ⟨.driveIn, if_pos hin⟩
      · exact ⟨.driveOut, if_neg hin⟩ }
  refine ⟨?_, List.length_take_le _ _, fun item hi => ?_⟩
  · have hcur : (v.push conv r).currentplate
        = if r.objectState = 1 then conv.text r.plate else [] := rfl
    rw [hcur]
    split
    · exact hplate
    · exact ⟨by decide, List.not_mem_nil, hgone _ List.mem_cons_self⟩
  · cases List.mem_cons.1 (List.mem_of_mem_take hi) with
    | inl heq => exact heq ▸ hitem
    | inr hmem => exact hv.items item hmem

theorem HistoryWorld.Inv.step (hi : s.Inv conv gone) (hf : op.Fits conv gone) :
    ∃ s', historyStep conv gone s op = some s' ∧ s'.Inv conv gone := by
  obtain ⟨⟨v, p, hp, hshows, hitems, hkept⟩, hfile⟩ := hi
  cases op with
  | record r =>
    obtain ⟨p', hpush, hshows'⟩ := hshows.pushRecord hf.1
    have hkept' := (hkept (hf.2 _ List.mem_cons_self)).push hf
    have hlisted : (v.push conv r).items
        = ((r :: s.records).take PARK_RECORD_HISTORY_MAX).map (ParkEvent.item conv) := by
      rw [HistoryView.push, hitems, HistoryWorld.listed, ← List.map_cons, ← List.map_take,
        ← List.take_succ_cons, List.take_take, Nat.min_eq_left (Nat.le_succ _)]
    refine ⟨{ s with
      running := some p'
      file := some (v.push conv r).file
      records := r :: s.records }, ?_, ⟨v.push conv r, p', rfl, hshows', hlisted, fun _ => hkept'⟩,
      .inr ⟨v.push conv r, rfl, hkept', hlisted⟩⟩
    simp only [historyStep, hp, hpush, hshows'.dump, Option.bind_eq_bind, Option.bind_some]
    rfl
  | light text =>
    have hkept := hkept hf
    have hshows' : ParkStatus.Shows { p with currentlightstate := getLightFromStr text }
        { v with light := getLightFromStr text } :=
      ⟨hshows.parkstate, rfl, hshows.currentplate, hshows.plateLength, hshows.spacecode, hshows.ring⟩
    have hkept' : HistoryView.Kept gone { v with light := getLightFromStr text } :=
      ⟨hkept.currentplate, hkept.le, hkept.items⟩
    refine ⟨{ s with
      running := some { p with currentlightstate := getLightFromStr text }
      file := some { v with light := getLightFromStr text : HistoryView }.file }, ?_,
      ⟨{ v with light := getLightFromStr text }, _, rfl, hshows', hitems, fun _ => hkept'⟩,
      .inr ⟨_, rfl, hkept', hitems⟩⟩
    simp only [historyStep, hp, hshows'.dump, Option.bind_eq_bind, Option.bind_some]
    rfl
  | restart spotId =>
    refine ⟨_, rfl, ?_, hfile⟩
    rcases hfile with ⟨hnone, hrec⟩ | ⟨w, hw, hwkept, hwitems⟩
    · refine ⟨_, {}, ?_, shows_blank, ?_, kept_blank⟩
      · simp only [HistoryWorld.started, hnone]
      · rw [HistoryWorld.listed]
        simp only [hrec]
        rfl
    · obtain ⟨p', hload, hshows'⟩ := load_kept hwkept spotId
      refine ⟨{ w with spacecode := spotId.text }, p', ?_, hshows', hwitems,
        fun _ => ⟨hwkept.currentplate, hwkept.le, hwkept.items⟩⟩
      simp only [HistoryWorld.started, hw]
      exact hload

/-- As long as the plates fit when they are converted and the texts of destroyed strings are still there,
the file lists the last records after every step, and a restart finds it as it was exactly when the space
code in it is the spot id. -/
theorem history_survives (conv : Iconv) (gone : List UInt8 → List UInt8) (spotId : SpotId)
    (ops : List HistoryOp) :
    Along (historyStep conv gone) (fun _ op => op.Fits conv gone) { spotId } ops →
      Along (historyStep conv gone) (fun s op => ∃ s', historyStep conv gone s op = some s'
        ∧ s'.Listed conv ∧ ∀ file, s'.file = some file → ∀ spotId : SpotId,
          file.Survives gone spotId ↔ file.spacecode = spotId.text) { spotId } ops := by
  intro h
  refine Along.of_invariant (HistoryWorld.inv_init conv gone spotId) h (fun s op s' hi hf hs => ?_)
    fun s op hi hf => ?_
  · obtain ⟨s₁, hs₁, hi₁⟩ := hi.step hf
    rw [hs, Option.some.injEq] at hs₁
    exact hs₁ ▸ hi₁
  · obtain ⟨s', hs', hi'⟩ := hi.step hf
    refine ⟨s', hs', fun file hfile => ?_, fun file hfile spotId => ?_⟩
    · rcases hi'.file with ⟨hnone, -⟩ | ⟨w, hw, -, hitems⟩
      · rw [hnone] at hfile
        cases hfile
      · rw [hw, Option.some.injEq] at hfile
        rw [← hfile]
        exact congrArg (List.zipIdx · 1) hitems
    · rcases hi'.file with ⟨hnone, -⟩ | ⟨w, hw, hkept, -⟩
      · rw [hnone] at hfile
        cases hfile
      · rw [hw, Option.some.injEq] at hfile
        rw [← hfile]
        exact survives_iff hkept spotId

/-- A conversion that leaves the bytes as they are. -/
def plainIconv : Iconv where
  chars t := (t.filter (· ≠ 0)).map fun b => [b]
  proper t c hc := by
    obtain ⟨b, hb, rfl⟩ := List.mem_map.1 hc
    rw [List.mem_singleton]
    intro h0
    simp [← h0] at hb

/-- A car that drives in at spot 3. -/
def spotThree : SpotId := ⟨[51], by decide, by decide⟩

def driveIn : ParkEvent := ⟨1, [65, 49], ⟨[50], by decide, by decide⟩, none, none⟩

theorem history_survives_restart :
    Along (historyStep plainIconv id) (fun s op => ∃ s', historyStep plainIconv id s op = some s'
      ∧ s'.Listed plainIconv ∧ ∀ file, s'.file = some file → ∀ spotId : SpotId,
        file.Survives id spotId ↔ file.spacecode = spotId.text) { spotId := spotThree }
      [.record driveIn, .restart spotThree, .light "红灯"] :=
  history_survives plainIconv id spotThree _
    ⟨⟨by decide, fun _ _ => rfl⟩, fun _ _ => ⟨trivial, fun _ _ => ⟨rfl, fun _ _ => trivial⟩⟩⟩

/-- The file that the first process writes has no space code; after a restart it has one. -/
theorem history_not_survives_first : ¬ ∀ conv spotId ops,
    Along (historyStep conv id) (fun s op => ∃ s', historyStep conv id s op = some s'
      ∧ s'.Listed conv ∧ ∀ file, s'.file = some file → file.Survives id s'.spotId)
      { spotId } ops := by
  intro h
  obtain ⟨⟨s', hs, -, hsurvives⟩, -⟩ := h plainIconv spotThree [.light "红灯"]
  have hspot : s'.spotId = spotThree := by
    have heq : (historyStep plainIconv id { spotId := spotThree } (.light "红灯")).map
      HistoryWorld.spotId = some spotThree := rfl
    rw [hs] at heq
    exact Option.some.inj heq
  have hfile : s'.file = some ⟨0, [], [], "红灯", []⟩ := by
    have heq : (historyStep plainIconv id { spotId := spotThree } (.light "红灯")).bind
      HistoryWorld.file = some ⟨0, [], [], "红灯", []⟩ := by decide
    rw [hs] at heq
    exact heq
  have hno : ¬ HistoryFile.Survives id spotThree ⟨0, [], [], "红灯", []⟩ := by decide
  exact hno (hspot ▸ hsurvives _ hfile)

end VdCamera.Park
