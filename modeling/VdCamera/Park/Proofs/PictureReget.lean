import VdCamera.Park.PictureReget
import VdCamera.Park.Proofs.ZehinRecords

/-!
# The record ids of the pictures that wait

A waiting picture has the record id of its record, or the number of the row in which the message of
its record waits.
-/

namespace VdCamera.Park

open Misc

variable {convertEnc : List UInt8 → List UInt8} {readBack : Nat → Nat} {enable : Bool}
  {rotateCount : Int} {s s' : ZehinStore} {op : ZehinStoreOp} {a : RecordAnswers}
  {ptr : Option (List UInt8)} {owner owner' recordId : Nat} {serial : Fin PARK_PIC_NUM}
  {p : ZehinPicture} {ps : List ZehinPicture}

/-! ## Record ids -/

/-- An answer in range that is taken for success is the record id. -/
theorem returned_of_inRange (h : InRange ptr) (hne : tpzehinSendMessage ptr ≠ 0) :
    (if zehinHas ptr then ptr.map fun text => (strtol text).toNat else none)
        = some (tpzehinSendMessage ptr)
      ∧ tpzehinSendMessage ptr < 2 ^ 63 := by
  cases ptr with
  | none => exact absurd rfl hne
  | some text =>
    obtain ⟨hlow, hhigh⟩ := h text rfl
    have hsend : tpzehinSendMessage (some text) = (strtol text).toNat := by
      simp only [tpzehinSendMessage, atoll]
      omega
    rw [hsend] at hne ⊢
    have hhas : zehinHas (some text) = true := by
      simp only [zehinHas, decide_eq_true_eq]
      omega
    rw [hhas]
    exact ⟨rfl, by omega⟩

/-- The record id of a message that is taken for sent. -/
theorem returns_of_inRange (h : ∀ i, InRange (a.message i)) {waiting : Bool}
    (hany : (List.finRange 3).any (a.seen waiting).message = true) :
    a.returns = some a.recordId ∧ a.recordId ≠ 0 ∧ a.recordId < 2 ^ 63 := by
  obtain ⟨i, hi⟩ : ∃ i, (List.finRange 3).find? (fun i => tpzehinSendMessage (a.message i) ≠ 0)
      = some i := by
    rw [← Option.isSome_iff_exists, List.find?_isSome]
    obtain ⟨i, hmem, hi⟩ := List.any_eq_true.mp hany
    exact ⟨i, hmem, hi⟩
  have hne : tpzehinSendMessage (a.message i) ≠ 0 := by simpa using List.find?_some hi
  obtain ⟨hreturned, hlt⟩ := returned_of_inRange (h i) hne
  have hid : a.recordId = tpzehinSendMessage (a.message i) := by
    rw [RecordAnswers.recordId, List.find?_map]
    show ((Option.map _ ((List.finRange 3).find?
      fun i => tpzehinSendMessage (a.message i) ≠ 0)).getD 0) = _
    rw [hi]
    rfl
  refine ⟨?_, hid ▸ hne, hid ▸ hlt⟩
  rw [RecordAnswers.returns, hi, Option.bind_some, hid]
  exact hreturned

/-! ## Saving pictures -/

/-- What saving pictures leaves of the store. -/
structure ZehinStore.Saves (owner recordId : Nat) (ps : List ZehinPicture) (s s' : ZehinStore) :
    Prop where
  msgreget : s'.msgreget = s.msgreget
  notices : s'.notices = s.notices
  returned : s'.returned = s.returned
  calls : s'.calls = s.calls
  rows : ∀ r ∈ s'.picreget.rows, r ∈ s.picreget.rows
    ∨ (r.owner = owner ∧ r.msgtableId = s.msgreget.lastKey ∧ r.msgrecordId = readLlu recordId)
  old : ∀ k i, s.Keeps k i → s'.Keeps k i
  new : ∀ p ∈ ps, s'.Keeps owner p.serial

theorem ZehinStore.saves_nil : s.Saves owner recordId [] s :=
  ⟨rfl, rfl, rfl, rfl, fun _ h => .inl h, fun _ _ h => h, nofun⟩

/-- A row that makes room is not forgotten. -/
theorem ZehinStore.saves_rotate : s.Saves owner recordId [] s.rotate := by
  unfold rotate
  split
  · exact saves_nil
  · rename_i r rs hrows
    refine ⟨rfl, rfl, rfl, rfl, ?_, ?_, nofun⟩
    · intro r' hr'
      exact .inl (s.picreget.mem_delete.mp hr').1
    · rintro k i (h | ⟨r', hr', hk, hi⟩ | h)
      · exact .inl h
      · by_cases hid : r'.id = r.id
        · have heq : r' = r := s.picreget.eq_of_key hr' (by simp [hrows]) hid
          subst heq
          right
          right
          rw [← hk, ← hi]
          exact List.mem_append_right _ (List.mem_singleton_self _)
        · exact .inr (.inl ⟨r', s.picreget.mem_delete.mpr ⟨hr', hid⟩, hk, hi⟩)
      · exact .inr (.inr (List.mem_append_left _ h))

theorem ZehinStore.saves_one (rotateCount : Int) (owner recordId : Nat) (s : ZehinStore)
    (p : ZehinPicture) :
    s.Saves owner recordId [p] (tpzehinSavePicture4reget rotateCount owner recordId s p) := by
  unfold tpzehinSavePicture4reget
  simp only
  obtain ⟨s₁, hs₁, hrotated⟩ : ∃ s₁, (if rotateCount ≤ s.picreget.rows.length then s.rotate else s)
      = s₁ ∧ s.Saves owner recordId [] s₁ := by
    refine ⟨_, rfl, ?_⟩
    split
    · exact saves_rotate
    · exact saves_nil
  rw [hs₁]
  refine ⟨hrotated.msgreget, hrotated.notices, hrotated.returned, hrotated.calls, ?_, ?_, ?_⟩
  · intro r hr
    rcases s₁.picreget.mem_insert.mp hr with hr | rfl
    · exact hrotated.rows r hr
    · exact .inr ⟨rfl, by rw [hrotated.msgreget], rfl⟩
  · intro k i h
    rcases hrotated.old k i h with h | ⟨r, hr, hk, hi⟩ | h
    · exact .inl h
    · exact .inr (.inl ⟨r, s₁.picreget.mem_insert.mpr (.inl hr), hk, hi⟩)
    · exact .inr (.inr h)
  · intro q hq
    rw [List.mem_singleton.mp hq]
    exact .inr (.inl ⟨_, s₁.picreget.mem_insert.mpr (.inr rfl), rfl, rfl⟩)

theorem ZehinStore.saves_foldl (rotateCount : Int) (owner recordId : Nat) (ps : List ZehinPicture)
    (s : ZehinStore) :
    s.Saves owner recordId ps (ps.foldl (tpzehinSavePicture4reget rotateCount owner recordId) s) := by
  induction ps generalizing s with
  | nil => exact saves_nil
  | cons p ps ih =>
    have hone := saves_one rotateCount owner recordId s p
    have hrest := ih (tpzehinSavePicture4reget rotateCount owner recordId s p)
    refine ⟨hrest.msgreget.trans hone.msgreget, hrest.notices.trans hone.notices,
      hrest.returned.trans hone.returned, hrest.calls.trans hone.calls, ?_, ?_, ?_⟩
    · intro r hr
      rcases hrest.rows r hr with hr | hr
      · exact hone.rows r hr
      · rw [hone.msgreget] at hr
        exact .inr hr
    · intro k i h
      exact hrest.old k i (hone.old k i h)
    · intro q hq
      rcases List.mem_cons.mp hq with rfl | hq
      · exact hrest.old _ _ (hone.new q (List.mem_singleton_self q))
      · exact hrest.new q hq

/-! ## Runs -/

/-- The notice whose message waits has no record id; a waiting picture has the record id of its
notice or the number of the row of its message. -/
structure ZehinStore.Inv (s : ZehinStore) : Prop where
  calls : ∀ c ∈ s.calls, s.returned c.1 = some c.2
  fresh : ∀ k, s.notices.length ≤ k → s.returned k = none
  waiting : ∀ m ∈ s.msgreget.rows, m.owner < s.notices.length ∧ s.returned m.owner = none
  distinct : ∀ m ∈ s.msgreget.rows, ∀ m' ∈ s.msgreget.rows, m.owner = m'.owner → m = m'
  numbered : ∀ p ∈ s.picreget.rows, p.msgrecordId = 0 →
    ∃ m ∈ s.msgreget.rows, m.id = p.msgtableId ∧ m.owner = p.owner
  filed : ∀ p ∈ s.picreget.rows, p.msgrecordId ≠ 0 → s.returned p.owner = some p.msgrecordId
  kept : ∀ k n, s.notices[k]? = some n →
    (s.returned k ≠ none ∨ ∃ m ∈ s.msgreget.rows, m.owner = k) →
    ∀ p ∈ n.zehinPictures, p.Saved → s.Keeps k p.serial

theorem ZehinStore.Inv.isFiled (h : s.Inv) : s.Filed :=
  ⟨h.calls, fun k n hn hk => h.kept k n hn (.inl hk)⟩

theorem ZehinStore.inv_init : ({} : ZehinStore).Inv :=
  ⟨nofun, fun _ _ => rfl, nofun, nofun, nofun, nofun, nofun⟩

/-- The invariant for a store that has one notice more, which is the platform's or waits. -/
theorem ZehinStore.Inv.push {n : Notice} (h : s.Inv)
    (hnotices : s'.notices = s.notices ++ [n])
    (hreturned : ∀ k, k ≠ s.notices.length → s'.returned k = s.returned k)
    (hcalls : ∀ c ∈ s'.calls, c ∈ s.calls
      ∨ (c.1 = s.notices.length ∧ s'.returned s.notices.length = some c.2))
    (hmsgs : ∀ m ∈ s'.msgreget.rows, m ∈ s.msgreget.rows
      ∨ (m.owner = s.notices.length ∧ s'.returned s.notices.length = none
        ∧ m.id = s'.msgreget.lastKey))
    (hold : ∀ m ∈ s.msgreget.rows, m ∈ s'.msgreget.rows)
    (hrows : ∀ r ∈ s'.picreget.rows, r ∈ s.picreget.rows
      ∨ (r.owner = s.notices.length ∧
        (if r.msgrecordId = 0 then
          ∃ m ∈ s'.msgreget.rows, m.id = r.msgtableId ∧ m.owner = s.notices.length
        else s'.returned s.notices.length = some r.msgrecordId)))
    (hkeeps : ∀ k i, s.Keeps k i → s'.Keeps k i)
    (hnew : (s'.returned s.notices.length ≠ none
        ∨ ∃ m ∈ s'.msgreget.rows, m.owner = s.notices.length) →
      ∀ p ∈ n.zehinPictures, p.Saved → s'.Keeps s.notices.length p.serial) :
    s'.Inv := by
  have hnone := h.fresh s.notices.length (Nat.le_refl _)
  have hne : ∀ k id, s.returned k = some id → k ≠ s.notices.length := by
    rintro k id hk rfl
    rw [hnone] at hk
    cases hk
  have hlen : s'.notices.length = s.notices.length + 1 := by rw [hnotices, List.length_append]; rfl
  refine ⟨?_, ?_, ?_, ?_, ?_, ?_, ?_⟩
  · intro c hc
    rcases hcalls c hc with hc | ⟨hk, hc⟩
    · have hcall := h.calls c hc
      rw [hreturned _ (hne _ _ hcall)]
      exact hcall
    · rw [hk]
      exact hc
  · intro k hk
    rw [hreturned k (by omega)]
    exact h.fresh k (by omega)
  · intro m hm
    rw [hlen]
    rcases hmsgs m hm with hm | ⟨howner, hm, -⟩
    · obtain ⟨hlt, hm⟩ := h.waiting m hm
      exact ⟨by omega, by rw [hreturned _ (by omega)]; exact hm⟩
    · rw [howner]
      exact ⟨by omega, hm⟩
  · intro m hm m' hm' heq
    rcases hmsgs m hm with hin | ⟨howner, -, hid⟩
    · rcases hmsgs m' hm' with hin' | ⟨howner', -, -⟩
      · exact h.distinct m hin m' hin' heq
      · exact absurd (h.waiting m hin).1 (by omega)
    · rcases hmsgs m' hm' with hin' | ⟨howner', -, hid'⟩
      · exact absurd (h.waiting m' hin').1 (by omega)
      · exact s'.msgreget.eq_of_key hm hm' (hid.trans hid'.symm)
  · intro r hr hzero
    rcases hrows r hr with hr | ⟨howner, hr⟩
    · obtain ⟨m, hm, hid, hm'⟩ := h.numbered r hr hzero
      exact ⟨m, hold m hm, hid, hm'⟩
    · rw [if_pos hzero] at hr
      rw [howner]
      exact hr
  · intro r hr hne'
    rcases hrows r hr with hr | ⟨howner, hr⟩
    · have hfiled := h.filed r hr hne'
      rw [hreturned _ (hne _ _ hfiled)]
      exact hfiled
    · rw [if_neg hne'] at hr
      rw [howner]
      exact hr
  · intro k m hm hk p hp hsaved
    rw [hnotices] at hm
    rcases Nat.lt_trichotomy k s.notices.length with hlt | rfl | hgt
    · rw [List.getElem?_append_left hlt] at hm
      apply hkeeps
      refine h.kept k m hm ?_ p hp hsaved
      rw [hreturned k (by omega)] at hk
      refine hk.imp_right ?_
      rintro ⟨m', hm', rfl⟩
      rcases hmsgs m' hm' with hm' | ⟨howner, -, -⟩
      · exact ⟨m', hm', rfl⟩
      · exact absurd hlt (by omega)
    · rw [List.getElem?_concat_length] at hm
      cases hm
      exact hnew hk p hp hsaved
    · rw [List.getElem?_eq_none (by rw [List.length_append]; exact hgt)] at hm
      cases hm

/-- The platform takes the message of a notice, and refuses pictures only when they can be saved. -/
theorem ZehinStore.Inv.deliver {n : Notice} {s₁ : ZehinStore} {saved : List ZehinPicture} (h : s.Inv)
    (hnotices : s₁.notices = s.notices ++ [n])
    (hreturned : s₁.returned = Function.update s.returned s.notices.length (some recordId))
    (hcalls : s₁.calls = s.calls ++ n.zehinPictures.map fun _ => (s.notices.length, recordId))
    (hmsgreget : s₁.msgreget = s.msgreget) (hpicreget : s₁.picreget = s.picreget)
    (hkeeps : ∀ k i, s.Keeps k i → s₁.Keeps k i) (hid : recordId ≠ 0) (hlt : recordId < 2 ^ 63)
    (hsaved : ∀ p ∈ n.zehinPictures, p.Saved → s₁.Keeps s.notices.length p.serial ∨ p ∈ saved) :
    (saved.foldl (tpzehinSavePicture4reget rotateCount s.notices.length recordId) s₁).Inv := by
  have hread : readLlu recordId = recordId := Nat.min_eq_left (by omega)
  have hown : s₁.returned s.notices.length = some recordId := by
    rw [hreturned, Function.update_self]
  have hsaves := ZehinStore.saves_foldl rotateCount s.notices.length recordId saved s₁
  apply h.push (n := n)
  · rw [hsaves.notices, hnotices]
  · intro k hk
    rw [hsaves.returned, hreturned, Function.update_of_ne hk]
  · intro c hc
    rw [hsaves.calls, hcalls] at hc
    rcases List.mem_append.mp hc with hc | hc
    · exact .inl hc
    · obtain ⟨q, -, rfl⟩ := List.mem_map.mp hc
      rw [hsaves.returned]
      exact .inr ⟨rfl, hown⟩
  · intro m hm
    rw [hsaves.msgreget, hmsgreget] at hm
    exact .inl hm
  · intro m hm
    rw [hsaves.msgreget, hmsgreget]
    exact hm
  · intro r hr
    rcases hsaves.rows r hr with hr | ⟨howner, -, hr⟩
    · rw [hpicreget] at hr
      exact .inl hr
    · rw [hread] at hr
      rw [hr, if_neg hid, hsaves.returned]
      exact .inr ⟨howner, hown⟩
  · intro k i hk
    exact hsaves.old k i (hkeeps k i hk)
  · intro _ p hp hps
    rcases hsaved p hp hps with hk | hk
    · exact hsaves.old _ _ hk
    · exact hsaves.new p hk

/-- The message of a notice is stored with the pictures. -/
theorem ZehinStore.Inv.store {n : Notice} {s₁ : ZehinStore} {row : ZehinMsg} (h : s.Inv)
    (hnotices : s₁.notices = s.notices ++ [n]) (hreturned : s₁.returned = s.returned)
    (hcalls : s₁.calls = s.calls)
    (hmsgreget : s₁.msgreget
      = s.msgreget.insert (fun id => (⟨id, s.notices.length, row⟩ : MsgregetRow)) fun _ => rfl)
    (hpicreget : s₁.picreget = s.picreget) (hkeeps : ∀ k i, s.Keeps k i → s₁.Keeps k i) :
    ((n.zehinPictures.filter (·.Saved)).foldl
      (tpzehinSavePicture4reget rotateCount s.notices.length 0) s₁).Inv := by
  have hnone := h.fresh s.notices.length (Nat.le_refl _)
  have hlast : s₁.msgreget.lastKey = s.msgreget.lastKey + 1 := by
    rw [hmsgreget, Table.lastKey_insert]
  have hmem : (⟨s.msgreget.lastKey + 1, s.notices.length, row⟩ : MsgregetRow) ∈ s₁.msgreget.rows := by
    rw [hmsgreget]
    exact s.msgreget.mem_insert.mpr (.inr rfl)
  have hsaves := ZehinStore.saves_foldl rotateCount s.notices.length 0
    (n.zehinPictures.filter (·.Saved)) s₁
  apply h.push (n := n)
  · rw [hsaves.notices, hnotices]
  · intro k _
    rw [hsaves.returned, hreturned]
  · intro c hc
    rw [hsaves.calls, hcalls] at hc
    exact .inl hc
  · intro m hm
    rw [hsaves.msgreget] at hm ⊢
    rw [hsaves.returned, hreturned, hlast]
    rw [hmsgreget] at hm
    rcases s.msgreget.mem_insert.mp hm with hm | rfl
    · exact .inl hm
    · exact .inr ⟨rfl, hnone, rfl⟩
  · intro m hm
    rw [hsaves.msgreget, hmsgreget]
    exact s.msgreget.mem_insert.mpr (.inl hm)
  · intro r hr
    rcases hsaves.rows r hr with hr | ⟨howner, hnumber, hr⟩
    · rw [hpicreget] at hr
      exact .inl hr
    · have hzero : r.msgrecordId = 0 := hr
      rw [if_pos hzero, hsaves.msgreget]
      exact .inr ⟨howner, _, hmem, by rw [hnumber, hlast], rfl⟩
  · intro k i hk
    exact hsaves.old k i (hkeeps k i hk)
  · intro _ p hp hps
    exact hsaves.new p (List.mem_filter.mpr ⟨hp, by simpa using hps⟩)

theorem ZehinStore.Inv.record (h : s.Inv) {n : Notice} (hmessage : ∀ i, InRange (a.message i))
    (hon : ∀ i, a.stillOnline i = true) (hsave : enable = true ∨ ∀ i, a.picture i = 0) :
    (s.record convertEnc enable rotateCount n a).Inv := by
  have hrecord := recordedAs_record convertEnc enable (a.seen (!s.msgreget.rows.isEmpty))
    (holds_notify s.records n) hon
  have hnone := h.fresh s.notices.length (Nat.le_refl _)
  unfold ZehinStore.record
  simp only
  cases hr : (tpzehinRecord convertEnc enable (a.seen (!s.msgreget.rows.isEmpty)) n.pictured
      (s.records.notify n)).2 with
  | delivered msg sent saved =>
    rw [hr] at hrecord
    obtain ⟨hany, -, rfl, rfl⟩ := hrecord
    obtain ⟨hreturns, hid, hlt⟩ := returns_of_inRange hmessage hany
    refine h.deliver (n := n) rfl (by rw [hreturns]) rfl rfl rfl ?_ hid hlt ?_
    · rintro k i (hk | hk | hk)
      · exact .inl (List.mem_append_left _ hk)
      · exact .inr (.inl hk)
      · exact .inr (.inr hk)
    · intro p hp hps
      by_cases hpic : a.picture p.serial = 0
      · left
        left
        apply List.mem_append_right
        exact List.mem_map.mpr ⟨p, List.mem_filter.mpr ⟨hp, by simpa using hpic⟩, rfl⟩
      · right
        have henable : enable = true := hsave.resolve_right fun hall => hpic (hall p.serial)
        apply List.mem_filter.mpr
        refine ⟨hp, ?_⟩
        simpa [RecordAnswers.seen, hpic, henable] using hps
  | stored row pictures =>
    rw [hr] at hrecord
    obtain ⟨-, rfl⟩ := hrecord
    exact h.store rfl rfl rfl rfl rfl fun k i hk => hk
  | dropped msg =>
    refine h.push (n := n) rfl (fun _ _ => rfl) (fun _ hc => .inl hc) (fun _ hm => .inl hm)
      (fun _ hm => hm) (fun _ hr => .inl hr) (fun _ _ hk => hk) ?_
    rintro (hk | ⟨m, hm, howner⟩)
    · exact absurd hnone hk
    · exact absurd (h.waiting m hm).1 (by omega)

/-- A message that waits is sent, and its pictures have no record id yet. -/
theorem ZehinStore.Inv.msgReget (hread : ∀ id < 2 ^ 63, readBack id = id) (h : s.Inv)
    (hptr : InRange ptr)
    (htied : ∀ m ∈ s.msgreget.rows.head?, ∀ p ∈ s.picreget.rows,
      p.msgtableId = m.id → p.msgrecordId = 0) :
    (tpzehinMsgReget readBack ptr s).Inv := by
  unfold tpzehinMsgReget
  cases hrows : s.msgreget.rows with
  | nil => exact h
  | cons m ms =>
    simp only
    split
    · exact h
    · rename_i hid
      have hm : m ∈ s.msgreget.rows := by simp [hrows]
      obtain ⟨howner, hnone⟩ := h.waiting m hm
      obtain ⟨hreturned, hlt⟩ := returned_of_inRange hptr hid
      rw [hreturned]
      generalize tpzehinSendMessage ptr = recordId at hid hlt
      have hne : ∀ k id, s.returned k = some id → k ≠ m.owner := by
        rintro k id hk rfl
        rw [hnone] at hk
        cases hk
      have hkeeps : ∀ k i, s.Keeps k i → ({ s with
          picreget := s.picreget.updateWhere (fun p => p.msgtableId = m.id)
            (fun p => { p with msgrecordId := readBack recordId }) fun _ => rfl
          msgreget := s.msgreget.delete m.id
          returned := Function.update s.returned m.owner (some recordId) } : ZehinStore).Keeps k i := by
        rintro k i (hk | ⟨r, hr, hk, hi⟩ | hk)
        · exact .inl hk
        · right
          left
          refine ⟨_, List.mem_map_of_mem hr, ?_⟩
          split
          · exact ⟨hk, hi⟩
          · exact ⟨hk, hi⟩
        · exact .inr (.inr hk)
      refine ⟨?_, ?_, ?_, ?_, ?_, ?_, ?_⟩
      · intro c hc
        have hcall := h.calls c hc
        show Function.update s.returned m.owner _ c.1 = _
        rw [Function.update_of_ne (hne _ _ hcall)]
        exact hcall
      · intro k hk
        show Function.update s.returned m.owner _ k = _
        have hk' : s.notices.length ≤ k := hk
        rw [Function.update_of_ne (by omega)]
        exact h.fresh k hk
      · intro m' hm'
        obtain ⟨hm', hid'⟩ := s.msgreget.mem_delete.mp hm'
        obtain ⟨howner', hnone'⟩ := h.waiting m' hm'
        refine ⟨howner', ?_⟩
        show Function.update s.returned m.owner _ m'.owner = _
        rw [Function.update_of_ne]
        · exact hnone'
        · intro heq
          exact hid' (congrArg MsgregetRow.id (h.distinct m' hm' m hm heq))
      · intro m₁ h₁ m₂ h₂
        exact h.distinct m₁ (s.msgreget.mem_delete.mp h₁).1 m₂ (s.msgreget.mem_delete.mp h₂).1
      · intro r hr hzero
        obtain ⟨r', hr', rfl⟩ := List.mem_map.mp hr
        by_cases hnumber : r'.msgtableId = m.id
        · rw [if_pos (by simpa using hnumber), hread recordId hlt] at hzero
          exact absurd hzero hid
        · rw [if_neg (by simpa using hnumber)] at hzero ⊢
          obtain ⟨m', hm', hid', howner'⟩ := h.numbered r' hr' hzero
          exact ⟨m', s.msgreget.mem_delete.mpr ⟨hm', fun heq => hnumber (hid'.symm.trans heq)⟩,
            hid', howner'⟩
      · intro r hr hnonzero
        obtain ⟨r', hr', rfl⟩ := List.mem_map.mp hr
        by_cases hnumber : r'.msgtableId = m.id
        · -- the picture belongs to the message: a row with that number has no record id
          obtain ⟨m', hm', hid', howner'⟩ := h.numbered r' hr'
            (htied m (by simp [hrows]) r' hr' hnumber)
          have heq : m' = m := s.msgreget.eq_of_key hm' hm (hid'.trans hnumber)
          rw [if_pos (by simpa using hnumber), hread recordId hlt]
          show Function.update s.returned m.owner _ r'.owner = _
          rw [← howner', heq, Function.update_self]
        · rw [if_neg (by simpa using hnumber)] at hnonzero ⊢
          have hfiled := h.filed r' hr' hnonzero
          show Function.update s.returned m.owner _ r'.owner = _
          rw [Function.update_of_ne (hne _ _ hfiled)]
          exact hfiled
      · intro k n hn hk p hp hps
        apply hkeeps
        refine h.kept k n hn ?_ p hp hps
        by_cases hkm : k = m.owner
        · exact .inr ⟨m, hm, hkm.symm⟩
        · refine hk.imp ?_ ?_
          · intro hk
            have hk' : Function.update s.returned m.owner (some recordId) k ≠ none := hk
            rwa [Function.update_of_ne hkm] at hk'
          · rintro ⟨m', hm', howner'⟩
            exact ⟨m', (s.msgreget.mem_delete.mp hm').1, howner'⟩

/-- A picture that waits is sent. -/
theorem ZehinStore.Inv.picReget {piclens ret : Int} (h : s.Inv) (hlens : 0 < piclens)
    (hret : ret ≠ SF_FILEISNULL) : (tpzehinPicReget piclens ret s).Inv := by
  unfold tpzehinPicReget
  split
  · exact h
  · rename_i p hfind
    have hp : p ∈ s.picreget.rows := List.mem_of_find?_eq_some hfind
    have hid : p.msgrecordId ≠ 0 := by
      have := List.find?_some hfind
      simp only [decide_eq_true_eq] at this
      omega
    have hcalls : ∀ c ∈ s.calls ++ [(p.owner, p.msgrecordId)], s.returned c.1 = some c.2 := by
      intro c hc
      rcases List.mem_append.mp hc with hc | hc
      · exact h.calls c hc
      · rw [List.mem_singleton.mp hc]
        exact h.filed p hp hid
    rw [if_neg (by omega)]
    simp only [if_neg (show ¬ piclens = 0 by omega)]
    split
    · have hkeeps : ∀ k i, s.Keeps k i → ({ s with
          calls := s.calls ++ [(p.owner, p.msgrecordId)]
          picreget := s.picreget.delete p.id
          delivered := s.delivered ++ [(p.owner, p.serial)] } : ZehinStore).Keeps k i := by
        rintro k i (hk | ⟨r, hr, hk, hi⟩ | hk)
        · exact .inl (List.mem_append_left _ hk)
        · by_cases hrid : r.id = p.id
          · have heq : r = p := s.picreget.eq_of_key hr hp hrid
            left
            rw [← hk, ← hi, heq]
            exact List.mem_append_right _ (List.mem_singleton_self _)
          · exact .inr (.inl ⟨r, s.picreget.mem_delete.mpr ⟨hr, hrid⟩, hk, hi⟩)
        · exact .inr (.inr hk)
      refine ⟨hcalls, h.fresh, h.waiting, h.distinct, ?_, ?_, ?_⟩
      · intro r hr
        exact h.numbered r (s.picreget.mem_delete.mp hr).1
      · intro r hr
        exact h.filed r (s.picreget.mem_delete.mp hr).1
      · intro k n hn hk p hp hps
        exact hkeeps k p.serial (h.kept k n hn hk p hp hps)
    · exact ⟨hcalls, h.fresh, h.waiting, h.distinct, h.numbered, h.filed, h.kept⟩

theorem ZehinStore.Inv.step (hread : ∀ id < 2 ^ 63, readBack id = id) (h : s.Inv)
    (htied : s.Tied enable op)
    (hstep : zehinStoreStep convertEnc readBack enable rotateCount s op = some s') : s'.Inv := by
  cases op with
  | record n a =>
    cases hstep
    exact h.record htied.1 htied.2.1 htied.2.2
  | msgReget ptr =>
    cases hstep
    exact h.msgReget hread htied.1 htied.2
  | picReget piclens ret =>
    cases hstep
    exact h.picReget htied.1 htied.2

/-- In every run whose steps leave the pictures with their records each picture is filed under its own
record, and none is lost. -/
theorem pictures_filed (convertEnc : List UInt8 → List UInt8) {readBack : Nat → Nat} (enable : Bool)
    (rotateCount : Int) (hread : ∀ id < 2 ^ 63, readBack id = id) {ops : List ZehinStoreOp}
    (htied : Along (zehinStoreStep convertEnc readBack enable rotateCount)
      (ZehinStore.Tied enable) {} ops) :
    Along (zehinStoreStep convertEnc readBack enable rotateCount)
      (After (zehinStoreStep convertEnc readBack enable rotateCount) ZehinStore.Filed) {} ops := by
  apply htied.of_invariant ZehinStore.inv_init
  · intro s op s' h htied hstep
    exact h.step hread htied hstep
  · intro s op h htied s' hstep
    exact (h.step hread htied hstep).isFiled

/-- A car with the plate comes, and its first picture has a byte. -/
def pictured (plateNum : List UInt8) : Notice :=
  .record {
    dbParkRecord := { plateNum, objectState := 1, imageName := fun _ => plateNum }
    picInfo := fun i => if i = 0 then { name := plateNum, buf := [255] } else {} }

/-- The platform is not online. -/
def offline : RecordAnswers where
  online := false
  message _ := none
  stillOnline _ := true
  picture _ := 0

/-- A car comes while the platform is not online; its message gets the record id 7, and its picture is
sent. -/
theorem pictures_filed_one :
    Along (zehinStoreStep id id true 10) (After (zehinStoreStep id id true 10) ZehinStore.Filed) {}
      [.record (pictured [65]) offline, .msgReget (some [55]), .picReget 1 0] := by
  apply pictures_filed id true 10 fun _ _ => rfl
  refine ⟨⟨fun _ => nofun, fun _ => rfl, .inl rfl⟩, fun s hs => ⟨⟨?_, ?_⟩, fun s' hs' =>
    ⟨⟨by decide, by decide⟩, fun _ _ => along_nil⟩⟩⟩
  · rintro text ⟨⟩
    decide
  · cases hs
    decide

/-- Two cars come while the platform is not online, the second one when the message of the first one
has been sent and its picture waits. The message of the second one gets the number that the first one
had, and the first one's picture gets the second one's record id. -/
theorem pictures_not_filed_reused :
    ¬ Along (zehinStoreStep id id true 10) (After (zehinStoreStep id id true 10) ZehinStore.Filed) {}
      [.record (pictured [65]) offline, .msgReget (some [55]), .record (pictured [66]) offline,
        .msgReget (some [56]), .picReget 1 0] := by
  intro h
  obtain ⟨-, h⟩ := h
  obtain ⟨-, h⟩ := h _ rfl
  obtain ⟨-, h⟩ := h _ rfl
  obtain ⟨-, h⟩ := h _ rfl
  obtain ⟨hpicture, -⟩ := h _ rfl
  have hcall := (hpicture _ rfl).own (0, 8) (by decide)
  exact absurd hcall (by decide)

end VdCamera.Park
