import VdCamera.Storage.RecordClear

/-!
# When the cleaning ends

An iteration deletes the oldest record, unless the record is kept for the history (`flag_store` 1):
then it stays, and is the oldest again. So the loop ends if and only if no record is kept; the count
of equal plate numbers never ends it.
-/

namespace VdCamera.Storage

open Misc

variable {e : Round} {plate : String → Nat → String} {path : String} {st st' : ClearState}
variable {r : TrafficRecord} {plateNum : String}

/-- The statements of the cleaning succeed. -/
structure Round.SqlOk (e : Round) : Prop where
  readFile : e.readFile = true
  readRecord : e.readRecord = true
  deleteRecord : e.deleteRecord = true
  openIndex : e.openIndex = true
  deleteFile : e.deleteFile = true

/-- The records of the database that is emptied. -/
def ClearState.rows (path : String) (st : ClearState) : List TrafficRecord :=
  (st.store.records path).rows

/-- The oldest record is found, whatever its plate number. -/
theorem dbGetOldestRecord_eq (he : e.SqlOk) (plate : String → Nat → String) (path : String)
    (st : ClearState) :
    (dbGetOldestRecord e plate path st).map Prod.fst = (st.rows path).head? := by
  unfold dbGetOldestRecord
  rw [if_pos he.readRecord, Table.selectAfter_zero, ClearState.rows]
  cases (st.store.records path).rows.head? with
  | none => rfl
  | some r =>
    dsimp only
    split <;> rfl

/-- What an iteration does: the first record is deleted, or unmarked if it is kept. -/
theorem clearStep_cases (he : e.SqlOk) (h : clearStep e plate path st = some st') :
    ∃ r rs, st.rows path = r :: rs ∧
      (r.flagStore = 1 ∧ st'.rows path = { r with flagSend := 0 } :: rs ∨
        r.flagStore ≠ 1 ∧ st'.rows path = rs) := by
  unfold clearStep at h
  cases hold : dbGetOldestRecord e plate path st with
  | none => simp [hold] at h
  | some found =>
    obtain ⟨r, plateNum⟩ := found
    have hhead := dbGetOldestRecord_eq he plate path st
    rw [hold, Option.map_some] at hhead
    obtain ⟨rs, hrows⟩ := List.head?_eq_some_iff.mp hhead.symm
    simp only [hold, Option.some.injEq] at h
    subst h
    refine ⟨r, rs, hrows, ?_⟩
    by_cases hstore : r.flagStore = 1
    · refine Or.inl ⟨hstore, ?_⟩
      simp only [ClearState.rows, dbDeleteTrafficRecords, Store.setRecords, he.deleteRecord, hstore,
        Bool.not_true, Bool.false_eq_true, if_false, if_true, Function.update_self]
      rw [Table.rows_update_head _ hrows]
      simp [hstore]
    · refine Or.inr ⟨hstore, ?_⟩
      simp only [ClearState.rows, dbDeleteTrafficRecords, Store.setRecords, he.deleteRecord, hstore,
        Bool.not_true, Bool.false_eq_true, if_false, Function.update_self]
      rw [Table.rows_delete_head _ hrows]

/-- The loop goes on as long as there is a record. -/
theorem clearStep_isSome (he : e.SqlOk) :
    (clearStep e plate path st).isSome = true ↔ st.rows path ≠ [] := by
  have hhead := dbGetOldestRecord_eq he plate path st
  unfold clearStep
  cases hold : dbGetOldestRecord e plate path st with
  | none =>
    rw [hold, Option.map_none] at hhead
    simp [List.head?_eq_none_iff.mp hhead.symm]
  | some found =>
    rw [hold, Option.map_some] at hhead
    obtain ⟨rs, hrows⟩ := List.head?_eq_some_iff.mp hhead.symm
    simp [hrows]

/-- The cleaning of a database ends, and each iteration but the last takes a record away. -/
def ClearEnds (e : Round) (plate : String → Nat → String) (path : String)
    (st : ClearState) : Prop :=
  (∃ n, (loop (clearStep e plate path) n st).isSome = true) ∧
    ∀ st₁ st₂, Reaches (clearStep e plate path) st st₁ → clearStep e plate path st₁ = some st₂ →
      (st₂.rows path).length < (st₁.rows path).length

theorem noneKept_clearStep (he : e.SqlOk) (hst : ∀ r ∈ st.rows path, r.flagStore ≠ 1)
    (h : clearStep e plate path st = some st') :
    (∀ r ∈ st'.rows path, r.flagStore ≠ 1) ∧ (st'.rows path).length < (st.rows path).length := by
  obtain ⟨r, rs, hrows, ⟨hkept, -⟩ | ⟨-, hrows'⟩⟩ := clearStep_cases he h
  · exact absurd hkept (hst r (by simp [hrows]))
  · rw [hrows']
    refine ⟨?_, by simp [hrows]⟩
    intro r' hr'
    exact hst r' (by simp [hrows, hr'])

theorem kept_clearStep (he : e.SqlOk) (hst : ∃ r ∈ st.rows path, r.flagStore = 1) :
    ∃ st', clearStep e plate path st = some st' ∧ ∃ r ∈ st'.rows path, r.flagStore = 1 := by
  obtain ⟨r, hr, hkept⟩ := hst
  have hsome : (clearStep e plate path st).isSome = true := by
    rw [clearStep_isSome he]
    exact List.ne_nil_of_mem hr
  obtain ⟨st', h⟩ := Option.isSome_iff_exists.mp hsome
  refine ⟨st', h, ?_⟩
  obtain ⟨r₀, rs, hrows, ⟨hkept₀, hrows'⟩ | ⟨hfree, hrows'⟩⟩ := clearStep_cases he h
  · exact ⟨{ r₀ with flagSend := 0 }, by simp [hrows'], hkept₀⟩
  · rw [hrows] at hr
    rcases List.mem_cons.mp hr with rfl | hr
    · exact absurd hkept hfree
    · exact ⟨r, by simpa [hrows'] using hr, hkept⟩

/-- A record that is kept keeps the loop going. -/
theorem clear_loops (he : e.SqlOk) (hst : ∃ r ∈ st.rows path, r.flagStore = 1) (n : Nat) :
    loop (clearStep e plate path) n st = none :=
  loop_eq_none_of_invariant (fun _ => kept_clearStep he) hst n

/-- Without such records the loop ends: there is one record less after each iteration. -/
theorem clear_ends (he : e.SqlOk) (hst : ∀ r ∈ st.rows path, r.flagStore ≠ 1) :
    (loop (clearStep e plate path) ((st.rows path).length + 1) st).isSome = true :=
  loop_isSome_of_decreasing (fun st => (st.rows path).length) (fun _ _ => noneKept_clearStep he) hst
    (Nat.lt_succ_self _)

/-- The cleaning of a database ends if and only if none of its records is kept for the history. -/
theorem clearEnds_iff (he : e.SqlOk) :
    ClearEnds e plate path st ↔ ∀ r ∈ (st.store.records path).rows, r.flagStore ≠ 1 := by
  constructor
  · rintro ⟨⟨n, hn⟩, -⟩ r hr hkept
    rw [clear_loops he ⟨r, hr, hkept⟩] at hn
    cases hn
  · intro hfree
    constructor
    · exact ⟨_, clear_ends he hfree⟩
    · intro st₁ st₂ hreach hstep
      have hfree₁ := hreach.invariant hfree fun st st' hst h => (noneKept_clearStep he hst h).1
      exact (noneKept_clearStep he hfree₁ hstep).2

/-- All statements succeed; the links do not matter here. -/
def sqlRound : Round where
  ftpUp := false
  mqUp := false

theorem sqlRound_ok : sqlRound.SqlOk := ⟨rfl, rfl, rfl, rfl, rfl⟩

/-- One database with one record. -/
def oneStored (flagStore : Nat) : ClearState where
  store :=
    { dbFiles := ⟨[⟨1, "a.db", 0, 0⟩], by simp, by simp⟩
      records _ := ⟨[⟨1, "mmc", "a.jpg", 0, flagStore⟩], by simp, by simp⟩
      images := [("mmc", "a.jpg")] }

theorem clearEnds_iff_free : ClearEnds sqlRound (fun _ _ => "") "a.db" (oneStored 0) :=
  (clearEnds_iff sqlRound_ok).mpr (by decide)

/-- A record that is kept is read again and again. -/
theorem not_clearEnds_kept : ¬ ClearEnds sqlRound (fun _ _ => "") "a.db" (oneStored 1) := by
  rintro ⟨⟨n, hn⟩, -⟩
  rw [clear_loops sqlRound_ok ⟨_, List.mem_cons_self, rfl⟩] at hn
  cases hn

/-- The whole call returns, unless it is to empty a database with a record that is kept. -/
theorem dbRecordClr_returns_iff (he : e.SqlOk) {free : Option Nat} {remain : Nat} :
    (∃ n, (dbRecordClr e plate n free remain st).isSome = true) ↔
      ∀ p, free = some p → p ≤ remain → ∀ f, dbGetOldestDBFile e st.store = some f →
        ∀ r ∈ (st.store.records f.recordPath).rows, r.flagStore ≠ 1 := by
  unfold dbRecordClr
  cases free with
  | none => simp
  | some p =>
    by_cases hp : p > remain
    · simp only [hp, if_true, Option.isSome_some, exists_const, Option.some.injEq, forall_eq', true_iff]
      intro hle
      omega
    · cases hold : dbGetOldestDBFile e st.store with
      | none => simp [hp]
      | some f =>
        simp only [hp, if_false, Option.isSome_map, Option.some.injEq, forall_eq']
        constructor
        · rintro ⟨n, hn⟩ - r hr hkept
          rw [clear_loops he ⟨r, hr, hkept⟩] at hn
          cases hn
        · intro hfree
          exact ⟨_, clear_ends he (hfree (Nat.le_of_not_lt hp))⟩

end VdCamera.Storage
