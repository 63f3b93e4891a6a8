import VdCamera.Storage.DbWrite

/-!
# What the success of `db_write` means

A success means that the record is stored, and nothing is left open, if and only if the insert does not
end with the one error code that is accepted and no open fails with a handle.
-/

namespace VdCamera.Storage

variable {c : SqliteCodes} {dbName sqlInsert sqlCreate : Option String} {calls calls' : List DbCall}

/-! ## What is still held -/

/-- The number of handles that are open after the calls. -/
def openHandles : List DbCall → Int
  | [] => 0
  | .sqliteOpen _ true :: calls => openHandles calls + 1
  | .sqliteClose :: calls => openHandles calls - 1
  | _ :: calls => openHandles calls

/-- How often the mutex is locked after the calls. -/
def locksHeld : List DbCall → Int
  | [] => 0
  | .lock :: calls => locksHeld calls + 1
  | .unlock :: calls => locksHeld calls - 1
  | _ :: calls => locksHeld calls

theorem openHandles_append : openHandles (calls ++ calls') = openHandles calls + openHandles calls' := by
  fun_induction openHandles calls with
  | case1 => simp
  | case2 name calls ih => simp [openHandles, ih]; omega
  | case3 calls ih => simp [openHandles, ih]; omega
  | case4 call calls h1 h2 ih =>
    cases call with
    | sqliteOpen name handle =>
      cases handle with
      | true => exact absurd rfl (h1 name)
      | false => simpa [openHandles] using ih
    | sqliteClose => exact absurd rfl h2
    | _ => simpa [openHandles] using ih

theorem locksHeld_append : locksHeld (calls ++ calls') = locksHeld calls + locksHeld calls' := by
  fun_induction locksHeld calls with
  | case1 => simp
  | case2 calls ih => simp [locksHeld, ih]; omega
  | case3 calls ih => simp [locksHeld, ih]; omega
  | case4 call calls h1 h2 ih =>
    cases call with
    | lock => exact absurd rfl h1
    | unlock => exact absurd rfl h2
    | _ => simpa [locksHeld] using ih

/-! ## The paths -/

theorem accepted_iff {rc : Int} : accepted rc = true ↔ rc = 0 ∨ rc = 1 := by
  unfold accepted
  simp
  omega

/-- With the database open it is closed again, the mutex is not touched, and a success needs both
statements to be accepted. -/
theorem dbExec_spec (c : SqliteCodes) (ins cre : String) :
    openHandles (dbExec c ins cre).2 = -1 ∧ locksHeld (dbExec c ins cre).2 = 0 ∧
      ((dbExec c ins cre).1 = 0 ↔ accepted c.createRc = true ∧ accepted c.insertRc = true) ∧
      ((dbExec c ins cre).1 = 0 → .insert ins c.insertRc ∈ (dbExec c ins cre).2) := by
  unfold dbExec
  cases accepted c.createRc with
  | false => simp [openHandles, locksHeld]
  | true =>
    cases accepted c.insertRc with
    | false => simp [openHandles, locksHeld]
    | true => simp [openHandles, locksHeld]

theorem insert_rc (c : SqliteCodes) (ins cre sql : String) (rc : Int)
    (h : .insert sql rc ∈ (dbExec c ins cre).2) : sql = ins ∧ rc = c.insertRc := by
  unfold dbExec at h
  split_ifs at h <;> simp_all

/-! ## The result -/

/-- A success means that the insert was made with `SQLITE_OK`, by `db_write` and by the functions around
it; afterwards no handle is open and the mutex is free. -/
structure WriteOk (c : SqliteCodes) (dbName sqlInsert sqlCreate : Option String) : Prop where
  stored : (dbWrite c dbName sqlInsert sqlCreate).1 = 0 → ∃ sql, sqlInsert = some sql ∧
    .insert sql SQLITE_OK ∈ (dbWrite c dbName sqlInsert sqlCreate).2
  same : (dbWriteLocked c dbName sqlInsert sqlCreate).1 = 0 ↔
    (dbWrite c dbName sqlInsert sqlCreate).1 = 0
  closed : openHandles (dbWriteLocked c dbName sqlInsert sqlCreate).2 = 0
  released : locksHeld (dbWriteLocked c dbName sqlInsert sqlCreate).2 = 0

theorem dbWriteLocked_eq : dbWriteLocked c dbName sqlInsert sqlCreate
    = (if (dbWrite c dbName sqlInsert sqlCreate).1 ≠ 0 then -1 else 0,
      .lock :: ((dbWrite c dbName sqlInsert sqlCreate).2 ++ [.unlock])) := rfl

theorem dbWriteLocked_fst :
    (dbWriteLocked c dbName sqlInsert sqlCreate).1 = 0 ↔
      (dbWrite c dbName sqlInsert sqlCreate).1 = 0 := by
  rw [dbWriteLocked_eq]
  by_cases h : (dbWrite c dbName sqlInsert sqlCreate).1 = 0
  · simp [h]
  · simp [h]

theorem openHandles_locked : openHandles (dbWriteLocked c dbName sqlInsert sqlCreate).2
    = openHandles (dbWrite c dbName sqlInsert sqlCreate).2 := by
  have hunlock : openHandles [.unlock] = 0 := rfl
  have hlock : ∀ calls, openHandles (.lock :: calls) = openHandles calls := fun _ => rfl
  rw [dbWriteLocked_eq, hlock, openHandles_append, hunlock, Int.add_zero]

theorem locksHeld_locked : locksHeld (dbWriteLocked c dbName sqlInsert sqlCreate).2
    = locksHeld (dbWrite c dbName sqlInsert sqlCreate).2 := by
  have hunlock : locksHeld [.unlock] = -1 := rfl
  have hlock : ∀ calls, locksHeld (.lock :: calls) = locksHeld calls + 1 := fun _ => rfl
  rw [dbWriteLocked_eq, hlock, locksHeld_append, hunlock]
  omega

/-- The arguments are there. -/
def Given (dbName sqlInsert sqlCreate : Option String) : Prop :=
  dbName.isSome = true ∧ sqlInsert.isSome = true ∧ sqlCreate.isSome = true

theorem dbWrite_not_given (h : ¬ Given dbName sqlInsert sqlCreate) :
    dbWrite c dbName sqlInsert sqlCreate = (-1, []) := by
  rcases dbName with _ | _ <;> rcases sqlInsert with _ | _ <;> rcases sqlCreate with _ | _ <;>
    first | rfl | exact absurd ⟨rfl, rfl, rfl⟩ h

/-- `db_write` is right if and only if an open that fails gives no handle, and an insert that is made
does not end with `SQLITE_ERROR`. -/
theorem write_ok_iff (c : SqliteCodes) (dbName sqlInsert sqlCreate : Option String) :
    WriteOk c dbName sqlInsert sqlCreate ↔ (Given dbName sqlInsert sqlCreate →
      (c.openRc ≠ SQLITE_OK → c.handle = false) ∧
      (c.openRc = SQLITE_OK → c.createRc = 0 ∨ c.createRc = 1 → c.insertRc ≠ 1)) := by
  by_cases hgiven : Given dbName sqlInsert sqlCreate
  · obtain ⟨⟨name, rfl⟩, ⟨ins, rfl⟩, ⟨cre, rfl⟩⟩ :=
      And.imp Option.isSome_iff_exists.mp (And.imp Option.isSome_iff_exists.mp
        Option.isSome_iff_exists.mp) hgiven
    by_cases hopen : c.openRc = SQLITE_OK
    · have hhandle := c.handle_of_open hopen
      obtain ⟨hclosed, hlock, hret, hins⟩ := dbExec_spec c ins cre
      have heq : dbWrite c (some name) (some ins) (some cre)
          = ((dbExec c ins cre).1, .sqliteOpen name true :: (dbExec c ins cre).2) := by
        rw [dbWrite, if_neg (by simpa using hopen), hhandle]
      constructor
      · rintro ⟨hstored, -, -, -⟩ -
        refine ⟨fun h => absurd hopen h, fun _ hcreate hinsert => ?_⟩
        rw [heq] at hstored
        obtain ⟨sql, hsql, hmem⟩ := hstored (hret.mpr ⟨accepted_iff.mpr hcreate,
          accepted_iff.mpr (.inr hinsert)⟩)
        have hrc := (insert_rc c ins cre sql SQLITE_OK
          ((List.mem_cons.mp hmem).resolve_left (by simp))).2
        rw [hinsert] at hrc
        exact absurd hrc (by decide)
      · intro hcond
        have hinsert := (hcond hgiven).2 hopen
        refine ⟨?_, dbWriteLocked_fst, ?_, ?_⟩
        · rw [heq]
          intro h0
          obtain ⟨hcreate, hacc⟩ := hret.mp h0
          have hok : c.insertRc = SQLITE_OK :=
            (accepted_iff.mp hacc).resolve_right (hinsert (accepted_iff.mp hcreate))
          have hmem := hins h0
          rw [hok] at hmem
          exact ⟨ins, rfl, List.mem_cons_of_mem _ hmem⟩
        · rw [openHandles_locked, heq, openHandles, hclosed]
          rfl
        · rw [locksHeld_locked, heq]
          exact hlock
    · have heq : dbWrite c (some name) (some ins) (some cre) = (-1, [.sqliteOpen name c.handle]) := by
        rw [dbWrite, if_pos hopen]
      constructor
      · rintro ⟨-, -, hclosed, -⟩ -
        refine ⟨fun _ => ?_, fun h => absurd h hopen⟩
        rw [openHandles_locked, heq] at hclosed
        cases hh : c.handle with
        | false => rfl
        | true =>
          rw [hh] at hclosed
          exact absurd hclosed Int.one_ne_zero
      · intro hcond
        have hhandle := (hcond hgiven).1 hopen
        refine ⟨?_, dbWriteLocked_fst, ?_, ?_⟩
        · rw [heq]
          exact fun h => absurd h (by simp)
        · rw [openHandles_locked, heq, hhandle]
          rfl
        · rw [locksHeld_locked, heq]
          rfl
  · have heq := dbWrite_not_given (c := c) hgiven
    refine ⟨fun _ h => absurd h hgiven, fun _ => ⟨?_, dbWriteLocked_fst, ?_, ?_⟩⟩
    · rw [heq]
      exact fun h => absurd h (by decide)
    · rw [openHandles_locked, heq]
      rfl
    · rw [locksHeld_locked, heq]
      rfl

/-- The insert ends with `SQLITE_ERROR`, a success is returned. -/
theorem not_write_ok : ¬ WriteOk ⟨0, 0, 1, true, fun _ => rfl⟩ (some "traffic.db") (some "INSERT ...;")
    (some "CREATE TABLE IF NOT EXISTS ...;") := by
  intro h
  obtain ⟨sql, hsql, hmem⟩ := h.stored rfl
  cases hsql
  exact absurd hmem (by decide)

end VdCamera.Storage
