import Mathlib.Data.List.Nodup
import Mathlib.Tactic.Common

/-!
# Tables with a primary key

The rows of a table with an integer primary key, in the order of the key, and the statements that
select the first row behind a key, insert a row behind the last one, delete a row and update a row.
-/

namespace VdCamera.Misc

/-- Rows with distinct positive keys, in the order of the keys. -/
structure Table (α : Type*) (key : α → Nat) where
  rows : List α
  sorted : rows.Pairwise fun a b => key a < key b
  pos : ∀ r ∈ rows, 0 < key r

namespace Table

variable {α : Type*} {key : α → Nat} (t : Table α key) {cond : α → Bool} {last k : Nat} {r r' : α}

def empty : Table α key := ⟨[], List.Pairwise.nil, fun _ h => absurd h List.not_mem_nil⟩

/-- `SELECT * FROM t WHERE ID>last AND cond LIMIT 1`. -/
def selectAfter (last : Nat) (cond : α → Bool) : Option α :=
  t.rows.find? fun r => last < key r && cond r

/-- `DELETE FROM t WHERE ID=k`. -/
def delete (k : Nat) : Table α key :=
  ⟨t.rows.filter (key · ≠ k), t.sorted.filter _, fun r h => t.pos r (List.mem_filter.mp h).1⟩

/-- `UPDATE t SET .. WHERE ID=k`, where the assignment leaves the key. -/
def update (k : Nat) (f : α → α) (hf : ∀ r, key (f r) = key r) : Table α key :=
  have hkey (r : α) : key (if key r = k then f r else r) = key r := by
    split
    · exact hf r
    · rfl
  ⟨t.rows.map fun r => if key r = k then f r else r,
    List.pairwise_map.mpr (t.sorted.imp fun {a b} h => by rwa [hkey a, hkey b]),
    fun r h => by
      obtain ⟨r', hr', rfl⟩ := List.mem_map.mp h
      rw [hkey r']
      exact t.pos r' hr'⟩

/-- `UPDATE t SET .. WHERE cond`, where the assignment leaves the key. -/
def updateWhere (cond : α → Bool) (f : α → α) (hf : ∀ r, key (f r) = key r) : Table α key :=
  have hkey (r : α) : key (if cond r then f r else r) = key r := by
    split
    · exact hf r
    · rfl
  ⟨t.rows.map fun r => if cond r then f r else r,
    List.pairwise_map.mpr (t.sorted.imp fun {a b} h => by rwa [hkey a, hkey b]),
    fun r h => by
      obtain ⟨r', hr', rfl⟩ := List.mem_map.mp h
      rw [hkey r']
      exact t.pos r' hr'⟩

/-- The largest key; `0` for a table without rows. -/
def lastKey : Nat := (t.rows.getLast?.map key).getD 0

theorem key_le_lastKey (hr : r ∈ t.rows) : key r ≤ t.lastKey := by
  rcases List.eq_nil_or_concat t.rows with hnil | ⟨before, last, hrows⟩
  · rw [hnil] at hr
    cases hr
  · rw [List.concat_eq_append] at hrows
    have hlast : t.lastKey = key last := by simp [lastKey, hrows]
    rw [hlast]
    rw [hrows] at hr
    rcases List.mem_append.mp hr with hr | hr
    · have hsorted := t.sorted
      rw [hrows] at hsorted
      have hbehind := (List.pairwise_append.mp hsorted).2.2
      exact Nat.le_of_lt (hbehind r hr last (List.mem_singleton_self last))
    · exact Nat.le_of_eq (congrArg key (List.mem_singleton.mp hr))

/-- `INSERT INTO t VALUES(NULL, ..)`: the row gets the key behind the largest one. -/
def insert (mk : Nat → α) (hmk : ∀ k, key (mk k) = k) : Table α key where
  rows := t.rows ++ [mk (t.lastKey + 1)]
  sorted := List.pairwise_append.mpr ⟨t.sorted, List.pairwise_singleton _ _, fun r hr r' hr' => by
    rw [List.mem_singleton.mp hr', hmk]
    exact Nat.lt_succ_of_le (t.key_le_lastKey hr)⟩
  pos r hr := by
    rcases List.mem_append.mp hr with hr | hr
    · exact t.pos r hr
    · rw [List.mem_singleton.mp hr, hmk]
      exact Nat.succ_pos _

theorem mem_insert {mk : Nat → α} {hmk : ∀ k, key (mk k) = k} :
    r ∈ (t.insert mk hmk).rows ↔ r ∈ t.rows ∨ r = mk (t.lastKey + 1) := by
  simp [insert]

theorem lastKey_insert {mk : Nat → α} {hmk : ∀ k, key (mk k) = k} :
    (t.insert mk hmk).lastKey = t.lastKey + 1 := by
  rw [lastKey, insert, List.getLast?_concat]
  exact hmk _

theorem mem_delete : r ∈ (t.delete k).rows ↔ r ∈ t.rows ∧ key r ≠ k := by
  simp [delete]

theorem mem_update {f : α → α} {hf : ∀ r, key (f r) = key r} : r ∈ (t.update k f hf).rows ↔
    (r ∈ t.rows ∧ key r ≠ k) ∨ ∃ r' ∈ t.rows, key r' = k ∧ f r' = r := by
  simp only [update, List.mem_map]
  constructor
  · rintro ⟨r', hr', rfl⟩
    by_cases hk : key r' = k
    · exact Or.inr ⟨r', hr', hk, by rw [if_pos hk]⟩
    · rw [if_neg hk]
      exact Or.inl ⟨hr', hk⟩
  · rintro (⟨hr, hk⟩ | ⟨r', hr', hk, rfl⟩)
    · exact ⟨r, hr, if_neg hk⟩
    · exact ⟨r', hr', if_pos hk⟩

theorem head_key_lt {rs : List α} (h : t.rows = r :: rs) : ∀ r' ∈ rs, key r < key r' := by
  have hsorted := t.sorted
  rw [h] at hsorted
  exact (List.pairwise_cons.mp hsorted).1

theorem rows_delete_head {rs : List α} (h : t.rows = r :: rs) : (t.delete (key r)).rows = rs := by
  have hne : ∀ r' ∈ rs, key r' ≠ key r := fun r' hr' => Nat.ne_of_gt (t.head_key_lt h r' hr')
  simpa [delete, h] using hne

/-- Deleting the first rows one by one leaves the others. -/
theorem rows_deleteFirst (n : Nat) :
    ((t.rows.take n).foldl (fun t r => t.delete (key r)) t).rows = t.rows.drop n := by
  induction n generalizing t with
  | zero => rfl
  | succ n ih =>
    cases hrows : t.rows with
    | nil => simp [hrows]
    | cons r rs =>
      have hrest := t.rows_delete_head hrows
      show ((rs.take n).foldl (fun t r => t.delete (key r)) (t.delete (key r))).rows = rs.drop n
      rw [← hrest]
      exact ih (t.delete (key r))

/-- Deleting the last row leaves the ones before it. -/
theorem rows_delete_last {rs : List α} (h : t.rows = rs ++ [r]) :
    (t.delete (key r)).rows = rs := by
  have hsorted := t.sorted
  rw [h] at hsorted
  have hbefore := (List.pairwise_append.mp hsorted).2.2
  have hne : ∀ r' ∈ rs, key r' ≠ key r := fun r' hr' =>
    Nat.ne_of_lt (hbefore r' hr' r (List.mem_singleton_self r))
  have hkept : rs.filter (key · ≠ key r) = rs := by simpa using hne
  simpa [delete, h] using hkept

theorem rows_update_head {rs : List α} {f : α → α} {hf : ∀ r, key (f r) = key r}
    (h : t.rows = r :: rs) : (t.update (key r) f hf).rows = f r :: rs := by
  have hrest : rs.map (fun r' => if key r' = key r then f r' else r') = rs := by
    conv_rhs => rw [← List.map_id rs]
    apply List.map_congr_left
    intro r' hr'
    exact if_neg (Nat.ne_of_gt (t.head_key_lt h r' hr'))
  simp [update, h, hrest]

theorem selectAfter_zero : t.selectAfter 0 (fun _ => true) = t.rows.head? := by
  unfold selectAfter
  cases hrows : t.rows with
  | nil => rfl
  | cons r rs =>
    have hpos := t.pos r (by simp [hrows])
    simp [hpos]

/-- The selected row is the first one that meets the condition. -/
theorem selectAfter_some (h : t.selectAfter last cond = some r) :
    r ∈ t.rows ∧ last < key r ∧ cond r = true ∧
      ∀ r' ∈ t.rows, last < key r' → key r' < key r → cond r' = false := by
  obtain ⟨hr, before, after, hrows, hbefore⟩ := List.find?_eq_some_iff_append.mp h
  simp only [Bool.and_eq_true, decide_eq_true_eq] at hr
  have hmem : r ∈ t.rows := by
    rw [hrows]
    exact List.mem_append_right before List.mem_cons_self
  refine ⟨hmem, hr.1, hr.2, ?_⟩
  intro r' hr' hlast hlt
  rw [hrows] at hr'
  rcases List.mem_append.mp hr' with hr' | hr'
  · simpa [hlast] using hbefore r' hr'
  · have hsorted := t.sorted
    rw [hrows] at hsorted
    have hafter := (List.pairwise_cons.mp (List.pairwise_append.mp hsorted).2.1).1
    rcases List.mem_cons.mp hr' with rfl | hr'
    · exact absurd hlt (Nat.lt_irrefl _)
    · exact absurd (hafter r' hr') (Nat.lt_asymm hlt)

theorem selectAfter_none (h : t.selectAfter last cond = none) :
    ∀ r ∈ t.rows, last < key r → cond r = false := by
  intro r hr hlast
  simpa [hlast] using List.find?_eq_none.mp h r hr

/-- The rows that a cursor at `last` has still to come to. -/
def rowsAfter (last : Nat) (cond : α → Bool) : List α :=
  t.rows.filter fun r => last < key r && cond r

theorem rowsAfter_zero : t.rowsAfter 0 cond = t.rows.filter cond :=
  List.filter_congr fun r hr => by simp [t.pos r hr]

/-- The cursor comes to the first of them. -/
theorem selectAfter_eq_head? : t.selectAfter last cond = (t.rowsAfter last cond).head? :=
  List.head?_filter.symm

/-- Behind the first of them stand the others. -/
theorem rowsAfter_next {rs : List α} (h : t.rowsAfter last cond = r :: rs) :
    t.rowsAfter (key r) cond = rs := by
  have hsorted : (t.rowsAfter last cond).Pairwise fun a b => key a < key b := t.sorted.filter _
  have hlast : last < key r := by
    have hr : r ∈ t.rowsAfter last cond := by rw [h]; exact List.mem_cons_self
    have := (List.mem_filter.mp hr).2
    simp only [Bool.and_eq_true, decide_eq_true_eq] at this
    exact this.1
  have hagain : t.rowsAfter (key r) cond
      = (t.rowsAfter last cond).filter fun r' => decide (key r < key r') := by
    rw [rowsAfter, rowsAfter, List.filter_filter]
    refine List.filter_congr fun r' _ => ?_
    by_cases hlt : key r < key r'
    · simp [hlt, Nat.lt_trans hlast hlt]
    · simp [hlt]
  rw [hagain, h, List.filter_cons_of_neg (by simp)]
  rw [h] at hsorted
  exact List.filter_eq_self.mpr fun r' hr' =>
    decide_eq_true ((List.pairwise_cons.mp hsorted).1 r' hr')

/-- The key determines the row. -/
theorem eq_of_key (hr : r ∈ t.rows) (hr' : r' ∈ t.rows) (h : key r = key r') : r = r' := by
  have hnodup : (t.rows.map key).Nodup :=
    List.pairwise_map.mpr (t.sorted.imp fun {a b} hab => Nat.ne_of_lt hab)
  exact List.inj_on_of_nodup_map hnodup hr hr' h

/-- The rows that some selection gives are the ones that meet the condition. -/
theorem selectAfter_iff : (∃ last, t.selectAfter last cond = some r) ↔ r ∈ t.rows ∧ cond r = true := by
  constructor
  · rintro ⟨last, h⟩
    obtain ⟨hr, -, hcond, -⟩ := t.selectAfter_some h
    exact ⟨hr, hcond⟩
  · rintro ⟨hr, hcond⟩
    have hpos := t.pos r hr
    refine ⟨key r - 1, ?_⟩
    cases h : t.selectAfter (key r - 1) cond with
    | none =>
      have hfalse := t.selectAfter_none h r hr (by omega)
      rw [hcond] at hfalse
      cases hfalse
    | some r' =>
      obtain ⟨hr', hlast, -, hfirst⟩ := t.selectAfter_some h
      have hle : ¬ key r < key r' := by
        intro hlt
        have hfalse := hfirst r hr (by omega) hlt
        rw [hcond] at hfalse
        cases hfalse
      rw [t.eq_of_key hr' hr (by omega)]

end Table

end VdCamera.Misc
