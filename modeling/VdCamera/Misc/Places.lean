import Mathlib.Data.List.Nodup
import Mathlib.Data.List.FinRange
import Mathlib.Logic.Function.Basic
import Mathlib.Tactic.Common

/-!
# Places in a circle

A circle of `n` places, each of which holds something or nothing. A walk round the circle finds what
a list of the places holds, whoever fills free places meanwhile.
-/

namespace VdCamera.Misc

variable {n : Nat} {α : Type*}

/-- The place behind `p`; behind the last is the first. -/
def nextPlace (p : Fin n) : Fin n :=
  if h : p.val + 1 < n then ⟨p.val + 1, h⟩ else ⟨0, Nat.lt_of_le_of_lt (Nat.zero_le _) p.isLt⟩

/-- The `k` places from `p` on. -/
def placesFrom (p : Fin n) : Nat → List (Fin n)
  | 0 => []
  | k + 1 => p :: placesFrom (nextPlace p) k

theorem nextPlace_val (p : Fin n) : (nextPlace p).val = (p.val + 1) % n := by
  have hp := p.isLt
  unfold nextPlace
  split
  · rename_i h
    exact (Nat.mod_eq_of_lt h).symm
  · rename_i h
    have hn : p.val + 1 = n := by omega
    rw [hn, Nat.mod_self]

theorem mem_placesFrom {p q : Fin n} {k : Nat} :
    q ∈ placesFrom p k ↔ ∃ j < k, q.val = (p.val + j) % n := by
  induction k generalizing p with
  | zero => simp [placesFrom]
  | succ k ih =>
    rw [placesFrom, List.mem_cons, ih]
    simp only [nextPlace_val, Nat.mod_add_mod]
    constructor
    · rintro (rfl | ⟨j, hj, hq⟩)
      · exact ⟨0, Nat.succ_pos k, (Nat.mod_eq_of_lt q.isLt).symm⟩
      · exact ⟨j + 1, by omega, by rw [hq]; congr 1; omega⟩
    · rintro ⟨j, hj, hq⟩
      cases j with
      | zero =>
        left
        apply Fin.ext
        rw [hq]
        exact Nat.mod_eq_of_lt p.isLt
      | succ j => exact .inr ⟨j, by omega, by rw [hq]; congr 1; omega⟩

/-- A walk shorter than the circle that starts behind a place does not come back to it. -/
theorem not_mem_placesFrom_next {p : Fin n} {k : Nat} (hk : k < n) :
    p ∉ placesFrom (nextPlace p) k := by
  intro h
  obtain ⟨j, hj, hp⟩ := mem_placesFrom.mp h
  have hlt := p.isLt
  rw [nextPlace_val, Nat.mod_add_mod] at hp
  by_cases hwrap : p.val + 1 + j < n
  · rw [Nat.mod_eq_of_lt hwrap] at hp
    omega
  · rw [Nat.mod_eq_sub_mod (Nat.le_of_not_lt hwrap), Nat.mod_eq_of_lt (by omega)] at hp
    omega

theorem nodup_placesFrom {p : Fin n} {k : Nat} (hk : k ≤ n) : (placesFrom p k).Nodup := by
  induction k generalizing p with
  | zero => exact List.nodup_nil
  | succ k ih =>
    rw [placesFrom, List.nodup_cons]
    exact ⟨not_mem_placesFrom_next (by omega), ih (by omega)⟩

/-- A walk once round the circle visits every place. -/
theorem perm_placesFrom (p : Fin n) : (placesFrom p n).Perm (List.finRange n) := by
  apply (List.perm_ext_iff_of_nodup (nodup_placesFrom (Nat.le_refl n)) (List.nodup_finRange n)).mpr
  intro q
  have hp := p.isLt
  have hq := q.isLt
  simp only [mem_placesFrom, List.mem_finRange, iff_true]
  by_cases hle : p.val ≤ q.val
  · refine ⟨q.val - p.val, by omega, ?_⟩
    rw [Nat.add_sub_cancel' hle, Nat.mod_eq_of_lt hq]
  · refine ⟨q.val + n - p.val, by omega, ?_⟩
    rw [Nat.add_sub_cancel' (by omega), Nat.add_mod_right, Nat.mod_eq_of_lt hq]

/-! ## What the places hold -/

variable {s : Fin n → Option α} {i : Fin n} {is : List (Fin n)} {a : α}

theorem filterMap_update_of_not_mem (h : i ∉ is) (x : Option α) :
    is.filterMap (Function.update s i x) = is.filterMap s := by
  apply List.filterMap_congr
  intro j hj
  apply Function.update_of_ne
  rintro rfl
  exact h hj

/-- Something that is put in a free place is there beside the rest. -/
theorem perm_filterMap_put (hnd : is.Nodup) (hi : i ∈ is) (h : s i = none) :
    (is.filterMap (Function.update s i (some a))).Perm (a :: is.filterMap s) := by
  obtain ⟨xs, ys, rfl⟩ := List.append_of_mem hi
  have hxs : i ∉ xs := fun hmem =>
    (List.nodup_append.mp hnd).2.2 i hmem i (List.mem_cons_self ..) rfl
  have hys : i ∉ ys := (List.nodup_cons.mp (List.nodup_append.mp hnd).2.1).1
  rw [List.filterMap_append, List.filterMap_append, filterMap_update_of_not_mem hxs,
    List.filterMap_cons_some (Function.update_self ..), filterMap_update_of_not_mem hys,
    List.filterMap_cons_none h]
  exact List.perm_middle

/-- Something that is taken out of its place was there beside the rest. -/
theorem perm_filterMap_take (hnd : is.Nodup) (hi : i ∈ is) (h : s i = some a) :
    (is.filterMap s).Perm (a :: is.filterMap (Function.update s i none)) := by
  have hput := @perm_filterMap_put n α (Function.update s i none) i is a hnd hi
    (Function.update_self ..)
  rwa [Function.update_idem, ← h, Function.update_eq_self] at hput

/-- Filling free places leaves what is there in its order. -/
theorem sublist_filterMap_put (h : s i = none) (a : α) :
    (is.filterMap s).Sublist (is.filterMap (Function.update s i (some a))) := by
  induction is with
  | nil => exact List.Sublist.slnil
  | cons j is ih =>
    by_cases hj : j = i
    · rw [hj, List.filterMap_cons_none h, List.filterMap_cons_some (Function.update_self ..)]
      exact ih.cons _
    · rw [List.filterMap_cons, List.filterMap_cons, Function.update_of_ne hj]
      split
      · exact ih
      · exact ih.cons_cons _

end VdCamera.Misc
