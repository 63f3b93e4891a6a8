import Mathlib.Tactic.Common

/-!
# Doubling a flag

A text in which every flag is written twice, so that a single flag can mark a beginning.
-/

namespace VdCamera.Misc

variable {α : Type*} [DecidableEq α]

/-- Every flag is doubled. -/
def stuff (flag : α) : List α → List α
  | [] => []
  | a :: as => if a = flag then flag :: flag :: stuff flag as else a :: stuff flag as

/-- Of two flags in a row one is dropped. -/
def unstuff (flag : α) : List α → List α
  | [] => []
  | [a] => [a]
  | a :: b :: as =>
    if a = flag ∧ b = flag then flag :: unstuff flag as else a :: unstuff flag (b :: as)

variable {flag a : α} {as bs : List α}

@[simp] theorem stuff_nil (flag : α) : stuff flag [] = [] := rfl

@[simp] theorem stuff_flag (flag : α) (as : List α) :
    stuff flag (flag :: as) = flag :: flag :: stuff flag as := if_pos rfl

theorem stuff_of_ne (h : a ≠ flag) (as : List α) : stuff flag (a :: as) = a :: stuff flag as :=
  if_neg h

theorem stuff_append (flag : α) (as bs : List α) :
    stuff flag (as ++ bs) = stuff flag as ++ stuff flag bs := by
  induction as with
  | nil => rfl
  | cons a as ih =>
    by_cases ha : a = flag
    · rw [ha, List.cons_append, stuff_flag, stuff_flag, ih]
      rfl
    · rw [List.cons_append, stuff_of_ne ha, stuff_of_ne ha, ih]
      rfl

theorem unstuff_of_ne (h : a ≠ flag) (as : List α) : unstuff flag (a :: as) = a :: unstuff flag as := by
  cases as with
  | nil => rfl
  | cons b as => exact if_neg fun hab => h hab.1

theorem unstuff_flag (flag : α) (as : List α) :
    unstuff flag (flag :: flag :: as) = flag :: unstuff flag as := if_pos ⟨rfl, rfl⟩

/-- A place in the doubled text lies between two elements of the text, or in the middle of a flag. -/
theorem exists_cut {n : Nat} (h : n ≤ (stuff flag as).length) :
    (∃ pre post, as = pre ++ post ∧ (stuff flag pre).length = n)
      ∨ ∃ pre post, as = pre ++ flag :: post ∧ (stuff flag pre).length + 1 = n := by
  induction as generalizing n with
  | nil => exact Or.inl ⟨[], [], rfl, (Nat.le_zero.mp h).symm⟩
  | cons a as ih =>
    by_cases ha : a = flag
    · subst ha
      match n with
      | 0 => exact Or.inl ⟨[], a :: as, rfl, rfl⟩
      | 1 => exact Or.inr ⟨[], as, rfl, rfl⟩
      | n + 2 =>
        rw [stuff_flag, List.length_cons, List.length_cons] at h
        rcases ih (by omega : n ≤ _) with ⟨pre, post, rfl, hpre⟩ | ⟨pre, post, rfl, hpre⟩
        · refine Or.inl ⟨a :: pre, post, rfl, ?_⟩
          rw [stuff_flag, List.length_cons, List.length_cons, hpre]
        · refine Or.inr ⟨a :: pre, post, rfl, ?_⟩
          rw [stuff_flag, List.length_cons, List.length_cons]
          omega
    · match n with
      | 0 => exact Or.inl ⟨[], a :: as, rfl, rfl⟩
      | n + 1 =>
        rw [stuff_of_ne ha, List.length_cons] at h
        rcases ih (by omega : n ≤ _) with ⟨pre, post, rfl, hpre⟩ | ⟨pre, post, rfl, hpre⟩
        · refine Or.inl ⟨a :: pre, post, rfl, ?_⟩
          rw [stuff_of_ne ha, List.length_cons, hpre]
        · refine Or.inr ⟨a :: pre, post, rfl, ?_⟩
          rw [stuff_of_ne ha, List.length_cons]
          omega

/-- What was doubled is read back. -/
theorem unstuff_stuff (flag : α) (as : List α) : unstuff flag (stuff flag as) = as := by
  induction as with
  | nil => rfl
  | cons a as ih =>
    by_cases ha : a = flag
    · rw [ha, stuff_flag, unstuff_flag, ih]
    · rw [stuff_of_ne ha, unstuff_of_ne ha, ih]

end VdCamera.Misc
