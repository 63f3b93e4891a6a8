import Mathlib.Logic.Relation
import Mathlib.Tactic.Common

/-!
# While loops

The body of a loop is a partial step function, `none` being the exit. `loop` runs it with fuel and
returns the state in which it exits; a loop whose measure grows and is bounded exits.
-/

namespace VdCamera.Misc

variable {σ : Type*} (step : σ → Option σ)

/-- The state in which the loop exits; `none` when the fuel is too little. -/
def loop : Nat → σ → Option σ
  | 0, _ => none
  | n + 1, s =>
    match step s with
    | none => some s
    | some s' => loop n s'

/-- The loop comes to `t` from `s`. -/
def Reaches (s t : σ) : Prop := Relation.ReflTransGen (fun s t => step s = some t) s t

variable {step} {s s' t : σ} {n : Nat}

theorem Reaches.refl (s : σ) : Reaches step s s := Relation.ReflTransGen.refl

theorem Reaches.tail (h : Reaches step s t) (ht : step t = some s') : Reaches step s s' :=
  Relation.ReflTransGen.tail h ht

/-- An invariant of the body holds in every state the loop comes to. -/
theorem Reaches.invariant {I : σ → Prop} (h : Reaches step s t) (hs : I s)
    (hstep : ∀ s s', I s → step s = some s' → I s') : I t := by
  induction h with
  | refl => exact hs
  | tail _ ht ih => exact hstep _ _ ih ht

theorem loop_succ_of_exit (h : step s = none) : loop step (n + 1) s = some s := by
  simp [loop, h]

theorem loop_succ_of_step (h : step s = some s') : loop step (n + 1) s = loop step n s' := by
  simp [loop, h]

/-- A loop exits if its body keeps an invariant and decreases a measure. -/
theorem loop_isSome_of_decreasing {I : σ → Prop} (m : σ → Nat)
    (hstep : ∀ s s', I s → step s = some s' → I s' ∧ m s' < m s) (hs : I s) (hn : m s < n) :
    (loop step n s).isSome = true := by
  induction n generalizing s with
  | zero => omega
  | succ n ih =>
    cases h : step s with
    | none =>
      rw [loop_succ_of_exit h]
      rfl
    | some s' =>
      obtain ⟨hs', hlt⟩ := hstep s s' hs h
      rw [loop_succ_of_step h]
      exact ih hs' (by omega)

/-- A loop whose body keeps an invariant and always has a next state does not exit. -/
theorem loop_eq_none_of_invariant {I : σ → Prop} (hstep : ∀ s, I s → ∃ s', step s = some s' ∧ I s')
    (hs : I s) (n : Nat) : loop step n s = none := by
  induction n generalizing s with
  | zero => rfl
  | succ n ih =>
    obtain ⟨s', h, hs'⟩ := hstep s hs
    rw [loop_succ_of_step h]
    exact ih hs'

/-- The loop started in `s` exits in `t`. -/
def ExitsIn (step : σ → Option σ) (s t : σ) : Prop := ∃ n, loop step n s = some t

theorem exitsIn_iff_of_exit (h : step s = none) : ExitsIn step s t ↔ t = s := by
  constructor
  · rintro ⟨n, hn⟩
    cases n with
    | zero => cases hn
    | succ n =>
      rw [loop_succ_of_exit h, Option.some.injEq] at hn
      exact hn.symm
  · rintro rfl
    exact ⟨1, loop_succ_of_exit h⟩

theorem exitsIn_iff_of_step (h : step s = some s') : ExitsIn step s t ↔ ExitsIn step s' t := by
  constructor
  · rintro ⟨n, hn⟩
    cases n with
    | zero => cases hn
    | succ n => exact ⟨n, by rwa [loop_succ_of_step h] at hn⟩
  · rintro ⟨n, hn⟩
    exact ⟨n + 1, by rwa [loop_succ_of_step h]⟩

theorem ExitsIn.reaches (h : ExitsIn step s t) : Reaches step s t := by
  obtain ⟨n, hn⟩ := h
  induction n generalizing s with
  | zero => cases hn
  | succ n ih =>
    cases hs : step s with
    | none =>
      rw [loop_succ_of_exit hs, Option.some.injEq] at hn
      rw [hn]
      exact Reaches.refl t
    | some s' =>
      rw [loop_succ_of_step hs] at hn
      exact Relation.ReflTransGen.head hs (ih hn)

end VdCamera.Misc
