import Mathlib.Algebra.Order.Group.Int
import Mathlib.Tactic.Common

/-!
# Trying in turn

The circular order in which `count` of `n` places are visited from a start, and the loop that tries
the members of a list one after another on a state until one succeeds.
-/

namespace VdCamera.Misc

/-- The places visited from `start` in a circle of `n`, by the truncated remainder of C. -/
def walk (start n : Int) (count : Nat) : List Int :=
  (List.range count).map fun i : Nat => (start + i).tmod n

theorem mem_walk {start n x : Int} {count : Nat} :
    x ∈ walk start n count ↔ ∃ i : Nat, i < count ∧ (start + i).tmod n = x := by
  simp [walk]

theorem tmod_add_ne {a n : Int} {k : Nat} (hk : 0 < k) (hkn : (k : Int) < n) :
    (a + k).tmod n ≠ a := by
  intro h
  have hdvd : n ∣ a + k - (a + k).tmod n := ⟨(a + k).tdiv n, by
    have := Int.mul_tdiv_add_tmod (a + k) n
    omega⟩
  rw [h, add_sub_cancel_left] at hdvd
  have := Int.le_of_dvd (by omega) hdvd
  omega

/-- A walk that starts behind a place and is shorter than the circle does not come back to it. -/
theorem not_mem_walk_succ {last n : Int} {count : Nat} (hcount : (count : Int) < n) :
    last ∉ walk (last + 1) n count := by
  intro h
  obtain ⟨i, hi, hlast⟩ := mem_walk.mp h
  have hshift : last + 1 + (i : Int) = last + ((i + 1 : Nat) : Int) := by
    push_cast
    omega
  rw [hshift] at hlast
  exact tmod_add_ne (Nat.succ_pos i) (by omega) hlast

theorem bounds_of_mem_walk {start n x : Int} {count : Nat} (hstart : 0 ≤ start) (hn : 0 < n)
    (h : x ∈ walk start n count) : 0 ≤ x ∧ x < n := by
  obtain ⟨i, _, rfl⟩ := mem_walk.mp h
  exact ⟨Int.tmod_nonneg n (by omega), Int.tmod_lt_of_pos _ hn⟩

/-- A walk once round the circle visits every place. -/
theorem mem_walk_of_lt {start n x : Int} {count : Nat} (hstart : 0 ≤ start) (hx : 0 ≤ x)
    (hxn : x < n) (hcount : n ≤ count) : x ∈ walk start n count := by
  refine mem_walk.mpr ⟨((x - start) % n).toNat, ?_, ?_⟩
  · have := Int.emod_lt_of_pos (x - start) (by omega : 0 < n)
    have := Int.emod_nonneg (x - start) (by omega : n ≠ 0)
    omega
  · have hnonneg := Int.emod_nonneg (x - start) (by omega : n ≠ 0)
    rw [Int.toNat_of_nonneg hnonneg, Int.tmod_eq_emod_of_nonneg (by omega), Int.add_emod,
      Int.emod_emod, ← Int.add_emod, add_sub_cancel, Int.emod_eq_of_lt hx hxn]

variable {ι σ : Type*} {f : ι → σ → Bool × σ} {xs : List ι} {x : ι} {s : σ} {I : σ → Prop}

/-- Try the members in turn until one succeeds; a failed try still changes the state. -/
def tryEach (f : ι → σ → Bool × σ) : List ι → σ → Bool × σ
  | [], s => (false, s)
  | x :: xs, s =>
    match f x s with
    | (true, s') => (true, s')
    | (false, s') => tryEach f xs s'

/-- What every try keeps holds at the end. -/
theorem tryEach_invariant (hkeep : ∀ x ∈ xs, ∀ s, I s → I (f x s).2) (hs : I s) :
    I (tryEach f xs s).2 := by
  induction xs generalizing s with
  | nil => exact hs
  | cons x xs ih =>
    have hs' := hkeep x List.mem_cons_self s hs
    unfold tryEach
    rcases hfx : f x s with ⟨_ | _, s'⟩ <;> rw [hfx] at hs'
    · exact ih (fun y hy => hkeep y (List.mem_cons_of_mem x hy)) hs'
    · exact hs'

/-- What every failed try keeps holds after a failure. -/
theorem tryEach_false {t : σ} (hkeep : ∀ x ∈ xs, ∀ s s', I s → f x s = (false, s') → I s')
    (hs : I s) (h : tryEach f xs s = (false, t)) : I t := by
  induction xs generalizing s with
  | nil =>
    cases h
    exact hs
  | cons x xs ih =>
    unfold tryEach at h
    rcases hfx : f x s with ⟨_ | _, s'⟩ <;> rw [hfx] at h
    · have hs' := hkeep x List.mem_cons_self s s' hs hfx
      exact ih (fun y hy => hkeep y (List.mem_cons_of_mem x hy)) hs' h
    · cases h

/-- A success is the success of one member, from a state in which what the failed tries keep holds.
-/
theorem tryEach_true {t : σ} (hkeep : ∀ x ∈ xs, ∀ s s', I s → f x s = (false, s') → I s')
    (hs : I s) (h : tryEach f xs s = (true, t)) : ∃ x ∈ xs, ∃ s', I s' ∧ f x s' = (true, t) := by
  induction xs generalizing s with
  | nil => cases h
  | cons x xs ih =>
    unfold tryEach at h
    rcases hfx : f x s with ⟨_ | _, s'⟩ <;> rw [hfx] at h
    · have hs' := hkeep x List.mem_cons_self s s' hs hfx
      obtain ⟨y, hy, u, hu, hyu⟩ := ih (fun y hy => hkeep y (List.mem_cons_of_mem x hy)) hs' h
      exact ⟨y, List.mem_cons_of_mem x hy, u, hu, hyu⟩
    · cases h
      exact ⟨x, List.mem_cons_self, s, hs, hfx⟩

/-- A success is the success of one member. -/
theorem exists_of_tryEach {t : σ} (h : tryEach f xs s = (true, t)) :
    ∃ x ∈ xs, ∃ s', f x s' = (true, t) := by
  obtain ⟨x, hx, s', -, hs'⟩ :=
    tryEach_true (I := fun _ => True) (fun _ _ _ _ _ _ => trivial) trivial h
  exact ⟨x, hx, s', hs'⟩

/-- A member that succeeds whenever what the failed tries keep holds makes the loop succeed. -/
theorem tryEach_of_mem (hkeep : ∀ x ∈ xs, ∀ s s', I s → f x s = (false, s') → I s')
    (hs : I s) (hx : x ∈ xs) (hsucc : ∀ t, I t → ∃ t', f x t = (true, t')) :
    ∃ t, tryEach f xs s = (true, t) := by
  rcases h : tryEach f xs s with ⟨_ | _, t⟩
  · exfalso
    induction xs generalizing s with
    | nil => cases hx
    | cons y ys ih =>
      unfold tryEach at h
      rcases hfy : f y s with ⟨_ | _, s'⟩ <;> rw [hfy] at h
      · rcases List.mem_cons.mp hx with rfl | hx
        · obtain ⟨t', ht'⟩ := hsucc s hs
          rw [ht'] at hfy
          cases hfy
        · have hs' := hkeep y List.mem_cons_self s s' hs hfy
          exact ih (fun z hz => hkeep z (List.mem_cons_of_mem y hz)) hs' hx h
      · cases h
  · exact ⟨t, rfl⟩

end VdCamera.Misc
