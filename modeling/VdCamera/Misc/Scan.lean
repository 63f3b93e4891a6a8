import Mathlib.Tactic.Common

/-!
# Scanning loops

The three loops that look for a position by a test: the first position that passes, the last
position of the first block that passes, and the next one downwards. Each comes with what its result
says about the positions it went over.
-/

namespace VdCamera.Misc

variable (p : Nat → Bool)

/-- The first of the positions `i, …, i + n - 1` that passes. -/
def scanUp : Nat → Nat → Option Nat
  | 0, _ => none
  | n + 1, i => if p i then some i else scanUp n (i + 1)

/-- Over the positions `i, …, i + n - 1`: remember a position that passes, and stop at the first one
after it that does not. -/
def scanBlock : Nat → Nat → Option Nat → Option Nat
  | 0, _, r => r
  | n + 1, i, r =>
    if p i then scanBlock n (i + 1) (some i)
    else match r with
      | none => scanBlock n (i + 1) none
      | some r => some r

/-- The positions that `scanUp` tests. -/
def scanUpSeen : Nat → Nat → List Nat
  | 0, _ => []
  | n + 1, i => i :: if p i then [] else scanUpSeen n (i + 1)

/-- The positions that `scanBlock` tests. -/
def scanBlockSeen : Nat → Nat → Option Nat → List Nat
  | 0, _, _ => []
  | n + 1, i, r =>
    i :: if p i then scanBlockSeen n (i + 1) (some i)
      else match r with
        | none => scanBlockSeen n (i + 1) none
        | some _ => []

/-- The first of the positions `i, i - 1, …, lo` that passes. -/
def scanDown (lo : Nat) : Nat → Option Nat
  | 0 => if lo ≤ 0 ∧ p 0 then some 0 else none
  | i + 1 => if lo ≤ i + 1 then (if p (i + 1) then some (i + 1) else scanDown lo i) else none

variable {p} {n i j lo : Nat} {r : Option Nat}

theorem scanUp_some (h : scanUp p n i = some j) :
    i ≤ j ∧ j < i + n ∧ p j = true ∧ ∀ k, i ≤ k → k < j → p k = false := by
  induction n generalizing i with
  | zero => cases h
  | succ n ih =>
    unfold scanUp at h
    by_cases hp : p i = true
    · rw [if_pos hp, Option.some.injEq] at h
      subst h
      exact ⟨by omega, by omega, hp, fun k hk hk' => by omega⟩
    · rw [if_neg hp] at h
      obtain ⟨h1, h2, h3, h4⟩ := ih h
      refine ⟨by omega, by omega, h3, ?_⟩
      intro k hk hkj
      rcases Nat.eq_or_lt_of_le hk with rfl | hlt
      · simpa using hp
      · exact h4 k hlt hkj

theorem scanUp_congr {p' : Nat → Bool} (h : ∀ k, i ≤ k → k < i + n → p' k = p k) :
    scanUp p' n i = scanUp p n i := by
  induction n generalizing i with
  | zero => rfl
  | succ n ih =>
    have htail : scanUp p' n (i + 1) = scanUp p n (i + 1) :=
      ih fun k hk hk' => h k (by omega) (by omega)
    rw [scanUp, scanUp, h i (Nat.le_refl i) (by omega), htail]

/-- Positions that are not tested make no difference. -/
theorem scanUp_congr_seen {p' : Nat → Bool} (h : ∀ k ∈ scanUpSeen p n i, p' k = p k) :
    scanUp p' n i = scanUp p n i := by
  induction n generalizing i with
  | zero => rfl
  | succ n ih =>
    rw [scanUp, scanUp, h i List.mem_cons_self]
    by_cases hp : p i = true
    · rw [if_pos hp, if_pos hp]
    · rw [if_neg hp, if_neg hp]
      apply ih
      intro k hk
      apply h
      rw [scanUpSeen, if_neg hp]
      exact List.mem_cons_of_mem i hk

theorem scanBlock_congr_seen {p' : Nat → Bool} (h : ∀ k ∈ scanBlockSeen p n i r, p' k = p k) :
    scanBlock p' n i r = scanBlock p n i r := by
  induction n generalizing i r with
  | zero => rfl
  | succ n ih =>
    unfold scanBlock
    rw [h i List.mem_cons_self]
    by_cases hp : p i = true
    · rw [if_pos hp, if_pos hp]
      apply ih
      intro k hk
      apply h
      unfold scanBlockSeen
      rw [if_pos hp]
      exact List.mem_cons_of_mem i hk
    · rw [if_neg hp, if_neg hp]
      cases r with
      | none =>
        apply ih
        intro k hk
        apply h
        unfold scanBlockSeen
        rw [if_neg hp]
        exact List.mem_cons_of_mem i hk
      | some _ => rfl

/-- They are tested in order and each once. -/
theorem scanUpSeen_isPrefix (p : Nat → Bool) (n i : Nat) :
    (scanUpSeen p n i).IsPrefix (List.range' i n) := by
  induction n generalizing i with
  | zero => exact List.nil_prefix
  | succ n ih =>
    rw [scanUpSeen, List.range'_succ, List.cons_prefix_cons]
    refine ⟨rfl, ?_⟩
    split
    · exact List.nil_prefix
    · exact ih (i + 1)

theorem scanBlockSeen_isPrefix (p : Nat → Bool) (n i : Nat) (r : Option Nat) :
    (scanBlockSeen p n i r).IsPrefix (List.range' i n) := by
  induction n generalizing i r with
  | zero => exact List.nil_prefix
  | succ n ih =>
    unfold scanBlockSeen
    rw [List.range'_succ, List.cons_prefix_cons]
    refine ⟨rfl, ?_⟩
    split
    · exact ih (i + 1) _
    · cases r with
      | none => exact ih (i + 1) none
      | some _ => exact List.nil_prefix

theorem none_of_tail (hp : ¬ p i = true) (h : ∀ k, i + 1 ≤ k → k < i + 1 + n → p k = false) :
    ∀ k, i ≤ k → k < i + (n + 1) → p k = false := by
  intro k hk hk'
  rcases Nat.eq_or_lt_of_le hk with rfl | hlt
  · simpa using hp
  · exact h k hlt (by omega)

theorem scanUp_none (h : scanUp p n i = none) : ∀ k, i ≤ k → k < i + n → p k = false := by
  induction n generalizing i with
  | zero => intro k hk hk'; omega
  | succ n ih =>
    unfold scanUp at h
    by_cases hp : p i = true
    · rw [if_pos hp] at h
      cases h
    · rw [if_neg hp] at h
      exact none_of_tail hp (ih h)

/-- The positions of `lo, …, hi - 1` that pass have no gap. -/
def IsBlock (p : Nat → Bool) (lo hi : Nat) : Prop :=
  ∀ a b c, lo ≤ a → a < b → b < c → c < hi → p a = true → p c = true → p b = true

/-- Inside a block the scan runs to the end of it. -/
theorem scanBlock_inside {hi : Nat} (hblock : IsBlock p lo hi) (hr : r = some j) (hlo : lo ≤ j)
    (hj : j < i) (hpj : p j = true) (hhi : i + n = hi) :
    ∃ m, scanBlock p n i r = some m ∧ j ≤ m ∧ m < i + n ∧ p m = true ∧
      ∀ k, i ≤ k → m < k → k < i + n → p k = false := by
  induction n generalizing i j r with
  | zero => exact ⟨j, hr, Nat.le_refl j, by omega, hpj, fun k hk hmk hkn => by omega⟩
  | succ n ih =>
    unfold scanBlock
    by_cases hp : p i = true
    · rw [if_pos hp]
      obtain ⟨m, h1, h2, h3, h4, h5⟩ := ih (r := some i) (j := i) (i := i + 1) rfl (by omega)
        (by omega) hp (by omega)
      refine ⟨m, h1, by omega, by omega, h4, ?_⟩
      intro k hk hmk hkn
      exact h5 k (by omega) hmk (by omega)
    · rw [if_neg hp, hr]
      refine ⟨j, rfl, Nat.le_refl j, by omega, hpj, ?_⟩
      intro k hk hjk hkn
      by_contra hk'
      have : p i = true := by
        rcases Nat.eq_or_lt_of_le hk with rfl | hlt
        · simpa using hk'
        · exact hblock j i k hlo hj hlt (by omega) hpj (by simpa using hk')
      exact hp this

/-- Where the positions that pass have no gap, the scan finds the last one of them. -/
theorem scanBlock_some (hblock : IsBlock p i (i + n)) (h : scanBlock p n i none = some j) :
    i ≤ j ∧ j < i + n ∧ p j = true ∧ ∀ k, j < k → k < i + n → p k = false := by
  induction n generalizing i with
  | zero => cases h
  | succ n ih =>
    unfold scanBlock at h
    by_cases hp : p i = true
    · rw [if_pos hp] at h
      obtain ⟨m, h1, h2, h3, h4, h5⟩ :=
        scanBlock_inside (n := n) (i := i + 1) (j := i) hblock rfl (Nat.le_refl i) (by omega) hp
          (by omega)
      rw [h1, Option.some.injEq] at h
      subst h
      exact ⟨by omega, by omega, h4, fun k hk hkn => h5 k (by omega) hk (by omega)⟩
    · rw [if_neg hp] at h
      have hblock' : IsBlock p (i + 1) (i + 1 + n) :=
        fun a b c ha hab hbc hc => hblock a b c (by omega) hab hbc (by omega)
      obtain ⟨h1, h2, h3, h4⟩ := ih hblock' h
      exact ⟨by omega, by omega, h3, fun k hk hkn => h4 k hk (by omega)⟩

theorem scanBlock_none (h : scanBlock p n i none = none) :
    ∀ k, i ≤ k → k < i + n → p k = false := by
  induction n generalizing i with
  | zero => intro k hk hk'; omega
  | succ n ih =>
    unfold scanBlock at h
    by_cases hp : p i = true
    · rw [if_pos hp] at h
      have hkeep : ∀ n i j, scanBlock p n i (some j) ≠ none := by
        intro n
        induction n with
        | zero => intro i j h; cases h
        | succ n ih =>
          intro i j
          unfold scanBlock
          split
          · exact ih _ _
          · exact Option.some_ne_none _
      exact absurd h (hkeep n (i + 1) i)
    · rw [if_neg hp] at h
      exact none_of_tail hp (ih h)

theorem scanDown_some (h : scanDown p lo i = some j) :
    lo ≤ j ∧ j ≤ i ∧ p j = true ∧ ∀ k, j < k → k ≤ i → p k = false := by
  induction i with
  | zero =>
    unfold scanDown at h
    split at h
    · rename_i hp
      cases h
      exact ⟨hp.1, Nat.le_refl 0, hp.2, fun k hk hk' => by omega⟩
    · cases h
  | succ i ih =>
    unfold scanDown at h
    by_cases hlo : lo ≤ i + 1
    · rw [if_pos hlo] at h
      by_cases hp : p (i + 1) = true
      · rw [if_pos hp, Option.some.injEq] at h
        subst h
        exact ⟨hlo, Nat.le_refl _, hp, fun k hk hk' => by omega⟩
      · rw [if_neg hp] at h
        obtain ⟨h1, h2, h3, h4⟩ := ih h
        refine ⟨h1, by omega, h3, ?_⟩
        intro k hk hk'
        rcases Nat.eq_or_lt_of_le hk' with rfl | hlt
        · simpa using hp
        · exact h4 k hk (by omega)
    · rw [if_neg hlo] at h
      cases h

theorem scanDown_none (h : scanDown p lo i = none) : ∀ k, lo ≤ k → k ≤ i → p k = false := by
  induction i with
  | zero =>
    intro k hk hk'
    unfold scanDown at h
    split at h
    · cases h
    · next hp =>
      have hk0 : k = 0 := by omega
      subst hk0
      simpa [hk] using hp
  | succ i ih =>
    intro k hk hk'
    unfold scanDown at h
    rw [if_pos (Nat.le_trans hk hk')] at h
    by_cases hp : p (i + 1) = true
    · rw [if_pos hp] at h
      cases h
    · rw [if_neg hp] at h
      rcases Nat.eq_or_lt_of_le hk' with rfl | hlt
      · simpa using hp
      · exact ih h k hk (by omega)

end VdCamera.Misc
