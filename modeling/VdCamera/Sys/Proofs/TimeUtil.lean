import VdCamera.Sys.TimeUtil

/-!
# Differences of times

A borrow is taken away from the nanoseconds instead of being added, and the products with 1000 are made
in 32 bits. What is exact in spite of it, and when a timeout fires though it is not due, or the other
way round.
-/

namespace VdCamera.Sys

variable {x y z : Int}

/-! ## Numbers of 32 bits -/

theorem int32_eq (z : Int) :
    int32 z = if z % 2 ^ 32 < 2 ^ 31 then z % 2 ^ 32 else z % 2 ^ 32 - 2 ^ 32 :=
  Int.bmod_def z (2 ^ 32)

theorem int32_lt (z : Int) : int32 z < 2 ^ 31 := by
  rw [int32_eq]
  split <;> omega

theorem int32_eq_self (h : -2 ^ 31 ≤ z) (h' : z < 2 ^ 31) : int32 z = z := by
  rw [int32_eq]
  split <;> omega

theorem int32_add_left (x y : Int) : int32 (int32 x + y) = int32 (x + y) := Int.bmod_add_bmod

theorem int32_sub_left (x y : Int) : int32 (int32 x - y) = int32 (x - y) := Int.bmod_sub_bmod

theorem int32_mul_left (x y : Int) : int32 (int32 x * y) = int32 (x * y) := Int.bmod_mul_bmod

theorem int32_neg_iff : int32 z < 0 ↔ 2 ^ 31 ≤ z % 2 ^ 32 := by
  rw [int32_eq]
  split <;> omega

/-! ## `timespec_sub` -/

namespace Timespec

def Normalised (t : Timespec) : Prop := 0 ≤ t.nsec ∧ t.nsec < 1000000000

instance (t : Timespec) : Decidable t.Normalised := inferInstanceAs (Decidable (_ ∧ _))

def toNsec (t : Timespec) : Int := t.sec * 1000000000 + t.nsec

end Timespec

/-- The value of an `int64_t`. -/
def FitsInt64 (z : Int) : Prop := -2 ^ 63 ≤ z ∧ z < 2 ^ 63

/-- The difference of two times, and what it is in milliseconds and in seconds. -/
structure DiffExact (a b : Timespec) : Prop where
  normalised : (timespecSub a b).Normalised
  exact : (timespecSub a b).toNsec = a.toNsec - b.toNsec
  msec : FitsInt64 ((a.toNsec - b.toNsec) / 1000000) →
    timespecDiffMsec a b = (a.toNsec - b.toNsec) / 1000000
  sec : FitsInt64 ((a.toNsec - b.toNsec) / 1000000000) →
    timespecDiffSec a b = (a.toNsec - b.toNsec) / 1000000000

section Timespec

variable {a b : Timespec}

theorem timespecSub_of_le (h : b.nsec ≤ a.nsec) :
    timespecSub a b = ⟨int32 (a.sec - b.sec), a.nsec - b.nsec⟩ :=
  if_neg (Int.not_lt.mpr (Int.sub_nonneg.mpr h))

/-- With a borrow the nanoseconds are negative, and stay so. -/
theorem timespecSub_nsec_of_lt (h : a.nsec < b.nsec) : (timespecSub a b).nsec < 0 := by
  rw [timespecSub, if_pos (Int.sub_neg_of_lt h)]
  show a.nsec - b.nsec - 1000000000 < 0
  omega

theorem timespecDiffMsec_of_le (h : b.nsec ≤ a.nsec) :
    timespecDiffMsec a b = int32 ((a.toNsec - b.toNsec) / 1000000) := by
  have hms : (a.toNsec - b.toNsec) / 1000000
      = (a.sec - b.sec) * 1000 + (a.nsec - b.nsec) / 1000000 := by
    unfold Timespec.toNsec
    omega
  unfold timespecDiffMsec
  rw [timespecSub_of_le h, hms]
  dsimp only
  rw [Int.tdiv_eq_ediv_of_nonneg (Int.sub_nonneg.mpr h), int32_mul_left, int32_add_left]

/-- The differences are exact if no borrow is taken and the milliseconds fit in a `long`. -/
theorem diff_exact_iff (ha : a.Normalised) (hb : b.Normalised) (h : b.toNsec ≤ a.toNsec) :
    DiffExact a b ↔ b.nsec ≤ a.nsec ∧ (a.toNsec - b.toNsec) / 1000000 < 2 ^ 31 := by
  obtain ⟨ha0, ha1⟩ := ha
  obtain ⟨hb0, hb1⟩ := hb
  unfold Timespec.toNsec at h
  constructor
  · intro hexact
    have hle : b.nsec ≤ a.nsec := by
      by_contra hlt
      have hneg := timespecSub_nsec_of_lt (Int.not_le.mp hlt)
      exact absurd hexact.normalised.1 (Int.not_le.mpr hneg)
    refine ⟨hle, ?_⟩
    -- the seconds of the difference are a `long`, so that its milliseconds fit the result type
    have hsec := hexact.exact
    rw [timespecSub_of_le hle] at hsec
    have hlt := int32_lt (a.sec - b.sec)
    unfold Timespec.toNsec at hsec
    dsimp only at hsec
    have hfits : FitsInt64 ((a.toNsec - b.toNsec) / 1000000) := by
      unfold FitsInt64 Timespec.toNsec
      omega
    rw [← hexact.msec hfits, timespecDiffMsec_of_le hle]
    exact int32_lt _
  · rintro ⟨hle, hfits⟩
    have hms : 0 ≤ (a.toNsec - b.toNsec) / 1000000 := by
      unfold Timespec.toNsec
      omega
    have hsec : int32 (a.sec - b.sec) = a.sec - b.sec := by
      unfold Timespec.toNsec at hfits
      exact int32_eq_self (by omega) (by omega)
    have hsub : timespecSub a b = ⟨a.sec - b.sec, a.nsec - b.nsec⟩ := by
      rw [timespecSub_of_le hle, hsec]
    refine ⟨?_, ?_, fun _ => ?_, fun _ => ?_⟩
    · rw [hsub]
      exact ⟨Int.sub_nonneg.mpr hle, by show a.nsec - b.nsec < 1000000000; omega⟩
    · rw [hsub]
      unfold Timespec.toNsec
      dsimp only
      omega
    · rw [timespecDiffMsec_of_le hle]
      exact int32_eq_self (by omega) hfits
    · rw [timespecDiffSec, hsub]
      unfold Timespec.toNsec
      dsimp only
      omega

theorem diff_exact_iff_seconds : DiffExact ⟨7, 500000000⟩ ⟨5, 200000000⟩ ↔
    (200000000 : Int) ≤ 500000000 ∧
      ((⟨7, 500000000⟩ : Timespec).toNsec - (⟨5, 200000000⟩ : Timespec).toNsec) / 1000000 < 2 ^ 31 :=
  diff_exact_iff (by decide) (by decide) (by decide)

/-- One second less one nanosecond. -/
theorem not_diff_exact : ¬ DiffExact ⟨1, 0⟩ ⟨0, 1⟩ := fun h => absurd h.normalised (by decide)

end Timespec

/-! ## `timeval_is_overtime` -/

namespace Timeval

def Normalised (t : Timeval) : Prop := 0 ≤ t.usec ∧ t.usec < 1000000

instance (t : Timeval) : Decidable t.Normalised := inferInstanceAs (Decidable (_ ∧ _))

def toUsec (t : Timeval) : Int := t.sec * 1000000 + t.usec

end Timeval

/-- The seconds from `prev` to `curr`. -/
def elapsedSec (curr prev : Timeval) : Int := (curr.toUsec - prev.toUsec) / 1000000

/-- The milliseconds from `prev` to `curr`. -/
def elapsedMsec (curr prev : Timeval) : Int := (curr.toUsec - prev.toUsec) / 1000

/-- The clock has gone back, or the time is over. -/
def Due (curr prev : Timeval) (timeout : Nat) : Prop :=
  curr.toUsec < prev.toUsec ∨ timeout ≤ elapsedMsec curr prev

/-- Going round modulo `2 ^ 32`, the milliseconds are at the timeout or behind it, but not yet at
`2 ^ 31`. -/
def Past (timeout : Nat) (ms : Int) : Prop :=
  if timeout < 2 ^ 31 then timeout ≤ ms % 2 ^ 32 ∧ ms % 2 ^ 32 < 2 ^ 31
  else timeout ≤ ms % 2 ^ 32 ∨ ms % 2 ^ 32 < 2 ^ 31

/-- The seconds and the milliseconds that have gone by have room in 32 bits. -/
def InRange (curr prev : Timeval) : Prop :=
  -2 ^ 31 ≤ elapsedSec curr prev ∧ elapsedMsec curr prev < 2 ^ 31

/-- Modulo `2 ^ 32` the seconds have gone back, or the milliseconds or those of the whole seconds are
past the timeout. -/
def GoneRound (curr prev : Timeval) (timeout : Nat) : Prop :=
  2 ^ 31 ≤ elapsedSec curr prev % 2 ^ 32 ∨ Past timeout (elapsedMsec curr prev) ∨
    Past timeout (elapsedSec curr prev * 1000) ∧ elapsedSec curr prev * 1000 % 2 ^ 32 ≠ timeout

/-- What makes the timeout fire when it is due and not before. -/
structure Punctual (curr prev : Timeval) (timeout : Nat) : Prop where
  early : ¬ Due curr prev timeout → timeout < 2 ^ 31 ∨ 2 ^ 31 ≤ elapsedSec curr prev * 1000
  late : Due curr prev timeout → GoneRound curr prev timeout

section Overtime

variable {curr prev : Timeval} {timeout : Nat}

theorem past_iff (h : timeout < 2 ^ 32) : Past timeout z ↔ int32 timeout ≤ int32 z := by
  unfold Past
  rw [int32_eq z, int32_eq timeout]
  split <;> split <;> split <;> omega

theorem past_ne_iff (h : timeout < 2 ^ 32) :
    Past timeout z ∧ z % 2 ^ 32 ≠ timeout ↔ int32 timeout < int32 z := by
  unfold Past
  rw [int32_eq z, int32_eq timeout]
  split <;> split <;> split <;> omega

/-- The difference is exact but for the seconds, which have 32 bits. -/
theorem timersub_eq (hc : curr.Normalised) (hp : prev.Normalised) : timersub curr prev =
    ⟨int32 (elapsedSec curr prev), (curr.toUsec - prev.toUsec) % 1000000⟩ := by
  obtain ⟨hc0, hc1⟩ := hc
  obtain ⟨hp0, hp1⟩ := hp
  unfold timersub elapsedSec Timeval.toUsec
  dsimp only
  split
  · rw [int32_sub_left, Timeval.mk.injEq]
    exact ⟨congrArg int32 (by omega), by omega⟩
  · rw [Timeval.mk.injEq]
    exact ⟨congrArg int32 (by omega), by omega⟩

theorem elapsedMsec_eq (curr prev : Timeval) : elapsedMsec curr prev =
    elapsedSec curr prev * 1000 + (curr.toUsec - prev.toUsec) % 1000000 / 1000 := by
  unfold elapsedMsec elapsedSec
  omega

/-- What the function compares. -/
theorem timevalIsOvertime_iff (hc : curr.Normalised) (hp : prev.Normalised) (ht : timeout < 2 ^ 32) :
    timevalIsOvertime curr prev timeout = true ↔ GoneRound curr prev timeout := by
  have hrest : 0 ≤ (curr.toUsec - prev.toUsec) % 1000000 := Int.emod_nonneg _ (by decide)
  rw [GoneRound, past_iff ht, past_ne_iff ht, ← int32_neg_iff, elapsedMsec_eq]
  unfold timevalIsOvertime
  rw [timersub_eq hc hp]
  dsimp only
  rw [int32_mul_left, Int.tdiv_eq_ediv_of_nonneg hrest, int32_add_left]
  split
  · next h => exact iff_of_true rfl (.inl h)
  · next h =>
    split
    · next h' => exact iff_of_true rfl (.inr (.inr h'))
    · next h' =>
      rw [decide_eq_true_iff]
      exact ⟨fun hle => .inr (.inl hle), fun hor => (hor.resolve_left h).resolve_right h'⟩

/-- Before it is due, the timeout fires if it is negative as a number of 32 bits and the whole seconds
are not. -/
theorem overtime_early_iff (hc : curr.Normalised) (hp : prev.Normalised) (ht : timeout < 2 ^ 32)
    (hdue : ¬ Due curr prev timeout) : timevalIsOvertime curr prev timeout = true ↔
      ¬ (timeout < 2 ^ 31 ∨ 2 ^ 31 ≤ elapsedSec curr prev * 1000) := by
  obtain ⟨hback, hms⟩ := not_or.mp hdue
  have hsec : 0 ≤ elapsedSec curr prev := Int.ediv_nonneg (by omega) (by decide)
  have hrest : 0 ≤ (curr.toUsec - prev.toUsec) % 1000000 := Int.emod_nonneg _ (by decide)
  have hsplit := elapsedMsec_eq curr prev
  -- as long as the timeout is not due, nothing goes round
  have hround : elapsedMsec curr prev % 2 ^ 32 = elapsedMsec curr prev :=
    Int.emod_eq_of_lt (by omega) (by omega)
  have hround' : elapsedSec curr prev * 1000 % 2 ^ 32 = elapsedSec curr prev * 1000 :=
    Int.emod_eq_of_lt (by omega) (by omega)
  have hround'' : elapsedSec curr prev % 2 ^ 32 = elapsedSec curr prev :=
    Int.emod_eq_of_lt (by omega) (by omega)
  rw [timevalIsOvertime_iff hc hp ht, GoneRound, Past, Past, hround, hround', hround'']
  split
  · omega
  · omega

/-- In the range of 32 bits a timeout that is due is past. -/
theorem InRange.goneRound (h : InRange curr prev) (hdue : Due curr prev timeout) :
    GoneRound curr prev timeout := by
  obtain ⟨hback, hms⟩ := h
  by_cases hneg : curr.toUsec < prev.toUsec
  · left
    unfold elapsedSec at hback ⊢
    omega
  · right
    left
    have hle := hdue.resolve_left hneg
    rw [Past, if_pos (by omega), Int.emod_eq_of_lt (by omega) (by omega)]
    exact ⟨hle, hms⟩

/-- There only a timeout that has no room itself goes wrong, and only before it is due. -/
theorem InRange.punctual_iff (h : InRange curr prev) :
    Punctual curr prev timeout ↔ Due curr prev timeout ∨ timeout < 2 ^ 31 := by
  have hround : ¬ 2 ^ 31 ≤ elapsedSec curr prev * 1000 := by
    obtain ⟨-, hms⟩ := h
    have hrest : 0 ≤ (curr.toUsec - prev.toUsec) % 1000000 := Int.emod_nonneg _ (by decide)
    rw [elapsedMsec_eq] at hms
    omega
  constructor
  · rintro ⟨hearly, -⟩
    by_cases hdue : Due curr prev timeout
    · exact .inl hdue
    · exact .inr ((hearly hdue).resolve_right hround)
  · intro hor
    exact ⟨fun hdue => .inl (hor.resolve_left hdue), h.goneRound⟩

/-- A punctual timeout fires exactly when due. -/
theorem Punctual.overtime_iff (h : Punctual curr prev timeout) (hc : curr.Normalised)
    (hp : prev.Normalised) (ht : timeout < 2 ^ 32) :
    timevalIsOvertime curr prev timeout = true ↔ Due curr prev timeout := by
  constructor
  · intro hfires
    by_contra hdue
    exact (overtime_early_iff hc hp ht hdue).mp hfires (h.early hdue)
  · intro hdue
    exact (timevalIsOvertime_iff hc hp ht).mpr (h.late hdue)

/-- In the range of 32 bits, that is one that has room itself. -/
theorem InRange.overtime_iff (h : InRange curr prev) (hc : curr.Normalised) (hp : prev.Normalised)
    (ht : timeout < 2 ^ 31) : timevalIsOvertime curr prev timeout = true ↔ Due curr prev timeout :=
  (h.punctual_iff.mpr (.inr ht)).overtime_iff hc hp (by omega)

/-- The timeout fires exactly when due if and only if it is punctual. -/
theorem overtime_due_iff (hc : curr.Normalised) (hp : prev.Normalised) (ht : timeout < 2 ^ 32) :
    (timevalIsOvertime curr prev timeout = true ↔ Due curr prev timeout) ↔
      Punctual curr prev timeout := by
  constructor
  · intro hiff
    refine ⟨fun hdue => ?_, fun hdue => (timevalIsOvertime_iff hc hp ht).mp (hiff.mpr hdue)⟩
    by_contra hnot
    exact hdue (hiff.mp ((overtime_early_iff hc hp ht hdue).mpr hnot))
  · intro hpunctual
    exact hpunctual.overtime_iff hc hp ht

/-- One second after the start a timeout of one second fires. -/
theorem overtime_due_iff_second :
    (timevalIsOvertime ⟨8, 0⟩ ⟨7, 0⟩ 1000 = true ↔ Due ⟨8, 0⟩ ⟨7, 0⟩ 1000) ↔
      Punctual ⟨8, 0⟩ ⟨7, 0⟩ 1000 :=
  overtime_due_iff (by decide) (by decide) (by decide)

/-- One of 2147484 seconds fires at once. -/
theorem not_overtime_due :
    ¬ (timevalIsOvertime ⟨7, 0⟩ ⟨7, 0⟩ 2147484000 = true ↔ Due ⟨7, 0⟩ ⟨7, 0⟩ 2147484000) := by
  intro hiff
  have hfires : timevalIsOvertime ⟨7, 0⟩ ⟨7, 0⟩ 2147484000 = true := by decide
  rcases hiff.mp hfires with hback | hms
  · exact absurd hback (by decide)
  · exact absurd hms (by decide)

end Overtime

end VdCamera.Sys
