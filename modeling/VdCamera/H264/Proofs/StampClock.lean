import Mathlib.Data.List.Basic
import VdCamera.H264.PsStream

/-!
# The clock of a PS stream

What `h264_ps_adjust_timestamp` does to the timestamps, apart from the buffer that they stand in: a
clock goes from header to header, takes a timestamp that goes on from the one before, and replaces
another one. The timestamps it leaves go on from each other, and a second run leaves them alone.
-/

namespace VdCamera.H264

/-- One timestamp goes on from another. -/
def Goes (a b : Int) : Prop := a ≤ b ∧ b - a ≤ intervalTimestamp * 2

instance (a b : Int) : Decidable (Goes a b) := inferInstanceAs (Decidable (_ ∧ _))

structure Clock where
  old : Int
  /-- No timestamp has been taken yet. -/
  first : Bool
  last : Header
  deriving DecidableEq, Repr

namespace Clock

def init (start : Int) : Clock := ⟨if start ≠ -1 then start else 0, true, .PES⟩

variable (start : Int) (c : Clock) (k : Header) (ts : Int)

/-- The clock takes any timestamp to begin with. -/
def Free : Prop := c.first = true ∧ start = -1

def Usable : Prop := c.Free start ∨ Goes c.old ts

instance : Decidable (c.Free start) := inferInstanceAs (Decidable (_ ∧ _))

instance : Decidable (c.Usable start ts) := inferInstanceAs (Decidable (_ ∨ _))

/-- The timestamp that the header has afterwards. -/
def stamp : Int :=
  if ts = 0 then 0
  else if c.Usable start ts then ts
  else if k = .PES ∧ c.last = .pack then c.old
  else c.old + intervalTimestamp

def tick : Clock where
  old := if ts = 0 then c.old else c.stamp start k ts
  first := c.first && !decide (ts ≠ 0 ∧ c.Usable start ts)
  last := k

/-- The timestamps that a sequence of headers has afterwards. -/
def stamps (start : Int) : Clock → List (Header × Int) → List Int
  | _, [] => []
  | c, (k, ts) :: hs => c.stamp start k ts :: stamps start (c.tick start k ts) hs

/-- The clock behind the headers. -/
def final (start : Int) : Clock → List (Header × Int) → Clock
  | c, [] => c
  | c, (k, ts) :: hs => final start (c.tick start k ts) hs

variable {start c k ts}

theorem stamp_zero : c.stamp start k 0 = 0 := if_pos rfl

theorem stamp_of_usable (h : c.Usable start ts) : c.stamp start k ts = ts := by
  unfold stamp
  split
  · next hts => exact hts.symm
  · rfl

/-- A timestamp that is replaced gets the old one or one interval more. -/
theorem stamp_of_not_usable (hts : ts ≠ 0) (h : ¬ c.Usable start ts) :
    c.stamp start k ts = c.old ∨ c.stamp start k ts = c.old + intervalTimestamp := by
  unfold stamp
  rw [if_neg hts, if_neg h]
  split
  · exact .inl rfl
  · exact .inr rfl

theorem stamp_ne (hts : ts ≠ 0) (h : ¬ c.Usable start ts) : c.stamp start k ts ≠ ts := by
  intro heq
  apply h
  right
  have := stamp_of_not_usable (k := k) hts h
  unfold Goes intervalTimestamp at *
  omega

theorem stamp_nonneg (hold : 0 ≤ c.old) (hts : 0 ≤ ts) : 0 ≤ c.stamp start k ts := by
  by_cases h0 : ts = 0
  · exact Int.le_of_eq (by rw [h0, stamp_zero])
  · by_cases h : c.Usable start ts
    · rwa [stamp_of_usable h]
    · have := stamp_of_not_usable (k := k) h0 h
      unfold intervalTimestamp at this
      omega

/-- The clock shows the timestamp of the header, unless that is zero. -/
theorem tick_old (hold : 0 ≤ c.old) : (c.tick start k ts).old =
    if c.stamp start k ts = 0 then c.old else c.stamp start k ts := by
  by_cases h0 : ts = 0
  · rw [if_pos (by rw [h0, stamp_zero])]
    exact if_pos h0
  · rw [show (c.tick start k ts).old = c.stamp start k ts from if_neg h0]
    split
    · next hzero =>
      by_cases h : c.Usable start ts
      · rw [stamp_of_usable h] at hzero
        exact absurd hzero h0
      · have := stamp_of_not_usable (k := k) h0 h
        unfold intervalTimestamp at this
        omega
    · rfl

theorem tick_old_nonneg (hold : 0 ≤ c.old) (hts : 0 ≤ ts) : 0 ≤ (c.tick start k ts).old := by
  rw [tick_old hold]
  split
  · exact hold
  · exact stamp_nonneg hold hts

theorem not_free_tick (h : ¬ c.Free start) : ¬ (c.tick start k ts).Free start := by
  rintro ⟨hfirst, hstart⟩
  exact h ⟨(Bool.and_eq_true_iff.mp hfirst).1, hstart⟩

theorem free_tick_iff (h : c.Free start) : (c.tick start k ts).Free start ↔ ts = 0 := by
  constructor
  · rintro ⟨hfirst, -⟩
    by_contra h0
    have hused : decide (ts ≠ 0 ∧ c.Usable start ts) = true := decide_eq_true ⟨h0, .inl h⟩
    rw [tick, hused, Bool.not_true, Bool.and_false] at hfirst
    cases hfirst
  · rintro rfl
    refine ⟨?_, h.2⟩
    simp [tick, h.1]

theorem goes_stamp (h : ¬ c.Free start) (hts : ts ≠ 0) : Goes c.old (c.stamp start k ts) := by
  by_cases hu : c.Usable start ts
  · rw [stamp_of_usable hu]
    exact hu.resolve_left h
  · have := stamp_of_not_usable (k := k) hts hu
    unfold Goes intervalTimestamp at *
    omega

/-- The timestamps go on from the clock and from each other. -/
theorem chain_stamps (hs : List (Header × Int)) (h : ¬ c.Free start) (hold : 0 ≤ c.old)
    (hts : ∀ x ∈ hs, 0 ≤ x.2) :
    (c.old :: (stamps start c hs).filter (· ≠ 0)).IsChain Goes := by
  induction hs generalizing c with
  | nil => exact List.IsChain.singleton _
  | cons x hs ih =>
    obtain ⟨k, ts⟩ := x
    obtain ⟨hts, hrest⟩ := List.forall_mem_cons.mp hts
    have hchain := ih (not_free_tick h) (tick_old_nonneg (k := k) hold hts) hrest
    rw [tick_old hold] at hchain
    by_cases hzero : c.stamp start k ts = 0
    · rw [if_pos hzero] at hchain
      rwa [stamps, List.filter_cons_of_neg (by simpa using hzero)]
    · rw [if_neg hzero] at hchain
      rw [stamps, List.filter_cons_of_pos (by simpa using hzero), List.isChain_cons_cons]
      have h0 : ts ≠ 0 := by
        rintro rfl
        exact hzero stamp_zero
      exact ⟨goes_stamp h h0, hchain⟩

/-- Where nothing has been given to begin with, they go on from the first one. -/
theorem chain_stamps_of_free (hs : List (Header × Int)) (h : c.Free start) (hold : 0 ≤ c.old)
    (hts : ∀ x ∈ hs, 0 ≤ x.2) : ((stamps start c hs).filter (· ≠ 0)).IsChain Goes := by
  induction hs generalizing c with
  | nil => exact List.IsChain.nil
  | cons x hs ih =>
    obtain ⟨k, ts⟩ := x
    obtain ⟨hts, hrest⟩ := List.forall_mem_cons.mp hts
    have hstamp : c.stamp start k ts = ts := stamp_of_usable (.inl h)
    by_cases h0 : ts = 0
    · have hchain := ih ((free_tick_iff h).mpr h0) (tick_old_nonneg (k := k) hold hts) hrest
      rwa [stamps, List.filter_cons_of_neg (by simpa [hstamp] using h0)]
    · have hchain := chain_stamps hs (mt (free_tick_iff (k := k) h).mp h0)
        (tick_old_nonneg hold hts) hrest
      rw [tick_old hold, hstamp, if_neg h0] at hchain
      rwa [stamps, List.filter_cons_of_pos (by simpa [hstamp] using h0), hstamp]

/-- The clock shows the last timestamp that is not zero. -/
theorem final_old (hs : List (Header × Int)) (hold : 0 ≤ c.old) (hts : ∀ x ∈ hs, 0 ≤ x.2) :
    (final start c hs).old = ((stamps start c hs).filter (· ≠ 0)).getLastD c.old := by
  induction hs generalizing c with
  | nil => rfl
  | cons x hs ih =>
    obtain ⟨k, ts⟩ := x
    obtain ⟨hts, hrest⟩ := List.forall_mem_cons.mp hts
    rw [final, ih (tick_old_nonneg hold hts) hrest, tick_old hold, stamps]
    by_cases hzero : c.stamp start k ts = 0
    · rw [if_pos hzero, List.filter_cons_of_neg (by simpa using hzero)]
    · rw [if_neg hzero, List.filter_cons_of_pos (by simpa using hzero), List.getLastD_cons]

/-- The clock does not go back once it has taken a timestamp. -/
theorem le_final (hs : List (Header × Int)) (h : ¬ c.Free start) (hold : 0 ≤ c.old)
    (hts : ∀ x ∈ hs, 0 ≤ x.2) : c.old ≤ (final start c hs).old := by
  induction hs generalizing c with
  | nil => exact Int.le_refl _
  | cons x hs ih =>
    obtain ⟨k, ts⟩ := x
    obtain ⟨hts, hrest⟩ := List.forall_mem_cons.mp hts
    have hle := ih (not_free_tick h) (tick_old_nonneg (k := k) hold hts) hrest
    refine Int.le_trans ?_ hle
    rw [tick_old hold]
    split
    · exact Int.le_refl _
    · next hzero =>
      have h0 : ts ≠ 0 := by
        rintro rfl
        exact hzero stamp_zero
      exact (goes_stamp h h0).1

/-- A timestamp that is set is no more than the end. -/
theorem stamp_le_final (hs : List (Header × Int)) (hold : 0 ≤ c.old) (hts : 0 ≤ ts)
    (hrest : ∀ x ∈ hs, 0 ≤ x.2) (hne : c.stamp start k ts ≠ ts) :
    c.stamp start k ts ≤ (final start (c.tick start k ts) hs).old := by
  have hfree : ¬ c.Free start := fun hfree => hne (stamp_of_usable (.inl hfree))
  have h0 : ts ≠ 0 := by
    rintro rfl
    exact hne stamp_zero
  have htick : (c.tick start k ts).old = c.stamp start k ts := if_neg h0
  rw [← htick]
  exact le_final hs (not_free_tick hfree) (tick_old_nonneg hold hts) hrest

/-! ## A second run -/

/-- Two clocks that do the same. -/
structure Agree (start : Int) (c d : Clock) : Prop where
  old : c.old = d.old
  last : c.last = d.last
  free : c.Free start ↔ d.Free start

theorem Agree.refl (start : Int) (c : Clock) : Agree start c c := ⟨rfl, rfl, Iff.rfl⟩

theorem Agree.stamp {d : Clock} (h : Agree start c d) :
    d.stamp start k (c.stamp start k ts) = c.stamp start k ts := by
  by_cases h0 : ts = 0
  · rw [h0, stamp_zero, stamp_zero]
  · apply stamp_of_usable
    by_cases hu : c.Usable start ts
    · rw [stamp_of_usable hu]
      exact hu.imp h.free.mp fun hgoes => h.old ▸ hgoes
    · have := stamp_of_not_usable (k := k) h0 hu
      have hold := h.old
      right
      unfold Goes intervalTimestamp at *
      omega

theorem Agree.tick {d : Clock} (h : Agree start c d) (hold : 0 ≤ c.old) :
    Agree start (c.tick start k ts) (d.tick start k (c.stamp start k ts)) where
  old := by rw [tick_old hold, tick_old (h.old ▸ hold), h.stamp, h.old]
  last := rfl
  free := by
    by_cases hfree : c.Free start
    · rw [free_tick_iff hfree, free_tick_iff (h.free.mp hfree), stamp_of_usable (.inl hfree)]
    · exact iff_of_false (not_free_tick hfree) (not_free_tick (mt h.free.mpr hfree))

/-- The timestamps that are left are left as they are, and the clock ends where it did. -/
theorem Agree.again {d : Clock} (hs : List (Header × Int)) (h : Agree start c d) (hold : 0 ≤ c.old)
    (hts : ∀ x ∈ hs, 0 ≤ x.2) :
    stamps start d ((hs.map Prod.fst).zip (stamps start c hs)) = stamps start c hs ∧
      (final start d ((hs.map Prod.fst).zip (stamps start c hs))).old = (final start c hs).old := by
  induction hs generalizing c d with
  | nil => exact ⟨rfl, h.old.symm⟩
  | cons x hs ih =>
    obtain ⟨k, ts⟩ := x
    obtain ⟨hts, hrest⟩ := List.forall_mem_cons.mp hts
    obtain ⟨hstamps, hfinal⟩ := ih (h.tick hold) (tick_old_nonneg (k := k) hold hts) hrest
    refine ⟨?_, hfinal⟩
    show d.stamp start k (c.stamp start k ts) :: _ = c.stamp start k ts :: _
    rw [h.stamp]
    exact congrArg (c.stamp start k ts :: ·) hstamps

end Clock

end VdCamera.H264
