import Mathlib.Data.List.Chain
import Mathlib.Data.List.Pairwise
import Mathlib.Data.Int.Order.Basic

/-!
# Merging chains of intervals

Elements with a first and a last place. An element goes on from another when it begins neither before
that one nor `g` or more places after its end; in a chain each one goes on from the one before. A chain
is merged into one element from the beginning of its first to the end of its last. When that loses
nothing and leaves nothing to be merged is said by the elements of the chains alone.
-/

namespace VdCamera.Misc.Intervals

variable {α : Type*} (lo hi : α → Int) (g : Int)

/-- `b` goes on from `a`. -/
def GoesOn (a b : α) : Prop := lo a ≤ lo b ∧ lo b - hi a < g

instance (a b : α) : Decidable (GoesOn lo hi g a b) := inferInstanceAs (Decidable (_ ∧ _))

/-- Neither goes on from the other. -/
def Separate (a b : α) : Prop := ¬ GoesOn lo hi g a b ∧ ¬ GoesOn lo hi g b a

instance (a b : α) : Decidable (Separate lo hi g a b) := inferInstanceAs (Decidable (_ ∧ _))

/-- The place `t` is one of the places of `a`. -/
def Holds (a : α) (t : Int) : Prop := lo a ≤ t ∧ t ≤ hi a

/-- None ends after the last one. -/
def LastEnds (run : List α) : Prop := ∀ z ∈ run.getLast?, ∀ a ∈ run, hi a ≤ hi z

/-- The element that a run is merged into. -/
def mergeRun (merge : α → α → α) : List α → Option α
  | [] => none
  | a :: run => some (merge a ((a :: run).getLast (List.cons_ne_nil a run)))

section Chain

variable {lo hi g} {a b m m' : α} {run run' : List α} {runs : List (List α)} {merge : α → α → α}

theorem Separate.symm (h : Separate lo hi g a b) : Separate lo hi g b a := ⟨h.2, h.1⟩

instance : Std.Symm (Separate lo hi g) := ⟨fun _ _ h => h.symm⟩

theorem lo_head_le (h : (a :: run).IsChain (GoesOn lo hi g)) : ∀ b ∈ a :: run, lo a ≤ lo b := by
  induction run generalizing a with
  | nil => simp
  | cons c run ih =>
    rw [List.isChain_cons_cons] at h
    intro b hb
    rcases List.mem_cons.mp hb with rfl | hb
    · exact Int.le_refl _
    · exact h.1.1.trans (ih h.2 b hb)

theorem lo_le_lo_getLast (h : (a :: run).IsChain (GoesOn lo hi g)) :
    ∀ b ∈ a :: run, lo b ≤ lo ((a :: run).getLast (List.cons_ne_nil a run)) := by
  induction run generalizing a with
  | nil => simp
  | cons c run ih =>
    rw [List.isChain_cons_cons] at h
    intro b hb
    rw [List.getLast_cons_cons]
    rcases List.mem_cons.mp hb with rfl | hb
    · exact h.1.1.trans (ih h.2 c (List.mem_cons_self ..))
    · exact ih h.2 b hb

/-- A chain that is apart from what begins at `b`, and begins before it, ends before it. -/
theorem hi_add_le (h : (a :: run).IsChain (GoesOn lo hi g)) (hle : lo a ≤ lo b)
    (hapart : ∀ c ∈ a :: run, Separate lo hi g c b) : ∀ c ∈ a :: run, hi c + g ≤ lo b := by
  have hhead : hi a + g ≤ lo b := by
    have hnot := (hapart a (List.mem_cons_self ..)).1
    simp only [GoesOn, not_and, not_lt] at hnot
    have := hnot hle
    omega
  induction run generalizing a with
  | nil => simpa using hhead
  | cons c run ih =>
    rw [List.isChain_cons_cons] at h
    have hc := h.1.2
    have hlec : lo c ≤ lo b := by omega
    have hnot := (hapart c (by simp)).1
    simp only [GoesOn, not_and, not_lt] at hnot
    have hnext := hnot hlec
    intro d hd
    rcases List.mem_cons.mp hd with rfl | hd
    · exact hhead
    · exact ih h.2 hlec (fun e he => hapart e (List.mem_cons_of_mem _ he)) (by omega) d hd

end Chain

/-! ## Merging -/

/-- What is merged has its beginning from the first and its end from the second. -/
structure Merges (merge : α → α → α) : Prop where
  lo_merge : ∀ a b, lo (merge a b) = lo a
  hi_merge : ∀ a b, hi (merge a b) = hi b

/-- A chain of elements that end no earlier than they begin. -/
structure IsRun (run : List α) : Prop where
  chain : run.IsChain (GoesOn lo hi g)
  le : ∀ a ∈ run, lo a ≤ hi a

section Merge

variable {lo hi g} {a b m m' : α} {run run' : List α} {runs : List (List α)} {merge : α → α → α}
  {t : Int}

/-- Where the merged element lies. -/
theorem mergeRun_spec (hmerge : Merges lo hi merge) (hrun : IsRun lo hi g run)
    (hm : mergeRun merge run = some m) :
    ∃ z ∈ run, run.getLast? = some z ∧ hi m = hi z ∧ (∀ a ∈ run, lo m ≤ lo a) ∧
      ∀ a ∈ run, lo a ≤ hi m := by
  cases run with
  | nil => cases hm
  | cons a run =>
    cases hm
    refine ⟨_, List.getLast_mem (List.cons_ne_nil a run), List.getLast?_eq_some_getLast _,
      hmerge.hi_merge .., fun b hb => ?_, fun b hb => ?_⟩
    · rw [hmerge.lo_merge]
      exact lo_head_le hrun.chain b hb
    · rw [hmerge.hi_merge]
      exact (lo_le_lo_getLast hrun.chain b hb).trans
        (hrun.le _ (List.getLast_mem (List.cons_ne_nil a run)))

theorem lastEnds_iff (hmerge : Merges lo hi merge) (hrun : IsRun lo hi g run)
    (hm : mergeRun merge run = some m) : LastEnds hi run ↔ ∀ a ∈ run, hi a ≤ hi m := by
  obtain ⟨z, -, hlast, hz, -⟩ := mergeRun_spec hmerge hrun hm
  rw [LastEnds, hlast, hz]
  simp

theorem exists_mergeRun (merge : α → α → α) (h : a ∈ run) : ∃ m, mergeRun merge run = some m := by
  cases run with
  | nil => cases h
  | cons b run => exact ⟨_, rfl⟩

/-- Chains whose elements are apart are merged into elements that are apart. -/
theorem apart_mergeRun (hmerge : Merges lo hi merge) (hrun : IsRun lo hi g run)
    (hm : mergeRun merge run = some m) (hm' : mergeRun merge run' = some m')
    (h : ∀ a ∈ run, ∀ b ∈ run', Separate lo hi g a b) : ¬ GoesOn lo hi g m m' := by
  cases run with
  | nil => cases hm
  | cons a run =>
    cases run' with
    | nil => cases hm'
    | cons b run' =>
      cases hm
      cases hm'
      rintro ⟨hle, hlt⟩
      rw [hmerge.lo_merge, hmerge.lo_merge] at hle
      rw [hmerge.lo_merge, hmerge.hi_merge] at hlt
      have hend := hi_add_le hrun.chain hle (fun c hc => h c hc b (List.mem_cons_self ..)) _
        (List.getLast_mem (List.cons_ne_nil a run))
      omega

/-- The elements of chains that are merged without loss are apart when the merged ones are. -/
theorem not_goesOn_of_apart (hg : 0 < g) (hmerge : Merges lo hi merge)
    (hrun : IsRun lo hi g run) (hrun' : IsRun lo hi g run') (hlast : LastEnds hi run)
    (hlast' : LastEnds hi run') (hm : mergeRun merge run = some m)
    (hm' : mergeRun merge run' = some m') (h : Separate lo hi g m m') (ha : a ∈ run) (hb : b ∈ run') :
    ¬ GoesOn lo hi g a b := by
  rintro ⟨hle, hlt⟩
  obtain ⟨-, -, -, -, hlo, -⟩ := mergeRun_spec hmerge hrun hm
  obtain ⟨-, -, -, -, hlo', -⟩ := mergeRun_spec hmerge hrun' hm'
  have hhi := (lastEnds_iff hmerge hrun hm).mp hlast a ha
  have hhi' := (lastEnds_iff hmerge hrun' hm').mp hlast' b hb
  have hloa := hlo a ha
  have hlob := hlo' b hb
  have hb' := hrun'.le b hb
  obtain ⟨hnot, hnot'⟩ := h
  simp only [GoesOn, not_and, not_lt] at hnot hnot'
  rcases Int.le_total (lo m) (lo m') with hcase | hcase
  · have := hnot hcase
    omega
  · have := hnot' hcase
    omega

/-- Merging the chains of a list loses no place and leaves nothing that goes on from another if and
only if no element ends after the last one of its chain and elements of different chains are apart. -/
theorem merge_runs_iff (hg : 2 ≤ g) (hmerge : Merges lo hi merge)
    (hruns : ∀ run ∈ runs, IsRun lo hi g run) :
    ((∀ t, (∃ run ∈ runs, ∃ a ∈ run, Holds lo hi a t)
        → ∃ m ∈ runs.filterMap (mergeRun merge), Holds lo hi m t)
      ∧ (runs.filterMap (mergeRun merge)).Pairwise (Separate lo hi g))
    ↔ (∀ run ∈ runs, LastEnds hi run)
      ∧ runs.Pairwise fun run run' => ∀ a ∈ run, ∀ b ∈ run', Separate lo hi g a b := by
  constructor
  · rintro ⟨hcover, hpair⟩
    have hlast : ∀ run ∈ runs, LastEnds hi run := by
      intro run hmem z hz a ha
      by_contra hlt
      have hrun := hruns run hmem
      obtain ⟨m, hm⟩ := exists_mergeRun merge ha
      obtain ⟨z', -, hz', hhi, -, hend⟩ := mergeRun_spec hmerge hrun hm
      rw [hz', Option.mem_def, Option.some.injEq] at hz
      subst hz
      -- the place behind the end is one of another chain, which goes on from this one
      have hloa := hend a ha
      obtain ⟨m', hm', hlo', hhi'⟩ :=
        hcover (hi m + 1) ⟨run, hmem, a, ha, by omega, by omega⟩
      have hne : m ≠ m' := by
        rintro rfl
        omega
      have hmemm : m ∈ runs.filterMap (mergeRun merge) := List.mem_filterMap.mpr ⟨run, hmem, hm⟩
      obtain ⟨hnot, hnot'⟩ := hpair.forall hmemm hm' hne
      simp only [GoesOn, not_and, not_lt] at hnot hnot'
      have hbegin : lo m ≤ hi m := by
        obtain ⟨-, -, -, -, hlo, -⟩ := mergeRun_spec hmerge hrun hm
        exact (hlo a ha).trans hloa
      rcases Int.le_total (lo m) (lo m') with hcase | hcase
      · have := hnot hcase
        omega
      · have := hnot' hcase
        omega
    refine ⟨hlast, ?_⟩
    rw [List.pairwise_filterMap] at hpair
    refine hpair.imp_of_mem fun {run run'} hmem hmem' h a ha b hb => ?_
    obtain ⟨m, hm⟩ := exists_mergeRun merge ha
    obtain ⟨m', hm'⟩ := exists_mergeRun merge hb
    have happart := h m hm m' hm'
    exact ⟨not_goesOn_of_apart (by omega) hmerge (hruns _ hmem) (hruns _ hmem') (hlast _ hmem)
        (hlast _ hmem') hm hm' happart ha hb,
      not_goesOn_of_apart (by omega) hmerge (hruns _ hmem') (hruns _ hmem) (hlast _ hmem')
        (hlast _ hmem) hm' hm happart.symm hb ha⟩
  · rintro ⟨hlast, hpair⟩
    constructor
    · rintro t ⟨run, hmem, a, ha, hlo, hhi⟩
      obtain ⟨m, hm⟩ := exists_mergeRun merge ha
      obtain ⟨-, -, -, -, hlom, -⟩ := mergeRun_spec hmerge (hruns run hmem) hm
      have hhim := (lastEnds_iff hmerge (hruns run hmem) hm).mp (hlast run hmem) a ha
      exact ⟨m, List.mem_filterMap.mpr ⟨run, hmem, hm⟩, (hlom a ha).trans hlo, hhi.trans hhim⟩
    · rw [List.pairwise_filterMap]
      refine hpair.imp_of_mem fun {run run'} hmem hmem' h m hm m' hm' => ?_
      exact ⟨apart_mergeRun hmerge (hruns _ hmem) hm hm' h,
        apart_mergeRun hmerge (hruns _ hmem') hm' hm fun a ha b hb => (h b hb a ha).symm⟩

end Merge

end VdCamera.Misc.Intervals
