import Mathlib.Data.List.ReduceOption
import Mathlib.Data.List.SplitBy
import VdCamera.Toggle.ViolationVideo

/-!
# What is left of the video of a violation

The loop over the intervals merges the chains of neighbours in the array. What that loses or leaves
unmerged is read off from the chains; the segments of the calls fill the record up to the first call
that has no room.
-/

namespace VdCamera.Toggle

open H264 (Seg H264SegInfo)
open Misc.Intervals

variable {mkTime : VDTime → Int32} {a b x z : VideoTime} {r done rest videos run : List VideoTime}
  {n : Nat} {t : Int} {g g' : GetPD} {seg : Seg} {info : H264SegInfo}
  {calls : List (Option H264SegInfo)}

/-! ## The merged array -/

section Chains

variable (mkTime : VDTime → Int32)

/-- The first second. -/
def lo (v : VideoTime) : Int := (mkTime v.start).toInt

/-- The last second. -/
def hi (v : VideoTime) : Int := (mkTime v.stop).toInt

/-- Cleared, or an interval that starts after the time that `mk_time` gives for a cleared one (with at
least one second between them), ends no earlier than it starts, and ends so soon that the time since
the cleared one is an `int`. -/
def Video (v : VideoTime) : Prop :=
  v = {} ∨ hi mkTime {} + 2 ≤ lo mkTime v ∧ lo mkTime v ≤ hi mkTime v
    ∧ hi mkTime v < hi mkTime {} + 2 ^ 31

/-- The runs of the array in which every interval goes on from the one before. -/
def chains (videos : List VideoTime) : List (List VideoTime) :=
  videos.splitBy fun a b => decide (GoesOn (lo mkTime) (hi mkTime) 2 a b)

/-- The start of the first and the end of the second. -/
def mergeVideo (a b : VideoTime) : VideoTime := { a with stop := b.stop }

/-- A run of which the first interval is the merged one and the others are cleared. -/
def squash : List VideoTime → List VideoTime
  | [] => []
  | a :: r =>
    mergeVideo a ((a :: r).getLast (List.cons_ne_nil a r)) :: List.replicate r.length {}

/-- The array with every run squashed. -/
def joined (videos : List VideoTime) : List VideoTime := (chains mkTime videos).flatMap squash

end Chains

instance (v : VideoTime) : Decidable (Video mkTime v) := inferInstanceAs (Decidable (_ ∨ _))

/-- The times of an interval lie less than `2 ^ 31` after that of a cleared one. -/
theorem Video.bounds (h : Video mkTime a) : hi mkTime {} ≤ lo mkTime a ∧ hi mkTime {} ≤ hi mkTime a
    ∧ lo mkTime a < hi mkTime {} + 2 ^ 31 ∧ hi mkTime a < hi mkTime {} + 2 ^ 31 := by
  have hzero : lo mkTime {} = hi mkTime {} := rfl
  rcases h with rfl | h <;> omega

/-- The test of the code: the difference of two times does not overflow. -/
theorem goesOn_iff (ha : Video mkTime a) (hb : Video mkTime b) :
    mkTime b.start - mkTime a.stop < 2 ∧ mkTime a.start ≤ mkTime b.start
      ↔ GoesOn (lo mkTime) (hi mkTime) 2 a b := by
  have hba := ha.bounds
  have hbb := hb.bounds
  have hdiff : (mkTime b.start - mkTime a.stop).toInt = lo mkTime b - hi mkTime a := by
    rw [Int32.toInt_sub]
    show (lo mkTime b - hi mkTime a).bmod (2 ^ 32) = _
    exact Int.bmod_eq_of_le (by omega) (by omega)
  rw [Int32.lt_iff_toInt_lt, Int32.le_iff_toInt_le, hdiff, and_comm]
  exact Iff.rfl

theorem length_squash (run : List VideoTime) : (squash run).length = run.length := by
  cases run with
  | nil => rfl
  | cons a r => rw [squash, List.length_cons, List.length_replicate, List.length_cons]

theorem length_joined (mkTime : VDTime → Int32) (videos : List VideoTime) :
    (joined mkTime videos).length = videos.length := by
  rw [joined, List.length_flatMap, List.map_congr_left fun run _ => length_squash run,
    ← List.length_flatten, chains, List.flatten_splitBy]

/-- `z` is the last element before the run `a :: r`, if there is one, and the run does not go on from
it. -/
def Boundary (mkTime : VDTime → Int32) (done : List VideoTime) (a : VideoTime) : Prop :=
  ∀ z ∈ done.getLast?, ¬ GoesOn (lo mkTime) (hi mkTime) 2 z a

theorem joined_append (hchain : (a :: r).IsChain (GoesOn (lo mkTime) (hi mkTime) 2))
    (hbound : Boundary mkTime done a) :
    joined mkTime (done ++ a :: r) = joined mkTime done ++ squash (a :: r) := by
  have hrun : (a :: r).splitBy (fun a b => decide (GoesOn (lo mkTime) (hi mkTime) 2 a b)) = [a :: r] :=
    List.splitBy_of_isChain (List.cons_ne_nil a r) (by simpa using hchain)
  rw [joined, chains, List.splitBy_append, hrun, List.flatMap_append, List.flatMap_singleton]
  · rfl
  · intro z hz y hy
    rw [List.head?_cons, Option.mem_def, Option.some.injEq] at hy
    subst hy
    exact decide_eq_false (hbound z hz)

theorem modify_length (P : List VideoTime) (h : VideoTime) (l : List VideoTime)
    (f : VideoTime → VideoTime) : (P ++ h :: l).modify P.length f = P ++ f h :: l :=
  List.modifyTailIdx_add (List.modifyHead f) 0 P (h :: l)

/-- What the loop does to an interval that goes on from the last one. -/
theorem squash_snoc (P : List VideoTime) (a x : VideoTime) (r rest : List VideoTime) :
    ((P ++ squash (a :: r) ++ x :: rest).modify P.length ({ · with stop := x.stop })).set
      (P.length + r.length + 1) {} = P ++ squash (a :: (r ++ [x])) ++ rest := by
  have hset : (P.length + r.length + 1)
      = (P ++ mergeVideo a x :: List.replicate r.length {}).length := by
    simp only [List.length_append, List.length_cons, List.length_replicate]
    omega
  rw [squash, List.append_assoc, List.cons_append, modify_length, ← List.cons_append,
    ← List.append_assoc]
  show (P ++ mergeVideo a x :: List.replicate r.length {} ++ x :: rest).set _ {} = _
  rw [hset, List.set_append_right _ _ (Nat.le_refl _), Nat.sub_self, List.set_cons_zero, squash]
  simp [List.replicate_succ']

theorem adjustStep_eq (P : List VideoTime) (a x : VideoTime) (r rest : List VideoTime) (s e : Int32) :
    adjustStep mkTime ⟨P ++ squash (a :: r) ++ x :: rest, P.length, s, e⟩ (P.length + r.length + 1) =
      if mkTime x.start - e < 2 ∧ s ≤ mkTime x.start then
        ⟨P ++ squash (a :: (r ++ [x])) ++ rest, P.length, mkTime x.start, mkTime x.stop⟩
      else ⟨P ++ squash (a :: r) ++ x :: rest, P.length + r.length + 1, mkTime x.start, mkTime x.stop⟩ := by
  have hlen : (P ++ squash (a :: r)).length = P.length + r.length + 1 := by
    rw [List.length_append, length_squash, List.length_cons]
    omega
  have hget : (P ++ squash (a :: r) ++ x :: rest).getD (P.length + r.length + 1) {} = x := by
    rw [List.getD_eq_getElem?_getD, List.getElem?_append_right hlen.le, hlen, Nat.sub_self]
    rfl
  have hpos : 1 ≤ P.length + r.length + 1 := by omega
  unfold adjustStep
  dsimp only
  rw [hget]
  by_cases h : mkTime x.start - e < 2 ∧ s ≤ mkTime x.start
  · rw [if_pos ⟨hpos, h⟩, if_pos h, ← squash_snoc P a x r rest]
  · rw [if_neg fun h' => h h'.2, if_neg h]

/-- The loop from the middle of a run on. -/
theorem adjust_loop (done : List VideoTime) (a : VideoTime) (r rest : List VideoTime)
    (hv : ∀ v ∈ a :: r ++ rest, Video mkTime v)
    (hchain : (a :: r).IsChain (GoesOn (lo mkTime) (hi mkTime) 2)) (hbound : Boundary mkTime done a)
    (hz : (a :: r).getLast (List.cons_ne_nil a r) = z) :
    ((List.range' (done.length + r.length + 1) rest.length).foldl (adjustStep mkTime)
      ⟨joined mkTime done ++ squash (a :: r) ++ rest, done.length, mkTime z.start, mkTime z.stop⟩).videos
      = joined mkTime (done ++ a :: r ++ rest) := by
  induction rest generalizing done a r z with
  | nil =>
    rw [List.append_nil, List.append_nil, joined_append hchain hbound]
    rfl
  | cons x rest ih =>
    have hstep := @adjustStep_eq mkTime (joined mkTime done) a x r rest (mkTime z.start)
      (mkTime z.stop)
    have hvz : Video mkTime z := hz ▸ hv _ (List.mem_append_left _ (List.getLast_mem _))
    have hvx : Video mkTime x := hv x (List.mem_append_right _ (List.mem_cons_self ..))
    rw [length_joined] at hstep
    rw [List.length_cons, List.range'_succ, List.foldl_cons, hstep]
    by_cases h : mkTime x.start - mkTime z.stop < 2 ∧ mkTime z.start ≤ mkTime x.start
    · rw [if_pos h]
      have hchain' : (a :: (r ++ [x])).IsChain (GoesOn (lo mkTime) (hi mkTime) 2) := by
        rw [← List.cons_append, List.isChain_append]
        refine ⟨hchain, List.isChain_singleton x, fun y hy w hw => ?_⟩
        rw [List.getLast?_eq_some_getLast (List.cons_ne_nil a r), Option.mem_def,
          Option.some.injEq] at hy
        rw [List.head?_cons, Option.mem_def, Option.some.injEq] at hw
        rw [← hy, hz, ← hw]
        exact (goesOn_iff hvz hvx).mp h
      have hlast : (a :: (r ++ [x])).getLast (List.cons_ne_nil _ _) = x := by simp
      have hrec := ih done a (r ++ [x]) (by simpa using hv) hchain' hbound hlast
      rw [List.length_append, List.length_singleton, ← Nat.add_assoc] at hrec
      rw [hrec]
      simp
    · rw [if_neg h]
      have hbound' : Boundary mkTime (done ++ a :: r) x := by
        intro y hy
        rw [List.getLast?_append_of_ne_nil _ (List.cons_ne_nil a r),
          List.getLast?_eq_some_getLast (List.cons_ne_nil a r), Option.mem_def, Option.some.injEq] at hy
        rw [← hy, hz]
        exact fun hgoes => h ((goesOn_iff hvz hvx).mpr hgoes)
      have hrec := ih (done ++ a :: r) x [] (fun v hmem => hv v (List.mem_append_right _ hmem))
        (List.isChain_singleton x) hbound' rfl
      rw [joined_append hchain hbound] at hrec
      simpa [squash, mergeVideo, Nat.add_assoc] using hrec

/-- The loop squashes the runs. -/
theorem adjustPDH264Time_eq (hv : ∀ v ∈ videos, Video mkTime v) :
    adjustPDH264Time mkTime videos = joined mkTime videos := by
  cases videos with
  | nil => rfl
  | cons x rest =>
    have hloop := @adjust_loop mkTime x [] x [] rest hv (List.isChain_singleton x)
      (fun z hz => by cases hz) rfl
    rw [adjustPDH264Time, List.range_eq_range', List.length_cons, List.range'_succ, List.foldl_cons]
    exact hloop

/-! ## Cleared intervals -/

section Videos

variable (mkTime : VDTime → Int32)

/-- The second `t` is one of an interval that is not cleared. -/
def Covered (videos : List VideoTime) (t : Int) : Prop :=
  ∃ v ∈ videos, v ≠ {} ∧ Misc.Intervals.Holds (lo mkTime) (hi mkTime) v t

/-- No two intervals that are not cleared are continuous. -/
def Merged (videos : List VideoTime) : Prop :=
  videos.Pairwise fun a b => a ≠ {} → b ≠ {} → Separate (lo mkTime) (hi mkTime) 2 a b

/-- No interval ends after the last one of its chain, and intervals of different chains are not
continuous. -/
structure Chained (videos : List VideoTime) : Prop where
  last : ∀ run ∈ chains mkTime videos, LastEnds (hi mkTime) run
  apart : (chains mkTime videos).Pairwise fun run run' =>
    ∀ a ∈ run, ∀ b ∈ run', a ≠ {} → b ≠ {} → Separate (lo mkTime) (hi mkTime) 2 a b

end Videos

instance (videos : List VideoTime) (t : Int) : Decidable (Covered mkTime videos t) :=
  have (v : VideoTime) : Decidable (Misc.Intervals.Holds (lo mkTime) (hi mkTime) v t) :=
    inferInstanceAs (Decidable (_ ∧ _))
  inferInstanceAs (Decidable (∃ v ∈ videos, v ≠ {} ∧ Misc.Intervals.Holds (lo mkTime) (hi mkTime) v t))

/-- A cleared interval and another one are never in one chain. -/
theorem cleared_iff_of_goesOn (ha : Video mkTime a) (hb : Video mkTime b)
    (h : GoesOn (lo mkTime) (hi mkTime) 2 a b) : b = {} ↔ a = {} := by
  have hzero : lo mkTime {} = hi mkTime {} := rfl
  obtain ⟨hle, hlt⟩ := h
  constructor
  · rintro rfl
    rcases ha with rfl | ⟨ha, -, -⟩
    · rfl
    · omega
  · rintro rfl
    rcases hb with rfl | ⟨hb, -, -⟩
    · rfl
    · omega

theorem cleared_iff_head (hchain : (a :: r).IsChain (GoesOn (lo mkTime) (hi mkTime) 2))
    (hv : ∀ v ∈ a :: r, Video mkTime v) : ∀ b ∈ a :: r, b = {} ↔ a = {} := by
  induction r generalizing a with
  | nil => simp
  | cons c r ih =>
    rw [List.isChain_cons_cons] at hchain
    have hc := cleared_iff_of_goesOn (hv a (by simp)) (hv c (by simp)) hchain.1
    intro b hb
    rcases List.mem_cons.mp hb with rfl | hb
    · exact Iff.rfl
    · exact (ih hchain.2 (fun v hv' => hv v (List.mem_cons_of_mem _ hv')) b hb).trans hc

/-- A run of which the first, and so every interval is not cleared. -/
def Live (run : List VideoTime) : Prop := run.head? ≠ some {}

instance (run : List VideoTime) : Decidable (Live run) := inferInstanceAs (Decidable (_ ≠ _))

/-- What is left of a run. -/
theorem filter_squash (hchain : run.IsChain (GoesOn (lo mkTime) (hi mkTime) 2))
    (hv : ∀ v ∈ run, Video mkTime v) :
    (squash run).filter (fun v => decide (v ≠ {}))
      = if Live run then (mergeRun mergeVideo run).toList else [] := by
  cases run with
  | nil => rfl
  | cons a r =>
    have hlast := List.getLast_mem (List.cons_ne_nil a r)
    have hrest : (List.replicate r.length ({} : VideoTime)).filter (fun v => decide (v ≠ {})) = [] := by
      rw [List.filter_replicate, if_neg (by simp)]
    have hlive : Live (a :: r) ↔ a ≠ {} := by
      rw [Live, List.head?_cons, Ne, Option.some.injEq]
    rw [squash, List.filter_cons, hrest]
    by_cases ha : a = {}
    · have hz := (cleared_iff_head hchain hv _ hlast).mpr ha
      rw [if_neg (show ¬ Live (a :: r) from fun h => hlive.mp h ha), hz, ha,
        if_neg (by simp [mergeVideo])]
    · have hne : mergeVideo a ((a :: r).getLast (List.cons_ne_nil a r)) ≠ {} := by
        intro hmerge
        have hstart : a.start = {} := congrArg VideoTime.start hmerge
        rcases hv a (List.mem_cons_self ..) with h | ⟨h, -⟩
        · exact ha h
        · rw [lo, hstart] at h
          have hzero : hi mkTime {} = (mkTime {}).toInt := rfl
          omega
      rw [if_pos (by simpa using hne), if_pos (hlive.mpr ha)]
      rfl

/-! ## Losing and repeating nothing -/

theorem isRun_of_mem_chains (hv : ∀ v ∈ videos, Video mkTime v) (hmem : run ∈ chains mkTime videos) :
    run.IsChain (GoesOn (lo mkTime) (hi mkTime) 2) ∧ (∀ v ∈ run, Video mkTime v) ∧ run ≠ [] := by
  refine ⟨?_, fun v hmemv => ?_, List.ne_nil_of_mem_splitBy hmem⟩
  · simpa using List.isChain_of_mem_splitBy hmem
  · apply hv
    have hflat := List.flatten_splitBy
      (fun a b => decide (GoesOn (lo mkTime) (hi mkTime) 2 a b)) videos
    rw [← hflat]
    exact List.mem_flatten.mpr ⟨run, hmem, hmemv⟩

/-- The intervals that are left are the merged runs. -/
theorem filter_joined (hv : ∀ v ∈ videos, Video mkTime v) :
    (joined mkTime videos).filter (fun v => decide (v ≠ {}))
      = ((chains mkTime videos).filter (fun run => decide (Live run))).filterMap
          (mergeRun mergeVideo) := by
  have hruns : ∀ run ∈ chains mkTime videos, (squash run).filter (fun v => decide (v ≠ {}))
      = if Live run then (mergeRun mergeVideo run).toList else [] := fun run hmem =>
    filter_squash (isRun_of_mem_chains hv hmem).1 (isRun_of_mem_chains hv hmem).2.1
  rw [joined]
  generalize chains mkTime videos = runs at hruns
  induction runs with
  | nil => rfl
  | cons run runs ih =>
    have hrec := ih fun run' hmem => hruns run' (List.mem_cons_of_mem _ hmem)
    rw [List.flatMap_cons, List.filter_append, hruns run (List.mem_cons_self ..), hrec]
    by_cases hlive : Live run
    · rw [if_pos hlive, List.filter_cons_of_pos (by simpa using hlive), List.filterMap_cons]
      cases mergeRun mergeVideo run with
      | none => rfl
      | some m => rfl
    · rw [if_neg hlive, List.filter_cons_of_neg (by simpa using hlive), List.nil_append]

theorem covered_iff_filter : Covered mkTime videos t ↔
    ∃ v ∈ videos.filter (fun v => decide (v ≠ {})), Misc.Intervals.Holds (lo mkTime) (hi mkTime) v t := by
  simp only [Covered, List.mem_filter, decide_eq_true_eq, and_assoc]

theorem live_iff (hv : ∀ v ∈ videos, Video mkTime v) (hmem : run ∈ chains mkTime videos)
    (ha : a ∈ run) : Live run ↔ a ≠ {} := by
  obtain ⟨hchain, hvideo, hne⟩ := isRun_of_mem_chains hv hmem
  cases run with
  | nil => exact absurd rfl hne
  | cons b r =>
    rw [Live, List.head?_cons, Ne, Option.some.injEq, ← cleared_iff_head hchain hvideo a ha]

/-- What was covered, by runs. -/
theorem covered_iff_chains (hv : ∀ v ∈ videos, Video mkTime v) : Covered mkTime videos t ↔
    ∃ run ∈ (chains mkTime videos).filter (fun run => decide (Live run)), ∃ a ∈ run,
      Misc.Intervals.Holds (lo mkTime) (hi mkTime) a t := by
  have hflat := List.flatten_splitBy (fun a b => decide (GoesOn (lo mkTime) (hi mkTime) 2 a b)) videos
  constructor
  · rintro ⟨v, hmem, hne, ht⟩
    rw [← hflat] at hmem
    obtain ⟨run, hrun, hmem⟩ := List.mem_flatten.mp hmem
    have hlive := (live_iff hv hrun hmem).mpr hne
    exact ⟨run, List.mem_filter.mpr ⟨hrun, decide_eq_true hlive⟩, v, hmem, ht⟩
  · rintro ⟨run, hrun, a, ha, ht⟩
    obtain ⟨hrun, hlive⟩ := List.mem_filter.mp hrun
    refine ⟨a, ?_, (live_iff hv hrun ha).mp (of_decide_eq_true hlive), ht⟩
    rw [← hflat]
    exact List.mem_flatten.mpr ⟨run, hrun, ha⟩

theorem merges_mergeVideo (mkTime : VDTime → Int32) :
    Merges (lo mkTime) (hi mkTime) mergeVideo := ⟨fun _ _ => rfl, fun _ _ => rfl⟩

/-- The condition on the chains, for those that are not cleared. -/
theorem chained_iff_live (hv : ∀ v ∈ videos, Video mkTime v) : Chained mkTime videos ↔
    (∀ run ∈ (chains mkTime videos).filter (fun run => decide (Live run)), LastEnds (hi mkTime) run)
      ∧ ((chains mkTime videos).filter (fun run => decide (Live run))).Pairwise fun run run' =>
        ∀ a ∈ run, ∀ b ∈ run', Separate (lo mkTime) (hi mkTime) 2 a b := by
  rw [List.pairwise_filter]
  constructor
  · rintro ⟨hlast, hpair⟩
    refine ⟨fun run hmem => hlast run (List.mem_filter.mp hmem).1, ?_⟩
    refine hpair.imp_of_mem fun {run run'} hmem hmem' h hlive hlive' a ha b hb => ?_
    exact h a ha b hb ((live_iff hv hmem ha).mp (of_decide_eq_true hlive))
      ((live_iff hv hmem' hb).mp (of_decide_eq_true hlive'))
  · rintro ⟨hlast, hpair⟩
    refine ⟨fun run hmem => ?_, ?_⟩
    · by_cases hlive : Live run
      · exact hlast run (List.mem_filter.mpr ⟨hmem, decide_eq_true hlive⟩)
      · -- all are cleared
        intro z hz a ha
        have hzero : ∀ v ∈ run, v = {} := fun v hmemv =>
          not_not.mp fun hne => hlive ((live_iff hv hmem hmemv).mpr hne)
        rw [hzero a ha, hzero z (List.mem_of_mem_getLast? hz)]
    · refine hpair.imp_of_mem fun {run run'} hmem hmem' h a ha b hb hne hne' => ?_
      exact h (decide_eq_true ((live_iff hv hmem ha).mpr hne))
        (decide_eq_true ((live_iff hv hmem' hb).mpr hne')) a ha b hb

theorem merged_iff_chained (hv : ∀ v ∈ videos, Video mkTime v) :
    ((∀ t, Covered mkTime videos t → Covered mkTime (adjustPDH264Time mkTime videos) t)
      ∧ Merged mkTime (adjustPDH264Time mkTime videos)) ↔ Chained mkTime videos := by
  have hruns : ∀ run ∈ (chains mkTime videos).filter (fun run => decide (Live run)),
      IsRun (lo mkTime) (hi mkTime) 2 run := by
    intro run hmem
    obtain ⟨hmem, hlive⟩ := List.mem_filter.mp hmem
    obtain ⟨hchain, hvideo, -⟩ := isRun_of_mem_chains hv hmem
    refine ⟨hchain, fun a ha => ?_⟩
    rcases hvideo a ha with h | h
    · exact absurd h ((live_iff hv hmem ha).mp (of_decide_eq_true hlive))
    · exact h.2.1
  have hmerge := merge_runs_iff (Int.le_refl 2) (merges_mergeVideo mkTime) hruns
  rw [chained_iff_live hv, ← hmerge, ← filter_joined hv, adjustPDH264Time_eq hv, Merged]
  refine and_congr (forall_congr' fun t => ?_) ?_
  · rw [covered_iff_chains hv, covered_iff_filter]
  · rw [List.pairwise_filter]
    simp only [decide_eq_true_eq]

/-! ## The record -/

/-- The segments that a call returned. -/
def segsOf (info : H264SegInfo) : List Seg :=
  if info.h264Seg = 2 then [info.seg0, info.seg1] else [info.seg0]

/-- A call that succeeds returns one or two segments. -/
def OneOrTwo (info : H264SegInfo) : Prop := info.h264Seg = 1 ∨ info.h264Seg = 2

/-- The record holds, in order, the segments of the calls that succeeded, of all of them or of those
before one whose segments have no room. -/
def Fills (calls : List (Option H264SegInfo)) (info : H264RecordInfo) : Prop :=
  ∃ n, info.h264BufSeg.take info.h264Seg = (calls.reduceOption.take n).flatMap segsOf
    ∧ info.h264Seg = ((calls.reduceOption.take n).flatMap segsOf).length
    ∧ info.h264Seg ≤ MAX_H264_SEG_NUM
    ∧ ∀ next ∈ calls.reduceOption[n]?, MAX_H264_SEG_NUM < info.h264Seg + next.h264Seg

/-- As many segments are written as are counted. -/
structure GetPD.Counted (g : GetPD) : Prop where
  index : g.index = g.info.h264Seg
  le : g.index ≤ MAX_H264_SEG_NUM
  length : g.info.h264BufSeg.length = MAX_H264_SEG_NUM

/-- The segments written so far. -/
def GetPD.written (g : GetPD) : List Seg := g.info.h264BufSeg.take g.index

theorem push_spec (hlen : g.info.h264BufSeg.length = MAX_H264_SEG_NUM)
    (h : g.index < MAX_H264_SEG_NUM) : ∃ g', g.push seg = some g' ∧ g'.index = g.index + 1
      ∧ g'.info.h264Seg = g.info.h264Seg ∧ g'.info.h264BufSeg.length = MAX_H264_SEG_NUM
      ∧ g'.written = g.written ++ [seg] := by
  refine ⟨_, if_pos h, rfl, rfl, ?_, ?_⟩
  · show (g.info.h264BufSeg.set g.index seg).length = _
    rw [List.length_set, hlen]
  · have hset : g.index < (g.info.h264BufSeg.set g.index seg).length := by
      rw [List.length_set, hlen]
      exact h
    show (g.info.h264BufSeg.set g.index seg).take (g.index + 1) = g.info.h264BufSeg.take g.index ++ [seg]
    rw [List.take_succ_eq_append_getElem hset, List.getElem_set_self, List.take_set_of_le (Nat.le_refl _)]

/-- A call whose segments have room. -/
theorem add_spec (hg : g.Counted) (h : OneOrTwo info)
    (hroom : g.info.h264Seg + info.h264Seg ≤ MAX_H264_SEG_NUM) :
    ∃ g', g.add info = some g' ∧ g'.Counted ∧ g'.written = g.written ++ segsOf info := by
  obtain ⟨hindex, -, hlen⟩ := hg
  have hpos : 1 ≤ info.h264Seg := by
    rcases h with h | h <;> omega
  let g₀ : GetPD := { g with
    hasH264 := true
    info := { g.info with
      h264Seg := g.info.h264Seg + info.h264Seg
      secondsRecordRet := g.info.secondsRecordRet + info.secondsRecordRet } }
  obtain ⟨g₁, hpush, hi₁, hs₁, hl₁, hw₁⟩ :=
    @push_spec g₀ info.seg0 hlen (show g.index < _ by omega)
  have hadd : g.add info = if info.h264Seg = 2 then g₁.push info.seg1 else some g₁ := by
    show (g₀.push info.seg0).bind _ = _
    rw [hpush]
    rfl
  rw [hadd]
  by_cases htwo : info.h264Seg = 2
  · have hroom₁ : g₁.index < MAX_H264_SEG_NUM := by
      rw [hi₁]
      show g.index + 1 < _
      omega
    obtain ⟨g₂, hpush₂, hi₂, hs₂, hl₂, hw₂⟩ := @push_spec g₁ info.seg1 hl₁ hroom₁
    have hindex₂ : g₂.index = g.index + 2 := by rw [hi₂, hi₁]
    have hcount₂ : g₂.info.h264Seg = g.info.h264Seg + info.h264Seg := by rw [hs₂, hs₁]
    refine ⟨g₂, by rw [if_pos htwo, hpush₂], ⟨by omega, by omega, hl₂⟩, ?_⟩
    rw [hw₂, hw₁, segsOf, if_pos htwo, List.append_assoc]
    rfl
  · have hone : info.h264Seg = 1 := by
      rcases h with h | h <;> omega
    have hindex₁ : g₁.index = g.index + 1 := hi₁
    have hcount₁ : g₁.info.h264Seg = g.info.h264Seg + info.h264Seg := hs₁
    refine ⟨g₁, if_neg htwo, ⟨by omega, by omega, hl₁⟩, ?_⟩
    rw [hw₁, segsOf, if_neg htwo]
    rfl

/-- What the loop writes after what is there. -/
theorem getSegs_spec (hg : g.Counted) (h : ∀ info, some info ∈ calls → OneOrTwo info) :
    ∃ g' n, getSegs calls g = some g' ∧ g'.Counted
      ∧ g'.written = g.written ++ (calls.reduceOption.take n).flatMap segsOf
      ∧ ∀ next ∈ calls.reduceOption[n]?, MAX_H264_SEG_NUM < g'.info.h264Seg + next.h264Seg := by
  induction calls generalizing g with
  | nil => exact ⟨g, 0, rfl, hg, by simp, by simp⟩
  | cons call calls ih =>
    have hrest : ∀ info, some info ∈ calls → OneOrTwo info := fun info hmem =>
      h info (List.mem_cons_of_mem _ hmem)
    cases call with
    | none => exact ih hg hrest
    | some info =>
      rw [getSegs, List.reduceOption_cons_of_some]
      by_cases hfull : g.info.h264Seg + info.h264Seg > MAX_H264_SEG_NUM
      · refine ⟨g, 0, if_pos hfull, hg, by simp, fun next hnext => ?_⟩
        rw [List.getElem?_cons_zero, Option.mem_def, Option.some.injEq] at hnext
        rw [← hnext]
        exact hfull
      · obtain ⟨g₁, hadd, hg₁, hw₁⟩ := add_spec hg (h info (List.mem_cons_self ..)) (by omega)
        obtain ⟨g', n, hrun, hg', hw', hnext⟩ := ih hg₁ hrest
        refine ⟨g', n + 1, by rw [if_neg hfull, hadd]; exact hrun, hg', ?_, hnext⟩
        rw [hw', hw₁, List.take_succ_cons, List.flatMap_cons, List.append_assoc]

/-- The calls that `get_PD_h264` makes. -/
def callsOf (mkTime : VDTime → Int32) (get : Nat → Int32 → Int32 → Option H264SegInfo)
    (videos : List VideoTime) : List (Option H264SegInfo) :=
  (adjustPDH264Time mkTime videos).mapIdx fun i video =>
    get i (mkTime video.start) (mkTime video.stop)

theorem getPDH264_fills (mkTime : VDTime → Int32) (get : Nat → Int32 → Int32 → Option H264SegInfo)
    (psAdjust : Seg → Int → Int × Int) (videos : List VideoTime)
    (h : ∀ i s e info, get i s e = some info → OneOrTwo info) :
    ∃ ret info, getPDH264 mkTime get psAdjust videos = some (ret, info)
      ∧ Fills (callsOf mkTime get videos) info := by
  have hcalls : ∀ info, some info ∈ callsOf mkTime get videos → OneOrTwo info := by
    intro info hmem
    obtain ⟨i, hi, hget⟩ := List.mem_mapIdx.mp hmem
    exact h _ _ _ _ hget
  obtain ⟨g, n, hrun, hg, hw, hnext⟩ :=
    getSegs_spec (g := {}) ⟨rfl, Nat.zero_le _, List.length_replicate ..⟩ hcalls
  have hwritten : g.info.h264BufSeg.take g.info.h264Seg
      = ((callsOf mkTime get videos).reduceOption.take n).flatMap segsOf := by
    rw [← hg.index]
    exact hw
  have hcount : g.info.h264Seg
      = (((callsOf mkTime get videos).reduceOption.take n).flatMap segsOf).length := by
    rw [← hwritten, List.length_take, hg.length, ← hg.index, Nat.min_eq_left hg.le]
  have hfills : Fills (callsOf mkTime get videos) g.info :=
    ⟨n, hwritten, hcount, hg.index ▸ hg.le, hnext⟩
  have hget : getPDH264 mkTime get psAdjust videos
      = (getSegs (callsOf mkTime get videos) {}).map _ := rfl
  rw [hget, hrun, Option.map_some]
  split
  · exact ⟨_, _, rfl, hfills⟩
  · exact ⟨_, _, rfl, hfills⟩

/-! ## The main result -/

/-- No second is lost, no two continuous intervals are left, and the record is filled with what the
calls return. -/
structure Kept (mkTime : VDTime → Int32) (videos : List VideoTime) : Prop where
  covered : ∀ t, Covered mkTime videos t → Covered mkTime (adjustPDH264Time mkTime videos) t
  merged : Merged mkTime (adjustPDH264Time mkTime videos)
  record : ∀ get psAdjust, (∀ i s e info, get i s e = some info → OneOrTwo info) →
    ∃ ret info, getPDH264 mkTime get psAdjust videos = some (ret, info)
      ∧ Fills (callsOf mkTime get videos) info

/-- Nothing is lost or repeated if and only if, in the chains of neighbours in the array, no interval
ends after the last one and none is continuous with one of another chain. -/
theorem kept_iff_chained (mkTime : VDTime → Int32) (videos : List VideoTime)
    (h : ∀ v ∈ videos, Video mkTime v) : Kept mkTime videos ↔ Chained mkTime videos := by
  rw [← merged_iff_chained h]
  constructor
  · intro hkept
    exact ⟨hkept.covered, hkept.merged⟩
  · rintro ⟨hcovered, hmerged⟩
    exact ⟨hcovered, hmerged, fun get psAdjust hget => getPDH264_fills mkTime get psAdjust videos hget⟩

/-- The times of the first of January 2016 and those before 1970. -/
def newYear (t : VDTime) : Int32 :=
  if t.year = 2016 then Int32.ofInt (1451606400 + t.hour * 3600 + t.min * 60 + t.sec) else -1

/-- From one second of that day's first minute to another. -/
def seconds (a b : Int) : VideoTime := ⟨⟨2016, 1, 1, 0, 0, a⟩, ⟨2016, 1, 1, 0, 0, b⟩⟩

/-- Two that are adjacent, a cleared one and one that is apart. -/
theorem kept_iff_chained_adjacent :
    Kept newYear [seconds 10 20, seconds 21 30, {}, seconds 40 50] := by
  apply (kept_iff_chained newYear _ (by decide)).mpr
  constructor
  · unfold LastEnds
    decide
  · decide

/-- An interval inside the one before cuts that one short. -/
theorem not_kept : ¬ ∀ (mkTime : VDTime → Int32) (videos : List VideoTime),
    videos.length = MAX_CAPTURE_NUM → (∀ v ∈ videos, Video mkTime v) → Kept mkTime videos := by
  intro h
  have hkept := h newYear [seconds 10 30, seconds 15 20, {}, {}] rfl (by decide)
  have hlost := hkept.covered (1451606400 + 30)
  revert hlost
  decide

end VdCamera.Toggle
