import VdCamera.H264.Proofs.StampChain

/-!
# Rewritten timestamps are continuous

From the clock: the timestamps go on from each other, the end is the last of them, and a second run
changes nothing.
-/

namespace VdCamera.H264

open Misc

variable {m : Mem} {bufLen start : Int} {hs : List (Header × Nat)} {s t : PsState}

/-- The timestamps of a stream, in its order, but for those that are zero. -/
def timestamps (m : Mem) (hs : List (Header × Nat)) : List Int :=
  ((hs.filter fun x => x.1 = .pack ∨ HasPts m x.2).map fun x => stampAt m x.1 x.2).filter (· ≠ 0)

/-- What the start is when it counts as a timestamp: `-1` is none. -/
def given (start : Int) : List Int := if start = -1 then [] else [start]

/-- The timestamps of `m` go on from the start and from each other, `stop` is the last of them, and
running the function again leaves `m` as it is. -/
structure Continuous (m : Mem) (bufLen start : Int) (hs : List (Header × Nat)) (stop : Int) : Prop where
  chain : (given start ++ timestamps m hs).IsChain Goes
  last : stop = (given start ++ timestamps m hs).getLastD 0
  again : ∃ fuel, h264PsAdjustTimestamp fuel m bufLen start = some (0, some stop, m)

/-- The function returns, and what it leaves is continuous unless the timestamps have got too large. -/
def Adjusted (m : Mem) (bufLen start : Int) (hs : List (Header × Nat)) : Prop :=
  ∃ fuel stop m', h264PsAdjustTimestamp fuel m bufLen start = some (0, some stop, m') ∧
    (stop < 2 ^ 33 → Continuous m' bufLen start hs stop)

/-- The start codes are those of the headers, every PES header has a PTS, and where the clock replaces
the timestamp of a PES header there is room for a DTS. -/
structure Regular (m : Mem) (bufLen start : Int) (hs : List (Header × Nat)) : Prop where
  only : ∀ k p, ((p + 4 : Nat) : Int) ≤ bufLen → strAt m p (Header.code k) = true → (k, p) ∈ hs
  pts : ∀ p, (Header.PES, p) ∈ hs → HasPts m p
  roomy : Roomy start bufLen hs (Clock.init start) m hs

/-- Where every PES header has a PTS all timestamps count. -/
theorem Tidy.timestamps_eq (h : Tidy m bufLen hs) :
    timestamps m hs = ((stampsOf m hs).map Prod.snd).filter (· ≠ 0) := by
  have hall : (hs.filter fun x => x.1 = .pack ∨ HasPts m x.2) = hs := by
    rw [List.filter_eq_self]
    rintro ⟨k, p⟩ hx
    cases k with
    | pack => exact decide_eq_true (.inl rfl)
    | PES => exact decide_eq_true (.inr (h.pts p hx))
  rw [timestamps, hall, stampsOf, List.map_map]
  rfl

theorem bufLen_pos (h : IsPsStream m bufLen hs) : 0 < bufLen := by
  obtain ⟨x, hx⟩ := List.exists_mem_of_ne_nil hs h.nonempty
  have hin := h.inside x hx
  have hsize := off_le_headerSize m x
  rcases off_eq x.1 with ⟨-, hoff⟩ | ⟨-, hoff⟩
  · omega
  · omega

theorem adjust_of_exits (hpos : 0 < bufLen) (h : ExitsIn (psStep bufLen start) (psInit m start) t) :
    ∃ fuel, h264PsAdjustTimestamp fuel m bufLen start = some (0, some t.timestampOld, t.buf) := by
  obtain ⟨fuel, hfuel⟩ := h
  refine ⟨fuel, ?_⟩
  rw [h264PsAdjustTimestamp, if_neg (Int.not_le.mpr hpos), hfuel, Option.map_some]

/-- Before the loop all headers are ahead. -/
theorem at_init (h : Tidy m bufLen hs) : At bufLen hs [] hs (psInit m start) where
  tidy := h
  ahead := ⟨rfl, fun _ hx => (List.not_mem_nil hx).elim, fun _ _ => Nat.zero_le _⟩
  followed := h.stream.followed
  place := .search (Nat.le_refl 0) (fun _ _ => Nat.zero_le _) fun _ _ => Nat.zero_le _

theorem clock_init_free : (Clock.init start).Free start ↔ start = -1 :=
  ⟨And.right, fun h => ⟨rfl, h⟩⟩

theorem clock_init_nonneg (h : start = -1 ∨ 0 ≤ start) : 0 ≤ (Clock.init start).old := by
  show 0 ≤ if start ≠ -1 then start else 0
  split
  · next hne => exact h.resolve_left hne
  · exact Int.le_refl 0

/-- The clock's timestamps go on from what is given and from each other. -/
theorem chain_of_clock (h : start = -1 ∨ 0 ≤ start) (xs : List (Header × Int)) (hxs : ∀ x ∈ xs, 0 ≤ x.2) :
    (given start ++ ((Clock.init start).stamps start xs).filter (· ≠ 0)).IsChain Goes := by
  have hold := clock_init_nonneg h
  by_cases hfree : start = -1
  · rw [given, if_pos hfree, List.nil_append]
    exact Clock.chain_stamps_of_free xs (clock_init_free.mpr hfree) hold hxs
  · have hchain := Clock.chain_stamps xs (mt clock_init_free.mp hfree) hold hxs
    rw [show (Clock.init start).old = start from if_pos hfree] at hchain
    rw [given, if_neg hfree, List.singleton_append]
    exact hchain

theorem last_of_clock (h : start = -1 ∨ 0 ≤ start) (xs : List (Header × Int)) (hxs : ∀ x ∈ xs, 0 ≤ x.2) :
    ((Clock.init start).final start xs).old =
      (given start ++ ((Clock.init start).stamps start xs).filter (· ≠ 0)).getLastD 0 := by
  rw [Clock.final_old xs (clock_init_nonneg h) hxs]
  by_cases hfree : start = -1
  · rw [given, if_pos hfree, List.nil_append]
    exact congrArg _ (if_neg (not_not.mpr hfree))
  · rw [given, if_neg hfree, List.singleton_append, List.getLastD_cons]
    exact congrArg _ (if_pos hfree)

/-- On regular streams the function makes the timestamps continuous. -/
theorem timestamps_continuous (hstream : IsPsStream m bufLen hs) (hstart : start = -1 ∨ 0 ≤ start)
    (h : Regular m bufLen start hs) : Adjusted m bufLen start hs := by
  have htidy : Tidy m bufLen hs := ⟨hstream, h.only, h.pts⟩
  have hpos := bufLen_pos hstream
  have hold : 0 ≤ (psInit m start).timestampOld := clock_init_nonneg hstart
  have hnonneg := stampsOf_nonneg m hs
  have hat : At bufLen hs [] hs (psInit m start) := at_init htidy
  obtain ⟨t, ht⟩ := hat.run hold h.roomy
  obtain ⟨fuel, hfuel⟩ := adjust_of_exits hpos ht.exits
  refine ⟨fuel, t.timestampOld, t.buf, hfuel, fun hbound => ?_⟩
  have hstamps : (stampsOf t.buf hs).map Prod.snd = (Clock.init start).stamps start (stampsOf m hs) :=
    ht.stamps hbound
  have htimes : timestamps t.buf hs
      = ((Clock.init start).stamps start (stampsOf m hs)).filter (· ≠ 0) := by
    rw [ht.tidy.timestamps_eq, hstamps]
  refine ⟨?_, ?_, ?_⟩
  · rw [htimes]
    exact chain_of_clock hstart _ hnonneg
  · rw [htimes, ht.old]
    exact last_of_clock hstart _ hnonneg
  · -- the second run finds the timestamps that the clock has left
    have hpairs : stampsOf t.buf hs
        = ((stampsOf m hs).map Prod.fst).zip ((Clock.init start).stamps start (stampsOf m hs)) := by
      apply List.zip_of_prod
      · rw [stampsOf, stampsOf, List.map_map, List.map_map]
        rfl
      · exact hstamps
    obtain ⟨hsame, hfinal⟩ := (Clock.Agree.refl start (Clock.init start)).again (stampsOf m hs)
      (clock_init_nonneg hstart) hnonneg
    rw [← hpairs, ← hstamps] at hsame
    rw [← hpairs] at hfinal
    have hat' : At bufLen hs [] hs (psInit t.buf start) := at_init ht.tidy
    obtain ⟨u, hu⟩ := hat'.run (clock_init_nonneg hstart) (roomy_of_kept hsame)
    obtain ⟨fuel', hfuel'⟩ := adjust_of_exits hpos hu.exits
    refine ⟨fuel', ?_⟩
    have hstop : u.timestampOld = t.timestampOld := by
      rw [hu.old, ht.old]
      exact hfinal
    rw [hfuel', hu.kept hsame, hstop]
    rfl

/-- `stamped` has the headers of one pack. -/
theorem isPsStream_stamped : IsPsStream stamped 33 [(.pack, 0), (.PES, 14)] where
  nonempty := List.cons_ne_nil _ _
  code := by decide
  complete := by
    refine List.forall_mem_cons.mpr ⟨?_, List.forall_mem_cons.mpr ⟨⟨fun _ => ?_, fun _ => ?_⟩, ?_⟩⟩
    · exact (by decide : ∀ z ∈ packMarkers, (stamped (0 + z.1)).toNat.testBit z.2 = true)
    · exact ⟨by decide, (by decide : ∀ z ∈ ptsMarkers, (stamped (14 + z.1)).toNat.testBit z.2 = true)⟩
    · exact ⟨by decide, (by decide : ∀ z ∈ dtsMarkers, (stamped (14 + z.1)).toNat.testBit z.2 = true)⟩
    · exact List.forall_mem_nil _
  spaced := by decide
  inside := by decide
  followed := ⟨⟨14, [], rfl⟩, trivial⟩

theorem regular_stamped : Regular stamped 33 100000 [(.pack, 0), (.PES, 14)] where
  only := by
    intro k p hp
    have hlt : p < 30 := by omega
    clear hp
    cases k with
    | pack =>
      revert p
      decide
    | PES =>
      revert p
      decide
  pts := by
    intro p hp
    obtain rfl : p = 14 := by simpa using hp
    decide
  roomy := by
    rw [Roomy, restamps_stamped]
    refine List.forall_mem_cons.mpr ⟨fun hk => ?_,
      List.forall_mem_cons.mpr ⟨fun _ _ => ?_, List.forall_mem_nil _⟩⟩
    · cases hk
    · exact .inl (by decide)

theorem timestamps_continuous_stamped : Adjusted stamped 33 100000 [(.pack, 0), (.PES, 14)] :=
  timestamps_continuous isPsStream_stamped (.inr (by decide)) regular_stamped

/-- A pack header of 1000 and a PES header without a PTS, whose payload reads as 2000. -/
def noPts : Mem :=
  memOf [0x00, 0x00, 0x01, 0xBA, 0x44, 0x00, 0x04, 0x1F, 0x44, 0x01, 0x00, 0x00, 0x03, 0xF8,
    0x00, 0x00, 0x01, 0xE0, 0x00, 0x00, 0x80, 0x00, 0x00, 0x21, 0x00, 0x01, 0x0F, 0xA1]

theorem isPsStream_noPts : IsPsStream noPts 28 [(.pack, 0), (.PES, 14)] where
  nonempty := List.cons_ne_nil _ _
  code := by decide
  complete := by
    refine List.forall_mem_cons.mpr ⟨?_, List.forall_mem_cons.mpr ⟨⟨fun h => ?_, fun h => ?_⟩, ?_⟩⟩
    · exact (by decide : ∀ z ∈ packMarkers, (noPts (0 + z.1)).toNat.testBit z.2 = true)
    · exact absurd h (by decide)
    · exact absurd h (by decide)
    · exact List.forall_mem_nil _
  spaced := by decide
  inside := by decide
  followed := ⟨⟨14, [], rfl⟩, trivial⟩

/-- The end is what the payload reads as, and no timestamp. -/
theorem not_timestamps_continuous : IsPsStream noPts 28 [(.pack, 0), (.PES, 14)] ∧
    ¬ Adjusted noPts 28 1000 [(.pack, 0), (.PES, 14)] := by
  refine ⟨isPsStream_noPts, ?_⟩
  rintro ⟨fuel, stop, m', hadjust, hcontinuous⟩
  have hpack : psStep 28 1000 (psInit noPts 1000) = some ⟨noPts, 4, some 0, 0, 14, 1000, false, .pack⟩ :=
    rfl
  have hPES : psStep 28 1000 ⟨noPts, 4, some 0, 0, 14, 1000, false, .pack⟩
      = some ⟨noPts, 23, none, 0, 14, 2000, false, .PES⟩ := rfl
  have hexit : psStep 28 1000 ⟨noPts, 23, none, 0, 14, 2000, false, .PES⟩ = none := rfl
  obtain ⟨t, ht, heq⟩ := Option.map_eq_some_iff.mp hadjust
  have hexits : ExitsIn (psStep 28 1000) (psInit noPts 1000) t := ⟨fuel, ht⟩
  obtain rfl := (exitsIn_iff_of_exit hexit).mp
    ((exitsIn_iff_of_step hPES).mp ((exitsIn_iff_of_step hpack).mp hexits))
  cases heq
  have hlast := (hcontinuous (by decide)).last
  exact absurd hlast (by decide)

end VdCamera.H264
