import VdCamera.H264.Buffer

/-!
# The record lookup

A lookup in a well-formed ring delivers a record of the request or fails with an empty result. The
proof works on chronological positions `0, …, count - 1`: the searches return positions, the I frame
search steps back in the same order, and the two segments are the slots of a run of positions.
-/

namespace VdCamera.H264

open Misc

/-! ## Well-formed rings and records

What a lookup is for, stated on the ring itself: the readable slots in chronological order, the
bytes of a frame in the circular data buffer, and the runs of frames that are a record of a request.
-/

namespace H264Buffer

variable (b : H264Buffer)

/-- The readable slots, oldest first: after the slot being written up to the highest one of the last
lap, then from slot 0 up to it. -/
def readable : List Nat :=
  if b.indexMax ≤ b.indexRecvH264 then List.range b.indexRecvH264
  else List.range' (b.indexRecvH264 + 1) (b.indexMax - b.indexRecvH264) ++
    List.range b.indexRecvH264

def sec (i : Nat) : Int := (b.indexH264 i).seconds

/-- The times and the numbers the writer puts into the table: the slot's own index, an id that grows
without bound, and seconds that do not decrease. -/
structure WellFormed : Prop where
  bufH264Index : ∀ i ∈ b.readable, (b.indexH264 i).bufH264Index = i
  h264Id_nonneg : ∀ i ∈ b.readable, 0 ≤ (b.indexH264 i).h264Id
  h264Id : b.readable.Pairwise fun i j => (b.indexH264 i).h264Id < (b.indexH264 j).h264Id
  seconds : b.readable.Pairwise fun i j => b.sec i ≤ b.sec j

/-- The positions of the frames are contiguous in the circular data buffer. -/
structure Circular : Prop where
  pos_lt : ∀ i ∈ b.readable, (b.indexH264 i).h264Position < b.lenBufH264
  len_le : (b.readable.map fun i => (b.indexH264 i).h264Len).sum ≤ b.lenBufH264
  next : b.readable.IsChain fun i j => (b.indexH264 j).h264Position =
    ((b.indexH264 i).h264Position + (b.indexH264 i).h264Len) % b.lenBufH264

/-- The positions are contiguous and the data buffer wraps only where the frame index does, from the
highest slot to slot 0: the frames of neighbouring slots are next to each other, and no frame passes
the end of the buffer. -/
structure LaidOut : Prop where
  next : ∀ i, i ∈ b.readable → i + 1 ∈ b.readable → (b.indexH264 (i + 1)).h264Position =
    (b.indexH264 i).h264Position + (b.indexH264 i).h264Len
  bound : ∀ i ∈ b.readable,
    (b.indexH264 i).h264Position + (b.indexH264 i).h264Len ≤ b.lenBufH264

/-- The offsets of a frame's bytes in the circular data buffer. -/
def frameBytes (i : Nat) : List Nat :=
  (List.range (b.indexH264 i).h264Len).map fun k =>
    ((b.indexH264 i).h264Position + k) % b.lenBufH264

/-- A readable frame has the second. -/
def hasSec (s : Int) : Bool := b.readable.any fun i => b.sec i == s

/-- `run` is a record from `secStart` to `secEnd`: a contiguous part of the readable frames that
starts with an I frame, with no frame of the start second before it, and ends with the last frame of
the end second. The two seconds are the first ones in the lookup's order that have a frame. -/
structure IsRecord (secStart secEnd : Int) (run : List Nat) : Prop where
  contiguous : ∃ before after s e, b.readable = before ++ run ++ after ∧
    (startSecs secStart).find? b.hasSec = some s ∧ (endSecs secEnd).find? b.hasSec = some e ∧
    (∀ i ∈ before, b.sec i ≠ s) ∧ (∀ i ∈ after, b.sec i ≠ e) ∧
    ∃ i ∈ run.getLast?, b.sec i = e
  iFrame : ∃ i ∈ run.head?, b.isI i = true

end H264Buffer

/-- The offsets of the bytes of a segment, which is read linearly. -/
def Seg.bytes (s : Seg) : List Nat := List.range' s.buf s.size

/-- The segments of a result. -/
def H264SegInfo.segs (info : H264SegInfo) : List Seg := [info.seg0, info.seg1].take info.h264Seg

/-- The result delivers the frames of `run`. -/
structure H264SegInfo.Delivers (info : H264SegInfo) (b : H264Buffer) (run : List Nat) : Prop where
  segs : info.h264Seg = 1 ∨ info.h264Seg = 2
  bytes : info.segs.flatMap Seg.bytes = run.flatMap b.frameBytes
  size : (info.segs.map Seg.size).sum = (run.map fun i => (b.indexH264 i).h264Len).sum
  notWritten : b.indexRecvH264 ∉ run

/-- A failed lookup leaves the result empty; a successful one delivers a record of the request. -/
def RecordOk (b : H264Buffer) (secStart secEnd illegalVideoSeconds : Int)
    (r : Int × H264SegInfo × Bool) : Prop :=
  (r.1 = -1 ∧ r.2.1.h264Seg = 0) ∨
    (r.1 = 0 ∧ ∃ run, b.IsRecord secStart (H264Buffer.adjustEnd secStart secEnd
      (H264Buffer.secondsRecord illegalVideoSeconds) (b.indexH264 b.indexLast).seconds) run ∧
      r.2.1.Delivers b run)

/-! ## Chronological positions -/

namespace H264Buffer

variable (b : H264Buffer)

/-- The number of readable frames. -/
def count : Nat := if b.indexMax ≤ b.indexRecvH264 then b.indexRecvH264 else b.indexMax

/-- The slot of a chronological position. -/
def chrono (i : Nat) : Nat :=
  if b.indexMax ≤ b.indexRecvH264 then i
  else if i < b.indexMax - b.indexRecvH264 then b.indexRecvH264 + 1 + i
  else i - (b.indexMax - b.indexRecvH264)

variable {b} {i j k n : Nat} {flag : Bool}

theorem readable_eq : b.readable = (List.range b.count).map b.chrono := by
  unfold readable count
  by_cases h : b.indexMax ≤ b.indexRecvH264
  · have hid : ∀ i ∈ List.range b.indexRecvH264, b.chrono i = i := fun i _ => by simp [chrono, h]
    rw [if_pos h, if_pos h, List.map_congr_left hid, List.map_id']
  · have hsplit : b.indexMax = (b.indexMax - b.indexRecvH264) + b.indexRecvH264 := by omega
    rw [if_neg h, if_neg h]
    conv_rhs => rw [hsplit, List.range_add, List.map_append, List.map_map]
    congr 1
    · rw [List.range'_eq_map_range]
      apply List.map_congr_left
      intro i hi
      rw [List.mem_range] at hi
      simp only [chrono, if_neg h, if_pos hi]
    · conv_lhs => rw [← List.map_id' (List.range b.indexRecvH264)]
      apply List.map_congr_left
      intro i hi
      have : ¬ b.indexMax - b.indexRecvH264 + i < b.indexMax - b.indexRecvH264 := by omega
      simp only [Function.comp_apply, chrono, if_neg h, if_neg this]
      omega

theorem mem_readable : j ∈ b.readable ↔ ∃ i, i < b.count ∧ b.chrono i = j := by
  simp [readable_eq]

theorem chrono_mem (hi : i < b.count) : b.chrono i ∈ b.readable := mem_readable.2 ⟨i, hi, rfl⟩

theorem chrono_ne_recv (hi : i < b.count) : b.chrono i ≠ b.indexRecvH264 := by
  unfold count at hi
  unfold chrono
  split at hi <;> rename_i h
  · rw [if_pos h]
    omega
  · rw [if_neg h]
    split <;> omega

/-- The seconds do not decrease with the position. -/
theorem WellFormed.sec_mono (hw : b.WellFormed) (hij : i ≤ j) (hj : j < b.count) :
    b.sec (b.chrono i) ≤ b.sec (b.chrono j) := by
  rcases Nat.eq_or_lt_of_le hij with rfl | hlt
  · exact Int.le_refl _
  · have h := hw.seconds
    rw [readable_eq, List.pairwise_map, List.pairwise_iff_getElem] at h
    have := h i j (by simp; omega) (by simpa using hj) hlt
    simpa using this

/-- The ids grow at least as fast as the position. -/
theorem WellFormed.le_h264Id (hw : b.WellFormed) (hi : i < b.count) :
    (i : Int) ≤ (b.indexH264 (b.chrono i)).h264Id := by
  induction i with
  | zero => exact hw.h264Id_nonneg _ (chrono_mem hi)
  | succ i ih =>
    have h := hw.h264Id
    rw [readable_eq, List.pairwise_map, List.pairwise_iff_getElem] at h
    have hstep := h i (i + 1) (by simp; omega) (by simpa using hi) (by omega)
    simp only [List.getElem_range] at hstep
    have := ih (by omega)
    push_cast
    omega

theorem chrono_count_sub_one (h : ¬ b.indexMax ≤ b.indexRecvH264) (hr : 0 < b.indexRecvH264) :
    b.chrono (b.indexMax - 1) = b.indexRecvH264 - 1 := by
  have : ¬ b.indexMax - 1 < b.indexMax - b.indexRecvH264 := by omega
  simp only [chrono, if_neg h, if_neg this]
  omega

/-- A ring with frames after the slot being written is detected as full, whatever the flag was. -/
theorem WellFormed.detectFlushed (hw : b.WellFormed) (h : ¬ b.indexMax ≤ b.indexRecvH264) :
    b.detectFlushed flag = true := by
  have hcount : b.count = b.indexMax := if_neg h
  cases flag with
  | true => rfl
  | false =>
    unfold H264Buffer.detectFlushed
    by_cases hr : b.indexRecvH264 > 1
    · -- the newest frame has an id of at least `indexMax - 1`, its slot is `indexRecv - 1`
      have hlast := chrono_count_sub_one h (by omega)
      have hmem : b.indexRecvH264 - 1 ∈ b.readable := hlast ▸ chrono_mem (by omega)
      have hid := hw.le_h264Id (i := b.indexMax - 1) (by omega)
      rw [hlast] at hid
      have hne : (b.indexH264 (b.indexRecvH264 - 1)).h264Id ≠ ((b.indexRecvH264 - 1 : Nat) : Int) := by
        omega
      simp [hr, hw.bufH264Index _ hmem, hne]
    · have hmem : b.indexRecvH264 + 1 ∈ b.readable := by
        refine mem_readable.2 ⟨0, by omega, ?_⟩
        have : 0 < b.indexMax - b.indexRecvH264 := by omega
        simp only [chrono, if_neg h, if_pos this]
      simp [hr, hw.bufH264Index _ hmem]

theorem WellFormed.bufContinuous (hw : b.WellFormed) :
    b.bufContinuous (b.detectFlushed flag) = decide (b.indexMax ≤ b.indexRecvH264) := by
  unfold H264Buffer.bufContinuous
  by_cases h : b.indexMax ≤ b.indexRecvH264
  · simp [h]
  · simp [h, hw.detectFlushed h]

theorem WellFormed.searchLen (hw : b.WellFormed) :
    b.searchLen (b.detectFlushed flag) = b.count := by
  unfold H264Buffer.searchLen count
  rw [hw.bufContinuous]
  simp

theorem WellFormed.indexTmp (hw : b.WellFormed) (hi : i < b.count) :
    b.indexTmp (b.detectFlushed flag) i = b.chrono i := by
  unfold H264Buffer.indexTmp chrono
  rw [hw.bufContinuous]
  by_cases h : b.indexMax ≤ b.indexRecvH264
  · simp [h]
  · have hi' : i < b.indexMax := by
      unfold count at hi
      rwa [if_neg h] at hi
    simp only [h, decide_false, if_false, Bool.false_eq_true]
    split
    · rw [Nat.mod_eq_of_lt (by omega)]
    · rw [Nat.mod_eq_sub_mod (by omega), Nat.mod_eq_of_lt (by omega)]
      omega

/-! ## The searches -/

theorem hasSec_iff {s : Int} : b.hasSec s = true ↔ ∃ i, i < b.count ∧ b.sec (b.chrono i) = s := by
  simp [hasSec, readable_eq]

theorem WellFormed.atSec (hw : b.WellFormed) {s : Int} (hi : i < b.count) :
    b.atSec (b.detectFlushed flag) s i = true ↔ b.sec (b.chrono i) = s := by
  simp [H264Buffer.atSec, hw.indexTmp hi, sec]

/-- A second that no position has is not that of a frame. -/
theorem WellFormed.hasSec_of_scan (hw : b.WellFormed) {s : Int}
    (h : ∀ k, 0 ≤ k → k < 0 + b.count → b.atSec (b.detectFlushed flag) s k = false) :
    b.hasSec s = false := by
  rw [Bool.eq_false_iff]
  intro hs
  obtain ⟨i, hi, hsec⟩ := hasSec_iff.1 hs
  have hat := h i (Nat.zero_le i) (by omega)
  rw [(hw.atSec hi).2 hsec] at hat
  cases hat

/-- The forward search returns the first position of the second. -/
theorem WellFormed.forward_some (hw : b.WellFormed) {s : Int} {x : Nat}
    (h : b.getFrameAtSecForward s (b.detectFlushed flag) = some x) :
    ∃ i, i < b.count ∧ b.chrono i = x ∧ b.sec (b.chrono i) = s ∧
      ∀ k, k < i → b.sec (b.chrono k) ≠ s := by
  obtain ⟨i, hi, rfl⟩ := Option.map_eq_some_iff.1 h
  rw [hw.searchLen] at hi
  obtain ⟨_, hlt, hat, hfirst⟩ := scanUp_some hi
  have hlt : i < b.count := by omega
  refine ⟨i, hlt, (hw.indexTmp hlt).symm, (hw.atSec hlt).1 hat, ?_⟩
  intro k hk hs
  have := hfirst k (by omega) hk
  rw [(hw.atSec (by omega)).2 hs] at this
  cases this

theorem WellFormed.forward_none (hw : b.WellFormed) {s : Int}
    (h : b.getFrameAtSecForward s (b.detectFlushed flag) = none) : b.hasSec s = false := by
  have hscan := scanUp_none (Option.map_eq_none_iff.1 h)
  rw [hw.searchLen] at hscan
  exact hw.hasSec_of_scan hscan

/-- The frames of a second are next to each other. -/
theorem WellFormed.isBlock (hw : b.WellFormed) (s : Int) :
    IsBlock (b.atSec (b.detectFlushed flag) s) 0 (0 + b.count) := by
  intro i j k _ hij hjk hk hi' hk'
  rw [hw.atSec (by omega)] at hi' hk' ⊢
  have h1 := hw.sec_mono (Nat.le_of_lt hij) (by omega)
  have h2 := hw.sec_mono (Nat.le_of_lt hjk) (by omega)
  omega

/-- The backward search returns the last position of the second. -/
theorem WellFormed.backward_some (hw : b.WellFormed) {s : Int} {x : Nat}
    (h : b.getFrameAtSecBackward s (b.detectFlushed flag) = some x) :
    ∃ i, i < b.count ∧ b.chrono i = x ∧ b.sec (b.chrono i) = s ∧
      ∀ k, i < k → k < b.count → b.sec (b.chrono k) ≠ s := by
  obtain ⟨i, hi, rfl⟩ := Option.map_eq_some_iff.1 h
  rw [hw.searchLen] at hi
  obtain ⟨_, hlt, hat, hlast⟩ := scanBlock_some (hw.isBlock s) hi
  have hlt : i < b.count := by omega
  refine ⟨i, hlt, (hw.indexTmp hlt).symm, (hw.atSec hlt).1 hat, ?_⟩
  intro k hk hkc hs
  have := hlast k hk (by omega)
  rw [(hw.atSec hkc).2 hs] at this
  cases this

theorem WellFormed.backward_none (hw : b.WellFormed) {s : Int}
    (h : b.getFrameAtSecBackward s (b.detectFlushed flag) = none) : b.hasSec s = false := by
  have hscan := scanBlock_none (Option.map_eq_none_iff.1 h)
  rw [hw.searchLen] at hscan
  exact hw.hasSec_of_scan hscan

/-- A search through several seconds succeeds at the first one that has a frame. -/
theorem find_of_findSome {α β : Type*} {f : α → Option β} {p : α → Bool} {l : List α} {y : β}
    (hsome : ∀ a y, f a = some y → p a = true) (hnone : ∀ a, f a = none → p a = false)
    (h : l.findSome? f = some y) : ∃ a, l.find? p = some a ∧ f a = some y := by
  obtain ⟨l₁, a, l₂, rfl, hfa, hl₁⟩ := List.findSome?_eq_some_iff.1 h
  refine ⟨a, ?_, hfa⟩
  rw [List.find?_eq_some_iff_append]
  exact ⟨hsome a y hfa, l₁, l₂, rfl, fun x hx => by rw [hnone x (hl₁ x hx)]; rfl⟩

/-- Both searches: the first position of the start second and the last one of the end second. -/
theorem WellFormed.getFrameAtSec (hw : b.WellFormed) {secStart secEnd : Int} {x y : Nat}
    (h : b.getFrameAtSec secStart secEnd (b.detectFlushed flag) = some (x, y)) :
    ∃ s e i j, (startSecs secStart).find? b.hasSec = some s ∧
      (endSecs secEnd).find? b.hasSec = some e ∧
      (i < b.count ∧ b.chrono i = x ∧ b.sec (b.chrono i) = s ∧
        ∀ k, k < i → b.sec (b.chrono k) ≠ s) ∧
      (j < b.count ∧ b.chrono j = y ∧ b.sec (b.chrono j) = e ∧
        ∀ k, j < k → k < b.count → b.sec (b.chrono k) ≠ e) := by
  simp only [H264Buffer.getFrameAtSec, Option.bind_eq_bind, Option.bind_eq_some_iff,
    Option.pure_def, Option.some.injEq, Prod.mk.injEq] at h
  obtain ⟨x', hx, y', hy, rfl, rfl⟩ := h
  obtain ⟨s, hs, hfs⟩ := find_of_findSome (p := b.hasSec)
    (fun s y hy => by
      obtain ⟨i, hi, _, hsec, _⟩ := hw.forward_some hy
      exact hasSec_iff.2 ⟨i, hi, hsec⟩)
    (fun s hs => hw.forward_none hs) hx
  obtain ⟨e, he, hfe⟩ := find_of_findSome (p := b.hasSec)
    (fun s y hy => by
      obtain ⟨i, hi, _, hsec, _⟩ := hw.backward_some hy
      exact hasSec_iff.2 ⟨i, hi, hsec⟩)
    (fun s hs => hw.backward_none hs) hy
  obtain ⟨i, hi⟩ := hw.forward_some hfs
  obtain ⟨j, hj⟩ := hw.backward_some hfe
  exact ⟨s, e, i, j, hs, he, hi, hj⟩

/-! ## The order of the two ends -/

theorem indexLast_eq (hc : 0 < b.count) : b.indexLast = b.chrono (b.count - 1) := by
  unfold count at hc ⊢
  unfold indexLast chrono
  split at hc <;> rename_i h
  · simp only [if_pos h, if_pos hc]
  · simp only [if_neg h]
    split <;> split <;> omega

theorem secondsRecord_ge (n : Int) : 5 ≤ secondsRecord n := by
  unfold secondsRecord
  split <;> omega

/-- The start second found is not after the end second found: where the end was not asked for at
least five seconds after the start, it is moved there or to the newest frame. -/
theorem WellFormed.start_le_end (hw : b.WellFormed) {secStart secEnd illegal s e : Int}
    (hs : (startSecs secStart).find? b.hasSec = some s)
    (he : (endSecs (adjustEnd secStart secEnd (secondsRecord illegal)
      (b.indexH264 b.indexLast).seconds)).find? b.hasSec = some e) : s ≤ e := by
  have hsmem : s ≤ secStart + 2 := by
    have := List.mem_of_find?_eq_some hs
    simp only [startSecs, List.mem_cons, List.not_mem_nil, or_false] at this
    omega
  have hrec := secondsRecord_ge illegal
  obtain ⟨i, hi, hsi⟩ := hasSec_iff.1 (List.find?_some hs)
  have hlast := hw.sec_mono (show i ≤ b.count - 1 by omega) (by omega)
  rw [hsi, ← indexLast_eq (by omega)] at hlast
  by_cases hnewest : adjustEnd secStart secEnd (secondsRecord illegal)
      (b.indexH264 b.indexLast).seconds = (b.indexH264 b.indexLast).seconds
  · -- the newest frame has the second, so the first attempt succeeds
    have hhas : b.hasSec (b.indexH264 b.indexLast).seconds = true :=
      hasSec_iff.2 ⟨b.count - 1, by omega, by rw [← indexLast_eq (by omega)]; rfl⟩
    rw [hnewest, endSecs, List.find?_cons_of_pos hhas, Option.some.injEq] at he
    exact he ▸ hlast
  · have hemem := List.mem_of_find?_eq_some he
    simp only [endSecs, List.mem_cons, List.not_mem_nil, or_false] at hemem
    have hadj : secStart + 5 ≤ adjustEnd secStart secEnd (secondsRecord illegal)
        (b.indexH264 b.indexLast).seconds := by
      unfold adjustEnd at hnewest ⊢
      split at hnewest
      · rename_i hlen
        rw [if_pos hlen]
        split at hnewest
        · exact absurd rfl hnewest
        · rename_i hsl
          rw [if_neg hsl]
          omega
      · rename_i hlen
        rw [if_neg hlen]
        omega
    omega

/-- A first position of an earlier second is not after a last position of a later one. -/
theorem WellFormed.pos_le (hw : b.WellFormed) {s e : Int} (hse : s ≤ e) (hi : i < b.count)
    (hs : b.sec (b.chrono i) = s) (he : b.sec (b.chrono j) = e)
    (hlast : ∀ k, j < k → k < b.count → b.sec (b.chrono k) ≠ e) : i ≤ j := by
  by_contra hij
  have hmono := hw.sec_mono (i := j) (j := i) (by omega) hi
  exact hlast i (by omega) hi (by omega)

/-- The I frame search steps back in chronological order. -/
theorem WellFormed.getIFrameByIndex (hw : b.WellFormed) {x : Nat} (hi : i < b.count)
    (h : b.getIFrameByIndex (b.chrono i) (b.detectFlushed flag) = some x) :
    ∃ k, k ≤ i ∧ b.chrono k = x ∧ b.isI x = true := by
  unfold H264Buffer.getIFrameByIndex at h
  rw [hw.bufContinuous] at h
  unfold count at hi
  unfold chrono at h ⊢
  by_cases hm : b.indexMax ≤ b.indexRecvH264
  · simp only [hm, decide_true, if_true] at h ⊢
    obtain ⟨_, hle, hI, _⟩ := scanDown_some h
    exact ⟨x, hle, rfl, hI⟩
  · rw [if_neg hm] at hi
    simp only [hm, decide_false, Bool.false_eq_true, if_false] at h ⊢
    by_cases hp : i < b.indexMax - b.indexRecvH264
    · rw [if_pos hp, if_neg (by omega)] at h
      obtain ⟨hlo, hle, hI, _⟩ := scanDown_some h
      exact ⟨x - b.indexRecvH264 - 1, by omega, by rw [if_pos (by omega)]; omega, hI⟩
    · rw [if_neg hp, if_pos (by omega), Option.or_eq_some_iff] at h
      rcases h with h | ⟨_, h⟩
      · obtain ⟨_, hle, hI, _⟩ := scanDown_some h
        exact ⟨x + (b.indexMax - b.indexRecvH264), by omega, by rw [if_neg (by omega)]; omega, hI⟩
      · obtain ⟨hlo, hle, hI, _⟩ := scanDown_some h
        exact ⟨x - b.indexRecvH264 - 1, by omega, by rw [if_pos (by omega)]; omega, hI⟩

/-! ## The segments -/

/-- Neighbouring readable slots are one piece of the data buffer. -/
theorem LaidOut.segBytes (hl : b.LaidOut) (x n : Nat)
    (hr : ∀ j, x ≤ j → j < x + n → j ∈ b.readable) :
    Seg.bytes ⟨(b.indexH264 x).h264Position, b.lenCopy x n⟩ =
      (List.range' x n).flatMap b.frameBytes := by
  induction n generalizing x with
  | zero => simp [Seg.bytes, lenCopy]
  | succ n ih =>
    have hx : x ∈ b.readable := hr x (Nat.le_refl x) (by omega)
    have hframe : b.frameBytes x =
        List.range' (b.indexH264 x).h264Position (b.indexH264 x).h264Len := by
      rw [frameBytes, List.range'_eq_map_range]
      apply List.map_congr_left
      intro k hk
      have hb := hl.bound x hx
      rw [List.mem_range] at hk
      exact Nat.mod_eq_of_lt (by omega)
    have hlen : b.lenCopy x (n + 1) = (b.indexH264 x).h264Len + b.lenCopy (x + 1) n := by
      simp [lenCopy, List.range'_succ]
    rw [List.range'_succ, List.flatMap_cons, hframe, ← ih (x + 1) fun j h1 h2 => hr j (by omega)
      (by omega)]
    cases n with
    | zero => simp [Seg.bytes, lenCopy]
    | succ n =>
      have hnext := hl.next x hx (hr (x + 1) (by omega) (by omega))
      simp only [Seg.bytes, hlen, hnext]
      rw [List.range'_append_1]

/-- The slots of the positions `i, …, j`. -/
def slots (b : H264Buffer) (i j : Nat) : List Nat := (List.range' i (j + 1 - i)).map b.chrono

theorem map_range'_shift {f : Nat → Nat} {c : Nat} (h : ∀ k, k < n → f (i + k) = c + k) :
    (List.range' i n).map f = List.range' c n := by
  rw [List.range'_eq_map_range, List.range'_eq_map_range, List.map_map]
  apply List.map_congr_left
  intro k hk
  exact h k (List.mem_range.1 hk)

/-- A run of positions is one piece of slots, or one up to the highest slot and one from slot 0. -/
theorem slots_eq (hij : i ≤ j) (hj : j < b.count) :
    b.slots i j = if b.chrono i ≤ b.chrono j then
      List.range' (b.chrono i) (b.chrono j + 1 - b.chrono i)
    else List.range' (b.chrono i) (b.indexMax + 1 - b.chrono i) ++
      List.range' 0 (b.chrono j + 1) := by
  unfold count at hj
  unfold slots
  by_cases hm : b.indexMax ≤ b.indexRecvH264
  · have hid : ∀ k, b.chrono k = k := fun k => by simp [chrono, hm]
    rw [hid, hid, if_pos hij]
    exact map_range'_shift fun k _ => hid (i + k)
  rw [if_neg hm] at hj
  have hlow : ∀ k, k < b.indexMax - b.indexRecvH264 → b.chrono k = b.indexRecvH264 + 1 + k :=
    fun k hk => by simp only [chrono, if_neg hm, if_pos hk]
  have hhigh : ∀ k, ¬ k < b.indexMax - b.indexRecvH264 →
      b.chrono k = k - (b.indexMax - b.indexRecvH264) :=
    fun k hk => by simp only [chrono, if_neg hm, if_neg hk]
  by_cases hi : i < b.indexMax - b.indexRecvH264
  · rw [hlow i hi]
    by_cases hjl : j < b.indexMax - b.indexRecvH264
    · rw [hlow j hjl, if_pos (by omega), map_range'_shift (c := b.indexRecvH264 + 1 + i) fun k hk => by
        rw [hlow _ (by omega)]; omega]
      congr 1
      omega
    · -- the run crosses from the highest slot to slot 0
      rw [hhigh j hjl, if_neg (by omega)]
      have hsplit : j + 1 - i = (b.indexMax - b.indexRecvH264 - i) +
          (j + 1 - (b.indexMax - b.indexRecvH264)) := by omega
      rw [hsplit, ← List.range'_append_1, List.map_append]
      congr 1
      · rw [map_range'_shift (c := b.indexRecvH264 + 1 + i) fun k hk => by
          rw [hlow _ (by omega)]; omega]
        congr 1
        omega
      · rw [map_range'_shift (c := 0) fun k hk => by rw [hhigh _ (by omega)]; omega]
        congr 1
        omega
  · rw [hhigh i hi, hhigh j (by omega), if_pos (by omega),
      map_range'_shift (c := i - (b.indexMax - b.indexRecvH264)) fun k hk => by
        rw [hhigh _ (by omega)]; omega]
    congr 1
    omega

theorem mem_slots {x : Nat} (hij : i ≤ j) (hj : j < b.count) (hx : x ∈ b.slots i j) :
    x ∈ b.readable := by
  obtain ⟨k, hk, rfl⟩ := List.mem_map.1 hx
  rw [List.mem_range'_1] at hk
  exact chrono_mem (by omega)

/-- The segments filled for the two ends of a run of positions deliver the run. -/
theorem LaidOut.delivers (hl : b.LaidOut) (info : H264SegInfo) (ret : Int) (hij : i ≤ j)
    (hj : j < b.count) :
    H264SegInfo.Delivers { b.fillSegs info (b.chrono i) (b.chrono j) with secondsRecordRet := ret } b
      (b.slots i j) := by
  have hread : ∀ x ∈ b.slots i j, x ∈ b.readable := fun x hx => mem_slots hij hj hx
  have hrecv : b.indexRecvH264 ∉ b.slots i j := by
    intro hmem
    obtain ⟨k, hk, hkr⟩ := List.mem_map.1 hmem
    rw [List.mem_range'_1] at hk
    exact chrono_ne_recv (by omega) hkr
  rw [slots_eq hij hj] at hread hrecv ⊢
  unfold fillSegs
  by_cases hle : b.chrono i ≤ b.chrono j
  · simp only [if_pos hle] at hread hrecv ⊢
    refine ⟨.inl rfl, ?_, ?_, hrecv⟩
    · simp only [H264SegInfo.segs, List.take_succ_cons, List.take_zero, List.flatMap_cons,
        List.flatMap_nil, List.append_nil]
      exact hl.segBytes _ _ fun k h1 h2 => hread k (List.mem_range'_1.2 ⟨h1, h2⟩)
    · simp [H264SegInfo.segs, lenCopy]
  · simp only [if_neg hle] at hread hrecv ⊢
    refine ⟨.inr rfl, ?_, ?_, hrecv⟩
    · simp only [H264SegInfo.segs, List.take_succ_cons, List.take_zero, List.flatMap_cons,
        List.flatMap_nil, List.append_nil, List.flatMap_append]
      congr 1
      · exact hl.segBytes _ _ fun k h1 h2 =>
          hread k (List.mem_append_left _ (List.mem_range'_1.2 ⟨h1, h2⟩))
      · exact hl.segBytes _ _ fun k h1 h2 =>
          hread k (List.mem_append_right _ (List.mem_range'_1.2 ⟨h1, h2⟩))
    · simp [H264SegInfo.segs, lenCopy]

/-- The positions from an I frame at or before the first frame of the start second to the last frame
of the end second are a record. -/
theorem isRecord_slots {secStart secEnd s e : Int}
    (hs : (startSecs secStart).find? b.hasSec = some s)
    (he : (endSecs secEnd).find? b.hasSec = some e) (hki : k ≤ i) (hij : i ≤ j) (hj : j < b.count)
    (hI : b.isI (b.chrono k) = true) (hfirst : ∀ m, m < i → b.sec (b.chrono m) ≠ s)
    (hej : b.sec (b.chrono j) = e)
    (hlast : ∀ m, j < m → m < b.count → b.sec (b.chrono m) ≠ e) :
    b.IsRecord secStart secEnd (b.slots k j) := by
  refine ⟨⟨(List.range' 0 k).map b.chrono, (List.range' (j + 1) (b.count - (j + 1))).map b.chrono, s,
    e, ?_, hs, he, ?_, ?_, ?_⟩, ?_⟩
  · have hsplit : b.count = k + ((j + 1 - k) + (b.count - (j + 1))) := by omega
    rw [readable_eq, List.range_eq_range', slots, ← List.map_append, ← List.map_append,
      List.append_assoc]
    conv_lhs => rw [hsplit, ← List.range'_append_1, ← List.range'_append_1]
    rw [Nat.zero_add, show k + (j + 1 - k) = j + 1 by omega]
  · intro x hx
    obtain ⟨m, hm, rfl⟩ := List.mem_map.1 hx
    rw [List.mem_range'_1] at hm
    exact hfirst m (by omega)
  · intro x hx
    obtain ⟨m, hm, rfl⟩ := List.mem_map.1 hx
    rw [List.mem_range'_1] at hm
    exact hlast m (by omega) (by omega)
  · refine ⟨b.chrono j, ?_, hej⟩
    rw [slots, show j + 1 - k = (j - k) + 1 by omega, List.range'_concat, List.map_append,
      show k + 1 * (j - k) = j by omega]
    simp
  · refine ⟨b.chrono k, ?_, hI⟩
    rw [slots, show j + 1 - k = (j - k) + 1 by omega, List.range'_succ]
    rfl

end H264Buffer

open H264Buffer

variable {b : H264Buffer}

/-- In a well-formed ring whose data buffer wraps where the frame index does, a lookup either fails
with an empty result or delivers a record of the request. -/
theorem getH264ForRecord_ok (b : H264Buffer) (hw : b.WellFormed) (hl : b.LaidOut)
    (info : H264SegInfo) (hempty : info.h264Seg = 0) (secStart secEnd illegalVideoSeconds : Int)
    (flagFlushed : Bool) :
    RecordOk b secStart secEnd illegalVideoSeconds
      (b.getH264ForRecord info secStart secEnd illegalVideoSeconds flagFlushed) := by
  unfold H264Buffer.getH264ForRecord
  dsimp only
  split
  · exact .inl ⟨rfl, hempty⟩
  split
  · exact .inl ⟨rfl, hempty⟩
  split
  · exact .inl ⟨rfl, rfl⟩
  split
  · exact .inl ⟨rfl, rfl⟩
  split
  · exact .inl ⟨rfl, rfl⟩
  cases hframes : b.getFrameAtSec secStart (adjustEnd secStart secEnd
      (secondsRecord illegalVideoSeconds) (b.indexH264 b.indexLast).seconds)
      (b.detectFlushed flagFlushed) with
  | none => exact .inl ⟨rfl, rfl⟩
  | some xy =>
    obtain ⟨x, y⟩ := xy
    obtain ⟨s, e, i, j, hs, he, ⟨hi, rfl, his, hfirst⟩, hj, rfl, hje, hlast⟩ :=
      hw.getFrameAtSec hframes
    have hij : i ≤ j := hw.pos_le (hw.start_le_end hs he) hi his hje hlast
    cases hI : b.getIFrameByIndex (b.chrono i) (b.detectFlushed flagFlushed) with
    | none =>
      simp only [hI]
      exact .inl ⟨rfl, rfl⟩
    | some x =>
      obtain ⟨k, hki, rfl, hkI⟩ := hw.getIFrameByIndex hi hI
      simp only [hI]
      refine .inr ⟨rfl, b.slots k j, isRecord_slots hs he hki hij hj hkI hfirst hje hlast, ?_⟩
      exact hl.delivers _ _ (by omega) hj

/-- A ring given by its table: a slot's position, length, second, I frame flag and id. -/
def ringOf (indexRecv indexMax len : Nat) (table : List (Nat × Nat × Int × Nat × Int)) :
    H264Buffer where
  attached := true
  maxIndexH264 := table.length
  lenBufH264 := len
  indexRecvH264 := indexRecv
  indexH264 i :=
    let f := table.getD i (0, 0, 0, 0, 0)
    ⟨i, indexMax, f.1, f.2.1, f.2.2.1, f.2.2.2.1, f.2.2.2.2⟩

def emptyInfo : H264SegInfo := ⟨0, ⟨0, 0⟩, ⟨0, 0⟩, 0⟩

/-- A full ring: slot 3 is left of the last lap, slots 0 and 1 are new, slot 2 is being written. -/
theorem getH264ForRecord_ok_lap :
    let b := ringOf 2 3 12 [(0, 3, 101, 0, 4), (3, 2, 102, 0, 5), (5, 2, 96, 1, 2), (7, 5, 100, 1, 3)]
    RecordOk b 100 102 5 (b.getH264ForRecord emptyInfo 100 102 5 false) :=
  getH264ForRecord_ok _ ⟨by decide, by decide, by decide, by decide⟩ ⟨by decide, by decide⟩ _ rfl
    100 102 5 false

/-- A ring whose data buffer wraps between the slots 0 and 1: the positions are contiguous in the
circular buffer, but the one segment of the result runs past the end of it. -/
def wrappedRing : H264Buffer :=
  ringOf 3 3 10 [(6, 4, 100, 1, 0), (0, 3, 100, 0, 1), (3, 3, 100, 0, 2), (6, 0, 0, 0, 0)]

theorem wrappedRing_not_ok :
    wrappedRing.WellFormed ∧ wrappedRing.Circular ∧
      ¬ RecordOk wrappedRing 100 100 5 (wrappedRing.getH264ForRecord emptyInfo 100 100 5 false) := by
  refine ⟨⟨by decide, by decide, by decide, by decide⟩, ⟨by decide, by decide, by decide⟩, ?_⟩
  rintro (⟨hret, _⟩ | ⟨_, run, _, hd⟩)
  · exact absurd hret (by decide)
  · have hmem : 10 ∈ (wrappedRing.getH264ForRecord emptyInfo 100 100 5 false).2.1.segs.flatMap
        Seg.bytes := by decide
    rw [hd.bytes, List.mem_flatMap] at hmem
    obtain ⟨i, _, hi⟩ := hmem
    obtain ⟨k, _, hk⟩ := List.mem_map.1 hi
    change _ % 10 = 10 at hk
    omega

end VdCamera.H264
