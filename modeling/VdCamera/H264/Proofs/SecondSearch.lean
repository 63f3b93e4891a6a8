import VdCamera.H264.Proofs.RecordLookup

/-!
# The searches for a second

In a well-formed ring the two searches return the first and the last frame of a second, and they look at
readable slots only.
-/

namespace VdCamera.H264

open Misc

namespace H264Buffer

variable {b : H264Buffer} {s : Int} {i : Nat} {flag : Bool}

/-! ## The frames found -/

theorem getElem_readable (hi : i < b.readable.length) : b.readable[i] = b.chrono i := by
  simp only [readable_eq, List.getElem_map, List.getElem_range]

theorem length_readable : b.readable.length = b.count := by
  rw [readable_eq, List.length_map, List.length_range]

theorem find_eq_none_of_hasSec {l : List Nat} (hl : ∀ i ∈ l, i ∈ b.readable) (h : b.hasSec s = false) :
    l.find? (fun i => b.sec i == s) = none := by
  rw [List.find?_eq_none]
  intro i hi hs
  have : b.hasSec s = true := List.any_eq_true.mpr ⟨i, hl i hi, hs⟩
  rw [h] at this
  cases this

theorem WellFormed.forward_eq (hw : b.WellFormed) (s : Int) :
    b.getFrameAtSecForward s (b.detectFlushed flag) = b.readable.find? fun i => b.sec i == s := by
  cases hx : b.getFrameAtSecForward s (b.detectFlushed flag) with
  | none => exact (find_eq_none_of_hasSec (fun _ hi => hi) (hw.forward_none hx)).symm
  | some x =>
    obtain ⟨i, hi, rfl, hsec, hfirst⟩ := hw.forward_some hx
    symm
    rw [List.find?_eq_some_iff_getElem]
    refine ⟨beq_iff_eq.mpr hsec, i, by rwa [length_readable], getElem_readable _, ?_⟩
    intro k hk
    rw [getElem_readable, Bool.not_eq_true', beq_eq_false_iff_ne]
    exact hfirst k hk

theorem WellFormed.backward_eq (hw : b.WellFormed) (s : Int) :
    b.getFrameAtSecBackward s (b.detectFlushed flag)
      = b.readable.reverse.find? fun i => b.sec i == s := by
  cases hx : b.getFrameAtSecBackward s (b.detectFlushed flag) with
  | none =>
    exact (find_eq_none_of_hasSec (fun _ hi => List.mem_reverse.mp hi) (hw.backward_none hx)).symm
  | some x =>
    obtain ⟨i, hi, rfl, hsec, hlast⟩ := hw.backward_some hx
    symm
    rw [List.find?_eq_some_iff_getElem]
    have hlen := length_readable (b := b)
    refine ⟨beq_iff_eq.mpr hsec, b.count - 1 - i, by rw [List.length_reverse, hlen]; omega, ?_, ?_⟩
    · rw [List.getElem_reverse, getElem_readable, hlen]
      congr 1
      omega
    · intro k hk
      rw [List.getElem_reverse, getElem_readable, hlen, Bool.not_eq_true', beq_eq_false_iff_ne]
      exact hlast _ (by omega) (by omega)

/-! ## The slots looked at -/

theorem chrono_inj {j : Nat} (hi : i < b.count) (hj : j < b.count) (h : b.chrono i = b.chrono j) :
    i = j := by
  unfold count at hi hj
  unfold chrono at h
  by_cases hmax : b.indexMax ≤ b.indexRecvH264
  · rwa [if_pos hmax, if_pos hmax] at h
  · rw [if_neg hmax] at hi hj h
    rw [if_neg hmax] at h
    split at h <;> split at h <;> omega

theorem nodup_readable : b.readable.Nodup := by
  rw [readable_eq, List.Nodup, List.pairwise_map]
  apply List.nodup_range.imp_of_mem
  intro i j hi hj hne heq
  exact hne (chrono_inj (List.mem_range.mp hi) (List.mem_range.mp hj) heq)

theorem recv_notMem_readable : b.indexRecvH264 ∉ b.readable := by
  intro h
  obtain ⟨i, hi, heq⟩ := mem_readable.mp h
  exact chrono_ne_recv hi heq

theorem WellFormed.map_indexTmp (hw : b.WellFormed) :
    (List.range' 0 (b.searchLen (b.detectFlushed flag))).map (b.indexTmp (b.detectFlushed flag))
      = b.readable := by
  rw [hw.searchLen, ← List.range_eq_range', readable_eq]
  apply List.map_congr_left
  intro i hi
  exact hw.indexTmp (List.mem_range.mp hi)

theorem WellFormed.examinedForward_isPrefix (hw : b.WellFormed) (s : Int) :
    (b.examinedForward s (b.detectFlushed flag)).IsPrefix b.readable := by
  rw [← @WellFormed.map_indexTmp b flag hw]
  exact (scanUpSeen_isPrefix _ _ 0).map _

theorem WellFormed.examinedBackward_isPrefix (hw : b.WellFormed) (s : Int) :
    (b.examinedBackward s (b.detectFlushed flag)).IsPrefix b.readable := by
  rw [← @WellFormed.map_indexTmp b flag hw]
  exact (scanBlockSeen_isPrefix _ _ 0 none).map _

/-- The seconds of slots that a search does not look at make no difference to it. -/
theorem examined_suffices {t : Nat → H264Index} (hmax : (t 0).bufH264IndexMax = b.indexMax)
    (hf : ∀ i ∈ b.examinedForward s flag, (t i).seconds = b.sec i)
    (hb : ∀ i ∈ b.examinedBackward s flag, (t i).seconds = b.sec i) :
    ({ b with indexH264 := t }).getFrameAtSecForward s flag = b.getFrameAtSecForward s flag ∧
      ({ b with indexH264 := t }).getFrameAtSecBackward s flag = b.getFrameAtSecBackward s flag := by
  have hmax' : ({ b with indexH264 := t } : H264Buffer).indexMax = b.indexMax := hmax
  have hcont : ({ b with indexH264 := t } : H264Buffer).bufContinuous flag = b.bufContinuous flag := by
    unfold H264Buffer.bufContinuous
    rw [hmax']
  have hlen : ({ b with indexH264 := t } : H264Buffer).searchLen flag = b.searchLen flag := by
    unfold H264Buffer.searchLen
    rw [hcont, hmax']
  have htmp : ({ b with indexH264 := t } : H264Buffer).indexTmp flag = b.indexTmp flag := by
    funext i
    unfold H264Buffer.indexTmp
    rw [hcont, hmax']
  unfold getFrameAtSecForward getFrameAtSecBackward
  rw [hlen, htmp]
  constructor
  · congr 1
    apply scanUp_congr_seen
    intro i hi
    have hsec := hf _ (List.mem_map_of_mem hi)
    unfold H264Buffer.atSec
    rw [htmp]
    exact congrArg (· == s) hsec
  · congr 1
    apply scanBlock_congr_seen
    intro i hi
    have hsec := hb _ (List.mem_map_of_mem hi)
    unfold H264Buffer.atSec
    rw [htmp]
    exact congrArg (· == s) hsec

/-! ## The main result -/

/-- A list of slots that are readable, none of them the one being written, and each once. -/
structure OnceReadable (b : H264Buffer) (l : List Nat) : Prop where
  nodup : l.Nodup
  readable : ∀ i ∈ l, i ∈ b.readable
  notWritten : b.indexRecvH264 ∉ l

theorem onceReadable_of_isPrefix {l : List Nat} (h : l.IsPrefix b.readable) : OnceReadable b l :=
  ⟨nodup_readable.sublist h.sublist, fun _ hi => h.subset hi,
    fun hi => recv_notMem_readable (h.subset hi)⟩

/-- The forward search returns the first frame of the second and the backward search the last one, or
both fail since there is none. -/
structure SearchesAgree (b : H264Buffer) (s indexRecord : Int) (flag : Bool) : Prop where
  first : b.searchRet indexRecord (b.getFrameAtSecForward s flag)
    = foundRet (b.readable.find? fun i => b.sec i == s)
  last : b.searchRet indexRecord (b.getFrameAtSecBackward s flag)
    = foundRet (b.readable.reverse.find? fun i => b.sec i == s)
  forwardFails : (b.searchRet indexRecord (b.getFrameAtSecForward s flag)).1 = -1 ↔
    ∀ i ∈ b.readable, b.sec i ≠ s
  backwardFails : (b.searchRet indexRecord (b.getFrameAtSecBackward s flag)).1 = -1 ↔
    ∀ i ∈ b.readable, b.sec i ≠ s
  onceForward : OnceReadable b (b.examinedForward s flag)
  onceBackward : OnceReadable b (b.examinedBackward s flag)

theorem searchRet_attached (ha : b.attached = true) (indexRecord : Int) (found : Option Nat) :
    b.searchRet indexRecord found = foundRet found := by
  simp only [searchRet, ha, Bool.not_true, Bool.false_eq_true, if_false]

theorem searchRet_fails_iff (ha : b.attached = true) (indexRecord : Int) (found : Option Nat) :
    (b.searchRet indexRecord found).1 = -1 ↔ found = none := by
  rw [searchRet_attached ha]
  cases found with
  | none => simp [foundRet]
  | some i => simp [foundRet]

theorem find_eq_none_iff {l : List Nat} (hl : ∀ i, i ∈ l ↔ i ∈ b.readable) :
    l.find? (fun i => b.sec i == s) = none ↔ ∀ i ∈ b.readable, b.sec i ≠ s := by
  simp [List.find?_eq_none, hl]

/-- The two searches of a lookup agree in every well-formed ring. -/
theorem searches_agree (b : H264Buffer) (hw : b.WellFormed) (ha : b.attached = true)
    (s indexRecord : Int) (flag : Bool) :
    SearchesAgree b s indexRecord (b.detectFlushed flag) := by
  have hf := @WellFormed.forward_eq b flag hw s
  have hb := @WellFormed.backward_eq b flag hw s
  refine ⟨?_, ?_, ?_, ?_, onceReadable_of_isPrefix (hw.examinedForward_isPrefix s),
    onceReadable_of_isPrefix (hw.examinedBackward_isPrefix s)⟩
  · rw [hf]
    exact searchRet_attached ha _ _
  · rw [hb]
    exact searchRet_attached ha _ _
  · rw [searchRet_fails_iff ha, hf]
    exact find_eq_none_iff fun i => Iff.rfl
  · rw [searchRet_fails_iff ha, hb]
    exact find_eq_none_iff fun i => List.mem_reverse

end H264Buffer

/-- A full ring: slot 3 is left of the last lap, slots 0 and 1 are new, slot 2 is being written. -/
theorem searches_agree_lap :
    let b := ringOf 2 3 12 [(0, 3, 101, 0, 4), (3, 2, 102, 0, 5), (5, 2, 96, 1, 2), (7, 5, 100, 1, 3)]
    b.SearchesAgree 101 7 (b.detectFlushed false) :=
  H264Buffer.searches_agree _ ⟨by decide, by decide, by decide, by decide⟩ rfl 101 7 false

end VdCamera.H264
