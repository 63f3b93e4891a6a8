import VdCamera.H264.Proofs.PsOrder
import VdCamera.H264.Proofs.StampInverse

/-!
# Streams of complete headers

A stream as the sequence of its headers. Another timestamp in a header keeps it a stream: the marker
bits in and in front of the timestamps see to it that no start code comes out of them.
-/

namespace VdCamera.H264

open Misc

/-- Marker bits, by byte and bit of the header. -/
def packMarkers : List (Nat × Nat) := [(4, 2), (6, 2), (8, 2)]

def ptsMarkers : List (Nat × Nat) := [(9, 0), (9, 5), (11, 0), (13, 0)]

def dtsMarkers : List (Nat × Nat) := [(14, 0), (16, 0), (18, 0)]

def Marked (m : Mem) (p : Nat) (markers : List (Nat × Nat)) : Prop :=
  ∀ x ∈ markers, (m (p + x.1)).toNat.testBit x.2 = true

/-- The header has its marker bits and room for its timestamps. -/
def Complete (m : Mem) : Header × Nat → Prop
  | (.pack, p) => Marked m p packMarkers
  | (.PES, p) => (HasPts m p → 5 ≤ dataLength m p ∧ Marked m p ptsMarkers) ∧
      (HasDts m p → 10 ≤ dataLength m p ∧ Marked m p dtsMarkers)

/-- Each pack header is followed by a PES header. -/
def PacksFollowed : List (Header × Nat) → Prop
  | [] => True
  | (.PES, _) :: hs => PacksFollowed hs
  | (.pack, _) :: hs => (∃ p rest, hs = (.PES, p) :: rest) ∧ PacksFollowed hs

/-- The buffer is a concatenation of pack headers and their PES packets, these being the headers. -/
structure IsPsStream (m : Mem) (bufLen : Int) (hs : List (Header × Nat)) : Prop where
  nonempty : hs ≠ []
  code : ∀ x ∈ hs, strAt m x.2 x.1.code = true
  complete : ∀ x ∈ hs, Complete m x
  spaced : hs.Pairwise fun x y => x.2 + headerSize m x ≤ y.2
  inside : ∀ x ∈ hs, ((x.2 + headerSize m x : Nat) : Int) ≤ bufLen
  followed : PacksFollowed hs

/-- The start codes are those of the headers, and every PES header has a PTS. -/
structure Tidy (m : Mem) (bufLen : Int) (hs : List (Header × Nat)) : Prop where
  stream : IsPsStream m bufLen hs
  only : ∀ k p, ((p + 4 : Nat) : Int) ≤ bufLen → strAt m p (Header.code k) = true → (k, p) ∈ hs
  pts : ∀ p, (Header.PES, p) ∈ hs → HasPts m p

/-- What is written for a DTS does no harm: there is a DTS, or there is no other header where it goes
and it makes no start code. -/
def Room (m : Mem) (bufLen : Int) (hs : List (Header × Nat)) (p : Nat) : Prop :=
  HasDts m p ∨ (∀ x ∈ hs, p < x.2 → p + 19 ≤ x.2) ∧
    ∀ ts k q, p + 14 ≤ q → q < p + 19 → ((q + 4 : Nat) : Int) ≤ bufLen →
      strAt (rewrite m .PES p ts) q (Header.code k) = false

variable {m : Mem} {bufLen : Int} {hs : List (Header × Nat)} {k k' : Header} {p q i j b : Nat}
  {ts : Int} {x y : Header × Nat}

theorem off_le_headerSize (m : Mem) (x : Header × Nat) : x.1.off ≤ headerSize m x := by
  obtain ⟨k, p⟩ := x
  cases k with
  | pack => exact (by decide : 4 ≤ 14)
  | PES => exact Nat.le_add_right 9 _

theorem IsPsStream.disjoint (h : IsPsStream m bufLen hs) (hx : x ∈ hs) (hy : y ∈ hs) (hne : x ≠ y) :
    x.2 + headerSize m x ≤ y.2 ∨ y.2 + headerSize m y ≤ x.2 := by
  have hpair : hs.Pairwise fun x y => x.2 + headerSize m x ≤ y.2 ∨ y.2 + headerSize m y ≤ x.2 :=
    h.spaced.imp Or.inl
  have : Std.Symm fun x y : Header × Nat =>
      x.2 + headerSize m x ≤ y.2 ∨ y.2 + headerSize m y ≤ x.2 := ⟨fun _ _ => Or.symm⟩
  exact hpair.forall hx hy hne

theorem Tidy.stamp_le (h : Tidy m bufLen hs) (hx : (k, p) ∈ hs) : k.off + 5 ≤ headerSize m (k, p) := by
  cases k with
  | pack => exact (by decide : 4 + 5 ≤ 14)
  | PES =>
    have hlen := ((h.stream.complete _ hx).1 (h.pts p hx)).1
    show 9 + 5 ≤ 9 + dataLength m p
    omega

/-! The marker bits are none of the bits of a timestamp. -/

theorem packMarkers_free : ∀ z ∈ packMarkers, ∀ i < 5, z.1 = 4 + i →
    (scrMask.getD i 0).toNat.testBit z.2 = false := by
  decide

theorem ptsMarkers_free : ∀ z ∈ ptsMarkers, ∀ i < 5, z.1 = 9 + i ∨ z.1 = 14 + i →
    (ptsMask.getD i 0).toNat.testBit z.2 = false := by
  decide

theorem dtsMarkers_free : ∀ z ∈ dtsMarkers, ∀ i < 5, z.1 = 9 + i ∨ z.1 = 14 + i →
    (ptsMask.getD i 0).toNat.testBit z.2 = false := by
  decide

section Rewrite

variable (h : Tidy m bufLen hs) (hx : (k, p) ∈ hs) (hroom : k = .PES → Room m bufLen hs p)

include h hx hroom

/-- The headers behind are behind the bytes that are rewritten. -/
theorem Tidy.behind (hy : y ∈ hs) (hle : p + headerSize m (k, p) ≤ y.2) :
    p + k.off + k.width ≤ y.2 := by
  cases k with
  | pack =>
    have : p + 14 ≤ y.2 := hle
    show p + 4 + 5 ≤ y.2
    omega
  | PES =>
    have hle : p + (9 + dataLength m p) ≤ y.2 := hle
    show p + 9 + 10 ≤ y.2
    rcases hroom rfl with hdts | ⟨hother, -⟩
    · have hlen := ((h.stream.complete _ hx).2 hdts).1
      omega
    · exact hother y hy (by omega)

/-- A rewriting keeps the other headers. -/
theorem Tidy.rewrite_other (ts : Int) (hy : y ∈ hs) (hne : y ≠ (k, p)) (hlow : y.2 ≤ j)
    (hhigh : j < y.2 + headerSize m y) : rewrite m k p ts j = m j := by
  apply rewrite_outside
  rcases h.stream.disjoint hy hx hne with hd | hd
  · left
    omega
  · right
    have := h.behind hx hroom hy hd
    omega

/-- A rewriting keeps what stands in front of the timestamps of a header. -/
theorem Tidy.rewrite_front (ts : Int) (hy : y ∈ hs) (hlow : y.2 ≤ j) (hhigh : j < y.2 + y.1.off) :
    rewrite m k p ts j = m j := by
  by_cases hne : y = (k, p)
  · subst hne
    exact rewrite_outside (.inl hhigh)
  · have hsize := off_le_headerSize m y
    exact h.rewrite_other hx hroom ts hy hne hlow (by omega)

theorem Tidy.hasPts_rewrite (ts : Int) (hy : (.PES, q) ∈ hs) :
    HasPts (rewrite m k p ts) q ↔ HasPts m q := by
  unfold HasPts
  rw [h.rewrite_front hx hroom ts hy (Nat.le_add_right q 7)
      (Nat.add_lt_add_left (by decide : 7 < 9) q)]

theorem Tidy.hasDts_rewrite (ts : Int) (hy : (.PES, q) ∈ hs) :
    HasDts (rewrite m k p ts) q ↔ HasDts m q := by
  unfold HasDts
  rw [h.hasPts_rewrite hx hroom ts hy,
    h.rewrite_front hx hroom ts hy (Nat.le_add_right q 7)
      (Nat.add_lt_add_left (by decide : 7 < 9) q)]

theorem Tidy.headerSize_rewrite (ts : Int) (hy : y ∈ hs) :
    headerSize (rewrite m k p ts) y = headerSize m y := by
  obtain ⟨k', q⟩ := y
  cases k' with
  | pack => rfl
  | PES =>
    show 9 + (rewrite m k p ts (q + 8)).toNat = 9 + (m (q + 8)).toNat
    rw [h.rewrite_front hx hroom ts hy (Nat.le_add_right q 8)
      (Nat.add_lt_add_left (by decide : 8 < 9) q)]

theorem Tidy.code_rewrite (ts : Int) (hy : y ∈ hs) :
    strAt (rewrite m k p ts) y.2 y.1.code = true := by
  rw [← h.stream.code y hy]
  apply strAt_congr
  intro i hi
  refine h.rewrite_front hx hroom ts hy (Nat.le_add_right _ i) (Nat.add_lt_add_left ?_ _)
  obtain ⟨k', q⟩ := y
  cases k' with
  | pack => exact hi
  | PES => exact Nat.lt_trans hi (by decide : 4 < 9)

/-- The marker bits stay: they are none of the bits of a timestamp. -/
theorem Tidy.marked_rewrite (ts : Int) {markers : List (Nat × Nat)} (hy : y ∈ hs)
    (hin : ∀ z ∈ markers, z.1 < headerSize m y) (hmarked : Marked m y.2 markers)
    (hpack : y.1 = .pack → ∀ z ∈ markers, ∀ i < 5, z.1 = 4 + i →
      (scrMask.getD i 0).toNat.testBit z.2 = false)
    (hPES : y.1 = .PES → ∀ z ∈ markers, ∀ i < 5, z.1 = 9 + i ∨ z.1 = 14 + i →
      (ptsMask.getD i 0).toNat.testBit z.2 = false) : Marked (rewrite m k p ts) y.2 markers := by
  intro z hz
  rw [← hmarked z hz]
  by_cases hne : y = (k, p)
  · subst hne
    by_contra hbit
    rcases rewrite_bits hbit with ⟨hk, i, hi, hj, hmask⟩ | ⟨hk, ⟨i, hi, hj, hmask⟩ | ⟨i, hi, hj, hmask⟩⟩
    · rw [hpack hk z hz i hi (by omega)] at hmask
      cases hmask
    · rw [hPES hk z hz i hi (by omega)] at hmask
      cases hmask
    · rw [hPES hk z hz i hi (by omega)] at hmask
      cases hmask
  · rw [h.rewrite_other hx hroom ts hy hne (Nat.le_add_right _ _)
      (Nat.add_lt_add_left (hin z hz) _)]

theorem Tidy.complete_rewrite (ts : Int) (hy : y ∈ hs) : Complete (rewrite m k p ts) y := by
  have hcomplete := h.stream.complete y hy
  have hsize := h.headerSize_rewrite hx hroom ts hy
  obtain ⟨k', q⟩ := y
  cases k' with
  | pack =>
    have hin : ∀ z ∈ packMarkers, z.1 < headerSize m (.pack, q) :=
      (by decide : ∀ z ∈ packMarkers, z.1 < 14)
    have hmarked := h.marked_rewrite hx hroom ts hy hin hcomplete (fun _ => packMarkers_free)
      fun hk => nomatch hk
    exact hmarked
  | PES =>
    have hlen : dataLength (rewrite m k p ts) q = dataLength m q := Nat.add_left_cancel hsize
    refine ⟨fun hpts => ?_, fun hdts' => ?_⟩
    · obtain ⟨hle, hmarked⟩ := hcomplete.1 ((h.hasPts_rewrite hx hroom ts hy).mp hpts)
      have hin : ∀ z ∈ ptsMarkers, z.1 < headerSize m (.PES, q) := by
        intro z hz
        have hz : z.1 ≤ 13 := (by decide : ∀ z ∈ ptsMarkers, z.1 ≤ 13) z hz
        show z.1 < 9 + dataLength m q
        omega
      have hmarked' := h.marked_rewrite hx hroom ts hy hin hmarked (fun hk => nomatch hk)
        fun _ => ptsMarkers_free
      exact ⟨hlen ▸ hle, hmarked'⟩
    · obtain ⟨hle, hmarked⟩ := hcomplete.2 ((h.hasDts_rewrite hx hroom ts hy).mp hdts')
      have hin : ∀ z ∈ dtsMarkers, z.1 < headerSize m (.PES, q) := by
        intro z hz
        have hz : z.1 ≤ 18 := (by decide : ∀ z ∈ dtsMarkers, z.1 ≤ 18) z hz
        show z.1 < 9 + dataLength m q
        omega
      have hmarked' := h.marked_rewrite hx hroom ts hy hin hmarked (fun hk => nomatch hk)
        fun _ => dtsMarkers_free
      exact ⟨hlen ▸ hle, hmarked'⟩

theorem Tidy.isPsStream_rewrite (ts : Int) : IsPsStream (rewrite m k p ts) bufLen hs where
  nonempty := h.stream.nonempty
  code _ hy := h.code_rewrite hx hroom ts hy
  complete _ hy := h.complete_rewrite hx hroom ts hy
  spaced := by
    refine h.stream.spaced.imp_of_mem ?_
    intro y z hy hz hle
    rwa [h.headerSize_rewrite hx hroom ts hy]
  inside y hy := by
    rw [h.headerSize_rewrite hx hroom ts hy]
    exact h.stream.inside y hy
  followed := h.stream.followed

end Rewrite

/-! ## Start codes -/

theorem ne_zero_of_testBit {v : UInt8} (h : v.toNat.testBit b = true) : v ≠ 0 := by
  rintro rfl
  simp at h

theorem ne_one_of_testBit {v : UInt8} (h : v.toNat.testBit b = true) (hb : b ≠ 0) : v ≠ 1 := by
  rintro rfl
  have hone : (1 : Nat).testBit b = true := h
  rw [Nat.testBit_one_eq_true_iff_self_eq_zero] at hone
  exact hb hone

/-- No start code stands over the timestamp of a pack header. -/
theorem code_not_in_pack (hcode : strAt m p (Header.code .pack) = true)
    (hmarked : Marked m p packMarkers) (hq : strAt m q (Header.code k) = true) :
    q + 4 ≤ p + 4 ∨ p + 9 ≤ q := by
  obtain ⟨-, -, -, h3⟩ := code_bytes hcode
  obtain ⟨q0, q1, q2, -⟩ := code_bytes hq
  have m4 := hmarked (4, 2) (by decide)
  have m6 := hmarked (6, 2) (by decide)
  have m8 := hmarked (8, 2) (by decide)
  by_contra hin
  obtain ⟨i, hi, rfl⟩ : ∃ i, (1 ≤ i ∧ i ≤ 8) ∧ q = p + i := ⟨q - p, by omega, by omega⟩
  obtain ⟨hi1, hi8⟩ := hi
  interval_cases i
  · exact h3 q2
  · exact ne_one_of_testBit m4 (by decide) q2
  · exact ne_zero_of_testBit m4 q1
  · exact ne_zero_of_testBit m4 q0
  · exact ne_zero_of_testBit m6 q1
  · exact ne_zero_of_testBit m6 q0
  · exact ne_zero_of_testBit m8 q1
  · exact ne_zero_of_testBit m8 q0

/-- No start code stands over the PTS of a PES header. -/
theorem code_not_in_pts (hlen : 5 ≤ dataLength m p) (hpts : Marked m p ptsMarkers)
    (hq : strAt m q (Header.code k) = true) : q + 4 ≤ p + 9 ∨ p + 14 ≤ q := by
  obtain ⟨q0, q1, q2, -⟩ := code_bytes hq
  have m9 := hpts (9, 0) (by decide)
  have m9' := hpts (9, 5) (by decide)
  have m11 := hpts (11, 0) (by decide)
  have m13 := hpts (13, 0) (by decide)
  have h8 : m (p + 8) ≠ 1 := by
    intro h8
    rw [dataLength, h8] at hlen
    exact absurd hlen (by decide)
  by_contra hin
  obtain ⟨i, hi, rfl⟩ : ∃ i, (6 ≤ i ∧ i ≤ 13) ∧ q = p + i := ⟨q - p, by omega, by omega⟩
  obtain ⟨hi6, hi13⟩ := hi
  interval_cases i
  · exact h8 q2
  · exact ne_one_of_testBit m9' (by decide) q2
  · exact ne_zero_of_testBit m9 q1
  · exact ne_zero_of_testBit m9 q0
  · exact ne_zero_of_testBit m11 q1
  · exact ne_zero_of_testBit m11 q0
  · exact ne_zero_of_testBit m13 q1
  · exact ne_zero_of_testBit m13 q0

/-- Nor does one begin in its DTS. -/
theorem code_not_in_dts (hdts : Marked m p dtsMarkers) (hq : strAt m q (Header.code k) = true)
    (hle : p + 14 ≤ q) : p + 19 ≤ q := by
  obtain ⟨q0, q1, -, -⟩ := code_bytes hq
  have m14 := hdts (14, 0) (by decide)
  have m16 := hdts (16, 0) (by decide)
  have m18 := hdts (18, 0) (by decide)
  by_contra hin
  obtain ⟨i, hi, rfl⟩ : ∃ i, (14 ≤ i ∧ i ≤ 18) ∧ q = p + i := ⟨q - p, by omega, by omega⟩
  obtain ⟨hi14, hi18⟩ := hi
  interval_cases i
  · exact ne_zero_of_testBit m14 q0
  · exact ne_zero_of_testBit m16 q1
  · exact ne_zero_of_testBit m16 q0
  · exact ne_zero_of_testBit m18 q1
  · exact ne_zero_of_testBit m18 q0

/-- Another timestamp in a header leaves the stream tidy. -/
theorem Tidy.rewrite (h : Tidy m bufLen hs) (hx : (k, p) ∈ hs)
    (hroom : k = .PES → Room m bufLen hs p) (ts : Int) : Tidy (rewrite m k p ts) bufLen hs := by
  have hstream := h.isPsStream_rewrite hx hroom ts
  have hcode := hstream.code _ hx
  have hcomplete := hstream.complete _ hx
  refine ⟨hstream, fun k' q hq hstr => ?_, fun q hq => (h.hasPts_rewrite hx hroom ts hq).mpr (h.pts q hq)⟩
  have hout : q + 4 ≤ p + k.off ∨ p + k.off + k.width ≤ q := by
    cases k with
    | pack => exact code_not_in_pack hcode hcomplete hstr
    | PES =>
      obtain ⟨hlen, hpm⟩ := hcomplete.1 ((h.hasPts_rewrite hx hroom ts hx).mpr (h.pts p hx))
      rcases code_not_in_pts hlen hpm hstr with hq' | hq'
      · exact .inl hq'
      · right
        rcases hroom rfl with hdts | ⟨-, hnone⟩
        · have hd := (h.hasDts_rewrite hx hroom ts hx).mpr hdts
          exact code_not_in_dts (hcomplete.2 hd).2 hstr hq'
        · by_contra hlt
          have hfalse := hnone ts k' q hq' (Nat.not_le.mp hlt) hq
          rw [hstr] at hfalse
          cases hfalse
  apply h.only k' q hq
  rw [← hstr]
  symm
  apply strAt_congr
  intro i hi
  have hi4 : i < 4 := by
    cases k' with
    | pack => exact hi
    | PES => exact hi
  exact rewrite_outside (by omega)

end VdCamera.H264
