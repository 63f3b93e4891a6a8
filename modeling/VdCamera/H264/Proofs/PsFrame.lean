import Mathlib.Tactic.IntervalCases
import VdCamera.H264.Proofs.PsVisit

/-!
# What the timestamp adjustment leaves alone

The bits that a rewriting changes are those of timestamps, and the bytes it and the searches look at are
those of the buffer, as long as the headers that the iterations go to are there as a whole.
-/

namespace VdCamera.H264

open Misc

variable {bufLen start : Int} {orig m buf : Mem} {s s' : PsState} {k : Header} {p q j b : Nat} {ts : Int}

/-! ## Bits -/

/-- The bits of the 33-bit number of a pack header. -/
def scrMask : List UInt8 := [0x3B, 0xFF, 0xFB, 0xFF, 0xF8]

/-- The bits of the 33-bit number of a PES header. -/
def ptsMask : List UInt8 := [0x0E, 0xFF, 0xFE, 0xFF, 0xFE]

/-- Bit `b` of place `j` is one that the mask has from place `q` on. -/
def StampBit (mask : List UInt8) (q j b : Nat) : Prop :=
  ∃ i < 5, j = q + i ∧ (mask.getD i 0).toNat.testBit b = true

theorem testBit_of_le (x : UInt8) (h : 8 ≤ b) : x.toNat.testBit b = false :=
  Nat.testBit_lt_two_pow (x.toNat_lt.trans_le (Nat.pow_le_pow_right (by decide) h))

/-- The bit of a mask, for a bit of a byte that differs from what it was. -/
theorem mask_of_ne {x y mask : UInt8} (hne : x.toNat.testBit b ≠ y.toNat.testBit b)
    (h : ∀ b < 8, mask.toNat.testBit b = false → x.toNat.testBit b = y.toNat.testBit b) :
    mask.toNat.testBit b = true := by
  by_cases hb : b < 8
  · cases hmask : mask.toNat.testBit b with
    | true => rfl
    | false => exact absurd (h b hb hmask) hne
  · rw [testBit_of_le x (by omega), testBit_of_le y (by omega)] at hne
    exact absurd rfl hne

theorem full_mask : ∀ b < 8, (0xFF : UInt8).toNat.testBit b = true := by decide

/-- Setting a field changes bits of the field only. -/
theorem setField_bits {f n : Nat} (hfn : f + n ≤ 8) (x : UInt8) (i : Int) {mask : UInt8}
    (hmask : ∀ b < 8, mask.toNat.testBit b = false → b < f ∨ f + n ≤ b) (hb : b < 8)
    (h : mask.toNat.testBit b = false) :
    ((x &&& keepMask f n) + UInt8.ofInt (i % 2 ^ n * 2 ^ f)).toNat.testBit b = x.toNat.testBit b :=
  testBit_setField hfn x i (hmask b hb h)

theorem exists_offset (h : q ≤ j) (h' : j < q + 5) : ∃ i < 5, j = q + i :=
  ⟨j - q, by omega, by omega⟩

/-- Writing a timestamp of a PES header changes bits of this timestamp. -/
theorem setTimestampPES_bits
    (hne : (setTimestampPES m q ts j).toNat.testBit b ≠ (m j).toNat.testBit b) :
    StampBit ptsMask q j b := by
  by_cases hout : j < q ∨ q + 5 ≤ j
  · rw [setTimestampPES_outside m ts hout] at hne
    exact absurd rfl hne
  obtain ⟨i, hi, rfl⟩ := exists_offset (q := q) (j := j) (by omega) (by omega)
  obtain ⟨b0, b1, b2, b3, b4⟩ := setTimestampPES_eq m q ts
  refine ⟨i, hi, rfl, mask_of_ne hne fun b hb hmask => ?_⟩
  interval_cases i
  · rw [Nat.add_zero, b0]
    exact setField_bits (by decide) _ _ (by decide) hb hmask
  · exact absurd (full_mask b hb) (by rw [Bool.not_eq_true]; exact hmask)
  · rw [b2]
    exact setField_bits (by decide) _ _ (by decide) hb hmask
  · exact absurd (full_mask b hb) (by rw [Bool.not_eq_true]; exact hmask)
  · rw [b4]
    exact setField_bits (by decide) _ _ (by decide) hb hmask

/-- Writing the timestamp of a pack header changes bits of this timestamp. -/
theorem changeTimestampPack_bits
    (hne : (h264ChangeTimestampPackheader m q ts j).toNat.testBit b ≠ (m j).toNat.testBit b) :
    StampBit scrMask q j b := by
  by_cases hout : j < q ∨ q + 5 ≤ j
  · rw [changeTimestampPack_outside m ts hout] at hne
    exact absurd rfl hne
  obtain ⟨i, hi, rfl⟩ := exists_offset (q := q) (j := j) (by omega) (by omega)
  obtain ⟨b0, b1, b2, b3, b4⟩ := changeTimestampPack_eq m q ts
  have hlow : ∀ (x : UInt8) (i : Int) (b : Nat), 2 ≤ b →
      ((x &&& keepMask 0 2) + UInt8.ofInt (i % 2 ^ 2)).toNat.testBit b = x.toNat.testBit b := by
    intro x i b hb
    have h := @testBit_setField 0 2 (by decide) x i b (.inr hb)
    rwa [Int.pow_zero, Int.mul_one] at h
  refine ⟨i, hi, rfl, mask_of_ne hne fun b hb hmask => ?_⟩
  interval_cases i
  · have hfield : ∀ b < 8, (0x3B : UInt8).toNat.testBit b = false → (b < 3 ∨ 6 ≤ b) ∧ 2 ≤ b := by
      decide
    rw [Nat.add_zero, b0, testBit_setField (by decide) _ _ (hfield b hb hmask).1,
      hlow _ _ b (hfield b hb hmask).2]
  · exact absurd (full_mask b hb) (by rw [Bool.not_eq_true]; exact hmask)
  · have hfield : ∀ b < 8, (0xFB : UInt8).toNat.testBit b = false → (b < 3 ∨ 8 ≤ b) ∧ 2 ≤ b := by
      decide
    rw [b2, testBit_setField (by decide) _ _ (hfield b hb hmask).1, hlow _ _ b (hfield b hb hmask).2]
  · exact absurd (full_mask b hb) (by rw [Bool.not_eq_true]; exact hmask)
  · rw [b4]
    exact setField_bits (by decide) _ _ (by decide) hb hmask

/-- A rewriting of a header changes bits of its timestamps. -/
theorem rewrite_bits (hne : (rewrite m k p ts j).toNat.testBit b ≠ (m j).toNat.testBit b) :
    (k = .pack ∧ StampBit scrMask (p + 4) j b) ∨
      (k = .PES ∧ (StampBit ptsMask (p + 9) j b ∨ StampBit ptsMask (p + 14) j b)) := by
  cases k with
  | pack => exact .inl ⟨rfl, changeTimestampPack_bits hne⟩
  | PES =>
    refine .inr ⟨rfl, ?_⟩
    by_cases hpts : (setTimestampPES m (p + 9) ts j).toNat.testBit b = (m j).toNat.testBit b
    · rw [← hpts] at hne
      exact .inr (setTimestampPES_bits hne)
    · exact .inl (setTimestampPES_bits hpts)

/-! ## Timestamps that are there -/

/-- The PTS_DTS flags of a PES header announce a PTS. -/
def HasPts (buf : Mem) (p : Nat) : Prop := (buf (p + 7)).toNat.testBit 7 = true

/-- They announce a DTS as well. -/
def HasDts (buf : Mem) (p : Nat) : Prop := HasPts buf p ∧ (buf (p + 7)).toNat.testBit 6 = true

instance (buf : Mem) (p : Nat) : Decidable (HasPts buf p) := inferInstanceAs (Decidable (_ = _))

instance (buf : Mem) (p : Nat) : Decidable (HasDts buf p) := inferInstanceAs (Decidable (_ ∧ _))

/-- Bit `b` of place `j` encodes a timestamp that is present and complete in the buffer. -/
inductive Encodes (buf : Mem) (bufLen : Int) (j b : Nat) : Prop
  | scr (p : Nat) (hcode : strAt buf p strPackHeader = true) (hin : (p : Int) + 9 ≤ bufLen)
      (hbit : StampBit scrMask (p + 4) j b)
  | pts (p : Nat) (hcode : strAt buf p strPESHeader = true) (hflag : HasPts buf p)
      (hin : (p : Int) + 14 ≤ bufLen) (hbit : StampBit ptsMask (p + 9) j b)
  | dts (p : Nat) (hcode : strAt buf p strPESHeader = true) (hflag : HasDts buf p)
      (hin : (p : Int) + 19 ≤ bufLen) (hbit : StampBit ptsMask (p + 14) j b)

/-- Only such bits differ from what they were. -/
def OnlyStamps (orig : Mem) (bufLen : Int) (buf : Mem) : Prop :=
  ∀ j b, (buf j).toNat.testBit b ≠ (orig j).toNat.testBit b → Encodes orig bufLen j b

/-! ## Reads and writes -/

/-- The places that an iteration reads: those of the searches and the five bytes of the timestamp. -/
def PsReads (bufLen : Int) (s : PsState) (j : Nat) : Prop :=
  (s.posBuf ≤ j ∧ (j : Int) < bufLen) ∨
    ∃ k p, visit bufLen s = some (k, p) ∧ p + k.off ≤ j ∧ j < p + k.off + 5

/-- The places that an iteration writes. -/
def PsWrites (bufLen start : Int) (s : PsState) (j : Nat) : Prop :=
  ∃ k p, visit bufLen s = some (k, p) ∧ Rewrites start s k p ∧ p + k.off ≤ j ∧ j < p + k.off + k.width

theorem rewrite_outside (h : j < p + k.off ∨ p + k.off + k.width ≤ j) :
    rewrite m k p ts j = m j := by
  cases k with
  | pack => exact changeTimestampPack_outside m ts h
  | PES =>
    have h' : j < p + 9 ∨ p + 9 + 10 ≤ j := h
    show setTimestampPES (setTimestampPES m (p + 9) ts) (p + 9 + 5) ts j = m j
    rw [setTimestampPES_outside _ ts (by omega), setTimestampPES_outside _ ts (by omega)]

/-- Other places keep what they hold. -/
theorem psStep_writes (h : psStep bufLen start s = some s') (hj : ¬ PsWrites bufLen start s j) :
    s'.buf j = s.buf j := by
  obtain ⟨k, p, hv, hvis⟩ := psStep_visits h
  by_cases hre : Rewrites start s k p
  · rw [(hvis.rewrites hre).1]
    apply rewrite_outside
    by_contra hin
    exact hj ⟨k, p, hv, hre, by omega, by omega⟩
  · rw [hvis.keeps hre]

theorem strAt_congr {m m' : Mem} {str : List UInt8} (h : ∀ i < str.length, m' (p + i) = m (p + i)) :
    strAt m' p str = strAt m p str := by
  induction str generalizing p with
  | nil => rfl
  | cons c cs ih =>
    have hhead := h 0 (Nat.succ_pos _)
    have htail : ∀ i < cs.length, m' (p + 1 + i) = m (p + 1 + i) := fun i hi => by
      have := h (i + 1) (Nat.succ_lt_succ hi)
      rwa [Nat.add_comm i, ← Nat.add_assoc] at this
    rw [strAt, strAt, ih htail]
    rw [Nat.add_zero] at hhead
    rw [hhead]

theorem findStrInBuf_congr {m m' : Mem} {pos : Nat} {str : List UInt8}
    (h : ∀ j, pos ≤ j → (j : Int) < bufLen → m' j = m j) :
    findStrInBuf m' pos (bufLen - pos) str = findStrInBuf m pos (bufLen - pos) str := by
  apply scanUp_congr
  intro i _ hi
  apply strAt_congr
  intro n hn
  exact h _ (by omega) (by omega)

/-- Everything but the buffer. -/
def PsState.noBuf (s : PsState) : PsState := { s with buf := fun _ => 0 }

theorem stampAt_congr {m m' : Mem} (h : ∀ j, p + k.off ≤ j → j < p + k.off + 5 → m' j = m j) :
    stampAt m' k p = stampAt m k p := by
  have h0 : m' (p + k.off) = m (p + k.off) := h _ (by omega) (by omega)
  have h1 : m' (p + k.off + 1) = m (p + k.off + 1) := h _ (by omega) (by omega)
  have h2 : m' (p + k.off + 2) = m (p + k.off + 2) := h _ (by omega) (by omega)
  have h3 : m' (p + k.off + 3) = m (p + k.off + 3) := h _ (by omega) (by omega)
  have h4 : m' (p + k.off + 4) = m (p + k.off + 4) := h _ (by omega) (by omega)
  cases k with
  | pack =>
    simp only [Header.off] at h0 h1 h2 h3 h4
    simp only [stampAt, h264GetTimestampPackheader, h0, h1, h2, h3, h4]
  | PES =>
    simp only [Header.off] at h0 h1 h2 h3 h4
    simp only [stampAt, h264GetTimestampPESheader, h0, h1, h2, h3, h4]

theorem psPack_noBuf {m' : Mem} (h : stampAt m' .pack s.posBuf = stampAt s.buf .pack s.posBuf) :
    (psPack start { s with buf := m' }).noBuf = (psPack start s).noBuf := by
  have h : h264GetTimestampPackheader m' (s.posBuf + 4)
      = h264GetTimestampPackheader s.buf (s.posBuf + 4) := h
  by_cases hz : h264GetTimestampPackheader s.buf (s.posBuf + 4) = 0
  · simp only [psPack, h, if_pos hz, PsState.noBuf]
  · have hu : ∀ m, tsUsable start { s with buf := m, posBuf := s.posBuf + 4 }
        = tsUsable start s := fun _ => rfl
    simp only [psPack, h, if_neg hz, hu]
    cases tsUsable start s (h264GetTimestampPackheader s.buf (s.posBuf + 4)) with
    | true => rfl
    | false => simp only [PsState.noBuf, Bool.false_eq_true, if_false]

theorem psPES_noBuf {m' : Mem} (h : stampAt m' .PES s.posBuf = stampAt s.buf .PES s.posBuf) :
    (psPES start { s with buf := m' }).noBuf = (psPES start s).noBuf := by
  have h : h264GetTimestampPESheader m' (s.posBuf + 9)
      = h264GetTimestampPESheader s.buf (s.posBuf + 9) := h
  by_cases hz : h264GetTimestampPESheader s.buf (s.posBuf + 9) = 0
  · simp only [psPES, h, if_pos hz, PsState.noBuf]
  · have hu : ∀ m, tsUsable start { s with buf := m, posBuf := s.posBuf + 9 }
        = tsUsable start s := fun _ => rfl
    simp only [psPES, h, if_neg hz, hu]
    cases tsUsable start s (h264GetTimestampPESheader s.buf (s.posBuf + 9)) with
    | true => rfl
    | false => simp only [PsState.noBuf, Bool.false_eq_true, if_false]

/-- What is at other places than those an iteration reads makes no difference to it. -/
theorem psStep_reads {m' : Mem} (h : ∀ j, PsReads bufLen s j → m' j = s.buf j) :
    (psStep bufLen start { s with buf := m' }).map PsState.noBuf
      = (psStep bufLen start s).map PsState.noBuf := by
  have hfind : ∀ str, findStrInBuf m' s.posBuf (bufLen - s.posBuf) str
      = findStrInBuf s.buf s.posBuf (bufLen - s.posBuf) str := fun str =>
    findStrInBuf_congr fun j hj hj' => h j (.inl ⟨hj, hj'⟩)
  have hpack : psFindPack bufLen { s with buf := m' } = { psFindPack bufLen s with buf := m' } := by
    unfold psFindPack
    dsimp only
    rw [hfind]
    split
    · split <;> rfl
    · rfl
  have hsame := sameStamps_psFindPack bufLen s
  have hPES : psFindPES bufLen { psFindPack bufLen s with buf := m' }
      = (psFindPES bufLen (psFindPack bufLen s)).map fun t => { t with buf := m' } := by
    have hfind' := hfind strPESHeader
    rw [← hsame.posBuf, ← hsame.buf] at hfind'
    unfold psFindPES
    dsimp only
    rw [hfind']
    split
    · split <;> rfl
    · rfl
  unfold psStep
  rw [hpack, hPES, Option.map_map, Option.map_map, Option.map_map]
  cases hs₁ : psFindPES bufLen (psFindPack bufLen s) with
  | none => rfl
  | some s₁ =>
    have hbuf := (sameStamps_search hs₁).buf
    have hstamp : stampAt m' (psChoose s₁).1 (psChoose s₁).2.posBuf
        = stampAt s₁.buf (psChoose s₁).1 (psChoose s₁).2.posBuf := by
      rw [hbuf]
      apply stampAt_congr
      intro j hj hj'
      exact h j (.inr ⟨_, _, Option.map_eq_some_iff.mpr ⟨s₁, hs₁, rfl⟩, hj, hj'⟩)
    rw [Option.map_some, Option.map_some, Option.some.injEq]
    simp only [Function.comp_apply]
    unfold psChoose at hstamp ⊢
    by_cases hc : s₁.posPESTotal > s₁.posPackTotal ∧ s₁.posPackHeader ≠ none
    · rw [if_pos hc] at hstamp ⊢
      rw [if_pos hc]
      exact congrArg (fun t : PsState => { t with flagTimestampOld := .pack })
        (psPack_noBuf (s := { s₁ with posBuf := s₁.posPackTotal }) hstamp)
    · rw [if_neg hc] at hstamp ⊢
      rw [if_neg hc]
      exact congrArg (fun t : PsState => { t with flagTimestampOld := .PES })
        (psPES_noBuf (s := { s₁ with posBuf := s₁.posPESTotal }) hstamp)

/-- A pack header and a PES header with both timestamps, all three being 1000. -/
def stamped : Mem :=
  memOf [0x00, 0x00, 0x01, 0xBA, 0x44, 0x00, 0x04, 0x1F, 0x44, 0x01, 0x00, 0x00, 0x03, 0xF8,
    0x00, 0x00, 0x01, 0xE0, 0x00, 0x00, 0x80, 0xC0, 0x0A, 0x31, 0x00, 0x01, 0x07, 0xD1,
    0x11, 0x00, 0x01, 0x07, 0xD1]


end VdCamera.H264
