import VdCamera.H264.Proofs.PsFrame

/-!
# The two timestamp codecs

A timestamp that was written is read back, and writing the one just read changes nothing in its five
bytes. The function for PES headers writes a second one behind them, which counts where the header has
bytes there.
-/

namespace VdCamera.H264

open Misc

variable {m : Mem} {k : Header} {p q : Nat} {ts : Int}

/-! ## Writing back what was read -/

/-- The fields of a number made up of five. -/
theorem fields_of_PES {a b c d e t : Nat} (hb : b < 256) (hc : c < 128) (hd : d < 256) (he : e < 128)
    (ht : t = (((a * 256 + b) * 128 + c) * 256 + d) * 128 + e) :
    t / 2 ^ 30 = a ∧ t / 2 ^ 22 % 256 = b ∧ t / 2 ^ 15 % 128 = c ∧ t / 2 ^ 7 % 256 = d
      ∧ t % 128 = e := by
  subst ht
  refine ⟨?_, ?_, ?_, ?_, ?_⟩ <;> omega

/-- The fields of a number made up of seven. -/
theorem fields_of_pack {a b c d e x y t : Nat} (hx : x < 4) (hb : b < 256) (hc : c < 32)
    (hy : y < 4) (hd : d < 256) (he : e < 32)
    (ht : t = (((((a * 4 + x) * 256 + b) * 32 + c) * 4 + y) * 256 + d) * 32 + e) :
    t / 2 ^ 30 = a ∧ t / 2 ^ 28 % 4 = x ∧ t / 2 ^ 20 % 256 = b ∧ t / 2 ^ 15 % 32 = c
      ∧ t / 2 ^ 13 % 4 = y ∧ t / 2 ^ 5 % 256 = d ∧ t % 32 = e := by
  subst ht
  refine ⟨?_, ?_, ?_, ?_, ?_, ?_, ?_⟩ <;> omega

/-- Two memories that agree on five bytes and outside of them are the same. -/
theorem eq_of_five {m' : Mem} (hout : ∀ j, j < q ∨ q + 5 ≤ j → m' j = m j) (h0 : m' q = m q)
    (h1 : m' (q + 1) = m (q + 1)) (h2 : m' (q + 2) = m (q + 2)) (h3 : m' (q + 3) = m (q + 3))
    (h4 : m' (q + 4) = m (q + 4)) : m' = m := by
  funext j
  by_cases hj : j < q ∨ q + 5 ≤ j
  · exact hout j hj
  · obtain ⟨i, hi, rfl⟩ := exists_offset (q := q) (j := j) (by omega) (by omega)
    interval_cases i
    · exact h0
    · exact h1
    · exact h2
    · exact h3
    · exact h4

theorem setTimestampPES_self (m : Mem) (q : Nat) :
    setTimestampPES m q (h264GetTimestampPESheader m q) = m := by
  have hbyte0 : ∀ x : Nat, x / 16 * 16 + x / 2 % 8 * 2 + x % 2 = x := by omega
  generalize hN : ((((m q).toNat / 2 % 8 * 256 + (m (q + 1)).toNat) * 128 + (m (q + 2)).toNat / 2)
    * 256 + (m (q + 3)).toNat) * 128 + (m (q + 4)).toNat / 2 = N
  have hget : h264GetTimestampPESheader m q = (N : Int) := by
    rw [getTimestampPES_eq, hN]
  have h1 := (m (q + 1)).toNat_lt
  have h2 := (m (q + 2)).toNat_lt
  have h3 := (m (q + 3)).toNat_lt
  have h4 := (m (q + 4)).toNat_lt
  obtain ⟨f0, f1, f2, f3, f4⟩ := fields_of_PES (a := (m q).toNat / 2 % 8) h1
    (Nat.div_lt_of_lt_mul h2) h3 (Nat.div_lt_of_lt_mul h4) hN.symm
  obtain ⟨b0, b1, b2, b3, b4⟩ := setTimestampPES_bytes m q N
  have g0 : ((N : Int) / 2 ^ 30 % 8).toNat = (m q).toNat / 2 % 8 :=
    (toNat_emod N 30 8).trans (by rw [f0, Nat.mod_mod])
  have g2 : ((N : Int) / 2 ^ 15 % 128).toNat = (m (q + 2)).toNat / 2 := (toNat_emod N 15 128).trans f2
  have g4 : ((N : Int) % 128).toNat = (m (q + 4)).toNat / 2 := f4
  rw [hget]
  apply eq_of_five
  · exact fun j hj => setTimestampPES_outside m N hj
  · apply UInt8.toNat_inj.mp
    rw [b0, g0, hbyte0]
  · apply UInt8.toNat_inj.mp
    rw [b1]
    exact (toNat_emod N 22 256).trans f1
  · apply UInt8.toNat_inj.mp
    rw [b2, g2, Nat.div_add_mod']
  · apply UInt8.toNat_inj.mp
    rw [b3]
    exact (toNat_emod N 7 256).trans f3
  · apply UInt8.toNat_inj.mp
    rw [b4, g4, Nat.div_add_mod']

theorem changeTimestampPack_self (m : Mem) (q : Nat) :
    h264ChangeTimestampPackheader m q (h264GetTimestampPackheader m q) = m := by
  have hbyte0 : ∀ x : Nat, x / 64 * 64 + x / 8 % 8 * 8 + (x / 4 % 2 * 4 + x % 4) = x := by omega
  have hbyte2 : ∀ x : Nat, x / 8 * 8 + (x / 4 % 2 * 4 + x % 4) = x := by omega
  generalize hN : (((((m q).toNat / 8 % 8 * 4 + (m q).toNat % 4) * 256 + (m (q + 1)).toNat) * 32
      + (m (q + 2)).toNat / 8) * 4 + (m (q + 2)).toNat % 4) * 256 + (m (q + 3)).toNat = K
  generalize hN' : K * 32 + (m (q + 4)).toNat / 8 = N
  have hget : h264GetTimestampPackheader m q = (N : Int) := by
    rw [getTimestampPack_eq, hN, hN']
  have h1 := (m (q + 1)).toNat_lt
  have h2 := (m (q + 2)).toNat_lt
  have h3 := (m (q + 3)).toNat_lt
  have h4 := (m (q + 4)).toNat_lt
  obtain ⟨f0, f0', f1, f2, f2', f3, f4⟩ := fields_of_pack (a := (m q).toNat / 8 % 8)
    (x := (m q).toNat % 4) (Nat.mod_lt _ (by decide)) h1 (Nat.div_lt_of_lt_mul h2)
    (y := (m (q + 2)).toNat % 4) (Nat.mod_lt _ (by decide)) h3 (Nat.div_lt_of_lt_mul h4)
    (by rw [hN, hN'])
  obtain ⟨b0, b1, b2, b3, b4⟩ := changeTimestampPack_bytes m q N
  have g0 : ((N : Int) / 2 ^ 30 % 8).toNat = (m q).toNat / 8 % 8 :=
    (toNat_emod N 30 8).trans (by rw [f0, Nat.mod_mod])
  have g0' : ((N : Int) / 2 ^ 28 % 4).toNat = (m q).toNat % 4 := (toNat_emod N 28 4).trans f0'
  have g2 : ((N : Int) / 2 ^ 15 % 32).toNat = (m (q + 2)).toNat / 8 := (toNat_emod N 15 32).trans f2
  have g2' : ((N : Int) / 2 ^ 13 % 4).toNat = (m (q + 2)).toNat % 4 :=
    (toNat_emod N 13 4).trans f2'
  have g4 : ((N : Int) % 32).toNat = (m (q + 4)).toNat / 8 := f4
  rw [hget]
  apply eq_of_five
  · exact fun j hj => changeTimestampPack_outside m N hj
  · apply UInt8.toNat_inj.mp
    rw [b0, g0, g0', hbyte0]
  · apply UInt8.toNat_inj.mp
    rw [b1]
    exact (toNat_emod N 20 256).trans f1
  · apply UInt8.toNat_inj.mp
    rw [b2, g2, g2', hbyte2]
  · apply UInt8.toNat_inj.mp
    rw [b3]
    exact (toNat_emod N 5 256).trans f3
  · apply UInt8.toNat_inj.mp
    rw [b4, g4, Nat.div_add_mod']

/-- A timestamp that was written is read back. -/
theorem stampAt_rewrite (m : Mem) (k : Header) (p : Nat) (h0 : 0 ≤ ts) (h : ts < 2 ^ 33) :
    stampAt (rewrite m k p ts) k p = ts := by
  cases k with
  | pack => exact getTimestampPack_changeTimestampPack m (p + 4) h0 h
  | PES =>
    have hfirst : stampAt (rewrite m .PES p ts) .PES p = stampAt (setTimestampPES m (p + 9) ts) .PES p :=
      stampAt_congr fun j _ hj => setTimestampPES_outside _ ts (.inl hj)
    exact hfirst.trans (getTimestampPES_setTimestampPES m (p + 9) h0 h)

/-! ## The bytes behind the PTS -/

/-- What the bytes from `q` on hold of a timestamp of a PES header, byte by byte. -/
def stampField (m : Mem) (q : Nat) : Nat → Nat
  | 0 => (m q).toNat / 2 % 8
  | 1 => (m (q + 1)).toNat
  | 2 => (m (q + 2)).toNat / 2
  | 3 => (m (q + 3)).toNat
  | _ => (m (q + 4)).toNat / 2

/-- What they hold when the timestamp is `ts`. -/
def fieldOf (ts : Int) : Nat → Nat
  | 0 => (ts / 2 ^ 30 % 8).toNat
  | 1 => (ts / 2 ^ 22 % 256).toNat
  | 2 => (ts / 2 ^ 15 % 128).toNat
  | 3 => (ts / 2 ^ 7 % 256).toNat
  | _ => (ts % 128).toNat

/-- The first `n` of the five bytes from `q` on are those of the timestamp `ts`. -/
def HoldsStamp (m : Mem) (q n : Nat) (ts : Int) : Prop :=
  ∀ i < 5, i < n → stampField m q i = fieldOf ts i

instance (m : Mem) (q n : Nat) (ts : Int) : Decidable (HoldsStamp m q n ts) :=
  inferInstanceAs (Decidable (∀ i < 5, i < n → _))

/-- Writing a timestamp keeps a byte if and only if the byte holds it. -/
theorem setTimestampPES_eq_iff (m : Mem) (q : Nat) (ts : Int) {i : Nat} (hi : i < 5) :
    setTimestampPES m q ts (q + i) = m (q + i) ↔ stampField m q i = fieldOf ts i := by
  obtain ⟨b0, b1, b2, b3, b4⟩ := setTimestampPES_bytes m q ts
  have hbyte0 : ∀ x a : Nat, a < 8 → (x / 16 * 16 + a * 2 + x % 2 = x ↔ x / 2 % 8 = a) := by omega
  have hbyte : ∀ x a : Nat, a * 2 + x % 2 = x ↔ x / 2 = a := by omega
  rw [← UInt8.toNat_inj]
  interval_cases i
  · rw [Nat.add_zero, b0]
    exact hbyte0 _ _ (by omega)
  · rw [b1]
    exact eq_comm
  · rw [b2]
    exact hbyte _ _
  · rw [b3]
    exact eq_comm
  · rw [b4]
    exact hbyte _ _

/-- The first `n` bytes stay if and only if they hold what is written. -/
theorem setTimestampPES_keeps_iff (m : Mem) (q n : Nat) (ts : Int) :
    (∀ j, q ≤ j → j < q + n → setTimestampPES m q ts j = m j) ↔ HoldsStamp m q n ts := by
  constructor
  · intro h i hi hin
    exact (setTimestampPES_eq_iff m q ts hi).mp (h (q + i) (by omega) (by omega))
  · intro h j hq hj
    by_cases hout : q + 5 ≤ j
    · exact setTimestampPES_outside m ts (.inr hout)
    · obtain ⟨i, hi, rfl⟩ := exists_offset hq (Nat.not_le.mp hout)
      exact (setTimestampPES_eq_iff m q ts hi).mpr (h i hi (by omega))

/-- Behind the PTS a rewriting does what the writing of the DTS does. -/
theorem rewrite_behind {j : Nat} (h : p + 14 ≤ j) :
    rewrite m .PES p ts j = setTimestampPES m (p + 14) ts j := by
  by_cases hout : p + 19 ≤ j
  · rw [setTimestampPES_outside m ts (.inr hout)]
    exact rewrite_outside (k := .PES) (.inr hout)
  · have hfirst : ∀ i, setTimestampPES m (p + 9) ts (p + 14 + i) = m (p + 14 + i) := fun i =>
      setTimestampPES_outside m ts (.inr (by omega))
    obtain ⟨i, hi, rfl⟩ := exists_offset h (Nat.not_le.mp hout)
    obtain ⟨b0, b1, b2, b3, b4⟩ := setTimestampPES_eq m (p + 14) ts
    obtain ⟨c0, c1, c2, c3, c4⟩ := setTimestampPES_eq (setTimestampPES m (p + 9) ts) (p + 14) ts
    show setTimestampPES (setTimestampPES m (p + 9) ts) (p + 14) ts (p + 14 + i) = _
    interval_cases i
    · rw [Nat.add_zero, b0, c0, ← Nat.add_zero (p + 14), hfirst]
    · rw [b1, c1]
    · rw [b2, c2, hfirst]
    · rw [b3, c3]
    · rw [b4, c4, hfirst]

/-- In front of that it does what the writing of the PTS does. -/
theorem rewrite_before {j : Nat} (h : j < p + 14) :
    rewrite m .PES p ts j = setTimestampPES m (p + 9) ts j :=
  setTimestampPES_outside _ ts (.inl h)

/-! ## The codecs -/

/-- `PES_header_data_length`. -/
def dataLength (m : Mem) (p : Nat) : Nat := (m (p + 8)).toNat

def headerSize (m : Mem) : Header × Nat → Nat
  | (.pack, _) => 14
  | (.PES, p) => 9 + dataLength m p

/-- Place `j` is a byte of the header at `p`. -/
def InHeader (m : Mem) (k : Header) (p j : Nat) : Prop := p ≤ j ∧ j < p + headerSize m (k, p)

/-- Bit `b` of place `j` carries a timestamp of the header at `p`: a DTS only where it is announced. -/
def Carries (m : Mem) : Header → Nat → Nat → Nat → Prop
  | .pack, p, j, b => StampBit scrMask (p + 4) j b
  | .PES, p, j, b => StampBit ptsMask (p + 9) j b ∨ (HasDts m p ∧ StampBit ptsMask (p + 14) j b)

/-- Reading gets back what was written, other bits of the header keep their values, and writing what
was read changes nothing in the header. -/
structure CodecInverse (m : Mem) (k : Header) (p : Nat) (ts : Int) : Prop where
  read : stampAt (rewrite m k p ts) k p = ts
  others : ∀ j b, InHeader m k p j → ¬ Carries m k p j b →
    (rewrite m k p ts j).toNat.testBit b = (m j).toNat.testBit b
  back : ∀ j, InHeader m k p j → rewrite m k p (stampAt m k p) j = m j

theorem codecInverse_pack (m : Mem) (p : Nat) (h0 : 0 ≤ ts) (h : ts < 2 ^ 33) :
    CodecInverse m .pack p ts := by
  refine ⟨stampAt_rewrite m .pack p h0 h, ?_, ?_⟩
  · intro j b _ hj
    by_contra hne
    exact hj (changeTimestampPack_bits hne)
  · intro j _
    exact congrFun (changeTimestampPack_self m (p + 4)) j

/-- The header bytes behind the PTS stay if and only if they hold what is written. -/
theorem rewrite_keeps_iff (m : Mem) (p : Nat) (ts : Int) :
    (∀ j, p + 14 ≤ j → InHeader m .PES p j → rewrite m .PES p ts j = m j) ↔
      HoldsStamp m (p + 14) (dataLength m p - 5) ts := by
  rw [← setTimestampPES_keeps_iff]
  constructor
  · intro h j hq hj
    have hin : j < p + (9 + dataLength m p) := by omega
    rw [← rewrite_behind hq]
    exact h j hq ⟨by omega, hin⟩
  · rintro h j hq ⟨-, hin⟩
    have hin : j < p + (9 + dataLength m p) := hin
    rw [rewrite_behind hq]
    exact h j hq (by omega)

/-- Other bits of a PES header stay if and only if the bytes behind the PTS are a DTS or stay. -/
theorem others_PES_iff (m : Mem) (p : Nat) (ts : Int) :
    (∀ j b, InHeader m .PES p j → ¬ Carries m .PES p j b →
      (rewrite m .PES p ts j).toNat.testBit b = (m j).toNat.testBit b) ↔
    HasDts m p ∨ HoldsStamp m (p + 14) (dataLength m p - 5) ts := by
  rw [← rewrite_keeps_iff]
  constructor
  · intro hothers
    by_cases hdts : HasDts m p
    · exact .inl hdts
    · right
      intro j hj hin
      refine UInt8.toNat_inj.mp (Nat.eq_of_testBit_eq fun b => hothers j b hin ?_)
      rintro (⟨i, hi, hji, -⟩ | ⟨hdts', -⟩)
      · omega
      · exact hdts hdts'
  · rintro (hdts | hkeeps) j b hin hj
    · by_contra hne
      rcases rewrite_bits hne with ⟨hk, -⟩ | ⟨-, hbit | hbit⟩
      · cases hk
      · exact hj (.inl hbit)
      · exact hj (.inr ⟨hdts, hbit⟩)
    · by_cases hbehind : p + 14 ≤ j
      · rw [hkeeps j hbehind hin]
      · rw [rewrite_before (Nat.not_le.mp hbehind)]
        by_contra hne
        exact hj (.inl (setTimestampPES_bits hne))

/-- Writing the PTS back changes nothing in a PES header if and only if the header bytes behind the PTS
hold it as well. -/
theorem back_PES_iff (m : Mem) (p : Nat) :
    (∀ j, InHeader m .PES p j → rewrite m .PES p (stampAt m .PES p) j = m j) ↔
      HoldsStamp m (p + 14) (dataLength m p - 5) (stampAt m .PES p) := by
  rw [← rewrite_keeps_iff]
  constructor
  · exact fun h j _ hin => h j hin
  · intro h j hin
    by_cases hbehind : p + 14 ≤ j
    · exact h j hbehind hin
    · rw [rewrite_before (Nat.not_le.mp hbehind)]
      exact congrFun (setTimestampPES_self m (p + 9)) j

/-- The codecs are inverse for a pack header, and for a PES header if and only if its bytes behind the
PTS, up to five, hold the PTS once more and are a DTS or hold the timestamp that is written. -/
theorem codec_inverse_iff (m : Mem) (k : Header) (p : Nat) (h0 : 0 ≤ ts) (h : ts < 2 ^ 33) :
    CodecInverse m k p ts ↔
      (k = .PES → HoldsStamp m (p + 14) (dataLength m p - 5) (stampAt m .PES p) ∧
        (HasDts m p ∨ HoldsStamp m (p + 14) (dataLength m p - 5) ts)) := by
  constructor
  · rintro ⟨-, hothers, hback⟩ rfl
    exact ⟨(back_PES_iff m p).mp hback, (others_PES_iff m p ts).mp hothers⟩
  · intro hcond
    cases k with
    | pack => exact codecInverse_pack m p h0 h
    | PES =>
      obtain ⟨hback, hothers⟩ := hcond rfl
      exact ⟨stampAt_rewrite m .PES p h0 h, (others_PES_iff m p ts).mpr hothers,
        (back_PES_iff m p).mpr hback⟩

theorem codec_inverse_iff_stamped :
    CodecInverse stamped .PES 14 103600 ↔ (Header.PES = .PES →
      HoldsStamp stamped 28 (dataLength stamped 14 - 5) (stampAt stamped .PES 14) ∧
        (HasDts stamped 14 ∨ HoldsStamp stamped 28 (dataLength stamped 14 - 5) 103600)) :=
  codec_inverse_iff stamped .PES 14 (by decide) (by decide)

/-- A PES header with a PTS of 1000 and a DTS of 2000. -/
def stampedApart : Mem :=
  memOf [0x00, 0x00, 0x01, 0xE0, 0x00, 0x00, 0x80, 0xC0, 0x0A, 0x31, 0x00, 0x01, 0x07, 0xD1,
    0x11, 0x00, 0x01, 0x0F, 0xA1]

/-- Writing back the PTS of 1000 makes the DTS 1000 as well. -/
theorem not_codec_inverse : ¬ CodecInverse stampedApart .PES 0 1000 := by
  intro h
  have hbyte := h.back 17 ⟨by decide, by decide⟩
  exact absurd hbyte (by decide)

end VdCamera.H264
