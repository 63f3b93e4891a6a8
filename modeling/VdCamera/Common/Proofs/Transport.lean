import Mathlib.Data.Int.Order.Basic
import VdCamera.Common.CommonFuncs
import VdCamera.Misc.Bytes

/-!
# What the transport encoding gives back

Bytes always come back. A number comes back as long as its highest digit leaves the sign of the word
alone.
-/

namespace VdCamera.Common

open Misc

/-- A byte that the transport lets through. -/
def Sendable (b : UInt8) : Prop := b ≠ 0x00 ∧ b ≠ 0xFF

variable {a b x : Int32} {src : List UInt8}

/-! ## Bytes -/

theorem toNat_low (b : UInt8) : (b % 254 + 1).toNat = b.toNat % 254 + 1 := by
  rw [UInt8.toNat_add, UInt8.toNat_mod]
  have hlt := Nat.mod_lt b.toNat (show 254 > 0 by decide)
  exact Nat.mod_eq_of_lt (by change b.toNat % 254 + 1 < 256; omega)

theorem toNat_high (b : UInt8) : (b / 254 + 1).toNat = b.toNat / 254 + 1 := by
  have hb := b.toNat_lt
  rw [UInt8.toNat_add, UInt8.toNat_div]
  exact Nat.mod_eq_of_lt (by change b.toNat / 254 + 1 < 256; omega)

theorem sendable_iff {b : UInt8} : Sendable b ↔ 0 < b.toNat ∧ b.toNat < 255 := by
  have hb := b.toNat_lt
  rw [Sendable, Ne, Ne, ← UInt8.toNat_inj, ← UInt8.toNat_inj]
  change ¬ b.toNat = 0 ∧ ¬ b.toNat = 255 ↔ _
  omega

theorem sendable_of_mem_char {b c : UInt8} (h : c ∈ char256To254 b) : Sendable c := by
  have hb := b.toNat_lt
  rw [sendable_iff]
  rw [char256To254, List.mem_cons, List.mem_singleton] at h
  rcases h with rfl | rfl
  · rw [toNat_low]
    omega
  · rw [toNat_high]
    omega

theorem char254To256_char256To254 (b : UInt8) :
    char254To256 (b % 254 + 1) (b / 254 + 1) = some b := by
  have hb := b.toNat_lt
  have hlow := toNat_low b
  have hhigh := toNat_high b
  have hfails : ¬ (b / 254 + 1 = 0 ∨ b / 254 + 1 > 2 ∨ b % 254 + 1 = 0 ∨ b % 254 + 1 = 255) := by
    rw [← UInt8.toNat_inj, ← UInt8.toNat_inj, ← UInt8.toNat_inj, gt_iff_lt, UInt8.lt_iff_toNat_lt,
      hlow, hhigh]
    change ¬ (_ = 0 ∨ 2 < _ ∨ _ = 0 ∨ _ = 255)
    omega
  rw [char254To256, if_neg hfails, Option.some.injEq, UInt8.add_sub_cancel, UInt8.add_sub_cancel,
    ← UInt8.toNat_inj, UInt8.toNat_add, UInt8.toNat_mul, UInt8.toNat_div, UInt8.toNat_mod]
  change (b.toNat / 254 * 254 % 256 + b.toNat % 254) % 256 = b.toNat
  omega

theorem covertPairs_covert (src : List UInt8) : covertPairs (covert256To254 src) = (SUCCESS, src) := by
  induction src with
  | nil => rfl
  | cons b src ih =>
    rw [covert256To254, List.flatMap_cons, char256To254, List.cons_append, List.cons_append,
      List.nil_append, covertPairs, char254To256_char256To254]
    rw [covert256To254] at ih
    dsimp only
    rw [ih]

theorem covert254To256_covert256To254 (src : List UInt8) :
    covert254To256 (covert256To254 src) = (SUCCESS, src) := by
  have heven : (covert256To254 src).length % 2 = 0 := by
    induction src with
    | nil => rfl
    | cons b src ih =>
      rw [covert256To254, List.flatMap_cons, List.length_append]
      rw [covert256To254] at ih
      change (2 + (src.flatMap char256To254).length) % 2 = 0
      omega
  rw [covert254To256, if_neg (not_not_intro heven), covertPairs_covert]

/-! ## Numbers -/

theorem toInt_digit (h : 0 ≤ x.toInt) : (x % 254 + 1).toInt = x.toInt % 254 + 1 := by
  rw [Int32.toInt_add, Int32.toInt_mod]
  change (x.toInt.tmod 254 + 1).bmod (2 ^ 32) = _
  rw [Int.tmod_eq_emod_of_nonneg h]
  exact Int.bmod_eq_of_le (by omega) (by omega)

theorem toInt_quotient (h : 0 ≤ x.toInt) : (x / 254).toInt = x.toInt / 254 := by
  rw [Int32.toInt_div_of_ne_right _ _ (by decide)]
  exact Int.tdiv_eq_ediv_of_nonneg h

theorem toInt_shiftLeft {s : Int32} {n : Nat} (hs : (s.toBitVec.smod 32).toNat = n) :
    (x <<< s).toInt = (x.toInt * 2 ^ n).bmod (2 ^ 32) := by
  rw [← Int32.toInt_toBitVec, ← Int32.toInt_toBitVec, Int32.toBitVec_shiftLeft, BitVec.shiftLeft_eq', hs,
    BitVec.toInt_shiftLeft, Nat.shiftLeft_eq, BitVec.toInt_eq_toNat_bmod]
  push_cast
  rw [Int.bmod_mul_bmod]

theorem toInt_shiftRight {s : Int32} {n : Nat} (hs : (s.toBitVec.smod 32).toNat = n) :
    (x >>> s).toInt = x.toInt / 2 ^ n := by
  rw [← Int32.toInt_toBitVec, ← Int32.toInt_toBitVec, Int32.toBitVec_shiftRight,
    BitVec.sshiftRight_eq', hs, BitVec.toInt_sshiftRight, Int.shiftRight_eq_div_pow]
  push_cast
  rfl

/-- The word that the digits of a number make up. -/
def encoded (a : Int) : Int :=
  (a % 254 + 1) + (a / 254 % 254 + 1) * 2 ^ 8 + (a / 254 / 254 % 254 + 1) * 2 ^ 16
    + (a / 254 / 254 / 254 % 254 + 1) * 2 ^ 24

theorem toInt_vpotInt256To254 (h : 0 ≤ a.toInt) :
    (vpotInt256To254 a).toInt = (encoded a.toInt).bmod (2 ^ 32) := by
  have h1 : 0 ≤ (a / 254).toInt := by
    rw [toInt_quotient h]
    omega
  have h2 : 0 ≤ (a / 254 / 254).toInt := by
    rw [toInt_quotient h1]
    omega
  have h3 : 0 ≤ (a / 254 / 254 / 254).toInt := by
    rw [toInt_quotient h2]
    omega
  have hshl : ∀ y : Int32, (y <<< 8).toInt = (y.toInt * 2 ^ 8).bmod (2 ^ 32) :=
    fun y => toInt_shiftLeft (by decide)
  have hshl' : ∀ y : Int32, (y <<< 16).toInt = (y.toInt * 2 ^ 16).bmod (2 ^ 32) :=
    fun y => toInt_shiftLeft (by decide)
  have hshl'' : ∀ y : Int32, (y <<< 24).toInt = (y.toInt * 2 ^ 24).bmod (2 ^ 32) :=
    fun y => toInt_shiftLeft (by decide)
  unfold vpotInt256To254 encoded
  dsimp only
  rw [Int32.toInt_add, Int32.toInt_add, Int32.toInt_add, hshl, hshl', hshl'', toInt_digit h,
    toInt_digit h1, toInt_digit h2, toInt_digit h3, toInt_quotient h2, toInt_quotient h1, toInt_quotient h]
  simp only [Int.add_bmod_bmod, Int.bmod_add_bmod]

/-- The number that a word's remainders are digits of, as C has them: with the sign of the word. -/
def decoded (b : Int) : Int :=
  b.tmod 256 - 1 + ((b / 2 ^ 8).tmod 256 - 1) * 254 + ((b / 2 ^ 8 / 2 ^ 8).tmod 256 - 1) * 254 * 254
    + ((b / 2 ^ 8 / 2 ^ 8 / 2 ^ 8).tmod 256 - 1) * 254 * 254 * 254

theorem toInt_vpotInt254To256 (b : Int32) :
    (vpotInt254To256 b).toInt = (decoded b.toInt).bmod (2 ^ 32) := by
  have hshr : ∀ y : Int32, (y >>> 8).toInt = y.toInt / 2 ^ 8 := fun y => toInt_shiftRight (by decide)
  have hdigit : ∀ y : Int32, (y % 256 - 1).toInt = (y.toInt.tmod 256 - 1).bmod (2 ^ 32) := by
    intro y
    rw [Int32.toInt_sub, Int32.toInt_mod]
    rfl
  have h254 : (254 : Int32).toInt = 254 := by decide
  unfold vpotInt254To256 decoded
  dsimp only
  simp only [Int32.toInt_add, Int32.toInt_mul, hdigit, hshr, h254, Int.bmod_mul_bmod, Int.add_bmod_bmod,
    Int.bmod_add_bmod]

/-- The four digits of a number. -/
theorem exists_digits {n : Int} (h : 0 ≤ n) (hlt : n < 2 ^ 31) : ∃ d0 d1 d2 d3 : Int,
    (0 ≤ d0 ∧ d0 < 254) ∧ (0 ≤ d1 ∧ d1 < 254) ∧ (0 ≤ d2 ∧ d2 < 254) ∧ (0 ≤ d3 ∧ d3 < 132)
      ∧ n = d0 + 254 * (d1 + 254 * (d2 + 254 * d3))
      ∧ encoded n = (d0 + 1) + 256 * ((d1 + 1) + 256 * ((d2 + 1) + 256 * (d3 + 1))) := by
  refine ⟨n % 254, n / 254 % 254, n / 254 / 254 % 254, n / 254 / 254 / 254 % 254, ?_⟩
  unfold encoded
  omega

theorem encoded_shift {d r : Int} (h : 0 ≤ d ∧ d < 254) : ((d + 1) + 256 * r) / 2 ^ 8 = r := by
  omega

theorem decoded_nonneg {d0 d1 d2 d3 : Int} (h0 : 0 ≤ d0 ∧ d0 < 254) (h1 : 0 ≤ d1 ∧ d1 < 254)
    (h2 : 0 ≤ d2 ∧ d2 < 254) (h3 : 0 ≤ d3 ∧ d3 < 254) :
    decoded ((d0 + 1) + 256 * ((d1 + 1) + 256 * ((d2 + 1) + 256 * (d3 + 1))))
      = d0 + 254 * (d1 + 254 * (d2 + 254 * d3)) := by
  have hmod : ∀ d r : Int, 0 ≤ d ∧ d < 254 → 0 ≤ r → ((d + 1) + 256 * r).tmod 256 = d + 1 := by
    intro d r hd hr
    rw [Int.tmod_eq_emod_of_nonneg (by omega)]
    omega
  have hlast : (d3 + 1).tmod 256 = d3 + 1 := Int.tmod_eq_of_lt (by omega) (by omega)
  unfold decoded
  rw [encoded_shift h0, encoded_shift h1, encoded_shift h2, hmod d0 _ h0 (by omega),
    hmod d1 _ h1 (by omega), hmod d2 _ h2 (by omega), hlast]
  omega

/-- A negative word has negative remainders, each too small by 256. -/
theorem decoded_neg {d0 d1 d2 d3 : Int} (h0 : 0 ≤ d0 ∧ d0 < 254) (h1 : 0 ≤ d1 ∧ d1 < 254)
    (h2 : 0 ≤ d2 ∧ d2 < 254) (h3 : 0 ≤ d3 ∧ d3 < 254) :
    decoded ((d0 + 1) + 256 * ((d1 + 1) + 256 * ((d2 + 1) + 256 * (d3 + 1 - 256))))
      = d0 + 254 * (d1 + 254 * (d2 + 254 * d3)) - 256 * (1 + 254 * (1 + 254 * (1 + 254))) := by
  have hneg : ∀ y : Int, y < 0 → y.tmod 256 = -((-y) % 256) := by
    intro y hy
    rw [← Int.neg_neg y, Int.neg_tmod, Int.tmod_eq_emod_of_nonneg (by omega), Int.neg_neg]
  have hmod : ∀ d r : Int, 0 ≤ d ∧ d < 254 → r < 0 →
      ((d + 1) + 256 * r).tmod 256 = d + 1 - 256 := by
    intro d r hd hr
    rw [hneg _ (by omega)]
    omega
  have hlast : (d3 + 1 - 256).tmod 256 = d3 + 1 - 256 := by
    rw [hneg _ (by omega)]
    omega
  unfold decoded
  rw [encoded_shift h0, encoded_shift h1, encoded_shift h2, hmod d0 _ h0 (by omega),
    hmod d1 _ h1 (by omega), hmod d2 _ h2 (by omega), hlast]
  omega

/-- The number from which on the highest digit does not fit below the sign. -/
def firstNegative : Int := 127 * 254 ^ 3

/-- A number comes back exactly when its word is not negative. -/
theorem vpotInt_back_iff (h : 0 ≤ a) :
    vpotInt254To256 (vpotInt256To254 a) = a ↔ a.toInt < firstNegative := by
  have ha : 0 ≤ a.toInt := Int32.le_iff_toInt_le.mp h
  have hlt : a.toInt < 2 ^ 31 := a.toInt_lt
  obtain ⟨d0, d1, d2, d3, h0, h1, h2, h3, hn, henc⟩ := exists_digits ha hlt
  rw [← Int32.toInt_inj, toInt_vpotInt254To256, toInt_vpotInt256To254 ha, henc]
  unfold firstNegative
  generalize hword : (d0 + 1) + 256 * ((d1 + 1) + 256 * ((d2 + 1) + 256 * (d3 + 1))) = word
  by_cases hsmall : d3 < 127
  · have hpos : word.bmod (2 ^ 32) = word := Int.bmod_eq_of_le (by omega) (by omega)
    have hself : a.toInt.bmod (2 ^ 32) = a.toInt := Int.bmod_eq_of_le (by omega) (by omega)
    rw [hpos, ← hword, decoded_nonneg h0 h1 h2 (by omega), ← hn, hself]
    omega
  · have hneg : word.bmod (2 ^ 32)
        = (d0 + 1) + 256 * ((d1 + 1) + 256 * ((d2 + 1) + 256 * (d3 + 1 - 256))) := by
      rw [← Int.sub_bmod_right word (2 ^ 32), Int.bmod_eq_of_le (by omega) (by omega)]
      omega
    rw [hneg, decoded_neg h0 h1 h2 (by omega), ← hn]
    have hself : (a.toInt - 256 * (1 + 254 * (1 + 254 * (1 + 254)))).bmod (2 ^ 32)
        = a.toInt - 256 * (1 + 254 * (1 + 254 * (1 + 254))) :=
      Int.bmod_eq_of_le (by omega) (by omega)
    rw [hself]
    omega

/-- The bytes of a word are its digits. -/
theorem sendable_of_mem_word (h : 0 ≤ a) {b : UInt8}
    (hb : b ∈ leBytes 4 (vpotInt256To254 a).toUInt32.toNat) : Sendable b := by
  have ha : 0 ≤ a.toInt := Int32.le_iff_toInt_le.mp h
  obtain ⟨d0, d1, d2, d3, h0, h1, h2, h3, _, henc⟩ := exists_digits ha a.toInt_lt
  have hword : ((vpotInt256To254 a).toUInt32.toNat : Int)
      = (d0 + 1) + 256 * ((d1 + 1) + 256 * ((d2 + 1) + 256 * (d3 + 1))) := by
    have hbmod := toInt_vpotInt256To254 ha
    rw [henc, ← Int32.toInt_toBitVec, BitVec.toInt_eq_toNat_bmod, Int32.toNat_toBitVec, Int.bmod_def,
      Int.bmod_def] at hbmod
    have hlt := (vpotInt256To254 a).toUInt32.toNat_lt
    omega
  generalize (vpotInt256To254 a).toUInt32.toNat = word at hb hword
  simp only [leBytes, List.mem_cons, List.not_mem_nil, or_false] at hb
  rw [sendable_iff]
  rcases hb with rfl | rfl | rfl | rfl <;> rw [UInt8.toNat_ofNat'] <;> omega

/-- What is encoded can be sent; bytes come back, and a number does exactly when its highest digit
leaves the sign of the word alone. -/
theorem transport_back (src : List UInt8) {a : Int32} (h : 0 ≤ a) :
    (covert254To256 (covert256To254 src) = (SUCCESS, src)
        ∧ (∀ b ∈ covert256To254 src, Sendable b)
        ∧ vpotInt254To256 (vpotInt256To254 a) = a
        ∧ ∀ b ∈ leBytes 4 (vpotInt256To254 a).toUInt32.toNat, Sendable b)
      ↔ a.toInt < firstNegative := by
  have hsrc : ∀ b ∈ covert256To254 src, Sendable b := by
    intro b hb
    obtain ⟨c, _, hc⟩ := List.mem_flatMap.mp hb
    exact sendable_of_mem_char hc
  have hword : ∀ b ∈ leBytes 4 (vpotInt256To254 a).toUInt32.toNat, Sendable b :=
    fun b hb => sendable_of_mem_word h hb
  rw [← vpotInt_back_iff h]
  exact ⟨fun hall => hall.2.2.1, fun hback => ⟨covert254To256_covert256To254 src, hsrc, hback, hword⟩⟩

theorem transport_back_thousand : covert254To256 (covert256To254 [0, 255]) = (SUCCESS, [0, 255])
    ∧ (∀ b ∈ covert256To254 [0, 255], Sendable b)
    ∧ vpotInt254To256 (vpotInt256To254 1000) = 1000
    ∧ ∀ b ∈ leBytes 4 (vpotInt256To254 1000).toUInt32.toNat, Sendable b :=
  (transport_back [0, 255] (by decide)).mpr (by decide)

/-- The greatest number of an `int` does not come back. -/
theorem not_transport_back : (0 : Int32) ≤ 2147483647
    ∧ vpotInt254To256 (vpotInt256To254 2147483647) ≠ 2147483647 := by
  decide

end VdCamera.Common
