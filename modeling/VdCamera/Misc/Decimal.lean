import VdCamera.Misc.Text
import Mathlib.Tactic.Common
import Mathlib.Algebra.Order.Group.Nat
import Mathlib.Data.List.Induction
import Mathlib.Data.List.TakeWhile
import Mathlib.Order.MinMax

/-!
# Decimal text

The bytes of decimal numbers and `strtol` for a `long` of 32 bits.
-/

namespace VdCamera.Misc

def isDigit (b : UInt8) : Bool := 48 ≤ b && b ≤ 57

def isSpace (b : UInt8) : Bool := b = 32 || (9 ≤ b && b ≤ 13)

/-- The number that the digits stand for. -/
def decimal (bs : List UInt8) : Nat := bs.foldl (fun n b => 10 * n + (b.toNat - 48)) 0

/-- `strtol(.., NULL, 10)`: white space, a sign, and digits up to the first byte that is none; what
is out of the range of a `long` is brought to its bound. -/
def strtol (bs : List UInt8) : Int :=
  match bs.dropWhile isSpace with
  | 45 :: bs => max (-2 ^ 31) (-(decimal (bs.takeWhile isDigit) : Int))
  | 43 :: bs => min (2 ^ 31 - 1) (decimal (bs.takeWhile isDigit) : Int)
  | bs => min (2 ^ 31 - 1) (decimal (bs.takeWhile isDigit) : Int)

variable {bs bs' : List UInt8}

theorem decimal_append_singleton (bs : List UInt8) (b : UInt8) :
    decimal (bs ++ [b]) = 10 * decimal bs + (b.toNat - 48) := by
  simp [decimal]

theorem decimal_le_append (bs bs' : List UInt8) : decimal bs ≤ decimal (bs ++ bs') := by
  induction bs' using List.reverseRecOn with
  | nil => simp
  | append_singleton bs' b ih =>
    rw [← List.append_assoc, decimal_append_singleton]
    omega

theorem isDigit_not_isSpace {b : UInt8} (h : isDigit b = true) : isSpace b = false := by
  simp only [isDigit, Bool.and_eq_true, decide_eq_true_eq] at h
  simp only [isSpace, Bool.or_eq_false_iff, Bool.and_eq_false_iff, decide_eq_false_iff_not]
  have h48 := UInt8.le_iff_toNat_le.mp h.1
  constructor
  · rintro rfl
    exact absurd h48 (by decide)
  · right
    rw [UInt8.le_iff_toNat_le]
    intro h13
    exact absurd (h48.trans h13) (by decide)

/-- Text that is digits alone is read as its number, up to the bound. -/
theorem strtol_digits (h : ∀ b ∈ bs, isDigit b = true) :
    strtol bs = min (2 ^ 31 - 1) (decimal bs : Int) := by
  have htake : bs.takeWhile isDigit = bs := List.takeWhile_eq_self_iff.mpr h
  have hdrop : bs.dropWhile isSpace = bs := by
    cases bs with
    | nil => rfl
    | cons b bs => simp [isDigit_not_isSpace (h b (by simp))]
  unfold strtol
  rw [hdrop]
  split
  · exact absurd (h 45 (by simp)) (by decide)
  · exact absurd (h 43 (by simp)) (by decide)
  · rw [htake]

/-! ## The digits of `%d` -/

/-- The digits of a number as bytes. -/
def digits (n : Nat) : List UInt8 := (Nat.toDigits 10 n).map fun c => UInt8.ofNat c.toNat

theorem digits_ne_nil (n : Nat) : digits n ≠ [] := by
  simp [digits, Nat.toDigits_ne_nil]

theorem fmtInt_eq (n : Int) :
    fmtInt n = if n < 0 then 45 :: digits n.natAbs else digits n.natAbs := by
  unfold fmtInt digits
  split
  · rfl
  · rfl

theorem fmtInt_ne_nil (n : Int) : fmtInt n ≠ [] := by
  rw [fmtInt_eq]
  split
  · exact List.cons_ne_nil _ _
  · exact digits_ne_nil _

theorem isDigit_digit {c : Char} (h : c.isDigit = true) :
    isDigit (UInt8.ofNat c.toNat) = true ∧ (UInt8.ofNat c.toNat).toNat = c.toNat := by
  have hrange : 48 ≤ c.toNat ∧ c.toNat ≤ 57 := by
    simpa [Char.isDigit, UInt32.le_iff_toNat_le] using h
  have hnat : (UInt8.ofNat c.toNat).toNat = c.toNat := by
    rw [UInt8.toNat_ofNat']
    omega
  refine ⟨?_, hnat⟩
  simp only [isDigit, Bool.and_eq_true, decide_eq_true_eq, UInt8.le_iff_toNat_le, hnat]
  exact hrange

theorem isDigit_of_mem_digits {n : Nat} {b : UInt8} (h : b ∈ digits n) : isDigit b = true := by
  obtain ⟨c, hc, rfl⟩ := List.mem_map.mp h
  exact (isDigit_digit (Nat.isDigit_of_mem_toDigits (by decide) (by decide) hc)).1

/-- What is true of the digits and of the sign is true of every byte of a number's text. -/
theorem forall_mem_fmtInt {P : UInt8 → Prop} (hsign : P 45) (hdigit : ∀ b, isDigit b = true → P b)
    (n : Int) : ∀ b ∈ fmtInt n, P b := by
  have hdigits : ∀ b ∈ digits n.natAbs, P b := fun b hb => hdigit b (isDigit_of_mem_digits hb)
  rw [fmtInt_eq]
  split
  · exact List.forall_mem_cons.mpr ⟨hsign, hdigits⟩
  · exact hdigits

theorem length_digits_le_iff {n k : Nat} (hk : 0 < k) : (digits n).length ≤ k ↔ n < 10 ^ k := by
  rw [digits, List.length_map]
  exact Nat.length_toDigits_le_iff (by decide) hk

/-- The text of a number with `k + 2` bytes or less: the sign takes one of them. -/
theorem length_fmtInt_le_iff {n : Int} (k : Nat) :
    (fmtInt n).length ≤ k + 2 ↔ -10 ^ (k + 1) < n ∧ n < 10 ^ (k + 2) := by
  have hpow : (10 : Int) ^ (k + 1) = ((10 ^ (k + 1) : Nat) : Int) := by norm_cast
  have hpow' : (10 : Int) ^ (k + 2) = ((10 ^ (k + 2) : Nat) : Int) := by norm_cast
  have hpos : 0 < 10 ^ (k + 1) := Nat.pow_pos (by decide)
  have hpos' : 0 < 10 ^ (k + 2) := Nat.pow_pos (by decide)
  rw [fmtInt_eq, hpow, hpow']
  split
  · have := length_digits_le_iff (n := n.natAbs) (k := k + 1) (by omega)
    rw [List.length_cons]
    omega
  · have := length_digits_le_iff (n := n.natAbs) (k := k + 2) (by omega)
    omega

/-- The digits of a number are read as the number. -/
theorem decimal_digits (n : Nat) : decimal (digits n) = n := by
  have hfold : ∀ (cs : List Char) (a : Nat), (∀ c ∈ cs, c.isDigit = true) →
      (cs.map fun c => UInt8.ofNat c.toNat).foldl (fun n b => 10 * n + (b.toNat - 48)) a
        = Nat.ofDigitChars 10 cs a := by
    intro cs
    induction cs with
    | nil =>
      intro a _
      rfl
    | cons c cs ih =>
      intro a h
      rw [List.map_cons, List.foldl_cons, Nat.ofDigitChars_cons,
        ih _ fun c hc => h c (List.mem_cons_of_mem _ hc),
        (isDigit_digit (h c (List.mem_cons_self ..))).2]
      rfl
  unfold decimal digits
  rw [hfold _ 0 fun c hc => Nat.isDigit_of_mem_toDigits (by decide) (by decide) hc]
  exact Nat.ofDigitChars_ten_toDigits

/-! ## `atoi` -/

/-- `atoi`, whose `int` has the range of that `long`. -/
def atoi (bs : List UInt8) : Int32 := Int32.ofInt (strtol bs)

theorem strtol_fmtInt {n : Int} (hlow : -2 ^ 31 ≤ n) (hhigh : n < 2 ^ 31) :
    strtol (fmtInt n) = n := by
  rw [fmtInt_eq]
  split
  · have htake : (digits n.natAbs).takeWhile isDigit = digits n.natAbs :=
      List.takeWhile_eq_self_iff.mpr fun b hb => isDigit_of_mem_digits hb
    show max (-2 ^ 31) (-(decimal ((digits n.natAbs).takeWhile isDigit) : Int)) = n
    rw [htake, decimal_digits]
    omega
  · rw [strtol_digits fun b hb => isDigit_of_mem_digits hb, decimal_digits]
    omega

/-- A number that was printed is read. -/
@[simp]
theorem atoi_fmtInt (v : Int32) : atoi (fmtInt v.toInt) = v := by
  rw [atoi, strtol_fmtInt (Int32.le_toInt v) (Int32.toInt_lt v), Int32.ofInt_toInt]

end VdCamera.Misc
