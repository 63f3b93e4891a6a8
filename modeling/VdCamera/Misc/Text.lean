import Mathlib.Algebra.Ring.Int.Defs
import Mathlib.Algebra.Ring.Nat
import Mathlib.Tactic.Common
import Mathlib.Algebra.Order.Group.Nat

/-!
# Texts as bytes

What the `printf` and `strstr` of C do, on lists of bytes.
-/

namespace VdCamera.Misc

/-- The bytes of a literal. -/
def ascii (s : String) : List UInt8 := s.toList.map fun c => UInt8.ofNat c.toNat

/-- A carriage return and a line feed. -/
def crlf : List UInt8 := [13, 10]

/-- `%d`. -/
def fmtInt (n : Int) : List UInt8 :=
  (if n < 0 then [45] else []) ++ (Nat.toDigits 10 n.natAbs).map fun c => UInt8.ofNat c.toNat

def hexDigit (d : Nat) : UInt8 := UInt8.ofNat (if d < 10 then 48 + d else 87 + d)

/-- The `w` low digits of `%0wx`. -/
def fmtHex : Nat → Nat → List UInt8
  | 0, _ => []
  | w + 1, n => fmtHex w (n / 16) ++ [hexDigit (n % 16)]

/-- `strstr` in memory that begins with a string: what begins with the first occurrence. -/
def strstr (needle : List UInt8) : List UInt8 → Option (List UInt8)
  | [] => if needle = [] then some [] else none
  | b :: bs =>
    if needle.isPrefixOf (b :: bs) then some (b :: bs)
    else if b = 0 then none else strstr needle bs

/-- A hexadecimal digit is neither a line feed nor a capital letter. -/
theorem hexDigit_ne {d : Nat} (h : d < 16) : hexDigit d ≠ 10 ∧ hexDigit d ≠ 67 := by
  have hall : ∀ d : Fin 16, hexDigit d ≠ 10 ∧ hexDigit d ≠ 67 := by decide
  exact hall ⟨d, h⟩

theorem fmtHex_two (w n : Nat) :
    fmtHex (w + 2) n = fmtHex w (n / 16 / 16) ++ [hexDigit (n / 16 % 16), hexDigit (n % 16)] := by
  rw [fmtHex, fmtHex, List.append_assoc]
  rfl

end VdCamera.Misc
