import VdCamera.Misc.Json

/-!
# Writing JSON

`Json::FastWriter` of `lib/Json/source/json_writer.cpp`, for null, booleans, integers, strings and
objects. The members of an object stand in the order of their names.
-/

namespace VdCamera.JsonCpp

open Misc (Json Members ascii fmtInt)

def isControlCharacter (ch : UInt8) : Bool := 0 < ch && ch ≤ 0x1F

/-- A digit of `std::hex` with `std::uppercase`. -/
def upperHex (d : UInt8) : UInt8 := if d < 10 then 48 + d else 55 + d

/-- The switch of `valueToQuotedString`. -/
def escapeChar (c : UInt8) : List UInt8 :=
  if c = 34 then [92, 34]
  else if c = 92 then [92, 92]
  else if c = 8 then [92, 98]
  else if c = 12 then [92, 102]
  else if c = 10 then [92, 110]
  else if c = 13 then [92, 114]
  else if c = 9 then [92, 116]
  else if isControlCharacter c then [92, 117, 48, 48, upperHex (c / 16), upperHex (c % 16)]
  else [c]

/-- `valueToQuotedString`. -/
def valueToQuotedString (value : List UInt8) : List UInt8 :=
  34 :: ((value.takeWhile (· ≠ 0)).flatMap escapeChar ++ [34])

mutual

/-- `FastWriter::writeValue`. -/
def writeValue : Json → List UInt8
  | .null => ascii "null"
  | .bool b => if b then ascii "true" else ascii "false"
  | .int n => fmtInt n
  | .str s => valueToQuotedString s
  | .obj ms => 123 :: writeMembers ms

/-- The members with the brace behind them. -/
def writeMembers : Members → List UInt8
  | .nil => [125]
  | .cons name value rest =>
    valueToQuotedString name ++ 58 :: (writeValue value ++ writeRest rest)

/-- What stands behind a member. -/
def writeRest : Members → List UInt8
  | .nil => [125]
  | .cons name value rest =>
    44 :: (valueToQuotedString name ++ 58 :: (writeValue value ++ writeRest rest))

end

/-- `FastWriter::write`. -/
def fastWrite (root : Json) : List UInt8 := writeValue root ++ [10]

theorem writeRest_cons (name : List UInt8) (value : Json) (rest : Members) :
    writeRest (.cons name value rest) = 44 :: writeMembers (.cons name value rest) := rfl

/-! ## Bytes of a text -/

theorem escapeChar_plain {c : UInt8} (hc : isControlCharacter c = false) (hq : c ≠ 34)
    (hb : c ≠ 92) : escapeChar c = [c] := by
  have hne : ∀ k : UInt8, isControlCharacter k = true → c ≠ k := by
    rintro k hk rfl
    rw [hc] at hk
    cases hk
  rw [escapeChar, if_neg hq, if_neg hb, if_neg (hne 8 rfl), if_neg (hne 12 rfl),
    if_neg (hne 10 rfl), if_neg (hne 13 rfl), if_neg (hne 9 rfl), if_neg (by simp [hc])]

/-- A byte is written as itself, as a letter behind a backslash, or as four digits behind `\u`. -/
theorem escapeChar_cases (c : UInt8) :
    (c ≠ 34 ∧ c ≠ 92 ∧ escapeChar c = [c])
      ∨ (∃ k ∈ ([34, 92, 98, 102, 110, 114, 116] : List UInt8), escapeChar c = [92, k])
      ∨ ∃ d < 2, ∃ e < 16, escapeChar c = [92, 117, 48, 48, upperHex d, upperHex e] := by
  by_cases hesc : c ∈ ([34, 92, 8, 12, 10, 13, 9] : List UInt8)
  · right
    left
    simp only [List.mem_cons, List.not_mem_nil, or_false] at hesc
    rcases hesc with rfl | rfl | rfl | rfl | rfl | rfl | rfl
    · exact ⟨34, by decide, rfl⟩
    · exact ⟨92, by decide, rfl⟩
    · exact ⟨98, by decide, rfl⟩
    · exact ⟨102, by decide, rfl⟩
    · exact ⟨110, by decide, rfl⟩
    · exact ⟨114, by decide, rfl⟩
    · exact ⟨116, by decide, rfl⟩
  · simp only [List.mem_cons, List.not_mem_nil, or_false, not_or] at hesc
    obtain ⟨h34, h92, h8, h12, h10, h13, h9⟩ := hesc
    cases hc : isControlCharacter c with
    | false => exact .inl ⟨h34, h92, escapeChar_plain hc h34 h92⟩
    | true =>
      right
      right
      simp only [isControlCharacter, Bool.and_eq_true, decide_eq_true_eq] at hc
      have hle := UInt8.le_iff_toNat_le.mp hc.2
      refine ⟨c / 16, ?_, c % 16, ?_, ?_⟩
      · rw [UInt8.lt_iff_toNat_lt, UInt8.toNat_div]
        show c.toNat / 16 < 2
        have : c.toNat ≤ 31 := hle
        omega
      · rw [UInt8.lt_iff_toNat_lt, UInt8.toNat_mod]
        show c.toNat % 16 < 16
        omega
      · rw [escapeChar, if_neg h34, if_neg h92, if_neg h8, if_neg h12, if_neg h10, if_neg h13,
          if_neg h9, if_pos (by simp [isControlCharacter, hc])]

end VdCamera.JsonCpp
