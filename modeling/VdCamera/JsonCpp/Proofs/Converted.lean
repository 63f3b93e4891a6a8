import VdCamera.Misc.Encoding
import VdCamera.JsonCpp.Proofs.Reader

/-!
# Converting the text of a value

A text that was written of strings in a double-byte encoding and is converted afterwards is the text
of the converted strings, unless the second byte of a character is a backslash: that one is doubled.
-/

namespace VdCamera.JsonCpp

open Misc (Json Members ascii fmtInt DoubleByte)

variable (enc : DoubleByte)

mutual

/-- The value with its strings converted. -/
def convertValue : Json → Json
  | .null => .null
  | .bool b => .bool b
  | .int n => .int n
  | .str s => .str (enc.toUtf8 s)
  | .obj ms => .obj (convertMembers ms)

def convertMembers : Members → Members
  | .nil => .nil
  | .cons name value rest => .cons (enc.toUtf8 name) (convertValue value) (convertMembers rest)

end

mutual

/-- All strings of the value are whole characters, none with a backslash for its second byte, and
have no terminator inside. -/
def PlainValue : Json → Prop
  | .str s => enc.plain s = true ∧ 0 ∉ s
  | .obj ms => PlainMembers ms
  | _ => True

def PlainMembers : Members → Prop
  | .nil => True
  | .cons name value rest =>
    (enc.plain name = true ∧ 0 ∉ name) ∧ PlainValue value ∧ PlainMembers rest

end

variable {enc} {s r : List UInt8}

theorem escapeChar_ascii {c : UInt8} (h : c < 128) : ∀ x ∈ escapeChar c, x < 128 := by
  have hhex : ∀ k : Fin 16, upperHex (UInt8.ofNat k) < 128 := by decide
  have hdigit : ∀ d : UInt8, d < 16 → upperHex d < 128 := by
    intro d hd
    have hlt : d.toNat < 16 := UInt8.lt_iff_toNat_lt.mp hd
    simpa using hhex ⟨d.toNat, hlt⟩
  intro x hx
  rcases escapeChar_cases c with ⟨_, _, he⟩ | ⟨k, hk, he⟩ | ⟨d, hd, e, hle, he⟩
  · rw [he, List.mem_singleton] at hx
    rwa [hx]
  · have hall : ∀ k ∈ ([34, 92, 98, 102, 110, 114, 116] : List UInt8), k < 128 := by simp
    rw [he] at hx
    rcases List.mem_cons.mp hx with rfl | hx
    · decide
    · rw [List.mem_singleton.mp hx]
      exact hall k hk
  · rw [he] at hx
    simp only [List.mem_cons, List.not_mem_nil, or_false] at hx
    rcases hx with rfl | rfl | rfl | rfl | rfl | rfl
    · decide
    · decide
    · decide
    · decide
    · exact hdigit d (UInt8.lt_trans hd (by decide))
    · exact hdigit e hle

/-- A byte from 64 on that is no backslash is written as it is. -/
theorem escapeChar_high {c : UInt8} (h : 64 ≤ c) (hb : c ≠ 92) : escapeChar c = [c] := by
  have hle := UInt8.le_iff_toNat_le.mp h
  apply escapeChar_plain _ _ hb
  · have hcontrol : ¬ c ≤ 31 := by
      intro h31
      exact absurd (hle.trans (UInt8.le_iff_toNat_le.mp h31)) (by decide)
    simp [isControlCharacter, hcontrol]
  · rintro rfl
    exact absurd h (by decide)

theorem flatMap_escapeChar_high {u : List UInt8} (h : ∀ x ∈ u, 128 ≤ x) :
    u.flatMap escapeChar = u := by
  induction u with
  | nil => rfl
  | cons x u ih =>
    have hx := h x (List.mem_cons_self ..)
    have hx64 : 64 ≤ x := UInt8.le_trans (by decide) hx
    have hne : x ≠ 92 := by
      rintro rfl
      exact absurd hx (by decide)
    rw [List.flatMap_cons, escapeChar_high hx64 hne, ih fun y hy => h y (List.mem_cons_of_mem _ hy)]
    rfl

/-- What is between the quotes. -/
theorem toUtf8_escaped (h : enc.plain s = true) (r : List UInt8) :
    enc.toUtf8 (s.flatMap escapeChar ++ r)
      = (enc.toUtf8 s).flatMap escapeChar ++ enc.toUtf8 r := by
  refine DoubleByte.plain_induction
    (P := fun s => enc.toUtf8 (s.flatMap escapeChar ++ r)
      = (enc.toUtf8 s).flatMap escapeChar ++ enc.toUtf8 r) rfl ?_ ?_ h
  · intro a s ha ih
    rw [List.flatMap_cons, List.append_assoc,
      DoubleByte.toUtf8_append_ascii (escapeChar_ascii ha), ih, DoubleByte.toUtf8_ascii ha,
      List.flatMap_cons, List.append_assoc]
  · intro a b s u ha hu hb ih
    have ha128 : 128 ≤ a := UInt8.not_lt.mp ha
    have hane : a ≠ 92 := by
      rintro rfl
      exact ha (by decide)
    rw [List.flatMap_cons, List.flatMap_cons, escapeChar_high (UInt8.le_trans (by decide) ha128) hane,
      escapeChar_high (enc.trail a b u hu) hb]
    show enc.toUtf8 (a :: b :: (s.flatMap escapeChar ++ r)) = _
    rw [DoubleByte.toUtf8_char ha hu, ih, DoubleByte.toUtf8_char ha hu, List.flatMap_append,
      flatMap_escapeChar_high (enc.high a b u hu), List.append_assoc]

theorem takeWhile_of_zero_not_mem (h : 0 ∉ s) : s.takeWhile (· ≠ 0) = s := by
  rw [List.takeWhile_eq_self_iff]
  intro x hx
  simpa using ne_of_mem_of_not_mem hx h

theorem toUtf8_quoted (h : enc.plain s = true) (h0 : 0 ∉ s) (r : List UInt8) :
    enc.toUtf8 (valueToQuotedString s ++ r)
      = valueToQuotedString (enc.toUtf8 s) ++ enc.toUtf8 r := by
  rw [valueToQuotedString, takeWhile_of_zero_not_mem h0, valueToQuotedString,
    takeWhile_of_zero_not_mem (DoubleByte.not_mem_toUtf8 (by decide) h0), List.cons_append,
    List.append_assoc, DoubleByte.toUtf8_ascii (by decide), toUtf8_escaped h,
    List.singleton_append, DoubleByte.toUtf8_ascii (by decide)]
  simp

theorem fmtInt_ascii (n : Int) : ∀ x ∈ fmtInt n, x < 128 := by
  refine Misc.forall_mem_fmtInt (by decide) (fun x h => ?_) n
  simp only [Misc.isDigit, Bool.and_eq_true, decide_eq_true_eq] at h
  exact UInt8.lt_of_le_of_lt h.2 (by decide)

mutual

theorem toUtf8_writeValue : ∀ (j : Json) (r : List UInt8), PlainValue enc j →
    enc.toUtf8 (writeValue j ++ r) = writeValue (convertValue enc j) ++ enc.toUtf8 r
  | .null, r, _ => DoubleByte.toUtf8_append_ascii (DoubleByte.ascii_of_all rfl) r
  | .bool true, r, _ => DoubleByte.toUtf8_append_ascii (DoubleByte.ascii_of_all rfl) r
  | .bool false, r, _ => DoubleByte.toUtf8_append_ascii (DoubleByte.ascii_of_all rfl) r
  | .int n, r, _ => DoubleByte.toUtf8_append_ascii (fmtInt_ascii n) r
  | .str s, r, h => toUtf8_quoted h.1 h.2 r
  | .obj ms, r, h => by
    show enc.toUtf8 (123 :: (writeMembers ms ++ r)) = _
    rw [DoubleByte.toUtf8_ascii (by decide), toUtf8_writeMembers ms r h]
    rfl

theorem toUtf8_writeMembers : ∀ (ms : Members) (r : List UInt8), PlainMembers enc ms →
    enc.toUtf8 (writeMembers ms ++ r) = writeMembers (convertMembers enc ms) ++ enc.toUtf8 r
  | .nil, r, _ => DoubleByte.toUtf8_ascii (by decide)
  | .cons k v rest, r, h => by
    obtain ⟨hk, hv, hrest⟩ := h
    rw [writeMembers, List.append_assoc, List.cons_append, List.append_assoc,
      toUtf8_quoted hk.1 hk.2, DoubleByte.toUtf8_ascii (by decide), toUtf8_writeValue v _ hv,
      toUtf8_writeRest rest r hrest, convertMembers, writeMembers]
    simp

theorem toUtf8_writeRest : ∀ (ms : Members) (r : List UInt8), PlainMembers enc ms →
    enc.toUtf8 (writeRest ms ++ r) = writeRest (convertMembers enc ms) ++ enc.toUtf8 r
  | .nil, r, _ => DoubleByte.toUtf8_ascii (by decide)
  | .cons k v rest, r, h => by
    rw [writeRest_cons, List.cons_append, DoubleByte.toUtf8_ascii (by decide),
      toUtf8_writeMembers (.cons k v rest) r h]
    rfl

end

/-- The converted text is the text of the converted value. -/
theorem toUtf8_fastWrite {j : Json} (h : PlainValue enc j) :
    enc.toUtf8 (fastWrite j) = fastWrite (convertValue enc j) := by
  rw [fastWrite, toUtf8_writeValue j [10] h, fastWrite, DoubleByte.toUtf8_ascii (by decide)]
  rfl

/-- It is read. -/
theorem parse_toUtf8_fastWrite {j : Json} (h : PlainValue enc j) :
    parse (enc.toUtf8 (fastWrite j)) = true := by
  rw [toUtf8_fastWrite h]
  exact parse_fastWrite _

end VdCamera.JsonCpp
