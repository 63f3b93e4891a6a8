import Mathlib.Tactic.Common
import Mathlib.Algebra.Order.Group.Nat

/-!
# Converting a double-byte encoding

An encoding such as GBK has ASCII as it is and characters of two bytes, whose second byte may be one
of ASCII. What a byte-wise program puts into such a text, a conversion may read otherwise.
-/

namespace VdCamera.Misc

/-- The characters of two bytes, in UTF-8. -/
structure DoubleByte where
  char : UInt8 → UInt8 → Option (List UInt8)
  /-- No byte of such a character in UTF-8 is one of ASCII. -/
  high : ∀ a b u, char a b = some u → ∀ x ∈ u, 128 ≤ x
  short : ∀ a b u, char a b = some u → u.length ≤ 3
  /-- The second byte is no control character, no digit and no quote. -/
  trail : ∀ a b u, char a b = some u → 64 ≤ b

namespace DoubleByte

variable (enc : DoubleByte)

/-- The characters of a text in UTF-8, up to the first byte that is a part of none. -/
def chars : List UInt8 → List (List UInt8)
  | [] => []
  | [a] => if a < 128 then [[a]] else []
  | a :: b :: r =>
    if a < 128 then [a] :: chars (b :: r)
    else
      match enc.char a b with
      | some u => u :: chars r
      | none => []

/-- `iconv` to UTF-8. -/
def toUtf8 (text : List UInt8) : List UInt8 := (enc.chars text).flatten

/-- Every byte is a part of a character, and no second byte is a backslash. -/
def plain : List UInt8 → Bool
  | [] => true
  | [a] => a < 128
  | a :: b :: r =>
    if a < 128 then plain (b :: r) else (enc.char a b).isSome && b ≠ 92 && plain r

variable {enc} {a b : UInt8} {text r : List UInt8}

@[simp] theorem toUtf8_nil : enc.toUtf8 [] = [] := rfl

theorem toUtf8_ascii (h : a < 128) : enc.toUtf8 (a :: r) = a :: enc.toUtf8 r := by
  cases r with
  | nil => simp [toUtf8, chars, h]
  | cons b r => simp [toUtf8, chars, h]

theorem toUtf8_char (h : ¬ a < 128) {u : List UInt8} (hu : enc.char a b = some u) :
    enc.toUtf8 (a :: b :: r) = u ++ enc.toUtf8 r := by
  simp [toUtf8, chars, h, hu]

/-- For texts that are there: their bytes are looked at one by one. -/
theorem ascii_of_all (h : text.all (· < 128) = true) : ∀ x ∈ text, x < 128 := by
  simpa using h

/-- ASCII is converted to itself. -/
theorem toUtf8_append_ascii {s : List UInt8} (h : ∀ x ∈ s, x < 128) (r : List UInt8) :
    enc.toUtf8 (s ++ r) = s ++ enc.toUtf8 r := by
  induction s with
  | nil => rfl
  | cons x s ih =>
    rw [List.cons_append, toUtf8_ascii (h x (List.mem_cons_self ..)),
      ih fun y hy => h y (List.mem_cons_of_mem _ hy)]
    rfl

theorem plain_of_ascii (h : ∀ x ∈ text, x < 128) : enc.plain text = true := by
  fun_induction plain enc text with
  | case1 => rfl
  | case2 a => simpa using h a (by simp)
  | case3 a b r ha ih => exact ih fun x hx => h x (List.mem_cons_of_mem _ hx)
  | case4 a b r ha => exact absurd (h a (by simp)) ha

/-- Cases of a text whose characters are all there. -/
theorem plain_induction {P : List UInt8 → Prop} (nil : P [])
    (ascii : ∀ a r, a < 128 → P r → P (a :: r))
    (char : ∀ a b r u, ¬ a < 128 → enc.char a b = some u → b ≠ 92 → P r → P (a :: b :: r))
    (h : enc.plain text = true) : P text := by
  fun_induction plain enc text with
  | case1 => exact nil
  | case2 a => exact ascii a [] (by simpa using h) nil
  | case3 a b r ha ih => exact ascii a (b :: r) ha (ih h)
  | case4 a b r ha ih =>
    simp only [Bool.and_eq_true, decide_eq_true_eq] at h
    obtain ⟨⟨hsome, hb⟩, hr⟩ := h
    obtain ⟨u, hu⟩ := Option.isSome_iff_exists.mp hsome
    exact char a b r u ha hu hb (ih hr)

/-- The text in UTF-8 takes at most half as many bytes again. -/
theorem length_toUtf8_le (enc : DoubleByte) (text : List UInt8) :
    2 * (enc.toUtf8 text).length ≤ 3 * text.length := by
  unfold toUtf8
  fun_induction chars enc text with
  | case1 => simp
  | case2 a ha => simp
  | case3 a ha => simp
  | case4 a b r ha ih =>
    simp only [List.flatten_cons, List.length_append, List.length_cons, List.length_nil] at ih ⊢
    omega
  | case5 a b r ha u hu ih =>
    have := enc.short a b u hu
    simp only [List.flatten_cons, List.length_append, List.length_cons] at ih ⊢
    omega
  | case6 a b r ha hu => simp

/-! ## Whole texts -/

/-- Every byte is a part of a character. -/
def complete (enc : DoubleByte) : List UInt8 → Bool
  | [] => true
  | [a] => a < 128
  | a :: b :: r => if a < 128 then enc.complete (b :: r) else (enc.char a b).isSome && enc.complete r

/-- A byte that ends no character separates the texts on both sides of it. -/
theorem complete_append {c : UInt8} (hc : c < 64) (s r : List UInt8) :
    enc.complete (s ++ c :: r) = (enc.complete s && enc.complete r) := by
  have hascii : c < 128 := UInt8.lt_trans hc (show (64 : UInt8) < 128 by decide)
  fun_induction complete enc s with
  | case1 =>
    cases r with
    | nil => simpa [complete] using hascii
    | cons b r => simp [complete, hascii]
  | case2 a =>
    by_cases ha : a < 128
    · cases r with
      | nil => simp [complete, ha, hascii]
      | cons b r => simp [complete, ha, hascii]
    · have hnone : enc.char a c = none := by
        cases hu : enc.char a c with
        | none => rfl
        | some u => exact absurd (enc.trail a c u hu) (UInt8.not_le.mpr hc)
      simp [complete, ha, hnone]
  | case3 a b s ha ih =>
    rw [List.cons_append, List.cons_append, complete, if_pos ha]
    exact ih
  | case4 a b s ha ih =>
    rw [List.cons_append, List.cons_append, complete, if_neg ha, ih, Bool.and_assoc]

theorem toUtf8_append {s : List UInt8} (h : enc.complete s = true) (r : List UInt8) :
    enc.toUtf8 (s ++ r) = enc.toUtf8 s ++ enc.toUtf8 r := by
  fun_induction complete enc s with
  | case1 => rfl
  | case2 a =>
    have ha : a < 128 := by simpa using h
    rw [List.singleton_append, toUtf8_ascii ha, toUtf8_ascii ha]
    rfl
  | case3 a b s ha ih =>
    rw [List.cons_append, toUtf8_ascii ha, ih h, toUtf8_ascii ha]
    rfl
  | case4 a b s ha ih =>
    rw [Bool.and_eq_true] at h
    obtain ⟨u, hu⟩ := Option.isSome_iff_exists.mp h.1
    rw [List.cons_append, List.cons_append, toUtf8_char ha hu, ih h.2, toUtf8_char ha hu,
      List.append_assoc]

/-- No byte of ASCII comes in by the conversion. -/
theorem not_mem_toUtf8 {c : UInt8} (hc : c < 128) (h : c ∉ text) : c ∉ enc.toUtf8 text := by
  unfold toUtf8
  fun_induction chars enc text with
  | case1 => simp
  | case2 a ha => simpa using h
  | case3 a ha => simp
  | case4 a b r ha ih =>
    simp only [List.mem_cons, not_or] at h
    simp only [List.flatten_cons, List.cons_append, List.nil_append, List.mem_cons, not_or]
    exact ⟨h.1, ih (by simpa using h.2)⟩
  | case5 a b r ha u hu ih =>
    simp only [List.mem_cons, not_or] at h
    rw [List.flatten_cons, List.mem_append, not_or]
    exact ⟨fun hmem => absurd (enc.high a b u hu c hmem) (UInt8.not_le.mpr hc), ih h.2.2⟩
  | case6 a b r ha hu => simp

end DoubleByte

/-- An encoding no character of which is lost. -/
structure LosslessDoubleByte extends DoubleByte where
  nonempty : ∀ a b u, char a b = some u → u ≠ []

theorem LosslessDoubleByte.toUtf8_ne_nil (enc : LosslessDoubleByte) {text : List UInt8}
    (h : enc.complete text = true) (hne : text ≠ []) : enc.toUtf8 text ≠ [] := by
  match text, hne with
  | [a], _ =>
    have ha : a < 128 := by simpa [DoubleByte.complete] using h
    rw [DoubleByte.toUtf8_ascii ha]
    exact List.cons_ne_nil _ _
  | a :: b :: r, _ =>
    by_cases ha : a < 128
    · rw [DoubleByte.toUtf8_ascii ha]
      exact List.cons_ne_nil _ _
    · rw [DoubleByte.complete, if_neg ha, Bool.and_eq_true] at h
      obtain ⟨u, hu⟩ := Option.isSome_iff_exists.mp h.1
      rw [DoubleByte.toUtf8_char ha hu]
      exact List.append_ne_nil_of_left_ne_nil (enc.nonempty a b u hu) _

end VdCamera.Misc
