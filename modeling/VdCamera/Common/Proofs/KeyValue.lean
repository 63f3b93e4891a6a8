import VdCamera.Common.CommonFuncs

/-!
# When a line is read as it should be

White space is skipped only up to the address that `sizeof` gives, and a word is copied until a
character ends it, not until the line ends.
-/

namespace VdCamera.Common

open Misc (isSpace ascii)

/-! ## What the comments ask for -/

/-- The value that a text begins with: what is in the quotes, or a word. -/
def wanted (ch : List UInt8) : Option (List UInt8) :=
  match ch.dropWhile isSpace with
  | [] => some []
  | c :: ch => if c = quote then copyQuoted ch else some ((c :: ch).takeWhile (!endsWord ·))

/-- The value behind the first equals sign. -/
def wantedValue (buf : List UInt8) : Option (List UInt8) :=
  match buf.dropWhile (· ≠ 61) with
  | [] => none
  | _ :: ch => wanted ch

/-! ## The copies -/

variable {ptr i : Nat} {c : UInt8} {ch buf : List UInt8}

/-- How many characters are skipped at most, from the index `i` on. -/
def reach (ptr i : Nat) : Nat := max 1 (ptr + 1 - i)

/-- The white space that a text begins with. -/
def spaces (ch : List UInt8) : Nat := (ch.takeWhile isSpace).length

theorem spaces_cons_of_isSpace (h : isSpace c = true) : spaces (c :: ch) = spaces ch + 1 := by
  rw [spaces, List.takeWhile_cons_of_pos h, List.length_cons, spaces]

theorem skipSpaces_of_le (h : spaces ch ≤ reach ptr i) : skipSpaces ptr i ch = ch.dropWhile isSpace := by
  induction ch generalizing i with
  | nil => rfl
  | cons c ch ih =>
    rw [skipSpaces]
    by_cases hc : isSpace c = true
    · rw [spaces_cons_of_isSpace hc] at h
      rw [if_pos hc, List.dropWhile_cons_of_pos hc]
      by_cases hi : i < ptr
      · rw [if_pos hi]
        apply ih
        unfold reach at h ⊢
        omega
      · rw [if_neg hi]
        have hzero : spaces ch = 0 := by
          unfold reach at h
          omega
        cases ch with
        | nil => rfl
        | cons d ch =>
          have hd : ¬ isSpace d = true := by
            intro hd
            rw [spaces_cons_of_isSpace hd] at hzero
            omega
          rw [List.dropWhile_cons_of_neg hd]
    · rw [if_neg hc, List.dropWhile_cons_of_neg hc]

theorem skipSpaces_of_lt (h : reach ptr i < spaces ch) :
    ∃ c rest, skipSpaces ptr i ch = c :: rest ∧ isSpace c = true := by
  induction ch generalizing i with
  | nil => exact absurd h (Nat.not_lt_zero _)
  | cons c ch ih =>
    have hc : isSpace c = true := by
      by_contra hc
      rw [spaces, List.takeWhile_cons_of_neg hc] at h
      exact absurd h (Nat.not_lt_zero _)
    rw [spaces_cons_of_isSpace hc] at h
    rw [skipSpaces, if_pos hc]
    by_cases hi : i < ptr
    · rw [if_pos hi]
      apply ih
      unfold reach at h ⊢
      omega
    · rw [if_neg hi]
      cases ch with
      | nil =>
        unfold reach spaces at h
        simp at h
      | cons d ch =>
        refine ⟨d, ch, rfl, ?_⟩
        by_contra hd
        rw [spaces, List.takeWhile_cons_of_neg hd] at h
        unfold reach at h
        simp at h

theorem copyWord_eq : copyWord ch
    = if ch.any endsWord = true then some (ch.takeWhile (!endsWord ·)) else none := by
  induction ch with
  | nil => rfl
  | cons c ch ih =>
    rw [copyWord, ih, List.any_cons]
    cases hc : endsWord c with
    | true => simp [hc]
    | false =>
      rw [List.takeWhile_cons_of_pos (by simp [hc])]
      cases hany : ch.any endsWord
      · rfl
      · rfl

/-- What a text must be like for `copyValue` to return the value that it begins with. -/
def Readable (ptr i : Nat) (ch : List UInt8) : Prop :=
  (spaces ch ≤ reach ptr i → (∃ rest, ch.dropWhile isSpace = quote :: rest)
      ∨ (ch.dropWhile isSpace).any endsWord = true)
    ∧ (reach ptr i < spaces ch → ch.dropWhile isSpace = []
      ∨ (∃ rest, ch.dropWhile isSpace = 59 :: rest)
      ∨ ∃ rest, ch.dropWhile isSpace = quote :: quote :: rest)

/-- All the white space is skipped. -/
theorem copyValue_of_le (h : spaces ch ≤ reach ptr i) :
    copyValue ptr i ch = some (wanted ch) ↔ (∃ rest, ch.dropWhile isSpace = quote :: rest)
      ∨ (ch.dropWhile isSpace).any endsWord = true := by
  rw [copyValue, skipSpaces_of_le h, wanted]
  cases hbody : ch.dropWhile isSpace with
  | nil => simp [copyWord]
  | cons c body =>
    dsimp only
    by_cases hc : c = quote
    · subst hc
      simp
    · rw [if_neg hc, if_neg hc, copyWord_eq]
      cases hany : (c :: body).any endsWord
      · simp [hc]
      · simp

/-- Some of the white space is taken for an empty value. -/
theorem copyValue_of_lt (h : reach ptr i < spaces ch) : copyValue ptr i ch = some (some []) := by
  obtain ⟨c, rest, hskip, hc⟩ := skipSpaces_of_lt h
  have hquote : c ≠ quote := by
    rintro rfl
    revert hc
    decide
  have hends : endsWord c = true := by
    rw [endsWord, hc, Bool.true_or]
  rw [copyValue, hskip]
  dsimp only
  rw [if_neg hquote, copyWord, if_pos hends]
  rfl

theorem wanted_eq_nil_iff : wanted ch = some [] ↔ ch.dropWhile isSpace = []
    ∨ (∃ rest, ch.dropWhile isSpace = 59 :: rest)
    ∨ ∃ rest, ch.dropWhile isSpace = quote :: quote :: rest := by
  rw [wanted]
  cases hbody : ch.dropWhile isSpace with
  | nil => simp
  | cons c body =>
    dsimp only
    have hspace : isSpace c = false := by
      have hhead := List.head?_dropWhile_not isSpace ch
      rw [hbody] at hhead
      simpa using hhead
    by_cases hc : c = quote
    · subst hc
      have hne : quote ≠ 59 := by decide
      rw [if_pos rfl, copyQuoted]
      cases body with
      | nil => simp [hne]
      | cons d body =>
        by_cases hd : d = quote
        · subst hd
          simp
        · simp [hne, hd]
    · have hends : endsWord c = true ↔ c = 59 := by
        rw [endsWord, hspace, Bool.false_or, decide_eq_true_iff]
      rw [if_neg hc]
      by_cases hsemi : c = 59
      · subst hsemi
        simp [hends]
      · have hno : endsWord c = false := by
          rw [← Bool.not_eq_true, hends]
          exact hsemi
        simp [hno, hsemi, hc]

theorem copyValue_iff : copyValue ptr i ch = some (wanted ch) ↔ Readable ptr i ch := by
  unfold Readable
  by_cases h : spaces ch ≤ reach ptr i
  · rw [copyValue_of_le h]
    constructor
    · exact fun hbody => ⟨fun _ => hbody, fun hlt => absurd h (Nat.not_le.mpr hlt)⟩
    · exact fun hall => hall.1 h
  · have hlt := Nat.not_le.mp h
    rw [copyValue_of_lt hlt, Option.some.injEq, eq_comm, wanted_eq_nil_iff]
    constructor
    · exact fun hbody => ⟨fun hle => absurd hle h, fun _ => hbody⟩
    · exact fun hall => hall.2 hlt

/-- A line is read as it should be, without a look behind its end, exactly when what stands behind the
equals sign, and the line itself, are readable. -/
theorem key_value_read (ptr : Nat) (buf : List UInt8) :
    (getValue ptr buf = some (wantedValue buf)
        ↔ ∀ ch, buf.dropWhile (· ≠ 61) = 61 :: ch →
          Readable ptr ((buf.takeWhile (· ≠ 61)).length + 1) ch)
      ∧ (getStr ptr buf = some (wanted buf) ↔ Readable ptr 0 buf) := by
  refine ⟨?_, copyValue_iff⟩
  rw [getValue, wantedValue]
  cases hrest : buf.dropWhile (· ≠ 61) with
  | nil => simp
  | cons c ch =>
    have hc : c = 61 := by
      have hhead := List.head?_dropWhile_not (· ≠ (61 : UInt8)) buf
      rw [hrest] at hhead
      simpa using hhead
    subst hc
    simp [copyValue_iff]

/-- Two blanks in front of the value hide it, and a value at the end of the line is not ended. -/
theorem not_key_value_read : getValue 4 (ascii "mode=  on;") ≠ some (wantedValue (ascii "mode=  on;"))
    ∧ getStr 4 (ascii "on") = none := by
  decide

end VdCamera.Common
