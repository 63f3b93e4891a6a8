import VdCamera.Misc.Text
import Mathlib.Data.List.TakeWhile

/-!
# Texts of levels

Levels with a slash behind each, as `strcat` joins them, and what `strchr` and `sscanf` make of such
a text.
-/

namespace VdCamera.Misc

variable {level rest : List UInt8} {levels : List (List UInt8)}

/-- Levels with a slash behind each. -/
def joinLevels (levels : List (List UInt8)) : List UInt8 := levels.flatMap fun l => l ++ [47]

/-- What stands before the first slash, and what behind it. -/
def cutLevel (text : List UInt8) : Option (List UInt8 × List UInt8) :=
  match text.dropWhile (· ≠ 47) with
  | [] => none
  | _ :: rest => some (text.takeWhile (· ≠ 47), rest)

/-- What `sscanf` reads with `n` conversions `%[^/]` and slashes between them: a conversion needs a
byte, and the first that fails is the last. -/
def scanLevels : Nat → List UInt8 → List (List UInt8)
  | 0, _ => []
  | n + 1, text =>
    match text.takeWhile (· ≠ 47) with
    | [] => []
    | b :: bs =>
      (b :: bs) :: match cutLevel text with
        | none => []
        | some (_, rest) => scanLevels n rest

@[simp]
theorem joinLevels_nil : joinLevels [] = [] := rfl

theorem joinLevels_cons (level : List UInt8) (levels : List (List UInt8)) :
    joinLevels (level :: levels) = level ++ 47 :: joinLevels levels := by
  simp [joinLevels]

theorem joinLevels_append (levels levels' : List (List UInt8)) :
    joinLevels (levels ++ levels') = joinLevels levels ++ joinLevels levels' :=
  List.flatMap_append ..

theorem takeWhile_level (h : 47 ∉ level) (rest : List UInt8) :
    (level ++ 47 :: rest).takeWhile (· ≠ 47) = level := by
  rw [List.takeWhile_append_of_pos]
  · simp
  · intro b hb
    simpa using ne_of_mem_of_not_mem hb h

theorem cutLevel_level (h : 47 ∉ level) (rest : List UInt8) :
    cutLevel (level ++ 47 :: rest) = some (level, rest) := by
  have hdrop : (level ++ 47 :: rest).dropWhile (· ≠ 47) = 47 :: rest := by
    rw [List.dropWhile_append_of_pos]
    · simp
    · intro b hb
      simpa using ne_of_mem_of_not_mem hb h
  rw [cutLevel, hdrop, takeWhile_level h]

/-- Text without a slash is not cut. -/
theorem cutLevel_eq_none {text : List UInt8} (h : 47 ∉ text) : cutLevel text = none := by
  have hdrop : text.dropWhile (· ≠ 47) = [] := by
    rw [List.dropWhile_eq_nil_iff]
    intro b hb
    simpa using ne_of_mem_of_not_mem hb h
  rw [cutLevel, hdrop]

/-- The levels are read up to the first empty one. -/
theorem scanLevels_join (n : Nat) (h : ∀ l ∈ levels, 47 ∉ l) :
    scanLevels n (joinLevels levels) = (levels.take n).takeWhile (· ≠ []) := by
  induction n generalizing levels with
  | zero => simp [scanLevels]
  | succ n ih =>
    cases levels with
    | nil => simp [scanLevels]
    | cons level levels =>
      have hlevel := h level (List.mem_cons_self ..)
      have hlevels := ih fun l hl => h l (List.mem_cons_of_mem _ hl)
      rw [joinLevels_cons, scanLevels, takeWhile_level hlevel, cutLevel_level hlevel]
      cases level with
      | nil => simp
      | cons b bs => simp [hlevels]

end VdCamera.Misc
