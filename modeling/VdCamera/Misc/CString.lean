import VdCamera.Misc.Text

/-!
# Pointers into a string

A pointer into a string is what begins with it, without the terminator behind. Moving a pointer, or
reading through it, is `none` where that leaves the string; a null pointer is `none` as well.
-/

namespace VdCamera.Misc

variable {s t : List UInt8} {i n : Nat} {c : UInt8}

/-- `s[i]`; behind the last character is the terminator. -/
def charAt (s : List UInt8) (i : Nat) : Option UInt8 := (s ++ [0])[i]?

/-- `s + n`, which may be the terminator. -/
def advance (n : Nat) (s : List UInt8) : Option (List UInt8) :=
  if n ≤ s.length then some (s.drop n) else none

/-- What `strncpy` reads from `s + i`: up to `n` characters. -/
def strncpyFrom (s : List UInt8) (i n : Nat) : Option (List UInt8) := (advance i s).map (List.take n)

/-- The tokens that `strtok` finds when it has read `token` of the next one. -/
def tokensFrom (delim : UInt8) (token : List UInt8) : List UInt8 → List (List UInt8)
  | [] => if token = [] then [] else [token]
  | b :: s =>
    if b ≠ delim then tokensFrom delim (token ++ [b]) s
    else if token = [] then tokensFrom delim [] s
    else token :: tokensFrom delim [] s

/-- The tokens that `strtok` finds. -/
def tokens (delim : UInt8) (s : List UInt8) : List (List UInt8) := tokensFrom delim [] s

/-- Two steps of which the second fails or not whatever the first one has read. -/
theorem isSome_bind_iff {α β : Type} {x : Option α} {f : α → Option β} {P : Prop}
    (h : ∀ a, (f a).isSome = true ↔ P) : (x.bind f).isSome = true ↔ x.isSome = true ∧ P := by
  cases x with
  | none => simp
  | some a => simpa using h a

/-- Going on from what has been found. -/
theorem advance_append (m : Nat) : advance (t.length + m) (t ++ s) = advance m s := by
  unfold advance
  rw [List.length_append, List.drop_append, List.drop_eq_nil_of_le (Nat.le_add_right _ _)]
  simp

/-- What is found begins with the needle. -/
theorem strstr_eq_append {needle r : List UInt8} (h : strstr needle s = some r) :
    ∃ rest, r = needle ++ rest := by
  induction s with
  | nil =>
    rw [strstr] at h
    split at h
    · next hnil =>
      cases h
      exact ⟨[], by simp [hnil]⟩
    · cases h
  | cons b s ih =>
    rw [strstr] at h
    split at h
    · next hprefix =>
      cases h
      obtain ⟨rest, hrest⟩ := List.isPrefixOf_iff_prefix.mp hprefix
      exact ⟨rest, hrest.symm⟩
    · split at h
      · cases h
      · exact ih h

/-- What is found ends like the string. -/
theorem strstr_suffix {needle r : List UInt8} (h : strstr needle s = some r) : r <:+ s := by
  induction s with
  | nil =>
    rw [strstr] at h
    split at h
    · cases h
      exact List.suffix_rfl
    · cases h
  | cons b s ih =>
    rw [strstr] at h
    split at h
    · cases h
      exact List.suffix_rfl
    · split at h
      · cases h
      · exact (ih h).trans (List.suffix_cons b s)

theorem isSome_strstr_singleton (h : 0 ∉ s) : (strstr [c] s).isSome = true ↔ c ∈ s := by
  induction s with
  | nil => simp [strstr]
  | cons b s ih =>
    rw [List.mem_cons, not_or] at h
    have hb : b ≠ 0 := fun hb => h.1 hb.symm
    rw [strstr, List.mem_cons]
    by_cases hc : c = b
    · simp [hc]
    · simp [hc, hb, ih h.2]

theorem tokensFrom_ne_nil : tokensFrom c t s ≠ [] ↔ t ≠ [] ∨ ∃ b ∈ s, b ≠ c := by
  induction s generalizing t with
  | nil =>
    unfold tokensFrom
    split <;> simp_all
  | cons b s ih =>
    unfold tokensFrom
    by_cases hb : b = c
    · subst hb
      by_cases ht : t = []
      · simp [ht, ih]
      · simp [ht]
    · simp [hb, ih]

/-- There is a token if and only if there is something else than delimiters. -/
theorem tokens_ne_nil : tokens c s ≠ [] ↔ ∃ b ∈ s, b ≠ c := by
  simp [tokens, tokensFrom_ne_nil]

theorem tokensFrom_append (r : List UInt8) :
    tokensFrom c t (s ++ c :: r) = tokensFrom c t s ++ tokens c r := by
  induction s generalizing t with
  | nil =>
    rw [List.nil_append, tokensFrom, tokensFrom, if_neg (not_not_intro rfl)]
    split <;> rfl
  | cons b s ih =>
    rw [List.cons_append, tokensFrom, tokensFrom]
    split
    · exact ih
    · split
      · exact ih
      · rw [ih]
        rfl

/-- A delimiter separates the tokens on both sides of it. -/
theorem tokens_append (c : UInt8) (s r : List UInt8) :
    tokens c (s ++ c :: r) = tokens c s ++ tokens c r := tokensFrom_append r

theorem tokensFrom_of_not_mem (h : c ∉ s) :
    tokensFrom c t s = if t ++ s = [] then [] else [t ++ s] := by
  induction s generalizing t with
  | nil =>
    rw [List.append_nil]
    rfl
  | cons b s ih =>
    rw [List.mem_cons, not_or] at h
    rw [tokensFrom, if_pos (Ne.symm h.1), ih h.2, List.append_assoc]
    rfl

/-- A text without a delimiter is a token. -/
theorem tokens_of_not_mem (h : c ∉ s) (hne : s ≠ []) : tokens c s = [s] := by
  rw [tokens, tokensFrom_of_not_mem h, List.nil_append, if_neg hne]

end VdCamera.Misc
