import VdCamera.Config.JsonCfg

/-!
# What the pretty printer makes of a text
-/

namespace VdCamera.Config

open Misc

/-! ## Writing to a stream -/

/-- Hands a whole text to a stream: what it does not take any more is cut off. -/
def File.put (t : List UInt8) (f : File) : Bool × File :=
  match f.room with
  | none => (true, { f with data := f.data ++ t })
  | some n =>
    if t.length ≤ n then (true, ⟨f.data ++ t, some (n - t.length)⟩)
    else (false, ⟨f.data ++ t.take n, some 0⟩)

theorem fputc_eq_put (c : UInt8) (f : File) : fputc c f = f.put [c] := by
  rcases f with ⟨data, _ | _ | n⟩
  · rfl
  · simp [fputc, File.put]
  · simp [fputc, File.put]

theorem File.put_nil (f : File) : f.put [] = (true, f) := by
  rcases f with ⟨data, _ | n⟩
  · simp [File.put]
  · simp [File.put]

theorem File.put_append (t u : List UInt8) (f : File) :
    f.put (t ++ u) = if (f.put t).1 then (f.put t).2.put u else f.put t := by
  rcases f with ⟨data, _ | n⟩
  · simp [File.put]
  · by_cases ht : t.length ≤ n
    · by_cases hu : u.length ≤ n - t.length
      · have htu : t.length + u.length ≤ n := by omega
        simp [File.put, ht, hu, htu, Nat.sub_add_eq]
      · have htu : ¬ t.length + u.length ≤ n := by omega
        simp [File.put, ht, hu, htu, List.take_append, List.take_of_length_le ht]
    · have htu : ¬ t.length + u.length ≤ n := by omega
      have h0 : n - t.length = 0 := by omega
      simp [File.put, ht, htu, List.take_append, h0]

theorem File.put_cons (c : UInt8) (u : List UInt8) (f : File) :
    f.put (c :: u) = if (f.put [c]).1 then (f.put [c]).2.put u else f.put [c] :=
  File.put_append [c] u f

theorem putSpaces_eq_put (n : Nat) (f : File) : putSpaces n f = f.put (List.replicate n 32) := by
  induction n generalizing f with
  | zero => exact f.put_nil.symm
  | succ n ih =>
    rw [putSpaces, fputc_eq_put, List.replicate_succ,
      File.put_cons 32 (List.replicate n 32)]
    rcases hput : f.put [32] with ⟨_ | _, g⟩
    · rfl
    · exact ih g

/-- An indentation in steps of four is not `(size_t)-1`. -/
theorem indentAfter_mod {indentLen : UInt64} (h : indentLen.toNat % 4 = 0) (c next : UInt8) :
    (indentAfter 4 indentLen c next).toNat % 4 = 0 := by
  unfold indentAfter
  split
  · rw [UInt64.toNat_add]
    have h4 : (4 : UInt64).toNat = 4 := rfl
    omega
  · split
    · rw [UInt64.toNat_sub]
      have h4 : (4 : UInt64).toNat = 4 := rfl
      omega
    · exact h

theorem ne_minus_one {indentLen : UInt64} (h : indentLen.toNat % 4 = 0) : -1 ≠ indentLen := by
  rintro rfl
  exact absurd h (by decide)

/-- The loop hands the indented text to the stream; its result is the number of the characters, or
-1 when the stream has not taken them all. -/
theorem formatLoop_eq (s : List UInt8) {indentLen : UInt64} (hk : indentLen.toNat % 4 = 0)
    (len : Nat) (f : File) :
    formatLoop 4 indentLen len s f
      = ((if (f.put (indented 4 0 indentLen s)).1 then
          ((len + (indented 4 0 indentLen s).length : Nat) : Int) else -1),
        (f.put (indented 4 0 indentLen s)).2) := by
  induction s generalizing indentLen len f with
  | nil => simp [formatLoop, indented, File.put_nil]
  | cons c s ih =>
    have hk' := indentAfter_mod hk c (s.headD 0)
    rw [formatLoop, indented, fputc_eq_put, File.put_cons c (_ ++ _)]
    dsimp only
    generalize indentAfter 4 indentLen c (s.headD 0) = k at hk' ⊢
    rcases hput : f.put [c] with ⟨_ | _, g⟩
    · rfl
    simp only [if_true]
    unfold padding
    by_cases hb : breaks c (s.headD 0) = true
    · simp only [hb, if_true]
      rw [fputc_eq_put, List.cons_append, File.put_cons 10 (_ ++ _)]
      rcases hput' : g.put [10] with ⟨_ | _, g'⟩
      · rfl
      simp only [if_true]
      rw [jsonAddSpaceStream, putSpaces_eq_put, File.put_append]
      rcases hput'' : g'.put (List.replicate k.toNat 32) with ⟨_ | _, g''⟩
      · simp only [ne_minus_one hk', ne_eq, not_false_eq_true, if_true, Bool.false_eq_true,
          if_false]
      · have hlen : len + 1 + 1 + k.toNat + (indented 4 0 k s).length
            = len + (c :: 10 :: (List.replicate k.toNat 32 ++ indented 4 0 k s)).length := by
          simp only [List.length_cons, List.length_append, List.length_replicate]
          omega
        simp only [ne_eq, not_true_eq_false, if_false, if_true]
        rw [ih hk', hlen]
    · have hlen : len + 1 + (indented 4 0 k s).length
          = len + (c :: ([] ++ indented 4 0 k s)).length := by
        simp only [List.nil_append, List.length_cons]
        omega
      simp only [hb, Bool.false_eq_true, if_false]
      rw [ih hk', hlen]
      rfl

/-! ## White space outside string literals -/

/-- No line ends inside a string literal. -/
def Quiet (next : UInt8) : Scan → List UInt8 → Prop
  | _, [] => True
  | st, c :: s => (breaks c (s.headD next) = true → st.next c = .outside)
      ∧ Quiet next (st.next c) s

theorem isBlank_ne_quote {b : UInt8} (h : isBlank b = true) : b ≠ 34 ∧ b ≠ 92 := by
  constructor
  · rintro rfl
    exact absurd h (by decide)
  · rintro rfl
    exact absurd h (by decide)

theorem padding_white (indentLen : UInt64) (c next : UInt8) : White (padding indentLen c next) := by
  intro b hb
  unfold padding at hb
  split at hb
  · rcases List.mem_cons.mp hb with rfl | hb
    · rfl
    · rw [List.eq_of_mem_replicate hb]
      rfl
  · simp at hb

theorem padding_eq_nil {c next : UInt8} (h : ¬ breaks c next = true) (indentLen : UInt64) :
    padding indentLen c next = [] := if_neg h

theorem Blanked.white {g t t' : List UInt8} (hg : White g) (h : Blanked .outside t t') :
    Blanked .outside t (g ++ t') := by
  induction g with
  | nil => exact h
  | cons b g ih =>
    exact .blank (hg b (List.mem_cons_self ..)) (ih fun c hc => hg c (List.mem_cons_of_mem _ hc))

theorem literalBytes_white {g : List UInt8} (hg : White g) (t : List UInt8) :
    literalBytes .outside (g ++ t) = literalBytes .outside t := by
  induction g with
  | nil => rfl
  | cons b g ih =>
    rw [List.cons_append, literalBytes_blank (hg b (List.mem_cons_self ..))]
    exact ih fun c hc => hg c (List.mem_cons_of_mem _ hc)

theorem literalBytes_inside {g : List UInt8} (hg : White g) (t : List UInt8) :
    literalBytes .inside (g ++ t) = g.length + literalBytes .inside t := by
  induction g with
  | nil => simp
  | cons b g ih =>
    have hb := isBlank_ne_quote (hg b (List.mem_cons_self ..))
    rw [List.cons_append, literalBytes, List.length_cons]
    rw [show Scan.next .inside b = .inside by simp [Scan.next, hb],
      ih fun c hc => hg c (List.mem_cons_of_mem _ hc)]
    simp only [reduceCtorEq, if_false]
    omega

variable {indent : UInt64} {next : UInt8}

theorem indented_blanked {st : Scan} {s : List UInt8} (h : Quiet next st s) (indentLen : UInt64) :
    Blanked st s (indented indent next indentLen s) := by
  induction s generalizing st indentLen with
  | nil => exact .nil st
  | cons c s ih =>
    apply Blanked.keep
    by_cases hb : breaks c (s.headD next) = true
    · rw [h.1 hb]
      apply Blanked.white (padding_white _ _ _)
      rw [← h.1 hb]
      exact ih h.2 _
    · rw [padding_eq_nil hb]
      exact ih h.2 _

/-- A line that ends behind a backslash ends in front of a brace, and the literal gets longer. -/
theorem literalBytes_escaped {st : Scan} {c : UInt8} {s : List UInt8} {indentLen : UInt64}
    (hst : st.next c = .escaped) (hb : breaks c (s.headD next) = true)
    (hle : literalBytes .escaped s ≤ literalBytes .escaped (indented indent next indentLen s)) :
    literalBytes .escaped s < literalBytes .escaped
      (padding indentLen c (s.headD next) ++ indented indent next indentLen s) := by
  have hc : c = 92 := by
    cases st with
    | outside =>
      simp only [Scan.next] at hst
      split at hst
      · cases hst
      · cases hst
    | inside =>
      simp only [Scan.next] at hst
      split at hst
      · cases hst
      · split at hst
        · assumption
        · cases hst
    | escaped => cases hst
  subst hc
  have hpad : literalBytes .escaped
      (padding indentLen 92 (s.headD next) ++ indented indent next indentLen s)
      = 1 + (indentLen.toNat + literalBytes .inside (indented indent next indentLen s)) := by
    rw [padding, if_pos hb, List.cons_append, literalBytes]
    have hwhite : White (List.replicate indentLen.toNat 32) := by
      intro b hb
      rw [List.eq_of_mem_replicate hb]
      rfl
    rw [show Scan.next .escaped 10 = .inside from rfl, literalBytes_inside hwhite,
      List.length_replicate]
    rfl
  rw [hpad]
  cases s with
  | nil =>
    rw [literalBytes]
    omega
  | cons d s =>
    have hd : d = 125 := by simpa [breaks] using hb
    subst hd
    have hbrace : literalBytes .escaped (indented indent next indentLen (125 :: s))
        = literalBytes .inside (indented indent next indentLen (125 :: s)) := rfl
    omega

/-- The literals never lose a byte, and they get more of them wherever a line ends inside of one. -/
theorem literalBytes_indented (st : Scan) (s : List UInt8) (indentLen : UInt64) :
    literalBytes st s ≤ literalBytes st (indented indent next indentLen s)
      ∧ (literalBytes st (indented indent next indentLen s) ≤ literalBytes st s →
        Quiet next st s) := by
  induction s generalizing st indentLen with
  | nil => exact ⟨Nat.le_refl _, fun _ => trivial⟩
  | cons c s ih =>
    obtain ⟨hle, hq⟩ := ih (st.next c) (indentAfter indent indentLen c (s.headD next))
    rw [indented]
    unfold literalBytes
    by_cases hb : breaks c (s.headD next) = true
    · cases hst : st.next c with
      | outside =>
        rw [hst] at hle hq
        rw [literalBytes_white (padding_white _ _ _)]
        refine ⟨Nat.add_le_add_left hle _, fun h => ⟨fun _ => hst, ?_⟩⟩
        rw [hst]
        exact hq (Nat.le_of_add_le_add_left h)
      | inside =>
        rw [hst] at hle
        rw [literalBytes_inside (padding_white _ _ _)]
        have hlen : 0 < (padding (indentAfter indent indentLen c (s.headD next)) c
            (s.headD next)).length := by
          rw [padding, if_pos hb]
          exact Nat.succ_pos _
        omega
      | escaped =>
        rw [hst] at hle
        have hlt := literalBytes_escaped hst hb hle
        omega
    · rw [padding_eq_nil hb]
      refine ⟨Nat.add_le_add_left hle _, fun h => ⟨fun h' => absurd h' hb, hq ?_⟩⟩
      exact Nat.le_of_add_le_add_left h

/-- White space is put in outside string literals alone exactly when no line ends inside one. -/
theorem blanked_indented_iff (st : Scan) (s : List UInt8) (indentLen : UInt64) :
    Blanked st s (indented indent next indentLen s) ↔ Quiet next st s :=
  ⟨fun h => (literalBytes_indented st s indentLen).2 (Nat.le_of_eq h.literalBytes_eq),
    fun h => indented_blanked h indentLen⟩

end VdCamera.Config
