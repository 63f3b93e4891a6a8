import VdCamera.Misc.Text
import Mathlib.Data.List.Forall2
import Mathlib.Tactic.Common

/-!
# String literals of SQL

A literal stands between quotes, and a quote of its value stands twice. Texts that are put between
quotes as they are spell a list of values only if none of them has a quote or a value differs from
its text.
-/

namespace VdCamera.Misc.Sql

/-- `'`. -/
abbrev quote : UInt8 := 39

/-- The value of a literal as it is spelled. -/
def escape : List UInt8 → List UInt8
  | [] => []
  | b :: bs => if b = quote then quote :: quote :: escape bs else b :: escape bs

/-- `,'..'` for each text. -/
def listed (texts : List (List UInt8)) : List UInt8 :=
  texts.flatMap fun t => 44 :: quote :: (t ++ [quote])

/-- `INSERT INTO table VALUES(NULL,'..',..);`. -/
def insertText (table : List UInt8) (texts : List (List UInt8)) : List UInt8 :=
  ascii "INSERT INTO " ++ table ++ ascii " VALUES(NULL" ++ (listed texts ++ ascii ");")

/-- The text is a single statement that inserts a row of string literals with these values. -/
def Inserts (table : List UInt8) (values : List (List UInt8)) (text : List UInt8) : Prop :=
  text = insertText table (values.map escape)

instance (table : List UInt8) (values : List (List UInt8)) (text : List UInt8) :
    Decidable (Inserts table values text) := inferInstanceAs (Decidable (_ = _))

variable {table s t v tail tail' : List UInt8} {texts values : List (List UInt8)}

@[simp]
theorem escape_cons_quote (bs : List UInt8) :
    escape (quote :: bs) = quote :: quote :: escape bs := if_pos rfl

theorem escape_cons {b : UInt8} (hb : b ≠ quote) (bs : List UInt8) :
    escape (b :: bs) = b :: escape bs := if_neg hb

theorem escape_of_not_mem (h : quote ∉ s) : escape s = s := by
  induction s with
  | nil => rfl
  | cons b bs ih =>
    rw [escape_cons (Ne.symm (List.ne_of_not_mem_cons h)), ih (List.not_mem_of_not_mem_cons h)]

/-- A literal ends at the first quote behind which there is no other one. -/
theorem eq_of_literal (hs : quote ∉ s) (htail : tail.head? ≠ some quote)
    (h : s ++ quote :: tail = escape v ++ quote :: tail') : v = s ∧ tail' = tail := by
  induction s generalizing v with
  | nil =>
    cases v with
    | nil => exact ⟨rfl, (List.cons.inj h).2.symm⟩
    | cons b bs =>
      by_cases hb : b = quote
      · subst hb
        rw [escape_cons_quote] at h
        exact absurd (by rw [(List.cons.inj h).2]; rfl) htail
      · rw [escape_cons hb] at h
        exact absurd (List.cons.inj h).1.symm hb
  | cons a s ih =>
    have ha : a ≠ quote := Ne.symm (List.ne_of_not_mem_cons hs)
    cases v with
    | nil => exact absurd (List.cons.inj h).1 ha
    | cons b bs =>
      by_cases hb : b = quote
      · subst hb
        rw [escape_cons_quote] at h
        exact absurd (List.cons.inj h).1 ha
      · rw [escape_cons hb] at h
        obtain ⟨rfl, hrest⟩ := List.cons.inj h
        obtain ⟨rfl, htails⟩ := ih (List.not_mem_of_not_mem_cons hs) hrest
        exact ⟨rfl, htails⟩

/-- Quotes in front of an escaped text are more than the text has. -/
theorem quotes_append_escape_ne (k : Nat) (htail : tail.head? ≠ some quote) :
    List.replicate (k + 1) quote ++ (escape s ++ quote :: tail') ≠ s ++ quote :: tail := by
  induction s generalizing k with
  | nil =>
    intro h
    rw [List.replicate_succ] at h
    have hrest := (List.cons.inj h).2
    rw [← hrest] at htail
    cases k with
    | zero => exact htail rfl
    | succ k => exact htail rfl
  | cons b bs ih =>
    intro h
    by_cases hb : b = quote
    · subst hb
      -- the two quotes of the escape join the ones in front, and one is cancelled
      apply ih (k + 1)
      rw [escape_cons_quote, List.replicate_succ, List.cons_append, List.cons_append] at h
      have hrest : List.replicate k quote ++ (quote :: quote :: (escape bs ++ quote :: tail'))
          = bs ++ quote :: tail := (List.cons.inj h).2
      rw [← hrest, List.replicate_succ', List.replicate_succ']
      simp only [List.append_assoc, List.cons_append, List.nil_append]
    · rw [List.replicate_succ] at h
      exact hb (List.cons.inj h).1.symm

/-- A text with a quote is not the value of the literal it begins. -/
theorem append_quote_ne_escape (hs : quote ∈ s) (htail : tail.head? ≠ some quote) :
    s ++ quote :: tail ≠ escape s ++ quote :: tail' := by
  induction s with
  | nil => cases hs
  | cons b bs ih =>
    intro h
    by_cases hb : b = quote
    · subst hb
      rw [escape_cons_quote] at h
      exact quotes_append_escape_ne 0 htail (List.cons.inj h).2.symm
    · rw [escape_cons hb] at h
      have hbs : quote ∈ bs := (List.mem_cons.mp hs).resolve_left (Ne.symm hb)
      exact ih hbs (List.cons.inj h).2

theorem head_listed (htail : tail.head? ≠ some quote) : (listed texts ++ tail).head? ≠ some quote := by
  cases texts with
  | nil => exact htail
  | cons t texts =>
    show some (44 : UInt8) ≠ some quote
    decide

theorem listed_cons_append (t : List UInt8) (texts : List (List UInt8)) (tail : List UInt8) :
    listed (t :: texts) ++ tail = 44 :: quote :: (t ++ quote :: (listed texts ++ tail)) := by
  simp [listed]

/-- Texts spell values that agree with them wherever there is a quote: then there is none. -/
theorem not_mem_of_listed (hagree : List.Forall₂ (fun t v => quote ∈ t → v = t) texts values)
    (htail : tail.head? ≠ some quote)
    (h : listed texts ++ tail = listed (values.map escape) ++ tail) : ∀ t ∈ texts, quote ∉ t := by
  induction hagree with
  | nil => exact fun t ht => absurd ht List.not_mem_nil
  | @cons t v texts values hv _ ih =>
    rw [List.map_cons, listed_cons_append, listed_cons_append] at h
    have hliteral := (List.cons.inj (List.cons.inj h).2).2
    have hhead : (listed texts ++ tail).head? ≠ some quote := head_listed htail
    have ht : quote ∉ t := by
      intro ht
      rw [hv ht] at hliteral
      exact append_quote_ne_escape ht hhead hliteral
    have hrest := (eq_of_literal ht hhead hliteral).2
    exact List.forall_mem_cons.mpr ⟨ht, ih hrest.symm⟩

theorem inserts_insertText (h : ∀ t ∈ texts, quote ∉ t) :
    Inserts table texts (insertText table texts) := by
  have hescape : texts.map escape = texts := by
    conv_rhs => rw [← List.map_id texts]
    exact List.map_congr_left fun t ht => escape_of_not_mem (h t ht)
  rw [Inserts, hescape]

theorem not_mem_of_inserts (hagree : List.Forall₂ (fun t v => quote ∈ t → v = t) texts values)
    (h : Inserts table values (insertText table texts)) : ∀ t ∈ texts, quote ∉ t :=
  not_mem_of_listed hagree (by decide) (List.append_cancel_left h)

theorem length_listed (texts : List (List UInt8)) :
    (listed texts).length = (texts.map fun t => t.length + 3).sum := by
  induction texts with
  | nil => rfl
  | cons t texts ih =>
    have hcons : listed (t :: texts) = 44 :: quote :: (t ++ quote :: listed texts) := by
      rw [← List.append_nil (listed (t :: texts)), listed_cons_append, List.append_nil]
    rw [hcons, List.length_cons, List.length_cons, List.length_append, List.length_cons, ih,
      List.map_cons, List.sum_cons]
    omega

end VdCamera.Misc.Sql
