import VdCamera.Misc.Decimal
import VdCamera.Config.Proofs.JsonFormat
import Mathlib.Data.Bool.AllAny

/-!
# What the pretty printer does to the tokens of a text

The tokens of the indented text are those of the text, but for the strings: a line may end inside
one of them.
-/

namespace VdCamera.Config

open Misc

/-- What stands between two characters after the printer. -/
def Pad (c next : UInt8) (g : List UInt8) : Prop := ∃ indentLen, g = padding indentLen c next

/-- A string behind `p` with the lines that end in it. -/
inductive Spread : UInt8 → List UInt8 → List UInt8 → Prop
  | nil {p : UInt8} {g : List UInt8} (hg : Pad p 34 g) : Spread p [] g
  | cons {p b : UInt8} {g s s' : List UInt8} (hg : Pad p b g) (hs : Spread b s s') :
      Spread p (b :: s) (g ++ b :: s')

/-- A token of a text and what the printer makes of it. -/
inductive SpreadToken : Token → Token → Prop
  | str {s s' : List UInt8} (h : Spread 34 s s') : SpreadToken (.str s) (.str s')
  | same {tk : Token} (h : ∀ s, tk ≠ .str s) : SpreadToken tk tk

/-- A byte next to which no line ends. -/
def isPlain (b : UInt8) : Bool := b ≠ 123 && b ≠ 44 && b ≠ 125

/-- A text in which no line ends. -/
def PlainText (s : List UInt8) : Prop := ∀ b ∈ s, isPlain b = true

instance (s : List UInt8) : Decidable (PlainText s) :=
  decidable_of_iff (s.all isPlain = true) List.all_eq_true

theorem breaks_plain {c next : UInt8} (hc : isPlain c = true) (hn : isPlain next = true) :
    breaks c next = false := by
  simp only [isPlain, Bool.and_eq_true, decide_eq_true_eq] at hc hn
  simp [breaks, hc, hn]

theorem Spread.eq_self {p : UInt8} {s s' : List UInt8} (h : Spread p s s')
    (hp : isPlain p = true) (hs : PlainText s) : s' = s := by
  induction h with
  | nil hg =>
    obtain ⟨k, rfl⟩ := hg
    exact padding_eq_nil (by simp [breaks_plain hp (by rfl : isPlain 34 = true)]) k
  | cons hg _ ih =>
    obtain ⟨k, rfl⟩ := hg
    have hb := hs _ (List.mem_cons_self ..)
    rw [padding_eq_nil (by simp [breaks_plain hp hb]) k,
      ih hb fun b hb => hs b (List.mem_cons_of_mem _ hb)]
    rfl

/-! ## Lexemes -/

variable (next : UInt8) (step : UInt64)

/-- A text without braces and commas is copied; a line may end behind it. -/
theorem indented_plain {x : List UInt8} (hne : x ≠ []) (hx : PlainText x)
    (k : UInt64) :
    ∃ k', indented step next k x = x ++ padding k' (x.getLastD 0) next := by
  induction x generalizing k with
  | nil => exact absurd rfl hne
  | cons c x ih =>
    cases x with
    | nil =>
      refine ⟨indentAfter step k c next, ?_⟩
      simp [indented]
    | cons d x =>
      obtain ⟨k', hk'⟩ := ih (List.cons_ne_nil _ _) (fun b hb => hx b (List.mem_cons_of_mem _ hb))
        (indentAfter step k c d)
      refine ⟨k', ?_⟩
      have hc := hx c (List.mem_cons_self ..)
      have hd := hx d (List.mem_cons_of_mem _ (List.mem_cons_self ..))
      rw [indented]
      simp only [List.headD_cons]
      rw [hk', padding_eq_nil (by simp [breaks_plain hc hd])]
      rfl

theorem isPlain_of_isDigit {b : UInt8} (h : isDigit b = true) : isPlain b = true := by
  have hne : b ≠ 123 ∧ b ≠ 44 ∧ b ≠ 125 := by
    refine ⟨?_, ?_, ?_⟩
    · rintro rfl
      exact absurd h (by decide)
    · rintro rfl
      exact absurd h (by decide)
    · rintro rfl
      exact absurd h (by decide)
  simp [isPlain, hne]

theorem fmtInt_plain (n : Int) : PlainText (fmtInt n) :=
  forall_mem_fmtInt (P := fun b => isPlain b = true) rfl (fun _ h => isPlain_of_isDigit h) n

theorem body_pad {c next : UInt8} {g : List UInt8} (h : Pad c next g) : Body Raw g g := by
  obtain ⟨k, rfl⟩ := h
  have hrep : ∀ n, Body Raw (List.replicate n 32) (List.replicate n 32) := by
    intro n
    induction n with
    | zero => exact .nil
    | succ n ih => exact Body.cons (e := [32]) (.inl (.plain 32 rfl (by decide) (by decide))) ih
  unfold padding
  split
  · exact Body.cons (e := [10]) (.inr ⟨rfl, rfl⟩) (hrep _)
  · exact .nil

theorem getLastD_append {a b : List UInt8} (h : b ≠ []) : (a ++ b).getLastD 0 = b.getLastD 0 := by
  obtain ⟨c, hc⟩ := Option.ne_none_iff_exists'.mp (mt List.getLast?_eq_none_iff.mp h)
  rw [List.getLastD_eq_getLast?, List.getLastD_eq_getLast?, List.getLast?_append, hc]
  rfl

/-- A string literal behind `p` is printed as the literal of the spread string. -/
theorem indented_body {s t : List UInt8} (h : Body Written s t) (p : UInt8) (k : UInt64) :
    ∃ s' t' k', Spread p s s' ∧ Body Raw s' t'
      ∧ indented step next k (p :: (t ++ [34])) = p :: (t' ++ 34 :: padding k' 34 next) := by
  induction h generalizing p k with
  | nil =>
    have hpad : Pad p 34 (padding (indentAfter step k p 34) p 34) := ⟨_, rfl⟩
    refine ⟨_, _, indentAfter step (indentAfter step k p 34) 34 next, .nil hpad, body_pad hpad, ?_⟩
    simp [indented]
  | @cons b e s t he _ ih =>
    cases he with
    | plain hp hq hb =>
      obtain ⟨s', t', k', hs, ht, heq⟩ := ih b (indentAfter step k p b)
      have hpad : Pad p b (padding (indentAfter step k p b) p b) := ⟨_, rfl⟩
      refine ⟨_, _, k', .cons hpad hs,
        (body_pad hpad).append (Body.cons (e := [b]) (.inl (.plain b hp hq hb)) ht), ?_⟩
      rw [indented]
      simp only [List.cons_append, List.nil_append, List.headD_cons, List.append_assoc]
      rw [heq]
    | escaped h =>
      obtain ⟨s', t', k', hs, ht, heq⟩ := ih b (indentAfter step (indentAfter step k p 92) 92 b)
      have hplain : isPlain b = true := by
        rcases h with rfl | rfl | rfl
        · rfl
        · rfl
        · rfl
      -- a line ends in front of the backslash if it ends in front of the character
      have hpad : Pad p b (padding (indentAfter step k p 92) p 92) := by
        refine ⟨indentAfter step k p 92, ?_⟩
        have hb : b ≠ 125 := by
          rintro rfl
          exact absurd hplain (by decide)
        simp [padding, breaks, hb]
      refine ⟨_, _, k', .cons hpad hs,
        (body_pad hpad).append (Body.cons (e := [92, b]) (.inl (.escaped b h)) ht), ?_⟩
      rw [indented]
      simp only [List.cons_append, List.nil_append, List.headD_cons, List.append_assoc]
      rw [indented]
      simp only [List.headD_cons]
      rw [heq, padding_eq_nil
        (by simp [breaks_plain (by rfl : isPlain 92 = true) hplain] : ¬ breaks 92 b = true)]
      rfl

/-- A lexeme is printed as that of the spread token; a line may end behind it. -/
theorem indented_lexeme {tk : Token} {x : List UInt8} (h : Lexeme Written tk x) (k : UInt64) :
    ∃ tk' x' k', SpreadToken tk tk' ∧ Lexeme Raw tk' x'
      ∧ indented step next k x = x' ++ padding k' (x.getLastD 0) next := by
  have hsingle : ∀ c : UInt8, indented step next k [c]
      = [c] ++ padding (indentAfter step k c next) ([c].getLastD 0) next := by
    intro c
    simp [indented]
  cases h with
  | lbrace => exact ⟨_, _, _, .same (by simp), .lbrace, hsingle 123⟩
  | rbrace => exact ⟨_, _, _, .same (by simp), .rbrace, hsingle 125⟩
  | colon => exact ⟨_, _, _, .same (by simp), .colon, hsingle 58⟩
  | comma => exact ⟨_, _, _, .same (by simp), .comma, hsingle 44⟩
  | null =>
    obtain ⟨k', hk'⟩ := indented_plain next step (by decide : ascii "null" ≠ [])
      (by decide : PlainText (ascii "null")) k
    exact ⟨_, _, k', .same (by simp), .null, hk'⟩
  | bool b =>
    have hb : ∀ b : Bool, (if b then ascii "true" else ascii "false") ≠ []
        ∧ PlainText (if b then ascii "true" else ascii "false") := by decide
    obtain ⟨k', hk'⟩ := indented_plain next step (hb b).1 (hb b).2 k
    exact ⟨_, _, k', .same (by simp), .bool b, hk'⟩
  | int n =>
    obtain ⟨k', hk'⟩ := indented_plain next step (fmtInt_ne_nil n)
      (fmtInt_plain n) k
    exact ⟨_, _, k', .same (by simp), .int n, hk'⟩
  | @str s t h =>
    obtain ⟨s', t', k', hs, ht, heq⟩ := indented_body next step h 34 k
    refine ⟨_, _, k', .str hs, .str ht, ?_⟩
    rw [heq, show (34 :: (t ++ [34])).getLastD 0 = 34 from getLastD_append (a := 34 :: t) (by simp)]
    simp

/-! ## Texts -/

theorem indented_append (a b : List UInt8) (k : UInt64) :
    ∃ k', indented step next k (a ++ b)
      = indented step (b.headD next) k a ++ indented step next k' b := by
  induction a generalizing k with
  | nil => exact ⟨k, rfl⟩
  | cons c a ih =>
    have hhead : (a ++ b).headD next = a.headD (b.headD next) := by
      cases a with
      | nil => rfl
      | cons _ _ => rfl
    obtain ⟨k', hk'⟩ := ih (indentAfter step k c (a.headD (b.headD next)))
    refine ⟨k', ?_⟩
    rw [List.cons_append, indented, indented, hhead, hk']
    simp

theorem indented_white {g : List UInt8} (hg : White g) (k : UInt64) :
    White (indented step next k g) := by
  induction g generalizing k with
  | nil =>
    intro b hb
    simp [indented] at hb
  | cons c g ih =>
    intro b hb
    rcases List.mem_cons.mp hb with rfl | hb
    · exact hg b (List.mem_cons_self ..)
    · rcases List.mem_append.mp hb with hb | hb
      · exact padding_white _ _ _ b hb
      · exact ih (fun c hc => hg c (List.mem_cons_of_mem _ hc)) _ b hb

/-- The indented text spells the spread tokens; a line may end behind it. -/
theorem indented_spelled {ts : List Token} {t : List UInt8} (h : Spelled Written Spaced ts t)
    (k : UInt64) :
    ∃ ts' t' k', List.Forall₂ SpreadToken ts ts' ∧ Spelled Raw White ts' t'
      ∧ indented step next k t = t' ++ padding k' (t.getLastD 0) next := by
  induction h generalizing k with
  | one hx =>
    obtain ⟨tk', x', k', htk, hx', heq⟩ := indented_lexeme next step hx k
    exact ⟨_, _, k', .cons htk .nil, .one hx', heq⟩
  | @cons tk ts x g t hx hg ht ih =>
    obtain ⟨k₁, heq₁⟩ := indented_append next step x (g ++ t) k
    obtain ⟨k₂, heq₂⟩ := indented_append next step g t k₁
    obtain ⟨tk', x', k', htk, hx', heqx⟩ := indented_lexeme ((g ++ t).headD next) step hx k
    obtain ⟨ts', t', k'', hts, ht', heqt⟩ := ih k₂
    have hgap : White (padding k' (x.getLastD 0) ((g ++ t).headD next)
        ++ indented step (t.headD next) k₁ g) :=
      (padding_white _ _ _).append (indented_white _ _ hg.white _)
    refine ⟨_, _, k'', .cons htk hts, .cons hx' hgap ht', ?_⟩
    rw [heq₁, heq₂, heqx, heqt, getLastD_append (List.append_ne_nil_of_right_ne_nil _ ht.ne_nil),
      getLastD_append ht.ne_nil]
    simp only [List.append_assoc]

/-! ## Where no line ends inside a literal -/

/-- A string in which and next to which no line ends. -/
def Clean : Token → Prop
  | .str s => ∀ b ∈ s, isPlain b = true
  | _ => True

theorem quiet_append (a b : List UInt8) (st : Scan) :
    Quiet next st (a ++ b)
      ↔ Quiet (b.headD next) st a ∧ Quiet next (a.foldl Scan.next st) b := by
  induction a generalizing st with
  | nil => simp [Quiet]
  | cons c a ih =>
    have hhead : (a ++ b).headD next = a.headD (b.headD next) := by
      cases a with
      | nil => rfl
      | cons _ _ => rfl
    rw [List.cons_append, Quiet, Quiet, hhead, ih, List.foldl_cons, and_assoc]

/-- Bytes without a quote leave a scan outside. -/
theorem quiet_outside {x : List UInt8} (hx : ∀ b ∈ x, b ≠ 34) :
    Quiet next .outside x ∧ x.foldl Scan.next .outside = .outside := by
  induction x with
  | nil => exact ⟨trivial, rfl⟩
  | cons c x ih =>
    have hc : Scan.next .outside c = .outside := if_neg (hx c (List.mem_cons_self ..))
    have hrest := ih fun b hb => hx b (List.mem_cons_of_mem _ hb)
    rw [Quiet, List.foldl_cons, hc]
    exact ⟨⟨fun _ => rfl, hrest.1⟩, hrest.2⟩

theorem breaks_iff {c next : UInt8} : breaks c next = true ↔ (c = 123 ∨ c = 44) ∨ next = 125 := by
  simp [breaks]

theorem isPlain_iff {b : UInt8} : isPlain b = true ↔ (b ≠ 123 ∧ b ≠ 44) ∧ b ≠ 125 := by
  simp [isPlain]

/-- A literal behind `p` that stands inside of it. -/
theorem quiet_body {s t : List UInt8} (h : Body Written s t) (p : UInt8) {st : Scan}
    (hst : st.next p = .inside) :
    (Quiet next st (p :: (t ++ [34])) ↔ (p ≠ 123 ∧ p ≠ 44) ∧ ∀ b ∈ s, isPlain b = true)
      ∧ (p :: (t ++ [34])).foldl Scan.next st = .outside := by
  induction h generalizing p st with
  | nil =>
    have hquote : Scan.next .inside 34 = .outside := rfl
    simp only [List.nil_append, Quiet, List.headD_cons, List.headD_nil, hst, hquote, breaks_iff,
      List.foldl_cons, List.foldl_nil]
    simp
  | @cons b e s t he _ ih =>
    cases he with
    | plain hp hq hb =>
      have hnext : Scan.next .inside b = .inside := by simp [Scan.next, hq, hb]
      obtain ⟨hiff, hend⟩ := ih b hnext
      simp only [List.cons_append, List.nil_append]
      rw [Quiet, List.foldl_cons, hst]
      refine ⟨?_, hend⟩
      rw [hiff, List.headD_cons, breaks_iff, List.forall_mem_cons, isPlain_iff]
      simp only [reduceCtorEq, imp_false, not_or]
      tauto
    | escaped h =>
      have hback : Scan.next .inside 92 = .escaped := rfl
      obtain ⟨hiff, hend⟩ := ih b (rfl : Scan.next .escaped b = .inside)
      have hplain : isPlain b = true := by
        rcases h with rfl | rfl | rfl
        · rfl
        · rfl
        · rfl
      have hb := isPlain_iff.mp hplain
      simp only [List.cons_append, List.nil_append]
      rw [Quiet, Quiet, List.foldl_cons, List.foldl_cons, hst, hback]
      refine ⟨?_, hend⟩
      rw [hiff, List.headD_cons, List.headD_cons, breaks_iff, breaks_iff, List.forall_mem_cons]
      simp only [reduceCtorEq, imp_false, not_or, hplain, true_and, hb]
      simp [hb.1.1, hb.1.2]

theorem quiet_lexeme {tk : Token} {x : List UInt8} (h : Lexeme Written tk x) :
    (Quiet next .outside x ↔ Clean tk) ∧ x.foldl Scan.next .outside = .outside := by
  have hother : (∀ b ∈ x, b ≠ 34) → (∀ s, tk ≠ .str s) →
      (Quiet next .outside x ↔ Clean tk) ∧ x.foldl Scan.next .outside = .outside := by
    intro hx hne
    have hclean : Clean tk := by
      cases tk with
      | str s => exact absurd rfl (hne s)
      | _ => trivial
    have hq := quiet_outside next hx
    exact ⟨⟨fun _ => hclean, fun _ => hq.1⟩, hq.2⟩
  cases h with
  | str h =>
    obtain ⟨hiff, hend⟩ := quiet_body next h 34 (rfl : Scan.next .outside 34 = .inside)
    refine ⟨hiff.trans ?_, hend⟩
    rw [Clean]
    simp
  | int n =>
    apply hother _ (by simp)
    rw [fmtInt_eq]
    split
    · intro b hb
      rcases List.mem_cons.mp hb with rfl | hb
      · decide
      · rintro rfl
        exact absurd (isDigit_of_mem_digits hb) (by decide)
    · rintro b hb rfl
      exact absurd (isDigit_of_mem_digits hb) (by decide)
  | bool b =>
    apply hother _ (by simp)
    cases b with
    | false => exact List.all_iff_forall_prop.mp rfl
    | true => exact List.all_iff_forall_prop.mp rfl
  | _ => exact hother (List.all_iff_forall_prop.mp rfl) (by simp)

/-- No line ends inside a literal exactly when the strings have neither braces nor commas. -/
theorem quiet_spelled {ts : List Token} {t : List UInt8} (h : Spelled Written Spaced ts t) :
    Quiet next .outside t ↔ ∀ tk ∈ ts, Clean tk := by
  induction h with
  | one hx =>
    rw [(quiet_lexeme next hx).1]
    simp
  | @cons tk ts x g t hx hg _ ih =>
    have hgap : ∀ b ∈ g, b ≠ 34 := fun b hb => (isBlank_ne_quote (hg.white b hb)).1
    have hend := (quiet_lexeme 0 hx).2
    rw [quiet_append, (quiet_lexeme _ hx).1, hend, quiet_append, (quiet_outside 0 hgap).2, ih,
      List.forall_mem_cons]
    exact ⟨fun h => ⟨h.1, h.2.2⟩, fun h => ⟨h.1, (quiet_outside _ hgap).1, h.2⟩⟩

end VdCamera.Config
