import VdCamera.Misc.Json
import Mathlib.Data.Bool.AllAny

/-!
# A library for JSON texts

A printer and a reader that keep what `JsonLibrary.Lawful` asks for: the reader cuts a text into
tokens and reads the tokens, and it refuses a text whose braces do not match.
-/

namespace VdCamera.Misc

/-! ## Printing -/

def escape (b : UInt8) : List UInt8 := if b = 34 ∨ b = 92 ∨ b = 47 then [92, b] else [b]

def lexeme : Token → List UInt8
  | .lbrace => [123]
  | .rbrace => [125]
  | .colon => [58]
  | .comma => [44]
  | .null => ascii "null"
  | .bool b => if b then ascii "true" else ascii "false"
  | .int n => fmtInt n
  | .str s => 34 :: (s.flatMap escape ++ [34])

/-- The tokens with a blank behind each but the last. -/
def printTokens : List Token → List UInt8
  | [] => []
  | [tk] => lexeme tk
  | tk :: ts => lexeme tk ++ ([32] ++ printTokens ts)

theorem body_escape {s : List UInt8} (hs : ∀ b ∈ s, isPrintable b = true) :
    Body Written s (s.flatMap escape) := by
  induction s with
  | nil => exact .nil
  | cons b s ih =>
    rw [List.flatMap_cons]
    refine .cons ?_ (ih fun b hb => hs b (List.mem_cons_of_mem _ hb))
    unfold escape
    split
    · rename_i h
      exact .escaped b h
    · rename_i h
      exact .plain b (hs b (List.mem_cons_self ..)) (fun hb => h (.inl hb))
        fun hb => h (.inr (.inl hb))

theorem lexeme_written {tk : Token} (h : tk.Printable) : Lexeme Written tk (lexeme tk) := by
  cases tk with
  | lbrace => exact .lbrace
  | rbrace => exact .rbrace
  | colon => exact .colon
  | comma => exact .comma
  | null => exact .null
  | bool b => exact .bool b
  | int n => exact .int n
  | str s => exact .str (body_escape h)

theorem printTokens_spelled {ts : List Token} (hne : ts ≠ []) (h : ∀ tk ∈ ts, tk.Printable) :
    Spelled Written Spaced ts (printTokens ts) := by
  induction ts with
  | nil => exact absurd rfl hne
  | cons tk ts ih =>
    have htk := lexeme_written (h tk (List.mem_cons_self ..))
    cases ts with
    | nil => exact .one htk
    | cons tk' ts =>
      exact .cons htk (.inr rfl)
        (ih (List.cons_ne_nil _ _) fun tk hm => h tk (List.mem_cons_of_mem _ hm))

/-! ## Cutting a text into tokens -/

/-- The rest of a string literal, maybe behind a backslash, and what follows it. -/
def lexString : Bool → List UInt8 → Option (List UInt8 × List UInt8)
  | _, [] => none
  | true, b :: r => (lexString false r).map fun p => (b :: p.1, p.2)
  | false, b :: r =>
    if b = 34 then some ([], r)
    else if b = 92 then lexString true r
    else (lexString false r).map fun p => (b :: p.1, p.2)

/-- The token that begins with a byte, and what follows it. -/
def lexToken (b : UInt8) (r : List UInt8) : Option (Token × List UInt8) :=
  if b = 123 then some (.lbrace, r)
  else if b = 125 then some (.rbrace, r)
  else if b = 58 then some (.colon, r)
  else if b = 44 then some (.comma, r)
  else if b = 34 then (lexString false r).map fun p => (.str p.1, p.2)
  else if b = 45 then some (.int (-(decimal (r.takeWhile isDigit) : Int)), r.dropWhile isDigit)
  else if isDigit b then
    some (.int (decimal ((b :: r).takeWhile isDigit)), (b :: r).dropWhile isDigit)
  else if b = 116 then some (.bool true, r.drop 3)
  else if b = 102 then some (.bool false, r.drop 4)
  else if b = 110 then some (.null, r.drop 3)
  else none

def lex : Nat → List UInt8 → Option (List Token)
  | 0, _ => none
  | _ + 1, [] => some []
  | n + 1, b :: r =>
    if isBlank b then lex n r
    else (lexToken b r).bind fun p => (lex n p.2).map fun ts => p.1 :: ts

theorem lexString_body {s t : List UInt8} (h : Body Raw s t) (r : List UInt8) :
    lexString false (t ++ 34 :: r) = some (s, r) := by
  induction h with
  | nil => rfl
  | @cons b e s t he _ ih =>
    rcases he with he | ⟨rfl, rfl⟩
    · cases he with
      | plain hp hq hb =>
        rw [List.append_assoc, List.singleton_append, lexString, if_neg hq, if_neg hb, ih]
        rfl
      | escaped h =>
        rw [List.append_assoc, List.cons_append, List.singleton_append, lexString,
          if_neg (by decide), if_pos rfl, lexString, ih]
        rfl
    · rw [List.append_assoc, List.singleton_append, lexString, if_neg (by decide),
        if_neg (by decide), ih]
      rfl

/-- What follows a number does not begin with a digit. -/
def Ends (r : List UInt8) : Prop := ∀ b, r.head? = some b → isDigit b = false

theorem digits_span (n : Nat) {r : List UInt8} (hr : Ends r) :
    (digits n ++ r).takeWhile isDigit = digits n ∧ (digits n ++ r).dropWhile isDigit = r := by
  have hall : ∀ b ∈ digits n, isDigit b = true := fun b hb => isDigit_of_mem_digits hb
  rw [List.takeWhile_append_of_pos hall, List.dropWhile_append_of_pos hall]
  cases r with
  | nil => simp
  | cons b r =>
    have hb := hr b rfl
    simp [hb]

theorem isDigit_ne {b : UInt8} (h : isDigit b = true) : b ≠ 123 ∧ b ≠ 125 ∧ b ≠ 58 ∧ b ≠ 44
    ∧ b ≠ 34 ∧ b ≠ 45 ∧ b ≠ 32 ∧ b ≠ 10 := by
  have hall : ∀ c : UInt8, isDigit c = false → b ≠ c := by
    rintro c hc rfl
    rw [h] at hc
    cases hc
  exact ⟨hall 123 rfl, hall 125 rfl, hall 58 rfl, hall 44 rfl, hall 34 rfl, hall 45 rfl,
    hall 32 rfl, hall 10 rfl⟩

theorem lexToken_lexeme {tk : Token} {x : List UInt8} (h : Lexeme Raw tk x) {r : List UInt8}
    (hr : ∀ n, tk = .int n → Ends r) :
    ∃ b y, x = b :: y ∧ isBlank b = false ∧ lexToken b (y ++ r) = some (tk, r) := by
  cases h with
  | lbrace => exact ⟨_, _, rfl, rfl, rfl⟩
  | rbrace => exact ⟨_, _, rfl, rfl, rfl⟩
  | colon => exact ⟨_, _, rfl, rfl, rfl⟩
  | comma => exact ⟨_, _, rfl, rfl, rfl⟩
  | null => exact ⟨_, _, rfl, rfl, rfl⟩
  | bool b =>
    cases b with
    | true => exact ⟨_, _, rfl, rfl, rfl⟩
    | false => exact ⟨_, _, rfl, rfl, rfl⟩
  | @str s t h =>
    refine ⟨34, t ++ [34], rfl, rfl, ?_⟩
    have hlex := lexString_body h r
    rw [List.append_assoc, List.singleton_append]
    simp only [lexToken, hlex]
    rfl
  | int n =>
    have hspan := digits_span n.natAbs (hr n rfl)
    by_cases hn : n < 0
    · refine ⟨45, digits n.natAbs, by rw [fmtInt_eq, if_pos hn], rfl, ?_⟩
      have habs : -((n.natAbs : Nat) : Int) = n := by omega
      simp only [lexToken, hspan, decimal_digits, habs]
      rfl
    · obtain ⟨b, y, hy⟩ := List.exists_cons_of_ne_nil (digits_ne_nil n.natAbs)
      have hb : isDigit b = true := isDigit_of_mem_digits (n := n.natAbs) (by simp [hy])
      have habs : ((n.natAbs : Nat) : Int) = n := by omega
      refine ⟨b, y, by rw [fmtInt_eq, if_neg hn, hy], ?_, ?_⟩
      · simp [isBlank, isDigit_ne hb]
      · simp only [lexToken, isDigit_ne hb, hb, if_true, if_false, ← List.cons_append, ← hy]
        rw [hspan.1, hspan.2, decimal_digits, habs]

/-- No two numbers stand next to each other. -/
def Apart : List Token → Prop
  | .int _ :: .int _ :: _ => False
  | _ :: ts => Apart ts
  | [] => True

theorem Apart.tail {tk : Token} {ts : List Token} (h : Apart (tk :: ts)) : Apart ts := by
  cases tk with
  | int n =>
    cases ts with
    | nil => trivial
    | cons tk' ts =>
      cases tk' with
      | int m => exact absurd h id
      | _ => exact h
  | _ => exact h

theorem ends_of_white {g : List UInt8} (hg : White g) (hne : g ≠ []) (r : List UInt8) :
    Ends (g ++ r) := by
  cases g with
  | nil => exact absurd rfl hne
  | cons c g =>
    intro b hb
    cases hb
    cases hd : isDigit c with
    | false => rfl
    | true =>
      have hne := isDigit_ne hd
      have hc := hg c (List.mem_cons_self ..)
      simp [isBlank, hne] at hc

/-- A text does not begin with a digit unless it begins with a number. -/
theorem ends_of_spelled {tk : Token} {ts : List Token} {t : List UInt8}
    (h : Spelled Raw White (tk :: ts) t) (hne : ∀ n, tk ≠ .int n) : Ends t := by
  have hlexeme : ∀ x y, Lexeme Raw tk x → Ends (x ++ y) := by
    intro x y hx b hb
    cases hx with
    | int n => exact absurd rfl (hne n)
    | bool c =>
      cases c with
      | true => cases hb; rfl
      | false => cases hb; rfl
    | _ => cases hb; rfl
  cases h with
  | one hx =>
    have h := hlexeme _ [] hx
    rwa [List.append_nil] at h
  | cons hx _ _ => exact hlexeme _ _ hx

theorem lex_white {g : List UInt8} (hg : White g) (n : Nat) (t : List UInt8) :
    lex (n + g.length) (g ++ t) = lex n t := by
  induction g with
  | nil => rfl
  | cons b g ih =>
    rw [List.length_cons, ← Nat.add_assoc, List.cons_append, lex,
      if_pos (hg b (List.mem_cons_self ..))]
    exact ih fun c hc => hg c (List.mem_cons_of_mem _ hc)

theorem lex_mono {n m : Nat} (h : n ≤ m) {t : List UInt8} {ts : List Token}
    (ht : lex n t = some ts) : lex m t = some ts := by
  induction n generalizing m t ts with
  | zero => cases ht
  | succ n ih =>
    obtain ⟨m, rfl⟩ := Nat.exists_eq_add_of_le' (Nat.lt_of_lt_of_le (Nat.succ_pos n) h)
    have hle : n ≤ m := by omega
    cases t with
    | nil => exact ht
    | cons b r =>
      rw [lex] at ht ⊢
      split at ht
      · rename_i hb
        rw [if_pos hb]
        exact ih hle ht
      · rename_i hb
        rw [if_neg hb]
        obtain ⟨p, hp, hts⟩ := Option.bind_eq_some_iff.mp ht
        obtain ⟨ts', hts', rfl⟩ := Option.map_eq_some_iff.mp hts
        rw [hp, Option.bind_some, ih hle hts']
        rfl

/-- A text is cut into the tokens it spells. -/
theorem lex_spelled {ts : List Token} {t : List UInt8} (h : Spelled Raw White ts t)
    (ha : Apart ts) : lex (t.length + 1) t = some ts := by
  induction h with
  | @one tk x hx =>
    have hends : ∀ n, tk = .int n → Ends [] := fun _ _ b hb => by cases hb
    obtain ⟨b, y, rfl, hb, hlex⟩ := lexToken_lexeme hx hends
    rw [List.append_nil] at hlex
    rw [lex, hb, if_neg (by decide), hlex, Option.bind_some]
    rfl
  | @cons tk ts x g t hx hg ht ih =>
    have hends : ∀ n, tk = .int n → Ends (g ++ t) := by
      rintro n rfl
      by_cases hne : g = []
      · subst hne
        cases ts with
        | nil => cases ht
        | cons tk' ts =>
          refine ends_of_spelled ht ?_
          rintro m rfl
          exact absurd ha id
      · exact ends_of_white hg hne t
    obtain ⟨b, y, rfl, hb, hlex⟩ := lexToken_lexeme hx hends
    have hrest : lex (y.length + (g.length + t.length) + 1) (g ++ t) = some ts := by
      refine lex_mono ?_ ((lex_white hg (t.length + 1) t).trans (ih ha.tail))
      omega
    rw [List.cons_append, List.length_cons, List.length_append, List.length_append, lex, hb,
      if_neg (by decide), hlex, Option.bind_some]
    simp only [hrest]
    rfl

/-! ## Reading tokens -/

mutual

def readValue : Nat → List Token → Option (Json × List Token)
  | 0, _ => none
  | n + 1, tk :: ts =>
    match tk with
    | .null => some (.null, ts)
    | .bool b => some (.bool b, ts)
    | .int k => some (.int k, ts)
    | .str s => some (.str s, ts)
    | .lbrace => (readObject n ts).map fun p => (.obj p.1, p.2)
    | _ => none
  | _ + 1, [] => none

/-- The members up to the brace that closes them; a comma is passed over. -/
def readObject : Nat → List Token → Option (Members × List Token)
  | 0, _ => none
  | _ + 1, .rbrace :: ts => some (.nil, ts)
  | n + 1, .comma :: ts => readObject n ts
  | n + 1, .str k :: .colon :: ts =>
    (readValue n ts).bind fun p => (readObject n p.2).map fun q => (.cons k p.1 q.1, q.2)
  | _ + 1, _ => none

end

mutual

theorem readValue_tokens : ∀ (j : Json) (n : Nat) (ts : List Token), j.tokens.length ≤ n →
    readValue n (j.tokens ++ ts) = some (j, ts)
  | .null, n + 1, _, _ => rfl
  | .bool _, n + 1, _, _ => rfl
  | .int _, n + 1, _, _ => rfl
  | .str _, n + 1, _, _ => rfl
  | .obj ms, n + 1, ts, h => by
    have hle : ms.tokens.length ≤ n := Nat.le_of_succ_le_succ h
    rw [Json.tokens, List.cons_append, readValue, readObject_tokens ms n ts hle]
    rfl

theorem readObject_tokens : ∀ (ms : Members) (n : Nat) (ts : List Token), ms.tokens.length ≤ n →
    readObject n (ms.tokens ++ ts) = some (ms, ts)
  | .nil, n + 1, _, _ => rfl
  | .cons k v rest, n + 1, ts, h => by
    have hlen : v.tokens.length + rest.sep.length + rest.tokens.length + 1 ≤ n := by
      rw [Members.tokens] at h
      simp only [List.length_cons, List.length_append] at h
      omega
    rw [Members.tokens, List.cons_append, List.cons_append, readObject, List.append_assoc,
      readValue_tokens v n _ (by omega), Option.bind_some]
    -- the comma takes a step of its own
    have hrest : readObject n (rest.sep ++ rest.tokens ++ ts) = some (rest, ts) := by
      cases rest with
      | nil => exact readObject_tokens .nil n ts (by omega)
      | cons k' v' rest =>
        obtain ⟨m, rfl⟩ := Nat.exists_eq_add_of_le' (Nat.lt_of_lt_of_le (Nat.succ_pos _) hlen)
        have hsep : (Members.cons k' v' rest).sep.length = 1 := rfl
        exact readObject_tokens (.cons k' v' rest) m ts (by omega)
    rw [hrest]
    rfl

end

/-! ## Matching braces -/

/-- How many more braces are opened than closed, outside string literals. -/
def braces : Scan → List UInt8 → Int
  | _, [] => 0
  | st, c :: t =>
    (if st = .outside then if c = 123 then 1 else if c = 125 then -1 else 0 else 0)
      + braces (st.next c) t

def Token.level : Token → Int
  | .lbrace => 1
  | .rbrace => -1
  | _ => 0

def levels (ts : List Token) : Int := (ts.map Token.level).sum

theorem levels_append (ts us : List Token) : levels (ts ++ us) = levels ts + levels us := by
  simp [levels]

theorem levels_cons (tk : Token) (ts : List Token) : levels (tk :: ts) = tk.level + levels ts := by
  simp [levels]

theorem braces_append (st : Scan) (a b : List UInt8) :
    braces st (a ++ b) = braces st a + braces (a.foldl Scan.next st) b := by
  induction a generalizing st with
  | nil => simp [braces]
  | cons c a ih =>
    rw [List.cons_append, braces, braces, ih, List.foldl_cons, Int.add_assoc]

/-- Bytes that are neither braces nor quotes. -/
theorem braces_outside {x : List UInt8} (hx : ∀ b ∈ x, b ≠ 123 ∧ b ≠ 125 ∧ b ≠ 34) :
    braces .outside x = 0 ∧ x.foldl Scan.next .outside = .outside := by
  induction x with
  | nil => exact ⟨rfl, rfl⟩
  | cons c x ih =>
    obtain ⟨ho, hc, hq⟩ := hx c (List.mem_cons_self ..)
    obtain ⟨hsum, hend⟩ := ih fun b hb => hx b (List.mem_cons_of_mem _ hb)
    have hnext : Scan.next .outside c = .outside := if_neg hq
    rw [braces, List.foldl_cons, hnext, hsum, hend]
    simp [ho, hc]

/-- Nothing inside a literal counts. -/
theorem braces_body {s t : List UInt8} (h : Body Raw s t) :
    (∀ p, p <+: t → braces .inside p = 0) ∧ t.foldl Scan.next .inside = .inside := by
  induction h with
  | nil =>
    refine ⟨fun p hp => ?_, rfl⟩
    rw [List.prefix_nil.mp hp]
    rfl
  | @cons b e s t he _ ih =>
    have hplain : b ≠ 34 → b ≠ 92 → (∀ p, p <+: b :: t → braces .inside p = 0)
        ∧ (b :: t).foldl Scan.next .inside = .inside := by
      intro hq hb
      have hnext : Scan.next .inside b = .inside := by simp [Scan.next, hq, hb]
      refine ⟨fun p hp => ?_, by rw [List.foldl_cons, hnext, ih.2]⟩
      cases p with
      | nil => rfl
      | cons c p =>
        obtain ⟨rfl, hp₁⟩ := List.cons_prefix_cons.mp hp
        rw [braces, hnext, ih.1 p hp₁]
        rfl
    rcases he with he | ⟨rfl, rfl⟩
    · cases he with
      | plain _ hq hb => exact hplain hq hb
      | escaped _ =>
        refine ⟨fun p hp => ?_, ih.2⟩
        cases p with
        | nil => rfl
        | cons c p =>
          obtain ⟨rfl, hp₁⟩ := List.cons_prefix_cons.mp hp
          cases p with
          | nil => rfl
          | cons d p =>
            obtain ⟨rfl, hp₂⟩ := List.cons_prefix_cons.mp hp₁
            have hrest := ih.1 p hp₂
            simpa [braces, Scan.next] using hrest
    · exact hplain (by decide) (by decide)

theorem fmtInt_bytes (n : Int) : ∀ b ∈ fmtInt n, b ≠ 123 ∧ b ≠ 125 ∧ b ≠ 34 := by
  have hdigit : ∀ b ∈ digits n.natAbs, b ≠ 123 ∧ b ≠ 125 ∧ b ≠ 34 := by
    intro b hb
    have hne := isDigit_ne (isDigit_of_mem_digits hb)
    exact ⟨hne.1, hne.2.1, hne.2.2.2.2.1⟩
  rw [fmtInt_eq]
  split
  · intro b hb
    rcases List.mem_cons.mp hb with rfl | hb
    · decide
    · exact hdigit b hb
  · exact hdigit

/-- A lexeme counts as its token does, and nothing of it counts before it is complete. -/
theorem braces_lexeme {tk : Token} {x : List UInt8} (h : Lexeme Raw tk x) :
    braces .outside x = tk.level ∧ x.foldl Scan.next .outside = .outside
      ∧ ∀ p, p <+: x → p ≠ x → braces .outside p = 0 := by
  have hother : (∀ b ∈ x, b ≠ 123 ∧ b ≠ 125 ∧ b ≠ 34) → tk.level = 0 →
      braces .outside x = tk.level ∧ x.foldl Scan.next .outside = .outside
        ∧ ∀ p, p <+: x → p ≠ x → braces .outside p = 0 := by
    intro hx h0
    obtain ⟨hsum, hend⟩ := braces_outside hx
    exact ⟨hsum.trans h0.symm, hend,
      fun p hp _ => (braces_outside fun b hb => hx b (hp.subset hb)).1⟩
  have hsingle : ∀ c : UInt8, x = [c] → ∀ p, p <+: x → p ≠ x → braces .outside p = 0 := by
    rintro c rfl p hp hne
    cases p with
    | nil => rfl
    | cons d p =>
      obtain ⟨rfl, hp₁⟩ := List.cons_prefix_cons.mp hp
      exact absurd (by rw [List.prefix_nil.mp hp₁]) hne
  cases h with
  | lbrace => exact ⟨rfl, rfl, hsingle 123 rfl⟩
  | rbrace => exact ⟨rfl, rfl, hsingle 125 rfl⟩
  | colon => exact hother (List.all_iff_forall_prop.mp rfl) rfl
  | comma => exact hother (List.all_iff_forall_prop.mp rfl) rfl
  | null => exact hother (List.all_iff_forall_prop.mp rfl) rfl
  | bool b =>
    apply hother _ rfl
    cases b with
    | false => exact List.all_iff_forall_prop.mp rfl
    | true => exact List.all_iff_forall_prop.mp rfl
  | int n => exact hother (fmtInt_bytes n) rfl
  | @str s t h =>
    obtain ⟨hpre, hend⟩ := braces_body h
    have hin : ∀ p, p <+: t ++ [34] → braces .inside p = 0 := by
      intro p hp
      rcases List.prefix_concat_iff.mp hp with rfl | hp
      · rw [braces_append, hpre t (List.prefix_refl t), hend]
        rfl
      · exact hpre p hp
    refine ⟨?_, ?_, fun p hp _ => ?_⟩
    · rw [braces]
      exact (Int.zero_add _).trans (hin _ (List.prefix_refl _))
    · rw [List.foldl_cons, List.foldl_append, show Scan.next .outside 34 = .inside from rfl, hend]
      rfl
    · cases p with
      | nil => rfl
      | cons c p =>
        obtain ⟨rfl, hp₁⟩ := List.cons_prefix_cons.mp hp
        exact (Int.zero_add _).trans (hin _ hp₁)

theorem braces_white {g : List UInt8} (hg : White g) :
    braces .outside g = 0 ∧ g.foldl Scan.next .outside = .outside := by
  apply braces_outside
  intro b hb
  have hblank := hg b hb
  refine ⟨?_, ?_, ?_⟩
  · rintro rfl
    exact absurd hblank (by decide)
  · rintro rfl
    exact absurd hblank (by decide)
  · rintro rfl
    exact absurd hblank (by decide)

theorem prefix_append_cases {p a b : List UInt8} (h : p <+: a ++ b) :
    p <+: a ∨ ∃ q, p = a ++ q ∧ q <+: b := by
  obtain ⟨r, hr⟩ := h
  rcases List.append_eq_append_iff.mp hr with ⟨a', ha, -⟩ | ⟨c', hc, hb⟩
  · exact .inl ⟨a', ha.symm⟩
  · exact .inr ⟨c', hc, ⟨r, hb.symm⟩⟩

/-- A text counts as its tokens do, and a text that is cut counts as some of the tokens before the
last one do. -/
theorem braces_spelled {ts : List Token} {t : List UInt8} (h : Spelled Raw White ts t) :
    braces .outside t = levels ts
      ∧ ∀ p, p <+: t → p ≠ t → ∃ k < ts.length, braces .outside p = levels (ts.take k) := by
  induction h with
  | one hx =>
    obtain ⟨hsum, -, hpre⟩ := braces_lexeme hx
    exact ⟨hsum.trans (Int.add_zero _).symm, fun p hp hne => ⟨0, by simp, hpre p hp hne⟩⟩
  | @cons tk ts x g t hx hg ht ih =>
    obtain ⟨hsum, hend, hpre⟩ := braces_lexeme hx
    obtain ⟨hgap, hgend⟩ := braces_white hg
    have happend : ∀ y, braces .outside (x ++ (g ++ y)) = tk.level + braces .outside y := by
      intro y
      rw [braces_append, hsum, hend, braces_append, hgap, hgend, Int.zero_add]
    have hpos : 0 < ts.length := by
      cases ts with
      | nil => cases ht
      | cons => simp
    refine ⟨by rw [happend, ih.1, levels_cons], fun p hp hne => ?_⟩
    rcases prefix_append_cases hp with hp | ⟨p₁, rfl, hp₁⟩
    · by_cases hpx : p = x
      · refine ⟨1, by simpa using hpos, ?_⟩
        rw [hpx, hsum]
        simp [levels]
      · exact ⟨0, by simp, hpre p hp hpx⟩
    · rcases prefix_append_cases hp₁ with hp₂ | ⟨p₂, rfl, hp₂⟩
      · refine ⟨1, by simpa using hpos, ?_⟩
        have hblank := (braces_white (g := p₁) fun b hb => hg b (hp₂.subset hb)).1
        rw [braces_append, hsum, hend, hblank]
        simp [levels]
      · obtain ⟨k, hk, hsum₂⟩ := ih.2 p₂ hp₂ fun heq => hne (by rw [heq])
        refine ⟨k + 1, by simpa using hk, ?_⟩
        rw [happend, hsum₂, List.take_succ_cons, levels_cons]

/-- Every part of the tokens opens at least as many braces as it closes; together they match. -/
def Balanced (ts : List Token) : Prop := levels ts = 0 ∧ ∀ k, 0 ≤ levels (ts.take k)

theorem balanced_nil : Balanced [] := ⟨rfl, fun k => by simp [levels]⟩

theorem Balanced.append {ts us : List Token} (ht : Balanced ts) (hu : Balanced us) :
    Balanced (ts ++ us) := by
  refine ⟨by rw [levels_append, ht.1, hu.1]; rfl, fun k => ?_⟩
  rw [List.take_append, levels_append]
  exact Int.add_nonneg (ht.2 k) (hu.2 _)

theorem Balanced.cons {tk : Token} {ts : List Token} (h0 : tk.level = 0) (h : Balanced ts) :
    Balanced (tk :: ts) := by
  refine ⟨by rw [levels_cons, h0, h.1]; rfl, fun k => ?_⟩
  cases k with
  | zero => simp [levels]
  | succ k =>
    rw [List.take_succ_cons, levels_cons, h0, Int.zero_add]
    exact h.2 k

/-- The tokens of the members without the brace that closes them. -/
def Members.inner : Members → List Token
  | .nil => []
  | .cons key value rest => .str key :: .colon :: (value.tokens ++ (rest.sep ++ rest.inner))

theorem Members.tokens_eq (ms : Members) : ms.tokens = ms.inner ++ [.rbrace] := by
  induction ms using Members.inner.induct with
  | case1 => rfl
  | case2 key value rest ih => simp [Members.tokens, Members.inner, ih]

theorem balanced_object {ts : List Token} (h : Balanced ts) :
    Balanced (.lbrace :: (ts ++ [.rbrace])) := by
  constructor
  · rw [levels_cons, levels_append, h.1]
    rfl
  · intro k
    cases k with
    | zero => simp [levels]
    | succ k =>
      rw [List.take_succ_cons, levels_cons, List.take_append, levels_append]
      have hpre := h.2 k
      have hlast : -1 ≤ levels ([Token.rbrace].take (k - ts.length)) := by
        cases k - ts.length with
        | zero => simp [levels]
        | succ m => simp [levels, Token.level]
      have hone : Token.lbrace.level = 1 := rfl
      omega

mutual

theorem balanced_tokens : ∀ j : Json, Balanced j.tokens
  | .null => balanced_nil.cons rfl
  | .bool _ => balanced_nil.cons rfl
  | .int _ => balanced_nil.cons rfl
  | .str _ => balanced_nil.cons rfl
  | .obj ms => by
    rw [Json.tokens, ms.tokens_eq]
    exact balanced_object (balanced_inner ms)

theorem balanced_inner : ∀ ms : Members, Balanced ms.inner
  | .nil => balanced_nil
  | .cons key value rest => by
    have hsep : Balanced rest.sep := by
      cases rest with
      | nil => exact balanced_nil
      | cons => exact balanced_nil.cons rfl
    exact (((balanced_tokens value).append (hsep.append (balanced_inner rest))).cons rfl).cons rfl

end

/-- The text of an object that ends early has a brace that is not closed. -/
theorem braces_cut {ms : Members} {t p : List UInt8}
    (h : Spelled Raw White (Json.obj ms).tokens t) (hp : p <+: t) (hne : p ≠ t) (hnil : p ≠ []) :
    braces .outside p ≠ 0 := by
  rw [Json.tokens] at h
  generalize hts : ms.tokens = ts at h
  cases h with
  | one hx =>
    have hlast := ms.getLast?_tokens
    rw [hts] at hlast
    cases hlast
  | @cons _ _ _ g t hx hg ht =>
    subst hts
    cases hx
    obtain ⟨c, p, rfl⟩ := List.exists_cons_of_ne_nil hnil
    obtain ⟨rfl, hp₁⟩ := List.cons_prefix_cons.mp hp
    change p <+: g ++ t at hp₁
    have hpos : 0 ≤ braces .outside p := by
      rcases prefix_append_cases hp₁ with hp₂ | ⟨q, rfl, hp₂⟩
      · rw [(braces_white fun b hb => hg b (hp₂.subset hb)).1]
      · obtain ⟨hgap, hgend⟩ := braces_white hg
        rw [braces_append, hgap, hgend, Int.zero_add]
        obtain ⟨k, hk, hsum⟩ := (braces_spelled ht).2 q hp₂ fun heq => hne (by rw [heq]; rfl)
        rw [hsum, ms.tokens_eq, List.take_append_of_le_length]
        · exact (balanced_inner ms).2 k
        · rw [ms.tokens_eq, List.length_append, List.length_singleton] at hk
          omega
    rw [braces]
    have hone : braces (Scan.next .outside 123) p = braces .outside p := rfl
    rw [hone]
    simp only [if_true]
    omega

/-! ## The library -/

theorem apart_cons {tk : Token} {ts : List Token} (hne : ∀ n, tk ≠ .int n) (h : Apart ts) :
    Apart (tk :: ts) := by
  cases tk with
  | int n => exact absurd rfl (hne n)
  | _ => exact h

theorem apart_int {n : Int} {tk : Token} {ts : List Token} (hne : ∀ m, tk ≠ .int m)
    (h : Apart (tk :: ts)) : Apart (.int n :: tk :: ts) := by
  cases tk with
  | int m => exact absurd rfl (hne m)
  | _ => exact h

mutual

theorem apart_tokens : ∀ (j : Json) {tk : Token} {ts : List Token}, (∀ n, tk ≠ .int n) →
    Apart (tk :: ts) → Apart (j.tokens ++ tk :: ts)
  | .null, _, _, _, h => apart_cons (by simp) h
  | .bool _, _, _, _, h => apart_cons (by simp) h
  | .int _, _, _, hne, h => apart_int hne h
  | .str _, _, _, _, h => apart_cons (by simp) h
  | .obj ms, _, _, hne, h => apart_cons (by simp) (apart_members ms hne h)

theorem apart_members : ∀ (ms : Members) {tk : Token} {ts : List Token}, (∀ n, tk ≠ .int n) →
    Apart (tk :: ts) → Apart (ms.tokens ++ tk :: ts)
  | .nil, _, _, _, h => apart_cons (by simp) h
  | .cons key value rest, tk, ts, hne, h => by
    have hrest := apart_members rest hne h
    have hbehind : ∃ tk' us, rest.sep ++ rest.tokens ++ tk :: ts = tk' :: us
        ∧ (∀ n, tk' ≠ .int n) ∧ Apart (tk' :: us) := by
      cases rest with
      | nil => exact ⟨_, _, rfl, by simp, hrest⟩
      | cons k v ms => exact ⟨_, _, rfl, by simp, apart_cons (by simp) hrest⟩
    obtain ⟨tk', us, heq, hne', hus⟩ := hbehind
    rw [Members.tokens, List.cons_append, List.cons_append, List.append_assoc, heq]
    exact apart_cons (by simp) (apart_cons (by simp) (apart_tokens value hne' hus))

end

theorem Apart.of_append {ts us : List Token} (h : Apart (ts ++ us)) : Apart ts := by
  induction ts with
  | nil => trivial
  | cons tk ts ih =>
    have hrest := ih h.tail
    cases ts with
    | nil => cases tk <;> trivial
    | cons tk' ts =>
      by_cases hint : (∃ n, tk = .int n) ∧ ∃ m, tk' = .int m
      · obtain ⟨⟨n, rfl⟩, m, rfl⟩ := hint
        exact absurd h id
      · by_cases hn : ∃ n, tk = .int n
        · obtain ⟨n, rfl⟩ := hn
          exact apart_int (fun m hm => hint ⟨⟨n, rfl⟩, m, hm⟩) hrest
        · exact apart_cons (fun n hm => hn ⟨n, hm⟩) hrest

theorem apart_json (j : Json) : Apart j.tokens := by
  have h : Apart (j.tokens ++ [.rbrace]) := apart_tokens j (by simp) trivial
  exact h.of_append

/-- The printer and the reader. -/
def plainLibrary : JsonLibrary where
  print j := printTokens j.tokens
  parse t :=
    if braces .outside t = 0 then
      (lex (t.length + 1) t).bind fun ts => (readValue ts.length ts).map Prod.fst
    else none

theorem parse_plainLibrary {j : Json} {t : List UInt8} (h : Spelled Raw White j.tokens t) :
    plainLibrary.parse t = some j := by
  have hbraces : braces .outside t = 0 := (braces_spelled h).1.trans (balanced_tokens j).1
  have hread := readValue_tokens j j.tokens.length [] (Nat.le_refl _)
  rw [List.append_nil] at hread
  simp only [plainLibrary, hbraces, if_true, lex_spelled h (apart_json j), Option.bind_some, hread]
  rfl

theorem plainLibrary_lawful : plainLibrary.Lawful where
  print_spells j _ _ hp := by
    apply printTokens_spelled _ hp
    cases j with
    | _ => simp [Json.tokens]
  parse_spelled j t _ _ h := parse_plainLibrary (h.mono (fun _ _ he => .inl he) fun _ hg => hg)
  parse_raw j t _ _ h := .inl (parse_plainLibrary h)
  parse_cut ms t p h hp hne := by
    by_cases hnil : p = []
    · subst hnil
      rfl
    · simp only [plainLibrary, if_neg (braces_cut h hp hne hnil)]

end VdCamera.Misc
