import VdCamera.Misc.Decimal

/-!
# JSON texts

Values, the tokens they are made of and the texts that spell the tokens. How the byte of a string
is written and what stands between two tokens are parameters of the spelling, so that one relation
says what a printer writes and what a reader has to accept.
-/

namespace VdCamera.Misc

mutual

/-- A value; a string is the bytes it stands for. -/
inductive Json
  | null
  | bool (b : Bool)
  | int (n : Int)
  | str (s : List UInt8)
  | obj (ms : Members)

inductive Members
  | nil
  | cons (key : List UInt8) (value : Json) (rest : Members)

end

inductive Token
  | lbrace
  | rbrace
  | colon
  | comma
  | null
  | bool (b : Bool)
  | int (n : Int)
  | str (s : List UInt8)
deriving DecidableEq

def Members.sep : Members → List Token
  | .nil => []
  | .cons _ _ _ => [.comma]

mutual

def Json.tokens : Json → List Token
  | .null => [.null]
  | .bool b => [.bool b]
  | .int n => [.int n]
  | .str s => [.str s]
  | .obj ms => .lbrace :: ms.tokens

/-- The members with the brace that closes them. -/
def Members.tokens : Members → List Token
  | .nil => [.rbrace]
  | .cons key value rest => .str key :: .colon :: (value.tokens ++ (rest.sep ++ rest.tokens))

end

def Members.keys : Members → List (List UInt8)
  | .nil => []
  | .cons key _ rest => key :: rest.keys

mutual

/-- Its objects lie at most so deep in each other, and none has two members of one name. -/
def Json.nests : Json → Nat → Bool
  | .obj _, 0 => false
  | .obj ms, depth + 1 => decide ms.keys.Nodup && ms.nests depth
  | _, _ => true

def Members.nests : Members → Nat → Bool
  | .nil, _ => true
  | .cons _ value rest, depth => value.nests depth && rest.nests depth

end

def isPrintable (b : UInt8) : Bool := 32 ≤ b && b ≠ 127

/-- An integer is one of 32 bits. -/
def Token.InRange : Token → Prop
  | .int n => -2 ^ 31 ≤ n ∧ n < 2 ^ 31
  | _ => True

/-- A string is made of printable bytes. -/
def Token.Printable : Token → Prop
  | .str s => ∀ b ∈ s, isPrintable b = true
  | _ => True

/-- How a byte is written inside a string literal. -/
inductive Written : UInt8 → List UInt8 → Prop
  | plain (b : UInt8) (hp : isPrintable b = true) (hq : b ≠ 34) (hb : b ≠ 92) : Written b [b]
  | escaped (b : UInt8) (h : b = 34 ∨ b = 92 ∨ b = 47) : Written b [92, b]

/-- The same, with line feeds that stand in a literal as they are. -/
def Raw (b : UInt8) (e : List UInt8) : Prop := Written b e ∨ b = 10 ∧ e = [10]

def isBlank (b : UInt8) : Bool := b = 32 || b = 10

/-- Any white space between two tokens. -/
def White (g : List UInt8) : Prop := ∀ b ∈ g, isBlank b = true

/-- At most one blank between two tokens. -/
def Spaced (g : List UInt8) : Prop := g = [] ∨ g = [32]

section

variable (W : UInt8 → List UInt8 → Prop) (G : List UInt8 → Prop)

/-- What a string looks like between its quotes. -/
inductive Body : List UInt8 → List UInt8 → Prop
  | nil : Body [] []
  | cons {b : UInt8} {e s t : List UInt8} (he : W b e) (ht : Body s t) : Body (b :: s) (e ++ t)

inductive Lexeme : Token → List UInt8 → Prop
  | lbrace : Lexeme .lbrace [123]
  | rbrace : Lexeme .rbrace [125]
  | colon : Lexeme .colon [58]
  | comma : Lexeme .comma [44]
  | null : Lexeme .null (ascii "null")
  | bool (b : Bool) : Lexeme (.bool b) (if b then ascii "true" else ascii "false")
  | int (n : Int) : Lexeme (.int n) (fmtInt n)
  | str {s t : List UInt8} (h : Body W s t) : Lexeme (.str s) (34 :: (t ++ [34]))

/-- A text is the tokens one after another with gaps between them. -/
inductive Spelled : List Token → List UInt8 → Prop
  | one {tk : Token} {x : List UInt8} (hx : Lexeme W tk x) : Spelled [tk] x
  | cons {tk : Token} {ts : List Token} {x g t : List UInt8} (hx : Lexeme W tk x) (hg : G g)
      (ht : Spelled ts t) : Spelled (tk :: ts) (x ++ (g ++ t))

end

variable {W W' : UInt8 → List UInt8 → Prop} {G G' : List UInt8 → Prop}

theorem Body.mono (hW : ∀ b e, W b e → W' b e) {s t : List UInt8} (h : Body W s t) :
    Body W' s t := by
  induction h with
  | nil => exact .nil
  | cons he _ ih => exact .cons (hW _ _ he) ih

theorem Body.append {s s' t t' : List UInt8} (h : Body W s t) (h' : Body W s' t') :
    Body W (s ++ s') (t ++ t') := by
  induction h with
  | nil => exact h'
  | cons he _ ih =>
    rw [List.cons_append, List.append_assoc]
    exact .cons he ih

theorem Lexeme.mono (hW : ∀ b e, W b e → W' b e) {tk : Token} {x : List UInt8}
    (h : Lexeme W tk x) : Lexeme W' tk x := by
  cases h with
  | str h => exact .str (h.mono hW)
  | lbrace => exact .lbrace
  | rbrace => exact .rbrace
  | colon => exact .colon
  | comma => exact .comma
  | null => exact .null
  | bool b => exact .bool b
  | int n => exact .int n

theorem Spelled.mono (hW : ∀ b e, W b e → W' b e) (hG : ∀ g, G g → G' g) {ts : List Token}
    {t : List UInt8} (h : Spelled W G ts t) : Spelled W' G' ts t := by
  induction h with
  | one hx => exact .one (hx.mono hW)
  | cons hx hg _ ih => exact .cons (hx.mono hW) (hG _ hg) ih

theorem Spaced.white {g : List UInt8} (h : Spaced g) : White g := by
  rcases h with rfl | rfl
  · intro b hb
    simp at hb
  · intro b hb
    rw [List.mem_singleton.mp hb]
    rfl

theorem White.append {g g' : List UInt8} (h : White g) (h' : White g') : White (g ++ g') := by
  intro b hb
  rcases List.mem_append.mp hb with hb | hb
  · exact h b hb
  · exact h' b hb

theorem Lexeme.ne_nil {tk : Token} {x : List UInt8} (h : Lexeme W tk x) : x ≠ [] := by
  cases h with
  | int n => exact fmtInt_ne_nil n
  | bool b => cases b <;> decide
  | null => decide
  | _ => exact List.cons_ne_nil _ _

theorem Spelled.ne_nil {ts : List Token} {t : List UInt8} (h : Spelled W G ts t) : t ≠ [] := by
  cases h with
  | one hx => exact hx.ne_nil
  | cons hx _ _ => exact List.append_ne_nil_of_left_ne_nil hx.ne_nil _

/-- What is a byte of its own in a raw literal is written as in any other when it is printable. -/
theorem Body.written {s t : List UInt8} (h : Body Raw s t) (hs : ∀ b ∈ s, isPrintable b = true) :
    Body Written s t := by
  induction h with
  | nil => exact .nil
  | @cons b e s t he _ ih =>
    refine .cons ?_ (ih fun b hb => hs b (List.mem_cons_of_mem _ hb))
    rcases he with he | ⟨rfl, -⟩
    · exact he
    · exact absurd (hs 10 (List.mem_cons_self ..)) (by decide)

theorem Lexeme.written {tk : Token} {x : List UInt8} (h : Lexeme Raw tk x) (hp : tk.Printable) :
    Lexeme Written tk x := by
  cases h with
  | str h => exact .str (h.written hp)
  | lbrace => exact .lbrace
  | rbrace => exact .rbrace
  | colon => exact .colon
  | comma => exact .comma
  | null => exact .null
  | bool b => exact .bool b
  | int n => exact .int n

theorem Spelled.written {ts : List Token} {t : List UInt8} (h : Spelled Raw G ts t)
    (hp : ∀ tk ∈ ts, tk.Printable) : Spelled Written G ts t := by
  induction h with
  | one hx => exact .one (hx.written (hp _ (List.mem_cons_self ..)))
  | cons hx hg _ ih =>
    exact .cons (hx.written (hp _ (List.mem_cons_self ..))) hg
      (ih fun tk htk => hp tk (List.mem_cons_of_mem _ htk))

/-- No lexeme of a token is longer. -/
def Token.width : Token → Nat
  | .int n => (fmtInt n).length
  | .str s => 2 * s.length + 2
  | _ => 5

theorem Body.length_le {s t : List UInt8} (h : Body Written s t) : t.length ≤ 2 * s.length := by
  induction h with
  | nil => simp
  | cons he _ ih =>
    rw [List.length_append, List.length_cons]
    cases he with
    | plain => simp only [List.length_singleton]; omega
    | escaped => simp only [List.length_cons, List.length_nil]; omega

theorem Lexeme.length_le {tk : Token} {x : List UInt8} (h : Lexeme Written tk x) :
    x.length ≤ tk.width := by
  cases h with
  | str h =>
    have hle := h.length_le
    simp only [List.length_cons, List.length_append, List.length_nil, Token.width]
    omega
  | int n => exact Nat.le_refl _
  | bool b => cases b <;> decide
  | _ => simp [Token.width, ascii]

theorem Spelled.length_le {ts : List Token} {t : List UInt8} (h : Spelled Written Spaced ts t)
    {w : Nat} (hw : ∀ tk ∈ ts, tk.width ≤ w) : t.length ≤ ts.length * (w + 1) := by
  induction h with
  | one hx =>
    have hle := hx.length_le
    have hwx := hw _ (List.mem_cons_self ..)
    simp only [List.length_singleton]
    omega
  | @cons tk ts x g t hx hg _ ih =>
    have hle := hx.length_le
    have hwx := hw _ (List.mem_cons_self ..)
    have hrest := ih fun tk htk => hw tk (List.mem_cons_of_mem _ htk)
    have hgap : g.length ≤ 1 := by
      rcases hg with rfl | rfl
      · simp
      · simp
    rw [List.length_append, List.length_append, List.length_cons, Nat.succ_mul]
    omega

/-- The text of an object ends with the brace that closes it. -/
theorem Members.getLast?_tokens : ∀ ms : Members, ms.tokens.getLast? = some .rbrace
  | .nil => rfl
  | .cons key value rest => by
    have hne : value.tokens ++ (rest.sep ++ rest.tokens) ≠ [] := by
      intro h
      have hnil := (List.append_eq_nil_iff.mp (List.append_eq_nil_iff.mp h).2).2
      have hlast := getLast?_tokens rest
      rw [hnil] at hlast
      cases hlast
    rw [Members.tokens, List.getLast?_cons_of_ne_nil (List.cons_ne_nil _ _),
      List.getLast?_cons_of_ne_nil hne, List.getLast?_append, List.getLast?_append,
      getLast?_tokens rest]
    rfl

theorem Json.getLast?_tokens_obj (ms : Members) :
    (Json.obj ms).tokens.getLast? = some .rbrace := by
  have hne : ms.tokens ≠ [] := by
    intro h
    have hlast := ms.getLast?_tokens
    rw [h] at hlast
    cases hlast
  rw [Json.tokens, List.getLast?_cons_of_ne_nil hne]
  exact ms.getLast?_tokens

theorem Spelled.getLast_rbrace {ts : List Token} {t : List UInt8} (h : Spelled W G ts t)
    (hlast : ts.getLast? = some .rbrace) : t.getLast? = some 125 := by
  induction h with
  | one hx =>
    cases hlast
    cases hx
    rfl
  | @cons tk ts x g t hx hg ht ih =>
    have hne : ts ≠ [] := by
      rintro rfl
      cases ht
    rw [List.getLast?_cons_of_ne_nil hne] at hlast
    rw [List.getLast?_append, List.getLast?_append, ih hlast]
    rfl

/-- The text of an object begins with its brace. -/
theorem Spelled.head_lbrace {ts : List Token} {t : List UInt8}
    (h : Spelled W G (.lbrace :: ts) t) : ∃ r, t = 123 :: r := by
  cases h with
  | one hx =>
    cases hx
    exact ⟨[], rfl⟩
  | cons hx _ _ =>
    cases hx
    exact ⟨_, rfl⟩

/-- Where a scan of a text stands. -/
inductive Scan
  | outside
  | inside
  | escaped
deriving DecidableEq

def Scan.next : Scan → UInt8 → Scan
  | .outside, c => if c = 34 then .inside else .outside
  | .inside, c => if c = 34 then .outside else if c = 92 then .escaped else .inside
  | .escaped, _ => .inside

/-- The second text is the first with white space put in, outside string literals alone. -/
inductive Blanked : Scan → List UInt8 → List UInt8 → Prop
  | nil (st : Scan) : Blanked st [] []
  | keep {st : Scan} {c : UInt8} {t t' : List UInt8} (h : Blanked (st.next c) t t') :
      Blanked st (c :: t) (c :: t')
  | blank {c : UInt8} {t t' : List UInt8} (hc : isBlank c = true) (h : Blanked .outside t t') :
      Blanked .outside t (c :: t')

/-- How many bytes of a text stand inside string literals. -/
def literalBytes : Scan → List UInt8 → Nat
  | _, [] => 0
  | st, c :: t => (if st = .outside then 0 else 1) + literalBytes (st.next c) t

theorem literalBytes_blank {c : UInt8} (hc : isBlank c = true) (t : List UInt8) :
    literalBytes .outside (c :: t) = literalBytes .outside t := by
  have hne : c ≠ 34 := by
    rintro rfl
    exact absurd hc (by decide)
  simp [literalBytes, Scan.next, hne]

theorem Blanked.literalBytes_eq {st : Scan} {t t' : List UInt8} (h : Blanked st t t') :
    literalBytes st t' = literalBytes st t := by
  induction h with
  | nil => rfl
  | keep _ ih => rw [literalBytes, literalBytes, ih]
  | blank hc _ ih => rw [literalBytes_blank hc, ih]

/-- A library that prints and parses such values. -/
structure JsonLibrary where
  print : Json → List UInt8
  parse : List UInt8 → Option Json

/-- What the documentation of such a library promises of objects in which every name stands once, and
which lie no deeper in each other than its reader goes. -/
structure JsonLibrary.Lawful (L : JsonLibrary) : Prop where
  /-- The text has its printable bytes as they are, but for the quote, the backslash and the slash,
  and at most one blank between two tokens. -/
  print_spells : ∀ j : Json, j.nests 32 = true → (∀ tk ∈ j.tokens, tk.InRange) →
    (∀ tk ∈ j.tokens, tk.Printable) → Spelled Written Spaced j.tokens (L.print j)
  /-- White space between the tokens has no meaning. -/
  parse_spelled : ∀ (j : Json) (t : List UInt8), j.nests 32 = true → (∀ tk ∈ j.tokens, tk.InRange) →
    Spelled Written White j.tokens t → L.parse t = some j
  /-- A line feed inside a literal is a part of the string, or the text is refused. -/
  parse_raw : ∀ (j : Json) (t : List UInt8), j.nests 32 = true → (∀ tk ∈ j.tokens, tk.InRange) →
    Spelled Raw White j.tokens t → L.parse t = some j ∨ L.parse t = none
  /-- The text of an object that ends early is refused. -/
  parse_cut : ∀ (ms : Members) (t p : List UInt8), Spelled Raw White (Json.obj ms).tokens t →
    p <+: t → p ≠ t → L.parse p = none

end VdCamera.Misc
