import VdCamera.JsonCpp.Reader

/-!
# What is written is read

`Reader::parse` accepts whatever `FastWriter::write` writes.
-/

namespace VdCamera.JsonCpp

open Misc (Json Members ascii fmtInt digits isDigit)

/-! ## Strings -/

/-- A hexadecimal digit ends no literal and begins no escape. -/
theorem upperHex_ne {d : UInt8} (h : d < 16) : upperHex d ≠ 34 ∧ upperHex d ≠ 92 := by
  have hall : ∀ k : Fin 16, upperHex (UInt8.ofNat k) ≠ 34 ∧ upperHex (UInt8.ofNat k) ≠ 92 := by
    decide
  have hlt : d.toNat < 16 := UInt8.lt_iff_toNat_lt.mp h
  simpa using hall ⟨d.toNat, hlt⟩

theorem hexValue_upperHex {d : UInt8} (h : d < 16) : ∃ v < 16, hexValue (upperHex d) = some v := by
  have hall : ∀ k : Fin 16, ∃ v < 16, hexValue (upperHex (UInt8.ofNat k)) = some v := by
    decide
  have hlt : d.toNat < 16 := UInt8.lt_iff_toNat_lt.mp h
  simpa using hall ⟨d.toNat, hlt⟩

theorem readString_plain {c : UInt8} (hq : c ≠ 34) (hb : c ≠ 92) (r : List UInt8) :
    readString false (c :: r) = (readString false r).map fun p => (c :: p.1, p.2) := by
  rw [readString, if_neg hq, decide_eq_false hb]

theorem readString_escapeChar (c : UInt8) (r : List UInt8) :
    readString false (escapeChar c ++ r)
      = (readString false r).map fun p => (escapeChar c ++ p.1, p.2) := by
  rcases escapeChar_cases c with ⟨hq, hb, h⟩ | ⟨k, _, h⟩ | ⟨d, hd, e, he, h⟩
  · rw [h]
    exact readString_plain hq hb r
  · rw [h]
    show ((readString false r).map _).map _ = _
    rw [Option.map_map]
    rfl
  · have hd' := upperHex_ne (UInt8.lt_trans hd (by decide))
    have he' := upperHex_ne he
    rw [h]
    show ((readString false (48 :: 48 :: upperHex d :: upperHex e :: r)).map _).map _ = _
    rw [readString_plain (by decide) (by decide), readString_plain (by decide) (by decide),
      readString_plain hd'.1 hd'.2, readString_plain he'.1 he'.2]
    simp only [Option.map_map]
    rfl

theorem readString_quoted (s r : List UInt8) :
    readString false (s.flatMap escapeChar ++ 34 :: r) = some (s.flatMap escapeChar, r) := by
  induction s with
  | nil => rfl
  | cons c s ih =>
    rw [List.flatMap_cons, List.append_assoc, readString_escapeChar, ih]
    rfl

/-- A control character's sequence stands for itself, not for a half of a pair. -/
theorem unicodeCodePoint_control {d e : UInt8} (hd : d < 2) (he : e < 16) (r : List UInt8) :
    unicodeCodePoint (48 :: 48 :: upperHex d :: upperHex e :: r) = some r := by
  obtain ⟨v, hv, hdv⟩ := hexValue_upperHex (UInt8.lt_trans hd (by decide))
  obtain ⟨w, hw, hew⟩ := hexValue_upperHex he
  have hescape : unicodeEscape (48 :: 48 :: upperHex d :: upperHex e :: r)
      = some (v * 16 + w, r) := by
    simp [unicodeEscape, hdv, hew, show hexValue 48 = some 0 from rfl]
  rw [unicodeCodePoint, hescape]
  exact if_neg (by omega)

theorem decodeString_plain {c : UInt8} (hq : c ≠ 34) (hb : c ≠ 92) (n : Nat) (r : List UInt8) :
    decodeString (n + 1) (c :: r) = decodeString n r := by
  rw [decodeString.eq_def]
  simp [hq, hb]

theorem decodeString_escape (n : Nat) (k : UInt8) (r : List UInt8) :
    decodeString (n + 1) (92 :: k :: r)
      = if k ∈ ([34, 47, 92, 98, 102, 110, 114, 116] : List UInt8) then decodeString n r
        else if k = 117 then
          match unicodeCodePoint r with
          | some r => decodeString n r
          | none => false
        else false := rfl

theorem decodeString_quoted (s : List UInt8) (n : Nat) (hn : (s.flatMap escapeChar).length ≤ n) :
    decodeString n (s.flatMap escapeChar) = true := by
  induction s generalizing n with
  | nil => cases n <;> rfl
  | cons c s ih =>
    rw [List.flatMap_cons] at hn ⊢
    rw [List.length_append] at hn
    rcases escapeChar_cases c with ⟨hq, hb, h⟩ | ⟨k, hk, h⟩ | ⟨d, hd, e, he, h⟩
    · rw [h, List.length_singleton] at hn
      obtain ⟨n, rfl⟩ := Nat.exists_eq_add_of_le' (Nat.le_trans (Nat.le_add_right 1 _) hn)
      rw [h, List.singleton_append, decodeString_plain hq hb]
      exact ih n (by omega)
    · rw [h] at hn
      obtain ⟨n, rfl⟩ := Nat.exists_eq_add_of_le' (Nat.le_trans (Nat.le_add_right 2 _) hn)
      have hmem : k ∈ ([34, 47, 92, 98, 102, 110, 114, 116] : List UInt8) := by
        have hall : ∀ k ∈ ([34, 92, 98, 102, 110, 114, 116] : List UInt8),
            k ∈ ([34, 47, 92, 98, 102, 110, 114, 116] : List UInt8) := by simp
        exact hall k hk
      rw [h]
      show decodeString (n + 1 + 1) (92 :: k :: s.flatMap escapeChar) = true
      rw [decodeString_escape, if_pos hmem]
      exact ih (n + 1) (by simp only [List.length_cons, List.length_nil] at hn; omega)
    · rw [h] at hn
      obtain ⟨n, rfl⟩ := Nat.exists_eq_add_of_le' (Nat.le_trans (Nat.le_add_right 6 _) hn)
      rw [h]
      show decodeString (n + 5 + 1)
        (92 :: 117 :: 48 :: 48 :: upperHex d :: upperHex e :: s.flatMap escapeChar) = true
      rw [decodeString_escape, if_neg (by decide), if_pos rfl, unicodeCodePoint_control hd he]
      exact ih (n + 5) (by simp only [List.length_cons, List.length_nil] at hn; omega)

theorem readToken_quoted (s r : List UInt8) :
    readToken (valueToQuotedString s ++ r)
      = (.string ((s.takeWhile (· ≠ 0)).flatMap escapeChar), r) := by
  have htoken : tokenAt 34 ((s.takeWhile (· ≠ 0)).flatMap escapeChar ++ 34 :: r)
      = (.string ((s.takeWhile (· ≠ 0)).flatMap escapeChar), r) := by
    unfold tokenAt
    rw [readString_quoted]
    rfl
  rw [valueToQuotedString, List.cons_append, List.append_assoc]
  exact htoken

/-! ## Numbers -/

/-- What follows a number is no part of it. -/
def Ends (r : List UInt8) : Prop := ∀ c, r.head? = some c → isNumberChar c = false

theorem isNumberChar_of_mem_fmtInt {n : Int} {c : UInt8} (h : c ∈ fmtInt n) :
    isNumberChar c = true := by
  have hdigit : ∀ b, isDigit b = true → isNumberChar b = true := by
    intro b hb
    simp [isNumberChar, hb]
  exact Misc.forall_mem_fmtInt (P := fun b => isNumberChar b = true) rfl hdigit n c h

theorem decodeDigits_digits {threshold : Nat} {text ds : List UInt8}
    (htext : decodeDouble text = true) (hds : ∀ c ∈ ds, isDigit c = true) (value : Nat) :
    decodeDigits threshold text value ds = true := by
  induction ds generalizing value with
  | nil => rfl
  | cons c ds ih =>
    rw [decodeDigits, if_neg (by simp [hds c (List.mem_cons_self ..)])]
    split
    · exact htext
    · exact ih (fun d hd => hds d (List.mem_cons_of_mem _ hd)) _

theorem isDigit_ne_of {c : UInt8} (h : isDigit c = true) {k : UInt8}
    (hk : isDigit k = false) : c ≠ k := by
  rintro rfl
  rw [h] at hk
  cases hk

/-- With or without a sign. -/
theorem decodeDouble_digit {d : UInt8} (hd : isDigit d = true) (ds : List UInt8) :
    decodeDouble (d :: ds) = true ∧ decodeDouble (45 :: d :: ds) = true := by
  have hdot : d ≠ 46 := isDigit_ne_of hd (show isDigit 46 = false from rfl)
  have hdouble : ∀ text : List UInt8, (if text.head? = some 45 then text.drop 1 else text) = d :: ds →
      decodeDouble text = true := by
    intro text htext
    rw [decodeDouble, htext]
    split
    · next heq =>
      cases heq
      exact absurd rfl hdot
    · next heq =>
      cases heq
      exact hd
    · next heq => cases heq
  constructor
  · apply hdouble
    have hne : (d :: ds).head? ≠ some 45 := by
      simpa using isDigit_ne_of hd (show isDigit 45 = false from rfl)
    exact if_neg hne
  · exact hdouble _ rfl

theorem decodeNumber_fmtInt (n : Int) : decodeNumber (fmtInt n) = true := by
  have hds : ∀ c ∈ digits n.natAbs, isDigit c = true := fun c hc => Misc.isDigit_of_mem_digits hc
  obtain ⟨d, ds, hd⟩ := List.exists_cons_of_ne_nil (Misc.digits_ne_nil n.natAbs)
  rw [hd] at hds
  have hfirst : isDigit d = true := hds d (List.mem_cons_self ..)
  -- no byte of the digits is one of a double
  have hno : ∀ k : UInt8, isDigit k = false → k ∉ d :: ds := by
    intro k hk hmem
    rw [hds k hmem] at hk
    cases hk
  have hany : (d :: ds).any (fun c => c = 46 || c = 101 || c = 69 || c = 43) = false := by
    rw [List.any_eq_false]
    intro c hc
    simp [isDigit_ne_of (hds c hc) (show isDigit 46 = false from rfl),
      isDigit_ne_of (hds c hc) (show isDigit 101 = false from rfl),
      isDigit_ne_of (hds c hc) (show isDigit 69 = false from rfl),
      isDigit_ne_of (hds c hc) (show isDigit 43 = false from rfl)]
  obtain ⟨hdouble, hdouble'⟩ := decodeDouble_digit hfirst ds
  rw [Misc.fmtInt_eq, hd]
  split
  · have hplain : ((45 :: d :: ds).any (fun c => c = 46 || c = 101 || c = 69 || c = 43)
        || ((45 :: d :: ds).drop 1).contains 45) = false := by
      rw [List.any_cons, hany]
      simpa using hno 45 rfl
    rw [decodeNumber, hplain]
    exact decodeDigits_digits hdouble' hds 0
  · have hplain : ((d :: ds).any (fun c => c = 46 || c = 101 || c = 69 || c = 43)
        || ((d :: ds).drop 1).contains 45) = false := by
      rw [hany]
      have := hno 45 rfl
      simp only [List.mem_cons, not_or] at this
      simpa using this.2
    have hhead : (d :: ds).head? ≠ some 45 := by
      simpa using isDigit_ne_of hfirst (show isDigit 45 = false from rfl)
    rw [decodeNumber, hplain]
    show (if (d :: ds).head? = some 45 then _ else _) = true
    rw [if_neg hhead]
    exact decodeDigits_digits hdouble hds 0

theorem tokenAt_number {c : UInt8} (h : (isDigit c || c = 45) = true) (r : List UInt8) :
    tokenAt c r = (.number (c :: r.takeWhile isNumberChar), r.dropWhile isNumberChar) := by
  have hne : ∀ k : UInt8, (isDigit k || k = 45) = false → c ≠ k := by
    rintro k hk rfl
    rw [h] at hk
    cases hk
  rw [tokenAt, if_neg (hne 123 rfl), if_neg (hne 125 rfl), if_neg (hne 91 rfl),
    if_neg (hne 93 rfl), if_neg (hne 34 rfl), if_neg (hne 47 rfl), if_pos h]

theorem readToken_fmtInt (n : Int) {r : List UInt8} (hr : Ends r) :
    readToken (fmtInt n ++ r) = (.number (fmtInt n), r) := by
  obtain ⟨c, cs, hc⟩ := List.exists_cons_of_ne_nil (Misc.fmtInt_ne_nil n)
  have hall : ∀ b ∈ c :: cs, isNumberChar b = true := by
    intro b hb
    rw [← hc] at hb
    exact isNumberChar_of_mem_fmtInt hb
  have hfirst : (isDigit c || c = 45) = true := by
    apply Misc.forall_mem_fmtInt (P := fun b => (isDigit b || b = 45) = true) rfl
    · intro b hb
      simp [hb]
    · rw [hc]
      exact List.mem_cons_self ..
  have hspace : isSpaceChar c = false := by
    cases hs : isSpaceChar c with
    | false => rfl
    | true =>
      simp only [isSpaceChar, Bool.or_eq_true, decide_eq_true_eq] at hs
      rcases hs with ((rfl | rfl) | rfl) | rfl <;> exact absurd hfirst (by decide)
  have hcs : ∀ b ∈ cs, isNumberChar b = true := fun b hb => hall b (List.mem_cons_of_mem _ hb)
  have htail : r.takeWhile isNumberChar = [] ∧ r.dropWhile isNumberChar = r := by
    cases r with
    | nil => exact ⟨rfl, rfl⟩
    | cons d r =>
      have hd := hr d rfl
      simp [hd]
  rw [hc, List.cons_append, readToken, List.dropWhile_cons_of_neg (by simp [hspace])]
  show tokenAt c (cs ++ r) = _
  rw [tokenAt_number hfirst, List.takeWhile_append_of_pos hcs, List.dropWhile_append_of_pos hcs,
    htail.1, htail.2, List.append_nil]

/-! ## Values -/

theorem skipCommentTokens_of_ne {text : List UInt8} (h : (readToken text).1 ≠ .comment)
    (n : Nat) : skipCommentTokens n text = readToken text := by
  cases n with
  | zero => rfl
  | succ n =>
    rw [skipCommentTokens]
    split
    · next heq =>
      rw [heq] at h
      exact absurd rfl h
    · rfl

theorem skip_token {text r : List UInt8} {token : Token}
    (h : readToken text = (token, r)) (hne : token ≠ .comment) :
    skipCommentTokens text.length text = (token, r) := by
  rw [skipCommentTokens_of_ne (by rw [h]; exact hne), h]

theorem ends_writeRest (rest : Members) (r : List UInt8) : Ends (writeRest rest ++ r) := by
  intro c hc
  cases rest with
  | nil =>
    cases hc
    rfl
  | cons name value rest =>
    cases hc
    rfl

mutual

theorem readValue_writeValue : ∀ (j : Json) (n : Nat) (r : List UInt8), j.tokens.length ≤ n →
    Ends r → readValue n (writeValue j ++ r) = some r
  | .null, n + 1, r, _, _ => rfl
  | .bool true, n + 1, r, _, _ => rfl
  | .bool false, n + 1, r, _, _ => rfl
  | .int k, n + 1, r, _, hr => by
    rw [writeValue, readValue, skip_token (readToken_fmtInt k hr) nofun]
    exact if_pos (decodeNumber_fmtInt k)
  | .str s, n + 1, r, _, _ => by
    rw [writeValue, readValue, skip_token (readToken_quoted s r) nofun]
    exact if_pos (decodeString_quoted _ _ (Nat.le_refl _))
  | .obj ms, n + 1, r, h, _ => by
    have hle : ms.tokens.length ≤ n := Nat.le_of_succ_le_succ h
    have htoken : readToken (writeValue (.obj ms) ++ r)
        = (.objectBegin, writeMembers ms ++ r) := rfl
    rw [readValue, skip_token htoken nofun]
    exact readObject_writeMembers ms n true r hle fun _ => rfl

/-- The brace that closes an object has to stand behind a value unless the name was empty. -/
theorem readObject_writeMembers : ∀ (ms : Members) (n : Nat) (b : Bool) (r : List UInt8),
    ms.tokens.length ≤ n → (ms = .nil → b = true) →
      readObject n b (writeMembers ms ++ r) = some r
  | .nil, n + 1, b, r, _, hb => by
    rw [hb rfl]
    rfl
  | .cons k v rest, n + 1, b, r, h, _ => by
    have hlen : v.tokens.length ≤ n ∧ rest.tokens.length ≤ n := by
      rw [Members.tokens] at h
      simp only [List.length_cons, List.length_append] at h
      omega
    have htext : writeMembers (.cons k v rest) ++ r
        = valueToQuotedString k ++ 58 :: (writeValue v ++ (writeRest rest ++ r)) := by
      simp [writeMembers]
    have hcolon : readToken (58 :: (writeValue v ++ (writeRest rest ++ r)))
        = (.memberSeparator, writeValue v ++ (writeRest rest ++ r)) := rfl
    rw [htext, readObject, skip_token (readToken_quoted k _) nofun]
    simp only [decodeString_quoted _ _ (Nat.le_refl _), if_true, hcolon]
    rw [readValue_writeValue v n _ hlen.1 (ends_writeRest rest r), Option.bind_some]
    cases rest with
    | nil => rfl
    | cons k' v' rest =>
      have hcomma : readToken (writeRest (.cons k' v' rest) ++ r)
          = (.arraySeparator, writeMembers (.cons k' v' rest) ++ r) := rfl
      rw [hcomma]
      exact readObject_writeMembers (.cons k' v' rest) n _ r hlen.2 nofun

end

theorem length_writeRest (rest : Members) :
    (writeRest rest).length = rest.sep.length + (writeMembers rest).length := by
  cases rest with
  | nil => rfl
  | cons name value rest =>
    rw [writeRest_cons, List.length_cons, Nat.add_comm]
    rfl

mutual

/-- A value is not longer in tokens than in bytes. -/
theorem length_tokens_le : ∀ j : Json, j.tokens.length ≤ (writeValue j).length
  | .null => by decide
  | .bool true => by decide
  | .bool false => by decide
  | .int n => List.length_pos_iff.mpr (Misc.fmtInt_ne_nil n)
  | .str s => by simp [Json.tokens, writeValue, valueToQuotedString]
  | .obj ms => Nat.succ_le_succ (length_tokens_members_le ms)

theorem length_tokens_members_le : ∀ ms : Members, ms.tokens.length ≤ (writeMembers ms).length
  | .nil => by decide
  | .cons k v rest => by
    have hv := length_tokens_le v
    have hrest := length_tokens_members_le rest
    rw [Members.tokens, writeMembers]
    simp only [List.length_cons, List.length_append, length_writeRest, valueToQuotedString]
    omega

end

/-- Whatever is written is read. -/
theorem parse_fastWrite (j : Json) : parse (fastWrite j) = true := by
  have hends : Ends [10] := by
    intro c hc
    cases hc
    rfl
  have hlen := length_tokens_le j
  rw [parse, fastWrite, readValue_writeValue j _ [10] _ hends]
  · rfl
  · rw [List.length_append]
    omega

/-! ## No terminator is written -/

theorem zero_not_mem_quoted (s : List UInt8) : 0 ∉ valueToQuotedString s := by
  have hchar : ∀ c : UInt8, c ≠ 0 → 0 ∉ escapeChar c := by
    intro c hc
    rcases escapeChar_cases c with ⟨_, _, h⟩ | ⟨k, hk, h⟩ | ⟨d, hd, e, he, h⟩
    · rw [h]
      simpa using hc.symm
    · have hall : ∀ k ∈ ([34, 92, 98, 102, 110, 114, 116] : List UInt8), 0 ≠ k := by simp
      rw [h]
      simpa using hall k hk
    · have hall : ∀ k : Fin 16, 0 ≠ upperHex (UInt8.ofNat k) := by decide
      have hhex : ∀ d : UInt8, d < 16 → 0 ≠ upperHex d := by
        intro d hd
        simpa using hall ⟨d.toNat, UInt8.lt_iff_toNat_lt.mp hd⟩
      rw [h]
      simp [hhex d (UInt8.lt_trans hd (by decide)), hhex e he]
  unfold valueToQuotedString
  simp only [List.mem_cons, List.mem_append, List.mem_flatMap, List.not_mem_nil, or_false, not_or]
  refine ⟨by decide, ?_, by decide⟩
  rintro ⟨c, hc, h0⟩
  exact hchar c (by simpa using List.mem_takeWhile_imp hc) h0

theorem zero_not_mem_fmtInt (n : Int) : 0 ∉ fmtInt n := by
  intro h
  exact absurd (isNumberChar_of_mem_fmtInt h) (by decide)

mutual

theorem zero_not_mem_writeValue : ∀ j : Json, 0 ∉ writeValue j
  | .null => by decide
  | .bool true => by decide
  | .bool false => by decide
  | .int n => zero_not_mem_fmtInt n
  | .str s => zero_not_mem_quoted s
  | .obj ms => by
    rw [writeValue]
    simpa using zero_not_mem_writeMembers ms

theorem zero_not_mem_writeMembers : ∀ ms : Members, 0 ∉ writeMembers ms
  | .nil => by decide
  | .cons k v rest => by
    rw [writeMembers]
    simp [zero_not_mem_quoted k, zero_not_mem_writeValue v, zero_not_mem_writeRest rest]

theorem zero_not_mem_writeRest : ∀ ms : Members, 0 ∉ writeRest ms
  | .nil => by decide
  | .cons k v rest => by
    rw [writeRest_cons]
    simpa using zero_not_mem_writeMembers (.cons k v rest)

end

theorem zero_not_mem_fastWrite (j : Json) : 0 ∉ fastWrite j := by
  simp [fastWrite, zero_not_mem_writeValue j]

end VdCamera.JsonCpp
