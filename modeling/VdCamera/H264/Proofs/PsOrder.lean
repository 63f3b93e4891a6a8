import VdCamera.H264.Proofs.PsVisit

/-!
# The headers of a buffer, in the order of the loop

The start codes of a buffer make a list of headers, a PES header counting from nine bytes behind the
last one on. As long as there is a PES header ahead the loop goes to the next of them; with pack headers
alone ahead it goes back to the last PES header.
-/

namespace VdCamera.H264

open Misc

variable {m : Mem} {bufLen start : Int} {rest done : List (Header × Nat)} {k k' : Header}
  {i n p q free : Nat} {s s' s₁ : PsState} {x y : Header × Nat}

/-! ## Start codes -/

/-- The bytes of a start code. -/
theorem code_bytes (h : strAt m q (Header.code k) = true) :
    m q = 0 ∧ m (q + 1) = 0 ∧ m (q + 2) = 1 ∧ m (q + 3) ≠ 1 := by
  cases k with
  | pack =>
    simp only [Header.code, strPackHeader, strAt, Bool.and_eq_true, beq_iff_eq, and_true] at h
    obtain ⟨h0, h1, h2, h3⟩ := h
    exact ⟨h0, h1, h2, by rw [h3]; decide⟩
  | PES =>
    simp only [Header.code, strPESHeader, strAt, Bool.and_eq_true, beq_iff_eq, and_true] at h
    obtain ⟨h0, h1, h2, h3⟩ := h
    exact ⟨h0, h1, h2, by rw [h3]; decide⟩

/-- The last one tells the kind. -/
theorem code_last (h : strAt m q (Header.code k) = true) :
    m (q + 3) = match k with
      | .pack => 0xBA
      | .PES => 0xE0 := by
  cases k with
  | pack =>
    simp only [Header.code, strPackHeader, strAt, Bool.and_eq_true, beq_iff_eq, and_true] at h
    exact h.2.2.2
  | PES =>
    simp only [Header.code, strPESHeader, strAt, Bool.and_eq_true, beq_iff_eq, and_true] at h
    exact h.2.2.2

/-- Start codes do not overlap. -/
theorem code_apart (h : strAt m p (Header.code k) = true) (h' : strAt m q (Header.code k') = true)
    (hlt : p < q) : p + 4 ≤ q := by
  obtain ⟨-, -, h2, -⟩ := code_bytes h
  have h3 := code_last h
  obtain ⟨q0, q1, -, -⟩ := code_bytes h'
  by_contra hin
  obtain ⟨i, hi, rfl⟩ : ∃ i, (1 ≤ i ∧ i ≤ 3) ∧ q = p + i := ⟨q - p, by omega, by omega⟩
  have hcases : i = 1 ∨ i = 2 ∨ i = 3 := by omega
  rcases hcases with rfl | rfl | rfl
  · rw [h2] at q1
    cases q1
  · rw [h2] at q0
    cases q0
  · rw [h3] at q0
    cases k with
    | pack => cases q0
    | PES => cases q0

/-- At a place there is one kind of them. -/
theorem code_kind (h : strAt m p (Header.code k) = true) (h' : strAt m p (Header.code k') = true) :
    k = k' := by
  have h3 := code_last h
  rw [code_last h'] at h3
  cases k with
  | pack =>
    cases k' with
    | pack => rfl
    | PES => cases h3
  | PES =>
    cases k' with
    | pack => cases h3
    | PES => rfl

theorem code_length (k : Header) : k.code.length = 4 := by
  cases k with
  | pack => rfl
  | PES => rfl

/-! ## The headers -/

/-- The headers that begin at the `n` places from `i` on: pack headers, and PES headers from `free` on.
Behind a header that is gone to, the search goes on at its timestamp. -/
def headersFrom (m : Mem) : Nat → Nat → Nat → List (Header × Nat)
  | 0, _, _ => []
  | n + 1, i, free =>
    if strAt m i strPackHeader then (.pack, i) :: headersFrom m n (i + 1) (i + 4)
    else if free ≤ i ∧ strAt m i strPESHeader then (.PES, i) :: headersFrom m n (i + 1) (i + 9)
    else headersFrom m n (i + 1) free

theorem headersFrom_succ (m : Mem) (n i free : Nat) : headersFrom m (n + 1) i free =
    if strAt m i strPackHeader then (.pack, i) :: headersFrom m n (i + 1) (i + 4)
    else if free ≤ i ∧ strAt m i strPESHeader then (.PES, i) :: headersFrom m n (i + 1) (i + 9)
    else headersFrom m n (i + 1) free := rfl

/-- The headers of a buffer. -/
def headers (m : Mem) (bufLen : Int) : List (Header × Nat) := headersFrom m (bufLen - 3).toNat 0 0

theorem mem_headersFrom (h : x ∈ headersFrom m n i free) :
    i ≤ x.2 ∧ x.2 < i + n ∧ strAt m x.2 x.1.code = true := by
  induction n generalizing i free with
  | zero => cases h
  | succ n ih =>
    have hbehind {free' : Nat} (hx : x ∈ headersFrom m n (i + 1) free') :
        i ≤ x.2 ∧ x.2 < i + (n + 1) ∧ strAt m x.2 x.1.code = true := by
      obtain ⟨hle, hlt, hcode⟩ := ih hx
      exact ⟨by omega, by omega, hcode⟩
    rw [headersFrom_succ] at h
    split at h
    · next hpack =>
      rcases List.mem_cons.mp h with rfl | h
      · exact ⟨Nat.le_refl i, by omega, hpack⟩
      · exact hbehind h
    · split at h
      · next hPES =>
        rcases List.mem_cons.mp h with rfl | h
        · exact ⟨Nat.le_refl i, by omega, hPES.2⟩
        · exact hbehind h
      · exact hbehind h

/-- What stands behind the first header of the list is the list from there on. -/
theorem headersFrom_tail (h : headersFrom m n i free = x :: rest) :
    ∃ n', x.2 + 1 + n' = i + n ∧ rest = headersFrom m n' (x.2 + 1) (x.2 + x.1.off) := by
  induction n generalizing i free with
  | zero => cases h
  | succ n ih =>
    have hhead {k : Header} (h : (k, i) :: headersFrom m n (i + 1) (i + k.off) = x :: rest) :
        ∃ n', x.2 + 1 + n' = i + (n + 1) ∧ rest = headersFrom m n' (x.2 + 1) (x.2 + x.1.off) := by
      obtain ⟨hx, hrest⟩ := List.cons.inj h
      exact ⟨n, by rw [← hx]; exact Nat.add_right_comm i 1 n, by rw [← hrest, ← hx]⟩
    rw [headersFrom_succ] at h
    split at h
    · exact hhead h
    · split at h
      · exact hhead h
      · obtain ⟨n', hn', hrest⟩ := ih h
        exact ⟨n', by omega, hrest⟩

/-- Every start code is that of a header of the list, or stands behind one of the same kind. -/
theorem exists_headersFrom (hq : i ≤ q) (hq' : q < i + n) (hfree : k = .PES → free ≤ q)
    (h : strAt m q (Header.code k) = true) : ∃ p ≤ q, (k, p) ∈ headersFrom m n i free := by
  induction n generalizing i free with
  | zero => omega
  | succ n ih =>
    rw [headersFrom_succ]
    split
    · next hpack =>
      rcases Nat.eq_or_lt_of_le hq with rfl | hlt
      · obtain rfl : k = .pack := code_kind h hpack
        exact ⟨i, Nat.le_refl i, List.mem_cons_self⟩
      · have hapart := code_apart (k := .pack) hpack h hlt
        obtain ⟨p, hp, hmem⟩ := @ih (i + 1) (i + 4) hlt (by omega) fun _ => hapart
        exact ⟨p, hp, List.mem_cons_of_mem _ hmem⟩
    · next hpack =>
      split
      · next hPES =>
        cases k with
        | PES => exact ⟨i, hq, List.mem_cons_self⟩
        | pack =>
          have hne : i ≠ q := by
            rintro rfl
            exact hpack h
          obtain ⟨p, hp, hmem⟩ := @ih (i + 1) (i + 9) (by omega) (by omega) fun hk => nomatch hk
          exact ⟨p, hp, List.mem_cons_of_mem _ hmem⟩
      · next hPES =>
        have hne : i ≠ q := by
          rintro rfl
          cases k with
          | pack => exact hpack h
          | PES => exact hPES ⟨hfree rfl, h⟩
        exact ih (by omega) (by omega) hfree

/-- A PES header counts from `free` on, or behind a pack header. -/
theorem free_le_headersFrom (h : (.PES, q) ∈ headersFrom m n i free) :
    free ≤ q ∨ ∃ p, (.pack, p) ∈ headersFrom m n i free ∧ p < q := by
  induction n generalizing i free with
  | zero => cases h
  | succ n ih =>
    rw [headersFrom_succ] at h ⊢
    split at h
    · next hpack =>
      rw [if_pos hpack]
      rcases List.mem_cons.mp h with heq | h
      · cases heq
      · exact .inr ⟨i, List.mem_cons_self, (mem_headersFrom h).1⟩
    · next hpack =>
      rw [if_neg hpack]
      split at h
      · next hPES =>
        rw [if_pos hPES]
        rcases List.mem_cons.mp h with heq | h
        · cases heq
          exact .inl hPES.1
        · have hlt := (mem_headersFrom h).1
          exact .inl (by omega)
      · next hPES =>
        rw [if_neg hPES]
        exact ih h

/-! ## The searches -/

/-- The first header of a kind. -/
def firstOf (k : Header) (hs : List (Header × Nat)) : Option Nat :=
  (hs.find? fun x => x.1 = k).map Prod.snd

theorem firstOf_cons_self : firstOf k ((k, p) :: rest) = some p := by
  simp [firstOf]

theorem firstOf_cons_ne (h : k' ≠ k) : firstOf k ((k', p) :: rest) = firstOf k rest := by
  simp [firstOf, h]

theorem firstOf_none (h : firstOf k rest = none) (p : Nat) : (k, p) ∉ rest := by
  intro hmem
  have hnone := List.find?_eq_none.mp (Option.map_eq_none_iff.mp h) (k, p) hmem
  exact hnone (decide_eq_true rfl)

theorem firstOf_some (hsorted : rest.Pairwise fun x y => x.2 < y.2) (h : firstOf k rest = some p) :
    (k, p) ∈ rest ∧ ∀ q, (k, q) ∈ rest → p ≤ q := by
  obtain ⟨⟨k', p'⟩, hfind, rfl⟩ := Option.map_eq_some_iff.mp h
  obtain ⟨hk, before, after, rfl, hbefore⟩ := List.find?_eq_some_iff_append.mp hfind
  obtain rfl : k' = k := by simpa using hk
  refine ⟨by simp, ?_⟩
  intro q hq
  rcases List.mem_append.mp hq with hq | hq
  · have hne := hbefore _ hq
    simp at hne
  · rcases List.mem_cons.mp hq with heq | hq
    · cases heq
      exact Nat.le_refl _
    · have hafter := (List.pairwise_cons.mp (List.pairwise_append.mp hsorted).2.1).1
      exact Nat.le_of_lt (hafter _ hq)

theorem exists_firstOf (h : (k, p) ∈ rest) : ∃ q, firstOf k rest = some q := by
  cases hfirst : firstOf k rest with
  | none => exact absurd h (firstOf_none hfirst p)
  | some q => exact ⟨q, rfl⟩

/-- The pack header that the loop knows of: none that is ahead, or the next one. -/
inductive Place (s : PsState) (rest : List (Header × Nat)) : Prop
  | search (h : s.posPackTotal ≤ s.posPESTotal) (hahead : ∀ p, (.pack, p) ∈ rest → s.posBuf ≤ p)
      (hle : ∀ x ∈ rest, s.posPackTotal ≤ x.2)
  | pending (h : s.posPESTotal < s.posPackTotal) (hsome : s.posPackHeader ≠ none)
      (hfirst : firstOf .pack rest = some s.posPackTotal)

/-- The same behind the search for a pack header. -/
inductive PackFound (s : PsState) (rest : List (Header × Nat)) : Prop
  | none (hfirst : firstOf .pack rest = none) (hnone : s.posPackHeader = none)
      (hle : ∀ x ∈ rest, s.posPackTotal ≤ x.2)
  | next (hfirst : firstOf .pack rest = some s.posPackTotal) (hsome : s.posPackHeader ≠ none)

/-- The loop has `rest` of the headers still to deal with: these are what the searches find. -/
structure Stands (bufLen : Int) (rest : List (Header × Nat)) (s : PsState) : Prop where
  sorted : rest.Pairwise fun x y => x.2 < y.2
  code : ∀ x ∈ rest, ((x.2 + 4 : Nat) : Int) ≤ bufLen ∧ strAt s.buf x.2 x.1.code = true
  first : ∀ k q, s.posBuf ≤ q → ((q + 4 : Nat) : Int) ≤ bufLen →
    strAt s.buf q (Header.code k) = true → ∃ p ≤ q, (k, p) ∈ rest
  ahead : ∀ p, (.PES, p) ∈ rest → s.posBuf ≤ p
  place : Place s rest

/-- A search finds the first header of its kind. -/
theorem Stands.find_eq (h : Stands bufLen rest s) (hahead : ∀ p, (k, p) ∈ rest → s.posBuf ≤ p) :
    findStrInBuf s.buf s.posBuf (bufLen - s.posBuf) k.code = (firstOf k rest).map (· - s.posBuf) := by
  have hlen := code_length k
  cases hfind : findStrInBuf s.buf s.posBuf (bufLen - s.posBuf) k.code with
  | none =>
    have hnone := scanUp_none hfind
    cases hfirst : firstOf k rest with
    | none => rfl
    | some p =>
      obtain ⟨hmem, -⟩ := firstOf_some h.sorted hfirst
      obtain ⟨hin, hcode⟩ := h.code _ hmem
      have hle := hahead p hmem
      have hfalse := hnone (p - s.posBuf) (Nat.zero_le _) (by omega)
      rw [Nat.add_sub_cancel' hle, hcode] at hfalse
      cases hfalse
  | some j =>
    obtain ⟨-, hj, hcode, hbefore⟩ := scanUp_some hfind
    obtain ⟨q, hq, hmem⟩ := h.first k (s.posBuf + j) (Nat.le_add_right _ j) (by omega) hcode
    obtain ⟨p, hfirst⟩ := exists_firstOf hmem
    obtain ⟨hp, hmin⟩ := firstOf_some h.sorted hfirst
    obtain ⟨-, hcode'⟩ := h.code _ hp
    have hle := hahead p hp
    have hpq := hmin q hmem
    have hnot : ¬ p - s.posBuf < j := by
      intro hlt
      have hfalse := hbefore (p - s.posBuf) (Nat.zero_le _) hlt
      rw [Nat.add_sub_cancel' hle, hcode'] at hfalse
      cases hfalse
    rw [hfirst]
    exact congrArg some (show j = p - s.posBuf by omega)

theorem Stands.packFound (h : Stands bufLen rest s) : PackFound (psFindPack bufLen s) rest := by
  cases h.place with
  | pending hlt hsome hfirst =>
    have heq : psFindPack bufLen s = s := if_neg (Nat.not_le.mpr hlt)
    rw [heq]
    exact .next hfirst hsome
  | search hle hahead hrest =>
    unfold psFindPack
    rw [if_pos hle, show strPackHeader = Header.code .pack from rfl, h.find_eq hahead]
    cases hfirst : firstOf .pack rest with
    | none => exact .none hfirst rfl hrest
    | some q =>
      refine .next ?_ (Option.some_ne_none _)
      have hq := hahead q (firstOf_some h.sorted hfirst).1
      rw [hfirst]
      exact congrArg some (Nat.add_sub_cancel' hq).symm

theorem psFindPES_of_find {e : Nat}
    (h : findStrInBuf s.buf s.posBuf (bufLen - s.posBuf) strPESHeader = some e) :
    psFindPES bufLen s = some { s with posPESTotal := s.posBuf + e } := by
  rw [psFindPES, h]

/-! ## The header that is gone to -/

/-- Behind the last header the loop ends. -/
theorem Stands.exit (h : Stands bufLen [] s) : psStep bufLen start s = none := by
  have hsame := sameStamps_psFindPack bufLen s
  have hfind := h.find_eq h.ahead
  have hnone : (psFindPack bufLen s).posPackHeader = none := by
    cases h.packFound with
    | none _ hnone _ => exact hnone
    | next hfirst _ => cases hfirst
  rw [psStep, psFindPES, hsame.buf, hsame.posBuf, show strPESHeader = Header.code .PES from rfl, hfind]
  exact congrArg _ (if_pos hnone)

/-- While a PES header is ahead the loop goes to the next header. -/
theorem Stands.choose (h : Stands bufLen (x :: rest) s) (hp : firstOf .PES (x :: rest) = some p) :
    ∃ s₁, psFindPES bufLen (psFindPack bufLen s) = some s₁ ∧
      psChoose s₁ = (x.1, { s₁ with posBuf := x.2 }) ∧ s₁.posPESTotal = p ∧
      ((s₁.posPackTotal ≤ p ∧ (x.1 = .PES → firstOf .pack rest = none) ∧
          ∀ y ∈ rest, s₁.posPackTotal ≤ y.2) ∨
        (p < s₁.posPackTotal ∧ s₁.posPackHeader ≠ none ∧
          firstOf .pack rest = some s₁.posPackTotal)) := by
  have hsame := sameStamps_psFindPack bufLen s
  have hbehind := (List.pairwise_cons.mp h.sorted).1
  obtain ⟨hmem, hmin⟩ := firstOf_some h.sorted hp
  have hfound := h.packFound
  have hfind := h.find_eq h.ahead
  rw [hp, ← hsame.buf, ← hsame.posBuf] at hfind
  have hle := h.ahead p hmem
  rw [← hsame.posBuf] at hle
  generalize psFindPack bufLen s = s₀ at hfind hle hfound
  have hPES : psFindPES bufLen s₀ = some { s₀ with posPESTotal := p } := by
    rw [psFindPES_of_find hfind, Nat.add_sub_cancel' hle]
  refine ⟨_, hPES, ?_⟩
  obtain ⟨k, q⟩ := x
  cases k with
  | pack =>
    -- the PES header that was found stands behind this pack header
    have hlt : q < p := by
      rcases List.mem_cons.mp hmem with heq | hmem
      · cases heq
      · exact hbehind _ hmem
    cases hfound with
    | none hfirst _ _ =>
      rw [firstOf_cons_self] at hfirst
      cases hfirst
    | next hfirst hsome =>
      rw [firstOf_cons_self, Option.some.injEq] at hfirst
      subst hfirst
      have hPES : Header.pack = .PES → firstOf .pack rest = none := by
        intro hk
        cases hk
      exact ⟨if_pos ⟨hlt, hsome⟩, rfl, .inl ⟨Nat.le_of_lt hlt, hPES,
        fun y hy => Nat.le_of_lt (hbehind y hy)⟩⟩
  | PES =>
    rw [firstOf_cons_self, Option.some.injEq] at hp
    subst hp
    cases hfound with
    | none hfirst hnone hle =>
      rw [firstOf_cons_ne (by decide : Header.PES ≠ .pack)] at hfirst
      exact ⟨if_neg fun hc => hc.2 hnone, rfl, .inl ⟨hle _ List.mem_cons_self, fun _ => hfirst,
        fun y hy => hle y (List.mem_cons_of_mem _ hy)⟩⟩
    | next hfirst hsome =>
      rw [firstOf_cons_ne (by decide : Header.PES ≠ .pack)] at hfirst
      have hq := (firstOf_some (List.pairwise_cons.mp h.sorted).2 hfirst).1
      have hlt : q < s₀.posPackTotal := hbehind _ hq
      exact ⟨if_neg fun hc => Nat.lt_asymm hlt hc.1, rfl, .inr ⟨hlt, hsome, hfirst⟩⟩

/-- With pack headers alone ahead it goes back to where the last PES header was found. -/
theorem Stands.stuck (h : Stands bufLen rest s) (hnone : firstOf .PES rest = none) (hne : rest ≠ [])
    (hback : s.posPESTotal ≤ s.posBuf) :
    ∃ s₁, psFindPES bufLen (psFindPack bufLen s) = some s₁ ∧
      psChoose s₁ = (.PES, { s₁ with posBuf := s.posPESTotal }) ∧ s₁.posPESTotal = s.posPESTotal ∧
      s₁.posPackHeader ≠ none ∧ firstOf .pack rest = some s₁.posPackTotal ∧
      s₁.posPESTotal ≤ s₁.posPackTotal := by
  have hsame := sameStamps_psFindPack bufLen s
  obtain ⟨q, hq⟩ : ∃ q, firstOf .pack rest = some q := by
    obtain ⟨⟨k, q⟩, hx⟩ := List.exists_mem_of_ne_nil rest hne
    cases k with
    | pack => exact exists_firstOf hx
    | PES => exact absurd hx (firstOf_none hnone q)
  have hPES : (psFindPack bufLen s).posPESTotal = s.posPESTotal := (psFindPack_cases bufLen s).1
  have hle : s.posPESTotal ≤ q := by
    cases h.place with
    | search _ hahead _ => exact Nat.le_trans hback (hahead q (firstOf_some h.sorted hq).1)
    | pending hlt _ hfirst =>
      rw [hq, Option.some.injEq] at hfirst
      omega
  cases h.packFound with
  | none hfirst _ _ =>
    rw [hq] at hfirst
    cases hfirst
  | next hfirst hsome =>
    have hfind := h.find_eq h.ahead
    rw [hnone, ← hsame.buf, ← hsame.posBuf] at hfind
    rw [hq, Option.some.injEq] at hfirst
    generalize psFindPack bufLen s = s₀ at hPES hsome hfind hfirst
    have hsome' : psFindPES bufLen s₀ = some s₀ := by
      rw [psFindPES, show strPESHeader = Header.code .PES from rfl, hfind]
      exact if_neg hsome
    rw [← hPES] at hle ⊢
    exact ⟨s₀, hsome', if_neg fun hc => absurd hc.1 (by omega), rfl, hsome, by rw [hq, hfirst],
      by omega⟩

end VdCamera.H264
