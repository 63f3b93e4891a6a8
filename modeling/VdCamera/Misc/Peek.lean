import Mathlib.Data.List.Infix
import Mathlib.Tactic.Common

/-!
# Programs that look at a memory

A program that looks at places of a memory, one after the other, and ends with a result. What it
looks at next may depend on what it has seen. `value` is its result on a memory and `places` what it
has looked at; the result depends on nothing else.
-/

namespace VdCamera.Misc

/-- A program over a memory with places `ι` and contents `β`. -/
inductive Peek (ι β α : Type) where
  | done (a : α)
  | look (i : ι) (k : β → Peek ι β α)

namespace Peek

variable {ι β α γ : Type}

protected def bind : Peek ι β α → (α → Peek ι β γ) → Peek ι β γ
  | done a, f => f a
  | look i k, f => look i fun b => (k b).bind f

instance : Monad (Peek ι β) where
  pure := done
  bind := Peek.bind

/-- What stands in the place. -/
def read (i : ι) : Peek ι β β := look i done

/-- The first of the places whose content passes. -/
def find (p : β → Bool) : List ι → Peek ι β (Option ι)
  | [] => done none
  | i :: is => look i fun b => if p b then done (some i) else find p is

/-- The contents of the places, folded from the left. -/
def foldl (f : γ → β → γ) : γ → List ι → Peek ι β γ
  | c, [] => done c
  | c, i :: is => look i fun b => foldl f (f c b) is

def value (mem : ι → β) : Peek ι β α → α
  | done a => a
  | look i k => (k (mem i)).value mem

def places (mem : ι → β) : Peek ι β α → List ι
  | done _ => []
  | look i k => i :: (k (mem i)).places mem

variable {mem mem' : ι → β} {m : Peek ι β α} {f : α → Peek ι β γ} {p : β → Bool} {i : ι}
  {is : List ι}

@[simp] theorem value_pure (a : α) : (pure a : Peek ι β α).value mem = a := (rfl)

@[simp] theorem places_pure (a : α) : (pure a : Peek ι β α).places mem = [] := rfl

@[simp] theorem value_read : (Peek.read i : Peek ι β β).value mem = mem i := (rfl)

@[simp] theorem places_read : (Peek.read i : Peek ι β β).places mem = [i] := rfl

@[simp] theorem value_bind : (m >>= f).value mem = (f (m.value mem)).value mem := by
  show (Peek.bind m f).value mem = _
  induction m with
  | done a => rfl
  | look i k ih => exact ih (mem i)

@[simp] theorem places_bind :
    (m >>= f).places mem = m.places mem ++ (f (m.value mem)).places mem := by
  show (Peek.bind m f).places mem = _
  induction m with
  | done a => rfl
  | look i k ih =>
    rw [Peek.bind, places, ih (mem i)]
    rfl

/-- The result depends on what the program has looked at only. -/
theorem value_congr (h : ∀ i ∈ m.places mem, mem' i = mem i) : m.value mem' = m.value mem := by
  induction m with
  | done a => rfl
  | look i k ih =>
    have hi : mem' i = mem i := h i List.mem_cons_self
    rw [value, value, hi]
    exact ih (mem i) fun j hj => h j (List.mem_cons_of_mem i hj)

theorem value_find : (find p is).value mem = is.find? fun i => p (mem i) := by
  induction is with
  | nil => rfl
  | cons i is ih =>
    rw [find, value, List.find?_cons]
    cases p (mem i) with
    | true => rfl
    | false => exact ih

theorem mem_of_mem_places_find (h : i ∈ (find p is).places mem) : i ∈ is := by
  induction is with
  | nil => cases h
  | cons j is ih =>
    rw [find, places, List.mem_cons] at h
    cases h with
    | inl h => exact h ▸ List.mem_cons_self
    | inr h =>
      refine List.mem_cons_of_mem j (ih ?_)
      split at h
      · cases h
      · exact h

@[simp] theorem value_foldl (g : γ → β → γ) (c : γ) :
    (foldl g c is).value mem = is.foldl (fun c i => g c (mem i)) c := by
  induction is generalizing c with
  | nil => rfl
  | cons i is ih => exact ih (g c (mem i))

@[simp] theorem places_foldl (g : γ → β → γ) (c : γ) : (foldl g c is).places mem = is := by
  induction is generalizing c with
  | nil => rfl
  | cons i is ih => exact congrArg (i :: ·) (ih (g c (mem i)))

end Peek

/-! ## Looking for a pattern in a memory

A comparison byte by byte that stops at the first difference, and the search for a pattern from
every place of a range. `Holds mem i bs` says what stands in the memory from place `i` on; the bytes
behind are those of something else. A scan is the same with any test in place of the pattern.
-/

variable {β : Type}

/-- The bytes stand in the memory from place `i` on. -/
def Holds (mem : Nat → β) : Nat → List β → Prop
  | _, [] => True
  | i, b :: bs => mem i = b ∧ Holds mem (i + 1) bs

namespace Peek

/-- Whether the pattern stands at the place: the bytes are compared as long as they agree. -/
def matchAt [DecidableEq β] (i : Nat) : List β → Peek Nat β Bool
  | [] => done true
  | b :: bs => look i fun c => if c = b then matchAt (i + 1) bs else done false

/-- The first of the `n` places from `i` on where the pattern stands. -/
def findSub [DecidableEq β] (pat : List β) : Nat → Nat → Peek Nat β (Option Nat)
  | 0, _ => done none
  | n + 1, i => do if ← matchAt i pat then return some i else findSub pat n (i + 1)

/-- What `memcpy` takes: the contents of `n` places. -/
def contents : Nat → Nat → Peek Nat β (List β)
  | 0, _ => done []
  | n + 1, i => look i fun b => do return b :: (← contents n (i + 1))

end Peek

variable {mem : Nat → β} {i j n : Nat} {bs pat : List β}

theorem Holds.append {cs : List β} : Holds mem i (bs ++ cs) ↔ Holds mem i bs ∧
    Holds mem (i + bs.length) cs := by
  induction bs generalizing i with
  | nil => simp [Holds]
  | cons b bs ih =>
    have hi : i + (b :: bs).length = i + 1 + bs.length := by
      rw [List.length_cons]
      omega
    rw [List.cons_append, Holds, Holds, ih, hi, and_assoc]

theorem Holds.drop (h : Holds mem i bs) (hn : n ≤ bs.length) : Holds mem (i + n) (bs.drop n) := by
  rw [← List.take_append_drop n bs, Holds.append, List.length_take, Nat.min_eq_left hn] at h
  exact h.2

theorem holds_of_getElem? {d : β} (h : ∀ j < bs.length, mem (i + j) = (bs[j]?).getD d) :
    Holds mem i bs := by
  induction bs generalizing i with
  | nil => trivial
  | cons b bs ih =>
    refine ⟨by simpa using h 0 (by simp), ih fun j hj => ?_⟩
    have hmem := h (j + 1) (by simpa using hj)
    rw [Nat.add_assoc, Nat.add_comm 1 j]
    simpa using hmem

namespace Peek

@[simp] theorem length_contents : ((contents n i).value mem).length = n := by
  induction n generalizing i with
  | zero => rfl
  | succ n ih => simpa [contents, value] using ih (i := i + 1)

theorem value_contents (h : Holds mem i bs) (hn : n ≤ bs.length) :
    (contents n i).value mem = bs.take n := by
  induction n generalizing i bs with
  | zero => simp [contents, value]
  | succ n ih =>
    cases bs with
    | nil => simp at hn
    | cons b bs =>
      simp [contents, value, h.1, ih h.2 (by simpa using hn)]

theorem mem_places_contents : j ∈ (contents n i).places mem ↔ i ≤ j ∧ j < i + n := by
  induction n generalizing i with
  | zero => simp [contents, places]
  | succ n ih =>
    simp only [contents, places, List.mem_cons, places_bind, places_pure, List.append_nil, ih]
    omega

/-- No end of the bytes is the beginning of a pattern that goes on. -/
def TailFree (pat bs : List β) : Prop :=
  ∀ t, t ≠ [] → t <+: pat → t ≠ pat → ¬ t <:+ bs

theorem TailFree.tail {b : β} (h : TailFree pat (b :: bs)) : TailFree pat bs :=
  fun t hne hpre hpat hsuf => h t hne hpre hpat (hsuf.trans (List.suffix_cons b bs))

theorem tailFree_cons {b : β} (hpat : ¬ b :: bs <+: pat) :
    TailFree pat (b :: bs) ↔ TailFree pat bs := by
  refine ⟨TailFree.tail, fun h t hne hpre hpat' hsuf => ?_⟩
  rcases List.suffix_cons_iff.mp hsuf with rfl | hsuf
  · exact hpat hpre
  · exact h t hne hpre hpat' hsuf

section Match

variable [DecidableEq β]

/-- The pattern is there: all its places are looked at. -/
theorem matchAt_of_isPrefix (h : Holds mem i bs) (hpat : pat <+: bs) :
    (matchAt i pat).value mem = true ∧ ∀ j ∈ (matchAt i pat).places mem, j < i + bs.length := by
  induction pat generalizing i bs with
  | nil => exact ⟨rfl, fun j hj => by cases hj⟩
  | cons p pat ih =>
    obtain ⟨rest, rfl⟩ := hpat
    rw [List.cons_append, Holds] at h
    obtain ⟨hvalue, hplaces⟩ := ih h.2 ⟨rest, rfl⟩
    rw [matchAt, value, places, if_pos h.1]
    refine ⟨hvalue, fun j hj => ?_⟩
    rw [List.cons_append, List.length_cons]
    rcases List.mem_cons.mp hj with rfl | hj
    · omega
    · have := hplaces j hj
      omega

/-- The bytes end within the pattern: the place behind them is looked at. -/
theorem mem_places_matchAt (h : Holds mem i bs) (hpat : bs <+: pat) (hne : bs ≠ pat) :
    i + bs.length ∈ (matchAt i pat).places mem := by
  induction bs generalizing i pat with
  | nil =>
    cases pat with
    | nil => exact absurd rfl hne
    | cons p pat => exact List.mem_cons_self ..
  | cons b bs ih =>
    obtain ⟨rest, rfl⟩ := hpat
    rw [List.cons_append, matchAt, places, if_pos h.1, List.length_cons]
    refine List.mem_cons_of_mem _ ?_
    have hne' : bs ≠ bs ++ rest := fun heq => hne (congrArg (b :: ·) heq)
    have := ih h.2 ⟨rest, rfl⟩ hne'
    rwa [show i + (bs.length + 1) = i + 1 + bs.length by omega]

/-- The bytes and the pattern differ before either ends. -/
theorem matchAt_of_differ (h : Holds mem i bs) (hpat : ¬ pat <+: bs) (hbs : ¬ bs <+: pat) :
    (matchAt i pat).value mem = false ∧ ∀ j ∈ (matchAt i pat).places mem, j < i + bs.length := by
  induction bs generalizing i pat with
  | nil => exact absurd List.nil_prefix hbs
  | cons b bs ih =>
    cases pat with
    | nil => exact absurd List.nil_prefix hpat
    | cons p pat =>
      rw [matchAt, value, places, h.1, List.length_cons]
      by_cases hb : b = p
      · subst hb
        rw [List.cons_prefix_cons, not_and] at hpat hbs
        obtain ⟨hvalue, hplaces⟩ := ih h.2 (hpat rfl) (hbs rfl)
        rw [if_pos rfl]
        refine ⟨hvalue, fun j hj => ?_⟩
        rcases List.mem_cons.mp hj with rfl | hj
        · omega
        · have := hplaces j hj
          omega
      · rw [if_neg hb]
        refine ⟨rfl, fun j hj => ?_⟩
        rw [List.mem_singleton.mp hj]
        omega

theorem places_findSub_succ : (findSub pat (n + 1) i).places mem
    = (matchAt i pat).places mem
      ++ if (matchAt i pat).value mem = true then [] else (findSub pat n (i + 1)).places mem := by
  rw [findSub, places_bind]
  split <;> rfl

/-- The search stays inside the bytes if and only if the pattern is there or no end of them looks
like its beginning. -/
theorem places_findSub_lt (h : Holds mem i bs) :
    (∀ j ∈ (findSub pat bs.length i).places mem, j < i + bs.length)
      ↔ pat <:+: bs ∨ TailFree pat bs := by
  induction bs generalizing i with
  | nil =>
    refine iff_of_true (fun j hj => by cases hj) (Or.inr fun t hne _ _ hsuf => ?_)
    exact hne (List.suffix_nil.mp hsuf)
  | cons b bs ih =>
    rw [List.length_cons, places_findSub_succ]
    by_cases hfound : pat <+: b :: bs
    · obtain ⟨hvalue, hplaces⟩ := matchAt_of_isPrefix h hfound
      rw [if_pos hvalue, List.append_nil]
      exact iff_of_true hplaces (Or.inl hfound.isInfix)
    · by_cases hcut : b :: bs <+: pat
      · have hne : b :: bs ≠ pat := fun heq => hfound (heq ▸ List.prefix_rfl)
        refine iff_of_false (fun hall => ?_) ?_
        · have := hall _ (List.mem_append_left _ (mem_places_matchAt h hcut hne))
          rw [List.length_cons] at this
          omega
        · rintro (hin | hfree)
          · have hle := hin.length_le
            have hlt := hcut.length_le
            exact hfound (hcut.eq_of_length (by omega) ▸ List.prefix_rfl)
          · exact hfree (b :: bs) (List.cons_ne_nil _ _) hcut hne List.suffix_rfl
      · obtain ⟨hvalue, hplaces⟩ := matchAt_of_differ h hfound hcut
        rw [if_neg (by simp [hvalue]), List.infix_cons_iff, tailFree_cons hcut]
        have hrest := ih h.2
        rw [show i + 1 + bs.length = i + (bs.length + 1) by omega] at hrest
        constructor
        · intro hall
          exact (hrest.mp fun j hj => hall j (List.mem_append_right _ hj)).imp_left Or.inr
        · intro hcond j hj
          rcases List.mem_append.mp hj with hj | hj
          · exact hplaces j hj
          · exact hrest.mpr (hcond.imp_left fun hin => hin.resolve_left hfound) j hj

end Match

end Peek

/-! ## Scanning a memory with a test

The first place of a range that passes a test, which may look at places of its own. What the scan
has looked at are the places of all tests up to that of the first place that passes.
-/

namespace Peek

/-- The first of the `n` places from `i` on that passes. -/
def scan (test : Nat → Peek Nat β Bool) : Nat → Nat → Peek Nat β (Option Nat)
  | 0, _ => return none
  | n + 1, i => do if ← test i then return some i else scan test n (i + 1)

variable {test : Nat → Peek Nat β Bool} {k : Nat}

theorem value_scan_succ : (scan test (n + 1) i).value mem
    = if (test i).value mem = true then some i else (scan test n (i + 1)).value mem := by
  rw [scan, value_bind]
  split <;> rfl

theorem places_scan_succ : (scan test (n + 1) i).places mem
    = (test i).places mem
      ++ if (test i).value mem = true then [] else (scan test n (i + 1)).places mem := by
  rw [scan, places_bind]
  split <;> rfl

/-- The search for a pattern is a scan. -/
theorem findSub_eq_scan [DecidableEq β] (pat : List β) (n i : Nat) :
    findSub pat n i = scan (fun i => matchAt i pat) n i := by
  induction n generalizing i with
  | zero => rfl
  | succ n ih => rw [findSub, scan, ih]

/-- The place is the first one of the range that passes. -/
def FirstPass (test : Nat → Peek Nat β Bool) (mem : Nat → β) (i n k : Nat) : Prop :=
  i ≤ k ∧ k < i + n ∧ (test k).value mem = true ∧ ∀ j, i ≤ j → j < k → (test j).value mem = false

theorem value_scan_eq_none :
    (scan test n i).value mem = none ↔ ∀ j, i ≤ j → j < i + n → (test j).value mem = false := by
  induction n generalizing i with
  | zero => exact iff_of_true rfl fun j hj hj' => absurd hj' (by omega)
  | succ n ih =>
    rw [value_scan_succ]
    cases hi : (test i).value mem with
    | true =>
      refine iff_of_false (by simp) fun h => ?_
      rw [h i (Nat.le_refl i) (by omega)] at hi
      cases hi
    | false =>
      rw [if_neg (by decide), ih]
      constructor
      · intro h j hij hj
        by_cases heq : j = i
        · rwa [heq]
        · exact h j (by omega) (by omega)
      · intro h j hij hj
        exact h j (by omega) (by omega)

theorem value_scan_eq_some : (scan test n i).value mem = some k ↔ FirstPass test mem i n k := by
  induction n generalizing i with
  | zero =>
    refine iff_of_false (by simp [scan]) ?_
    rintro ⟨hik, hk, _⟩
    omega
  | succ n ih =>
    rw [value_scan_succ]
    cases hi : (test i).value mem with
    | true =>
      rw [if_pos rfl, Option.some.injEq]
      constructor
      · rintro rfl
        exact ⟨Nat.le_refl i, by omega, hi, fun j hj hj' => absurd hj' (by omega)⟩
      · rintro ⟨hik, _, _, hbefore⟩
        by_contra hne
        rw [hbefore i (Nat.le_refl i) (by omega)] at hi
        cases hi
    | false =>
      rw [if_neg (by decide), ih]
      constructor
      · rintro ⟨hik, hk, hpass, hbefore⟩
        refine ⟨by omega, by omega, hpass, fun j hij hj => ?_⟩
        by_cases heq : j = i
        · rwa [heq]
        · exact hbefore j (by omega) hj
      · rintro ⟨hik, hk, hpass, hbefore⟩
        have hne : k ≠ i := by
          rintro rfl
          rw [hpass] at hi
          cases hi
        exact ⟨by omega, by omega, hpass, fun j hij hj => hbefore j (by omega) hj⟩

/-- What is looked at: the places of each test that is not behind one that passes. -/
theorem mem_places_scan : j ∈ (scan test n i).places mem ↔
    ∃ p, i ≤ p ∧ p < i + n ∧ j ∈ (test p).places mem
      ∧ ∀ q, i ≤ q → q < p → (test q).value mem = false := by
  induction n generalizing i with
  | zero =>
    refine iff_of_false (by simp [scan]) ?_
    rintro ⟨p, hip, hp, _⟩
    omega
  | succ n ih =>
    rw [places_scan_succ, List.mem_append]
    constructor
    · rintro (hj | hj)
      · exact ⟨i, Nat.le_refl i, by omega, hj, fun q hq hq' => absurd hq' (by omega)⟩
      · cases hi : (test i).value mem with
        | true =>
          rw [hi, if_pos rfl] at hj
          cases hj
        | false =>
          rw [hi, if_neg (by decide)] at hj
          obtain ⟨p, hip, hp, hplaces, hbefore⟩ := ih.mp hj
          refine ⟨p, by omega, by omega, hplaces, fun q hiq hq => ?_⟩
          by_cases heq : q = i
          · rwa [heq]
          · exact hbefore q (by omega) hq
    · rintro ⟨p, hip, hp, hplaces, hbefore⟩
      by_cases heq : p = i
      · exact Or.inl (heq ▸ hplaces)
      · rw [hbefore i (Nat.le_refl i) (by omega), if_neg (by decide)]
        exact Or.inr (ih.mpr ⟨p, by omega, by omega, hplaces, fun q hiq hq =>
          hbefore q (by omega) hq⟩)

section Match

variable [DecidableEq β]

/-- A comparison looks at places of the pattern only. -/
theorem lt_of_mem_places_matchAt (h : j ∈ (matchAt i pat).places mem) :
    i ≤ j ∧ j < i + pat.length := by
  induction pat generalizing i with
  | nil => cases h
  | cons p pat ih =>
    rw [matchAt, places] at h
    rw [List.length_cons]
    rcases List.mem_cons.mp h with rfl | h
    · omega
    · split at h
      · have := ih h
        omega
      · cases h

/-- Where there are enough bytes the comparison tells whether the pattern is there. -/
theorem value_matchAt (h : Holds mem i bs) (hlen : pat.length ≤ bs.length) :
    (matchAt i pat).value mem = true ↔ pat <+: bs := by
  by_cases hpat : pat <+: bs
  · exact iff_of_true (matchAt_of_isPrefix h hpat).1 hpat
  · refine iff_of_false ?_ hpat
    by_cases hbs : bs <+: pat
    · exact absurd (hbs.eq_of_length_le hlen ▸ List.prefix_rfl) hpat
    · rw [(matchAt_of_differ h hpat hbs).1]
      decide

/-- The comparison stays inside the bytes unless they are cut off within the pattern. -/
theorem places_matchAt_lt (h : Holds mem i bs) :
    (∀ j ∈ (matchAt i pat).places mem, j < i + bs.length) ↔ (bs <+: pat → bs = pat) := by
  by_cases hpat : pat <+: bs
  · refine iff_of_true (matchAt_of_isPrefix h hpat).2 fun hbs => ?_
    exact hbs.eq_of_length_le hpat.length_le
  · by_cases hbs : bs <+: pat
    · by_cases heq : bs = pat
      · exact absurd (heq ▸ List.prefix_rfl) hpat
      · refine iff_of_false (fun hall => ?_) fun h => heq (h hbs)
        have := hall _ (mem_places_matchAt h hbs heq)
        omega
    · exact iff_of_true (matchAt_of_differ h hpat hbs).2 fun h => absurd h hbs

/-- A search that ends where the pattern has no room any more stays inside the bytes. -/
theorem lt_of_mem_places_findSub (hn : n + pat.length ≤ bs.length + 1)
    (hj : j ∈ (findSub pat n i).places mem) : j < i + bs.length := by
  rw [findSub_eq_scan] at hj
  obtain ⟨p, hip, hp, hplaces, _⟩ := mem_places_scan.mp hj
  have := lt_of_mem_places_matchAt hplaces
  omega

/-- In its range the search tells where the pattern is. -/
theorem value_test_findSub (h : Holds mem i bs) (hn : n + pat.length ≤ bs.length + 1) (hk : k < n) :
    (matchAt (i + k) pat).value mem = true ↔ pat <+: bs.drop k := by
  apply value_matchAt (h.drop (by omega))
  rw [List.length_drop]
  omega

theorem value_findSub_eq_none (h : Holds mem i bs) (hn : n + pat.length ≤ bs.length + 1) :
    (findSub pat n i).value mem = none ↔ ∀ k < n, ¬ pat <+: bs.drop k := by
  rw [findSub_eq_scan, value_scan_eq_none]
  constructor
  · intro hall k hk
    rw [← value_test_findSub h hn hk, hall (i + k) (by omega) (by omega)]
    decide
  · intro hall p hip hp
    have hpat := hall (p - i) (by omega)
    rwa [← value_test_findSub h hn (by omega), Bool.not_eq_true, Nat.add_sub_cancel' hip] at hpat

theorem value_findSub_eq_some (h : Holds mem i bs) (hn : n + pat.length ≤ bs.length + 1) :
    (findSub pat n i).value mem = some (i + k)
      ↔ k < n ∧ pat <+: bs.drop k ∧ ∀ l < k, ¬ pat <+: bs.drop l := by
  rw [findSub_eq_scan, value_scan_eq_some]
  constructor
  · rintro ⟨_, hk, hpass, hbefore⟩
    refine ⟨by omega, (value_test_findSub h hn (by omega)).mp hpass, fun l hl => ?_⟩
    rw [← value_test_findSub h hn (by omega), hbefore (i + l) (by omega) (by omega)]
    decide
  · rintro ⟨hk, hpass, hbefore⟩
    refine ⟨by omega, by omega, (value_test_findSub h hn hk).mpr hpass, fun p hip hp => ?_⟩
    have hpat := hbefore (p - i) (by omega)
    rwa [← value_test_findSub h hn (by omega), Bool.not_eq_true, Nat.add_sub_cancel' hip] at hpat

end Match

end Peek

/-- A fold over places of the bytes is one over the bytes. -/
theorem Holds.foldl_range' {γ : Type} (h : Holds mem i bs) (hn : n ≤ bs.length) (g : γ → β → γ)
    (c : γ) : (List.range' i n).foldl (fun c j => g c (mem j)) c = (bs.take n).foldl g c := by
  induction n generalizing i bs c with
  | zero => simp
  | succ n ih =>
    cases bs with
    | nil => cases hn
    | cons b bs =>
      rw [List.range'_succ, List.foldl_cons, List.take_succ_cons, List.foldl_cons, h.1]
      exact ih h.2 (Nat.le_of_succ_le_succ hn) _

/-- Bytes that are written stand in the memory. -/
theorem Holds.getElem? (h : Holds mem i bs) (hj : j < bs.length) : bs[j]? = some (mem (i + j)) := by
  induction bs generalizing i j with
  | nil => cases hj
  | cons b bs ih =>
    cases j with
    | zero => exact congrArg some h.1.symm
    | succ j =>
      rw [List.getElem?_cons_succ, ih h.2 (Nat.lt_of_succ_lt_succ hj),
        show i + 1 + j = i + (j + 1) by omega]

end VdCamera.Misc
