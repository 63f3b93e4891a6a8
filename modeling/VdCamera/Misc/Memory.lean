import Mathlib.Tactic.Common
import VdCamera.Misc.Peek

/-!
# Writing into a memory

A memory is a function of the place. `overwrite` puts a list of contents at a place.
-/

namespace VdCamera.Misc

section Memory

variable {β : Type*}

/-- The memory after the list was written from place `p` on. -/
def overwrite (mem : Nat → β) (p : Nat) (bs : List β) (i : Nat) : β :=
  if p ≤ i then (bs[i - p]?).getD (mem i) else mem i

variable {mem : Nat → β} {p i : Nat} {bs : List β}

theorem overwrite_of_lt (h : i < p) : overwrite mem p bs i = mem i := if_neg (by omega)

theorem overwrite_of_le (h : p + bs.length ≤ i) : overwrite mem p bs i = mem i := by
  rw [overwrite, if_pos (by omega), List.getElem?_eq_none (by omega)]
  rfl

theorem getElem?_overwrite (hp : p ≤ i) (hi : i < p + bs.length) :
    bs[i - p]? = some (overwrite mem p bs i) := by
  have h : i - p < bs.length := by omega
  rw [overwrite, if_pos hp, List.getElem?_eq_getElem h]
  rfl

/-! ## What stands in the memory -/

section Holds

variable {β : Type} {mem mem' : Nat → β} {p i n : Nat} {bs cs : List β}

theorem holds_overwrite : Holds (overwrite mem p bs) p bs := by
  apply holds_of_getElem? (d := mem p)
  intro j hj
  have h : bs[p + j - p]? = some (overwrite mem p bs (p + j)) :=
    getElem?_overwrite (Nat.le_add_right p j) (Nat.add_lt_add_left hj p)
  rw [Nat.add_sub_cancel_left] at h
  rw [h]
  rfl

theorem Holds.congr (h : Holds mem i bs)
    (heq : ∀ j, i ≤ j → j < i + bs.length → mem' j = mem j) : Holds mem' i bs := by
  induction bs generalizing i with
  | nil => trivial
  | cons b bs ih =>
    rw [List.length_cons] at heq
    exact ⟨(heq i (Nat.le_refl i) (by omega)).trans h.1,
      ih h.2 fun j hi hj => heq j (by omega) (by omega)⟩

/-- A list elsewhere is not touched. -/
theorem Holds.overwrite (h : Holds mem i bs)
    (hapart : i + bs.length ≤ p ∨ p + cs.length ≤ i) : Holds (overwrite mem p cs) i bs := by
  refine h.congr fun j hi hj => ?_
  rcases hapart with hapart | hapart
  · exact overwrite_of_lt (by omega)
  · exact overwrite_of_le (by omega)

theorem Peek.value_contents_congr (heq : ∀ j, i ≤ j → j < i + n → mem' j = mem j) :
    (Peek.contents n i).value mem' = (Peek.contents n i).value mem :=
  Peek.value_congr fun j hj => heq j (Peek.mem_places_contents.mp hj).1
    (Peek.mem_places_contents.mp hj).2

theorem Holds.value_contents (h : Holds mem i bs) : (Peek.contents bs.length i).value mem = bs := by
  rw [Peek.value_contents h (Nat.le_refl _), List.take_length]

end Holds

end Memory

/-! ## Writing into a buffer of a fixed size

A buffer is the list of what it holds. `put` writes at a place counted from its beginning, which may
lie before it, and fails where a write would leave it. A buffer that is filled from its beginning
has the list of what was put as a prefix.
-/

section FixedBuffer

variable {β : Type*}

/-- The buffer after a write; nothing is written for an empty list, wherever it would go. -/
def put (buf : List β) (p : Int) (bs : List β) : Option (List β) :=
  if bs.isEmpty then some buf
  else if 0 ≤ p ∧ p.toNat + bs.length ≤ buf.length then
    some (buf.take p.toNat ++ (bs ++ buf.drop (p.toNat + bs.length)))
  else none

variable {buf buf' as bs cs : List β} {p : Int}

@[simp] theorem put_nil (buf : List β) (p : Int) : put buf p [] = some buf := rfl

theorem put_of_le (h0 : 0 ≤ p) (h : p.toNat + bs.length ≤ buf.length) :
    put buf p bs = some (buf.take p.toNat ++ (bs ++ buf.drop (p.toNat + bs.length))) := by
  cases bs with
  | nil => simp
  | cons b bs =>
    have hin : 0 ≤ p ∧ p.toNat + (b :: bs).length ≤ buf.length := ⟨h0, h⟩
    exact if_pos hin

theorem put_eq_none (hbs : bs ≠ []) (h : p < 0 ∨ buf.length < p.toNat + bs.length) :
    put buf p bs = none := by
  have hempty : ¬ bs.isEmpty = true := by simpa using hbs
  rw [put, if_neg hempty, if_neg (by omega)]

/-- A write changes no place outside. -/
theorem length_put (h : put buf p bs = some buf') : buf'.length = buf.length := by
  by_cases hbs : bs = []
  · subst hbs
    cases h
    rfl
  by_cases hin : 0 ≤ p ∧ p.toNat + bs.length ≤ buf.length
  · rw [put_of_le hin.1 hin.2] at h
    cases h
    simp only [List.length_append, List.length_take, List.length_drop]
    omega
  · rw [put_eq_none hbs (by omega)] at h
    cases h

/-- A write behind what fills the buffer so far. -/
theorem put_append (has : as <+: buf) (h : as.length + bs.length ≤ buf.length) :
    ∃ buf', put buf as.length bs = some buf' ∧ as ++ bs <+: buf' ∧ buf'.length = buf.length := by
  obtain ⟨rest, rfl⟩ := has
  have hput : put (as ++ rest) as.length bs = some (as ++ (bs ++ rest.drop bs.length)) := by
    rw [put_of_le (Int.natCast_nonneg _) h, Int.toNat_natCast, List.take_left, List.drop_append,
      Nat.add_sub_cancel_left, List.drop_eq_nil_of_le (Nat.le_add_right _ _), List.nil_append]
  refine ⟨_, hput, ?_, length_put hput⟩
  rw [← List.append_assoc]
  exact List.prefix_append _ _

/-- What was left out at the beginning is written later. -/
theorem put_before {k : Nat} (h : k + bs.length ≤ buf.length) (has : as.length = k) :
    ∃ buf₁ buf₂, put buf k bs = some buf₁ ∧ put buf₁ 0 as = some buf₂ ∧ as ++ bs <+: buf₂
      ∧ buf₂.length = buf.length := by
  have hput := put_of_le (p := k) (Int.natCast_nonneg _) h
  rw [Int.toNat_natCast] at hput
  have hlen := length_put hput
  have htake : (buf.take k).length = as.length := by
    rw [List.length_take]
    omega
  have hput₂ := put_of_le (p := 0) (Int.le_refl 0)
    (show (0 : Int).toNat + as.length ≤ (buf.take k ++ (bs ++ buf.drop (k + bs.length))).length by
      rw [hlen]; omega)
  refine ⟨_, _, hput, hput₂, ?_, (length_put hput₂).trans hlen⟩
  rw [Int.toNat_zero, List.take_zero, List.nil_append, Nat.zero_add, ← htake, List.drop_left,
    ← List.append_assoc]
  exact List.prefix_append _ _

/-- What fills the buffer is what can be taken from it. -/
theorem take_of_isPrefix (has : as <+: buf) (h : k = as.length) : buf.take k = as := by
  rw [h]
  exact (List.prefix_iff_eq_take.mp has).symm

end FixedBuffer

end VdCamera.Misc
