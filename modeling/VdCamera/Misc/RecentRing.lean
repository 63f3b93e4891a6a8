import Mathlib.Logic.Function.Basic
import Mathlib.Tactic.Common

/-!
# A ring of the most recent

`n` slots hold the last `n` of what is pushed. The ring knows the place of the newest one, which is -1
as long as there is none, and whether a slot is in use can be seen in the slot. A walk goes from the
newest one back.
-/

namespace VdCamera.Misc

variable {α : Type*} (n : Nat) (used : α → Bool)

structure RecentRing (α : Type*) where
  slot : Nat → α
  current : Int := -1

namespace RecentRing

/-- The place behind the newest one, and behind the last place the first. -/
def next (r : RecentRing α) : Int := if n ≤ r.current + 1 then 0 else r.current + 1

/-- The newest one takes the next place. -/
def push (r : RecentRing α) (a : α) : RecentRing α where
  slot := Function.update r.slot (r.next n).toNat a
  current := r.next n

/-- The place before `i`; before the first place the last one, if it is in use. -/
def before (r : RecentRing α) (i : Int) : Option Int :=
  if i - 1 < 0 then (if used (r.slot (n - 1)) then some (n - 1 : Int) else none) else some (i - 1)

/-- The loop from place `i` back to the newest one; `none` when the fuel is too little. -/
def walkFrom (r : RecentRing α) : Nat → Int → Option (List α)
  | 0, _ => none
  | fuel + 1, i =>
    match r.before n used i with
    | none => some [r.slot i.toNat]
    | some j =>
      if j = r.current then some [r.slot i.toNat]
      else (walkFrom r fuel j).map (r.slot i.toNat :: ·)

/-- The contents from the newest one back. -/
def walk (r : RecentRing α) : Option (List α) :=
  if r.current < 0 then some [] else r.walkFrom n used n r.current

/-- The place of the one that is `k` older than the newest. -/
def older (c k : Nat) : Nat := if k ≤ c then c - k else c + n - k

/-- The ring holds the items, newest first. -/
structure Holds (r : RecentRing α) (items : List α) : Prop where
  le : items.length ≤ n
  /-- As long as the ring is not full, it has been filled from its first place on. -/
  current : items.length < n → r.current = items.length - 1
  inside : items.length = n → 0 ≤ r.current ∧ r.current < n
  get : ∀ k < items.length, items[k]? = some (r.slot (older n r.current.toNat k))
  free : ∀ j, items.length ≤ j → j < n → used (r.slot j) = false
  inUse : ∀ a ∈ items, used a = true

variable {n} {used} {r : RecentRing α} {items : List α} {a : α} {c k fuel : Nat}

theorem older_cases (n c k : Nat) :
    k ≤ c ∧ older n c k = c - k ∨ c < k ∧ older n c k = c + n - k := by
  unfold older
  split
  · exact .inl ⟨‹_›, rfl⟩
  · exact .inr ⟨by omega, rfl⟩

theorem older_zero (n c : Nat) : older n c 0 = c := if_pos (Nat.zero_le c)

theorem Holds.current_lt (h : r.Holds n used items) (hpos : 0 < items.length) :
    0 ≤ r.current ∧ r.current < n ∧ r.current.toNat < n := by
  have hle := h.le
  rcases Nat.lt_or_ge items.length n with hlt | hge
  · have := h.current hlt
    omega
  · have := h.inside (by omega)
    omega

/-- A ring of free slots holds nothing. -/
theorem Holds.empty (hn : 0 < n) (hfree : ∀ j < n, used (r.slot j) = false) (hc : r.current = -1) :
    r.Holds n used [] where
  le := Nat.zero_le n
  current _ := by rw [hc]; rfl
  inside h := absurd h (Nat.ne_of_lt hn)
  get k hk := absurd hk (Nat.not_lt_zero k)
  free j _ hj := hfree j hj
  inUse a ha := absurd ha List.not_mem_nil

/-- The newest one pushes out what would be the `n + 1`st. -/
theorem Holds.push (hn : 0 < n) (h : r.Holds n used items) (ha : used a = true) :
    (r.push n a).Holds n used ((a :: items).take n) := by
  have hle := h.le
  have hnext : 0 ≤ r.next n ∧ r.next n < n ∧ (r.next n).toNat < n := by
    unfold next
    split
    · omega
    · rcases Nat.lt_or_ge items.length n with hlt | hge
      · have := h.current hlt
        omega
      · have := h.inside (by omega)
        omega
  have hlen : ((a :: items).take n).length = min n (items.length + 1) := by
    rw [List.length_take, List.length_cons]
  -- what was the newest one is one older
  have hshift (k : Nat) (hk : k < items.length) (hkn : k + 1 < n) :
      older n (r.next n).toNat (k + 1) = older n r.current.toNat k := by
    obtain ⟨h0, h1, -⟩ := h.current_lt (by omega)
    have hold := older_cases n r.current.toNat k
    have hnew := older_cases n (r.next n).toNat (k + 1)
    unfold next at hnew ⊢
    split at hnew
    next hwrap =>
      rw [if_pos hwrap]
      omega
    next hwrap =>
      rw [if_neg hwrap]
      omega
  refine ⟨by omega, fun hlt => ?_, fun _ => ⟨hnext.1, hnext.2.1⟩, fun k hk => ?_, ?_, ?_⟩
  · have hcur := h.current (by omega)
    show r.next n = _
    unfold next
    rw [if_neg (by omega), hlen]
    omega
  · rw [List.getElem?_take_of_lt (by omega)]
    cases k with
    | zero =>
      show some a = some (Function.update r.slot (r.next n).toNat a (older n (r.next n).toNat 0))
      rw [older_zero, Function.update_self]
    | succ k =>
      have hk' : k < items.length := by omega
      show items[k]? = some (Function.update r.slot (r.next n).toNat a
        (older n (r.next n).toNat (k + 1)))
      have hne : older n (r.next n).toNat (k + 1) ≠ (r.next n).toNat := by
        have := older_cases n (r.next n).toNat (k + 1)
        omega
      rw [Function.update_of_ne hne, hshift k hk' (by omega)]
      exact h.get k hk'
  · intro j hj hjn
    have hcur := h.current (by omega)
    show used (Function.update r.slot (r.next n).toNat a j) = false
    have hne : j ≠ (r.next n).toNat := by
      unfold next
      rw [if_neg (by omega)]
      omega
    rw [Function.update_of_ne hne]
    exact h.free j (by omega) hjn
  · intro b hb
    cases List.mem_cons.1 (List.mem_of_mem_take hb) with
    | inl hba => exact hba ▸ ha
    | inr hmem => exact h.inUse b hmem

/-- The walk from the place of item `k` meets the items from there on. -/
theorem Holds.walkFrom (h : r.Holds n used items) (hk : k < items.length)
    (hfuel : items.length - k ≤ fuel) :
    r.walkFrom n used fuel (older n r.current.toNat k) = some (items.drop k) := by
  induction fuel generalizing k with
  | zero => omega
  | succ fuel ih =>
    have hle := h.le
    obtain ⟨h0, h1, h2⟩ := h.current_lt (by omega)
    have hk? := h.get k hk
    have hslot : r.slot (older n r.current.toNat k : Int).toNat = items[k] := by
      rw [List.getElem?_eq_getElem hk, Option.some.injEq] at hk?
      rw [Int.toNat_natCast]
      exact hk?.symm
    have hdrop : items.drop k = items[k] :: items.drop (k + 1) := List.drop_eq_getElem_cons hk
    rw [RecentRing.walkFrom, hslot, hdrop]
    have hlast (j : Nat) (hj : j < items.length) (hjn : older n r.current.toNat j = n - 1) :
        used (r.slot (n - 1)) = true := by
      have hj? := h.get j hj
      rw [hjn] at hj?
      exact h.inUse _ (List.mem_of_getElem? hj?)
    have hplace := older_cases n r.current.toNat k
    by_cases hend : k + 1 < items.length
    · have hprev := older_cases n r.current.toNat (k + 1)
      have hbefore : r.before n used (older n r.current.toNat k)
          = some (older n r.current.toNat (k + 1) : Int) := by
        unfold before
        split
        next hwrap =>
          have hlt : older n r.current.toNat (k + 1) = n - 1 := by omega
          rw [if_pos (hlast (k + 1) hend hlt), hlt]
          exact congrArg some (by omega)
        next hwrap => exact congrArg some (by omega)
      have hne : (older n r.current.toNat (k + 1) : Int) ≠ r.current := by omega
      rw [hbefore]
      simp only [if_neg hne, ih hend (by omega), Option.map_some]
    · have hnil : items.drop (k + 1) = [] := List.drop_eq_nil_of_le (by omega)
      rw [hnil]
      rcases Nat.lt_or_ge items.length n with hlt | hge
      · have hcur := h.current hlt
        have hbefore : r.before n used (older n r.current.toNat k) = none := by
          unfold before
          rw [if_pos (by omega), h.free (n - 1) (by omega) (by omega)]
          rfl
        rw [hbefore]
      · have hzero := older_zero n r.current.toNat
        have hbefore : r.before n used (older n r.current.toNat k) = some r.current := by
          unfold before
          split
          next hwrap =>
            have hlt : older n r.current.toNat 0 = n - 1 := by omega
            rw [if_pos (hlast 0 (by omega) hlt)]
            exact congrArg some (by omega)
          next hwrap => exact congrArg some (by omega)
        rw [hbefore]
        simp only [if_true]

theorem Holds.walk (hn : 0 < n) (h : r.Holds n used items) : r.walk n used = some items := by
  rw [RecentRing.walk]
  cases items with
  | nil =>
    have := h.current hn
    rw [if_pos (by rw [this]; simp)]
  | cons a rest =>
    obtain ⟨h0, -, -⟩ := h.current_lt (Nat.succ_pos _)
    have hle := h.le
    have hw : r.walkFrom n used n (older n r.current.toNat 0) = some ((a :: rest).drop 0) :=
      h.walkFrom (Nat.succ_pos _) (by omega)
    rw [older_zero, Int.toNat_of_nonneg h0] at hw
    rw [if_neg (by omega), hw, List.drop_zero]

end RecentRing

end VdCamera.Misc
