import VdCamera.Misc.Decimal
import VdCamera.Storage.Disk

/-!
# Whether a disk id is new

The id has its highest bit set, and `atoi` gives no number that has it: the first draw is always taken.
-/

namespace VdCamera.Storage

open Misc

variable {src : RandomSource} {opened : Nat → Bool} {dir : InfoDir} {i fuel : Nat} {name : List UInt8}

theorem two_pow_le_drawnId (src : RandomSource) (i : Nat) : 2 ^ 31 ≤ (drawnId src i).toNat := by
  unfold drawnId
  rw [UInt32.toNat_or]
  exact Nat.right_le_or

/-- A number that is not negative is no id. -/
theorem idTaken_eq_false (h : 0 ≤ strtol name) (h' : strtol name < 2 ^ 31) :
    idTaken (drawnId src i) name = false := by
  have hid := two_pow_le_drawnId src i
  rw [idTaken, beq_eq_false_iff_ne]
  intro heq
  obtain ⟨n, hn⟩ := Int.eq_ofNat_of_zero_le h
  have hlt : n < UInt32.size := by
    show n < 2 ^ 32
    omega
  have hnat : (atoi name).toUInt32.toNat = n := by
    rw [atoi, hn, Int32.ofInt_eq_ofNat, Int32.toUInt32_ofNat']
    exact UInt32.toNat_ofNat_of_lt' hlt
  rw [heq, hnat] at hid
  omega

/-- The names of the directory are not read as negative numbers. -/
theorem strtol_nonneg (h : name ∈ dir.names) : 0 ≤ strtol name ∧ strtol name < 2 ^ 31 := by
  rcases dir.ids name h with rfl | rfl | ⟨id, rfl⟩
  · decide
  · decide
  · rw [strtol_digits fun b hb => isDigit_of_mem_digits hb]
    omega

/-- No name is ever taken for the id of a draw. -/
theorem idStep_eq_none (src : RandomSource) (opened : Nat → Bool) (dir : InfoDir) (i : Nat) :
    idStep src opened dir i = none := by
  have hany : dir.names.any (idTaken (drawnId src i)) = false := by
    rw [List.any_eq_false]
    intro name hname
    rw [Bool.not_eq_true]
    exact idTaken_eq_false (strtol_nonneg hname).1 (strtol_nonneg hname).2
  rw [idStep, hany, Bool.and_false]
  rfl

/-- The id that is returned is that of the first draw. -/
theorem diskIdCreate_eq {id : UInt32} (h : diskIdCreate src opened dir fuel = some id) :
    id = drawnId src 0 := by
  obtain ⟨i, hi, rfl⟩ := Option.map_eq_some_iff.mp h
  rw [(exitsIn_iff_of_exit (idStep_eq_none src opened dir 0)).mp ⟨fuel, hi⟩]

theorem diskIdCreate_one : diskIdCreate src opened dir 1 = some (drawnId src 0) := by
  rw [diskIdCreate, loop, idStep_eq_none]
  rfl

/-- An id that is returned is none of those in the directory. -/
def NewId (src : RandomSource) (opened : Nat → Bool) (dir : InfoDir) : Prop :=
  ∀ fuel id, diskIdCreate src opened dir fuel = some id → digits id.toNat ∉ dir.names

/-- The id is new if and only if the first number drawn is, with its highest bit set. -/
theorem new_id_iff (src : RandomSource) (opened : Nat → Bool) (dir : InfoDir) :
    NewId src opened dir ↔ digits (random32 src 0 ||| 0x80000000).toNat ∉ dir.names := by
  constructor
  · intro h
    exact h 1 _ diskIdCreate_one
  · intro h fuel id hid
    rw [diskIdCreate_eq hid]
    exact h

/-- The id `2 ^ 31` is there, and `/dev/urandom` gives zero. -/
theorem not_new_id : ¬ NewId ⟨fun _ => some 0, fun _ => 0, fun _ => 0⟩ (fun _ => true)
    ⟨[ascii ".", ascii "..", digits (2 ^ 31)], by
      intro n hn
      simp only [List.mem_cons, List.not_mem_nil, or_false] at hn
      exact hn.imp_right (Or.imp_right fun h => ⟨0x80000000, h⟩)⟩ := by
  intro h
  rw [new_id_iff] at h
  exact h (by decide)

end VdCamera.Storage
