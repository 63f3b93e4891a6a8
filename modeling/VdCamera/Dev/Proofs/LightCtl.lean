import VdCamera.Dev.LightCtl

/-!
# Flashing lights

The rounds of the flash thread only turn the list round. The loop that turns the lights on adds the
flashing ones to a list that was emptied, unless the message had nothing to turn on.
-/

namespace VdCamera.Dev

open Misc

variable {prioMax active rounds : Nat} {s s' : LightTable} {msg : LightCtlMsg prioMax} {n : FlashNode}
  {i : Fin LIGHT_COLOR_MAX} {is : List (Fin LIGHT_COLOR_MAX)} {op : LightTableOp prioMax}

/-- The entry that is selected is the highest that is not empty. -/
theorem select_some (h : s.select prioMax = some active) :
    active < prioMax ∧ (s.list active).priority ≠ LIGHT_PRIO_NULL
      ∧ ∀ i, active < i → i < prioMax → (s.list i).priority = LIGHT_PRIO_NULL := by
  obtain ⟨hlo, hhi, hactive, habove⟩ := scanDown_some h
  have hpos : LIGHT_PRIO_NULL + 1 = 1 := rfl
  refine ⟨by omega, by simpa using hactive, fun i hi hlt => ?_⟩
  simpa using habove i hi (by omega)

/-! ## What a part of a message leaves as it is -/

/-- The table is the same, the list has the nodes `added` more, in some order, and the flag is up when it
has any. -/
structure FlashAdds (s : LightTable) (added : List FlashNode) (s' : LightTable) : Prop where
  list : s'.list = s.list
  flash : s'.flash.Perm (s.flash ++ added)
  flag : (s.hasLightFlash = false → s.flash = []) → s'.hasLightFlash = false → s'.flash = []

theorem FlashAdds.refl (s : LightTable) : FlashAdds s [] s :=
  ⟨rfl, by rw [List.append_nil], fun h => h⟩

theorem FlashAdds.trans {s₁ s₂ s₃ : LightTable} {a b : List FlashNode} (h₁ : FlashAdds s₁ a s₂)
    (h₂ : FlashAdds s₂ b s₃) : FlashAdds s₁ (a ++ b) s₃ where
  list := h₂.list.trans h₁.list
  flash := by
    rw [← List.append_assoc]
    exact h₂.flash.trans (h₁.flash.append_right b)
  flag h := h₂.flag (h₁.flag h)

theorem FlashAdds.flashes {a : List FlashNode} (h : FlashAdds s a s') :
    s'.Flashes n ↔ s.Flashes n := by
  rw [LightTable.Flashes, LightTable.light, h.list]
  exact Iff.rfl

theorem flashAdds_call (s : LightTable) (id : Fin LIGHT_COLOR_MAX) (b : Nat) :
    FlashAdds s [] (s.call id b) :=
  ⟨rfl, by rw [List.append_nil]; rfl, fun h => h⟩

theorem flashAdds_round (s : LightTable) : FlashAdds s [] s.flashRound := by
  cases hf : s.flash with
  | nil =>
    rw [LightTable.flashRound, hf]
    exact FlashAdds.refl s
  | cons n rest =>
    simp only [LightTable.flashRound, hf]
    split
    · exact (flashAdds_call s _ _).trans (flashAdds_call _ _ _)
    · refine ⟨rfl, ?_, fun h hflag => ?_⟩
      · rw [List.append_nil, hf]
        exact List.perm_append_singleton n rest
      · have := h hflag
        rw [hf] at this
        cases this

theorem flashAdds_rounds (rounds : Nat) (s : LightTable) :
    FlashAdds s [] (s.flashRounds rounds) := by
  induction rounds generalizing s with
  | zero => exact FlashAdds.refl s
  | succ rounds ih => exact (flashAdds_round s).trans (ih s.flashRound)

/-- The node that a light adds. -/
def flashNodes (s : LightTable) (active : Nat) (i : Fin LIGHT_COLOR_MAX) : List FlashNode :=
  if s.Flashes (active, i) then [(active, i)] else []

theorem flashAdds_turnOn (active rounds : Nat) (s : LightTable) (i : Fin LIGHT_COLOR_MAX) :
    FlashAdds s (flashNodes s active i) (s.turnOn active rounds i) := by
  have hr := flashAdds_rounds rounds s
  have hiff := hr.flashes (n := (active, i))
  by_cases hf : s.Flashes (active, i)
  · have hf' := hiff.2 hf
    have hstart : (s.flashRounds rounds).flashStart (active, i)
        = { s.flashRounds rounds with flash := (s.flashRounds rounds).flash ++ [(active, i)] } :=
      if_pos hf'
    have hturn : s.turnOn active rounds i
        = { (s.flashRounds rounds).flashStart (active, i) with hasLightFlash := true } := by
      simp only [LightTable.turnOn]
      rw [if_neg fun h => absurd h.2 (Nat.ne_of_gt hf'.2)]
      exact if_pos hf'
    rw [flashNodes, if_pos hf, hturn, hstart]
    refine ⟨hr.list, ?_, fun _ hflag => by cases hflag⟩
    have := hr.flash
    rw [List.append_nil] at this
    exact this.append_right _
  · have hf' : ¬ (s.flashRounds rounds).Flashes (active, i) := fun h => hf (hiff.1 h)
    rw [flashNodes, if_neg hf]
    simp only [LightTable.turnOn]
    split
    · exact hr.trans (flashAdds_call _ _ _)
    · refine (if_neg hf').symm ▸ ?_
      exact hr

/-- The nodes of those lights of the entry that flash. -/
def flashNodesOf (s : LightTable) (active : Nat) (is : List (Fin LIGHT_COLOR_MAX)) :
    List FlashNode := (is.filter fun i => s.Flashes (active, i)).map (Prod.mk active)

theorem flashNodesOf_cons : flashNodesOf s active (i :: is)
    = flashNodes s active i ++ flashNodesOf s active is := by
  rw [flashNodesOf, flashNodes, List.filter_cons]
  by_cases hf : s.Flashes (active, i)
  · rw [if_pos (decide_eq_true hf), if_pos hf]
    rfl
  · rw [if_neg (by simpa using hf), if_neg hf]
    rfl

theorem flashAdds_turnOns (active : Nat) (rounds : Nat → Nat) (is : List (Fin LIGHT_COLOR_MAX))
    (s : LightTable) :
    FlashAdds s (flashNodesOf s active is)
      (is.foldl (fun s (i : Fin LIGHT_COLOR_MAX) => s.turnOn active (rounds i) i) s) := by
  induction is generalizing s with
  | nil => exact FlashAdds.refl s
  | cons i is ih =>
    have hi := flashAdds_turnOn active (rounds i) s i
    have hsame : flashNodesOf (s.turnOn active (rounds i) i) active is
        = flashNodesOf s active is := by
      simp only [flashNodesOf, hi.flashes]
    have hrest := ih (s.turnOn active (rounds i) i)
    rw [hsame] at hrest
    rw [flashNodesOf_cons]
    exact hi.trans hrest

theorem flashAdds_turnOffs (active : Nat) (is : List (Fin LIGHT_COLOR_MAX)) (s : LightTable) :
    FlashAdds s [] (is.foldl (LightTable.turnOff active) s) := by
  induction is generalizing s with
  | nil => exact FlashAdds.refl s
  | cons i is ih =>
    have hi : FlashAdds s [] (s.turnOff active i) := by
      simp only [LightTable.turnOff]
      split
      · exact flashAdds_call s _ _
      · exact FlashAdds.refl s
    exact hi.trans (ih (s.turnOff active i))

/-! ## Runs -/

/-- The list is that of the active entry, and the flag is up when it has nodes. -/
structure LightTable.Inv (prioMax : Nat) (s : LightTable) : Prop where
  flag : s.hasLightFlash = false → s.flash = []
  active : s.FlashesActive prioMax

theorem select_congr (h : s'.list = s.list) : s'.select prioMax = s.select prioMax := by
  rw [LightTable.select, h]
  rfl

theorem flashesActive_of_adds (h : FlashAdds s [] s') (hs : s.FlashesActive prioMax) :
    s'.FlashesActive prioMax := by
  have hperm : s'.flash.Perm s.flash := by simpa using h.flash
  simp only [LightTable.FlashesActive, select_congr h.list] at hs ⊢
  split at hs
  · rw [hs] at hperm
    exact List.perm_nil.1 hperm
  · obtain ⟨hnodes, hcount⟩ := hs
    refine ⟨fun n hn => ?_, fun hon i hi => ?_⟩
    · rw [h.flashes]
      exact hnodes n (hperm.mem_iff.1 hn)
    · rw [h.list] at hon
      rw [h.flashes] at hi
      rw [hperm.count_eq]
      exact hcount hon i hi

theorem mem_flashNodesOf (h : n ∈ flashNodesOf s active is) : n.1 = active ∧ s.Flashes n := by
  obtain ⟨i, hi, rfl⟩ := List.mem_map.1 h
  exact ⟨rfl, by simpa using (List.mem_filter.1 hi).2⟩

theorem count_flashNodesOf (h : s.Flashes (active, i)) :
    (flashNodesOf s active (List.finRange LIGHT_COLOR_MAX)).count (active, i) = 1 := by
  refine List.count_eq_one_of_mem ?_ ?_
  · refine List.Nodup.map (Prod.mk_right_injective active) ?_
    exact (List.nodup_finRange _).filter _
  · refine List.mem_map_of_mem (List.mem_filter.2 ⟨List.mem_finRange i, ?_⟩)
    exact decide_eq_true h

theorem inv_of_adds (hempty : s.flash = []) (hsel : s.select prioMax = some active)
    (h : FlashAdds s (flashNodesOf s active (List.finRange LIGHT_COLOR_MAX)) s') :
    s'.Inv prioMax := by
  have hperm := h.flash
  rw [hempty, List.nil_append] at hperm
  refine ⟨h.flag fun _ => hempty, ?_⟩
  simp only [LightTable.FlashesActive, select_congr h.list, hsel]
  constructor
  · intro n hn
    rw [h.flashes]
    exact mem_flashNodesOf (hperm.mem_iff.1 hn)
  · intro _ i hi
    rw [hperm.count_eq]
    exact count_flashNodesOf (h.flashes.1 hi)

theorem LightTable.Inv.put {rounds : Nat → Nat} (hi : s.Inv prioMax)
    (ht : s.TakenDown prioMax (.set msg rounds)) :
    (putCurrentLightState msg rounds s).Inv prioMax := by
  have hflag : (s.handle msg).hasLightFlash = false → (s.handle msg).flash = [] := hi.flag
  simp only [putCurrentLightState, LightTable.TakenDown] at ht ⊢
  cases hsel : (s.handle msg).select prioMax with
  | none =>
    rw [hsel] at ht
    refine ⟨fun _ => ht, ?_⟩
    simp only [LightTable.FlashesActive, hsel]
    exact ht
  | some active =>
    rw [hsel] at ht
    simp only
    by_cases hoff : ((s.handle msg).list active).AllOff
    · rw [if_pos hoff]
      refine ⟨fun _ => ht hoff, ?_⟩
      simp only [LightTable.FlashesActive, hsel]
      have hnil : (s.handle msg).flash = [] := ht hoff
      rw [hnil]
      exact ⟨fun n hn => absurd hn List.not_mem_nil, fun hon => absurd hoff hon⟩
    · rw [if_neg hoff]
      generalize hs₀ : s.handle msg = s₀ at hflag hsel hoff ⊢
      have hrounds := flashAdds_rounds (rounds LIGHT_COLOR_MAX) s₀
      generalize s₀.flashRounds (rounds LIGHT_COLOR_MAX) = s₁ at hrounds ⊢
      -- the list is empty when the loop begins, whether or not it had to be emptied
      generalize hs₂ : (if s₁.hasLightFlash then
        { s₁.flashStop with hasLightFlash := false } else s₁) = s₂
      have hlist : s₂.list = s₀.list := by
        rw [← hs₂, ← hrounds.list]
        split <;> rfl
      have hempty : s₂.flash = [] := by
        rw [← hs₂]
        split
        next => rfl
        next hup => exact hrounds.flag hflag (by simpa using hup)
      have hadds := (flashAdds_turnOns active rounds (List.finRange LIGHT_COLOR_MAX) s₂).trans
        (flashAdds_turnOffs active (List.finRange LIGHT_COLOR_MAX) _)
      rw [List.append_nil] at hadds
      refine inv_of_adds hempty ?_ hadds
      rw [select_congr hlist, hsel]

/-- A message or a round keeps the list. -/
theorem LightTable.Inv.step (hi : s.Inv prioMax) (ht : s.TakenDown prioMax op)
    (hs : lightTableStep prioMax s op = some s') : s'.Inv prioMax := by
  cases op with
  | set msg rounds =>
    rw [lightTableStep, Option.some.injEq] at hs
    exact hs ▸ hi.put ht
  | round =>
    rw [lightTableStep, Option.some.injEq] at hs
    subst hs
    have hr := flashAdds_round s
    exact ⟨hr.flag hi.flag, flashesActive_of_adds hr hi.active⟩

theorem LightTable.inv_init (prioMax : Nat) : ({} : LightTable).Inv prioMax := by
  refine ⟨fun _ => rfl, ?_⟩
  cases hsel : ({} : LightTable).select prioMax with
  | none => simp only [LightTable.FlashesActive, hsel]
  | some active => exact absurd rfl (select_some hsel).2.1

/-- As long as no message leaves the colours off while lights flash, the flash list is that of the highest
entry after every message. -/
theorem lights_flash_active (prioMax : Nat) (ops : List (LightTableOp prioMax)) :
    Along (lightTableStep prioMax) (LightTable.TakenDown prioMax) {} ops →
      Along (lightTableStep prioMax)
        (After (lightTableStep prioMax) (LightTable.FlashesActive prioMax)) {} ops := by
  intro h
  exact Along.of_invariant (LightTable.inv_init prioMax) h (fun _ _ _ => LightTable.Inv.step)
    fun s op hi ht s' hs => (hi.step ht hs).active

instance (prioMax : Nat) (s : LightTable) : Decidable (s.FlashesActive prioMax) :=
  match h : s.select prioMax with
  | none => decidable_of_iff (s.flash = []) (by simp only [LightTable.FlashesActive, h])
  | some active => decidable_of_iff ((∀ n ∈ s.flash, n.1 = active ∧ s.Flashes n)
      ∧ (¬ (s.list active).AllOff → ∀ i, s.Flashes (active, i) → s.flash.count (active, i) = 1))
      (by simp only [LightTable.FlashesActive, h])

instance (prioMax : Nat) (s : LightTable) (op : LightTableOp prioMax) :
    Decidable (s.TakenDown prioMax op) :=
  match op with
  | .round => isTrue trivial
  | .set msg rounds =>
    match h : (s.handle msg).select prioMax with
    | none => decidable_of_iff (s.flash = []) (by simp only [LightTable.TakenDown, h])
    | some active => decidable_of_iff (((s.handle msg).list active).AllOff → s.flash = [])
        (by simp only [LightTable.TakenDown, h])

/-- A message of two priorities that has the light of one colour flash. -/
def flashMsg (action : LightAction) (high : Bool) (colour : Fin LIGHT_COLOR_MAX) : LightCtlMsg 3 where
  priority := if high then 2 else 1
  lightActionList i := ⟨i, if i = colour then 255 else 0, if i = colour then 5 else 0⟩
  action := action
  prio_pos := by cases high <;> decide
  prio_lt := by cases high <;> decide

theorem lights_flash_active_back : Along (lightTableStep 3)
    (After (lightTableStep 3) (LightTable.FlashesActive 3)) {}
    [.set (flashMsg .start false 0) fun _ => 0, .round, .set (flashMsg .start true 1) fun _ => 2,
      .set (flashMsg .stop true 1) fun _ => 0] :=
  lights_flash_active 3 _ (by decide)

/-- The light of an entry that is stopped goes on flashing when no other entry is there. -/
theorem lights_not_flash_active_stopped : ¬ ∀ prioMax ops, Along (lightTableStep prioMax)
    (After (lightTableStep prioMax) (LightTable.FlashesActive prioMax)) {} ops := by
  intro h
  have h := h 3 [.set (flashMsg .start false 0) fun _ => 0, .set (flashMsg .stop false 0) fun _ => 0]
  revert h
  decide

end VdCamera.Dev
