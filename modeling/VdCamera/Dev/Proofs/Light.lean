import VdCamera.Dev.Light
import VdCamera.Misc.Run
import Mathlib.Data.List.Nodup
import Mathlib.Data.List.Perm.Basic

/-!
# The books of the light manager

A registration that fails returns with the mutex held. The books are right after every call exactly
when no registration fails, that is when the ids are distinct and there is an entry for each.
-/

namespace VdCamera.Dev

open Misc Sys

variable {Opt : Type} {lm lm' : LightMng Opt}

/-- What the calls keep, the mutex apart. -/
structure LightMng.Inv (lm : LightMng Opt) : Prop where
  blocks : (lm.lightPo.free ++ lm.lights).Nodup
  ids : (lm.lights.map lm.idOf).Perm lm.registered
  distinct : lm.registered.Nodup
  used : lm.lightPo.nrUsed = lm.registered.length
  total : lm.lightPo.nrTotal = LIGHT_ID_END
  flash : ∀ b ∈ lm.lights, b ∈ lm.flashLs ↔ lm.Flashes (lm.idOf b)
  fresh : ∀ id, id ∉ lm.registered → lm.applied id = none

theorem LightMng.Inv.nodup (h : lm.Inv) : lm.lights.Nodup := h.blocks.of_append_right

theorem LightMng.Inv.idOf_inj (h : lm.Inv) {b c : Nat} (hb : b ∈ lm.lights) (hc : c ∈ lm.lights)
    (heq : lm.idOf b = lm.idOf c) : b = c :=
  List.inj_on_of_nodup_map (h.ids.nodup_iff.mpr h.distinct) hb hc heq

theorem LightMng.Inv.mem_registered (h : lm.Inv) {id : UInt8} :
    id ∈ lm.registered ↔ ∃ b ∈ lm.lights, lm.idOf b = id := by
  rw [← h.ids.mem_iff, List.mem_map]

/-- There are at most as many lights as entries. -/
theorem LightMng.Inv.length_free (h : lm.Inv) :
    lm.lightPo.free.length + lm.registered.length = LIGHT_ID_END := by
  have hfree := lm.lightPo.length_free
  rw [h.used, h.total] at hfree
  omega

theorem mem_lights_of_flash {b : Nat} (hb : b ∈ lm.flashLs) : b ∈ lm.lights :=
  List.mem_append_right _ hb

/-- The invariant is enough for the books. -/
theorem LightMng.Inv.bookkept (h : lm.Inv) (hm : lm.mutex = false) : lm.Bookkept where
  mutex := hm
  once := fun id hid =>
    List.count_eq_one_of_mem (h.ids.nodup_iff.mpr h.distinct) (h.ids.mem_iff.mpr hid)
  used := h.used
  flash := by
    intro id hid
    obtain ⟨b, hb, rfl⟩ := h.mem_registered.mp hid
    rw [← h.flash b hb, List.mem_map]
    constructor
    · rintro ⟨c, hc, heq⟩
      rw [← h.idOf_inj (mem_lights_of_flash hc) hb heq]
      exact hc
    · intro hf
      exact ⟨b, hf, rfl⟩

theorem lightRamInit_inv (entry : Nat → Light Opt) : (lightRamInit entry).Inv where
  blocks := (List.append_nil _).symm ▸ List.nodup_range
  ids := List.Perm.refl _
  distinct := List.nodup_nil
  used := rfl
  total := rfl
  flash := by
    intro b hb
    cases hb
  fresh := fun _ _ => rfl

/-! ## Finding a light -/

theorem lightFindFromList_some {ls : List Nat} {id : UInt8} {b : Nat}
    (h : lightFindFromList lm ls id = some b) : b ∈ ls ∧ lm.idOf b = id :=
  ⟨List.mem_of_find?_eq_some h, by simpa [LightMng.idOf] using List.find?_some h⟩

theorem lightFindFromList_none {ls : List Nat} {id : UInt8}
    (h : lightFindFromList lm ls id = none) : ∀ b ∈ ls, lm.idOf b ≠ id := by
  intro b hb heq
  exact List.find?_eq_none.mp h b hb (decide_eq_true heq)

theorem lightFind_some {id : UInt8} {b : Nat} (h : lightFind lm id = some b) :
    b ∈ lm.lights ∧ lm.idOf b = id := by
  have hin : ∀ ls, ls ⊆ lm.lights → lightFindFromList lm ls id = some b →
      b ∈ lm.lights ∧ lm.idOf b = id := by
    intro ls hls hfind
    obtain ⟨hb, hid⟩ := lightFindFromList_some hfind
    exact ⟨hls hb, hid⟩
  unfold lightFind at h
  split at h
  · exact hin lm.idleLs (by simp [LightMng.lights]) (by simp_all)
  · split at h
    · exact hin lm.steadyLs (by simp [LightMng.lights]) (by simp_all)
    · exact hin lm.flashLs (by simp [LightMng.lights]) h

theorem lightFind_none {id : UInt8} (h : lightFind lm id = none) :
    ∀ b ∈ lm.lights, lm.idOf b ≠ id := by
  unfold lightFind at h
  split at h
  · cases h
  · rename_i hidle
    split at h
    · cases h
    · rename_i hsteady
      intro b hb
      simp only [LightMng.lights, List.mem_append] at hb
      rcases hb with (hb | hb) | hb
      · exact lightFindFromList_none hidle b hb
      · exact lightFindFromList_none hsteady b hb
      · exact lightFindFromList_none h b hb

theorem LightMng.Inv.lightFind_eq_none (h : lm.Inv) {id : UInt8} :
    lightFind lm id = none ↔ id ∉ lm.registered := by
  rw [h.mem_registered]
  constructor
  · rintro hnone ⟨b, hb, hid⟩
    exact lightFind_none hnone b hb hid
  · intro hid
    cases hfind : lightFind lm id with
    | none => rfl
    | some b =>
      obtain ⟨hb, heq⟩ := lightFind_some hfind
      exact absurd ⟨b, hb, heq⟩ hid

/-! ## Registering a light -/

theorem LightMng.lock_free (h : lm.mutex = false) : lm.lock = some { lm with mutex := true } := by
  rw [lock, h]
  rfl

theorem LightMng.Inv.congr (h : lm.Inv) {m : Bool} : ({ lm with mutex := m } : LightMng Opt).Inv :=
  ⟨h.blocks, h.ids, h.distinct, h.used, h.total, h.flash, h.fresh⟩

/-- A registration that fails leaves the mutex held. -/
theorem lightRegst_fails (hm : lm.mutex = false) {id : UInt8} {opt : Opt}
    (h : lightFind lm id ≠ none ∨ lm.lightPo.free = []) :
    lightRegst id opt lm = some (-1, { lm with mutex := true }) := by
  have hlocked : lightFind { lm with mutex := true } id = lightFind lm id := rfl
  simp only [lightRegst, LightMng.lock_free hm, Option.bind_eq_bind, Option.bind_some, hlocked]
  cases hfind : lightFind lm id with
  | some b => rfl
  | none => rw [getFromPool_eq_none.mpr (h.resolve_left fun hne => hne hfind)]

/-- A registration that succeeds puts the light at the end of the idle list. -/
theorem lightRegst_succeeds (hm : lm.mutex = false) {id : UInt8} {opt : Opt} {b : Nat} {po : Pool}
    (hfind : lightFind lm id = none) (hget : getFromPool lm.lightPo = some (b, po)) :
    lightRegst id opt lm = some (0, lm.enter b po id opt) := by
  have hlocked : lightFind { lm with mutex := true } id = none := hfind
  simp only [lightRegst, LightMng.lock_free hm, Option.bind_eq_bind, Option.bind_some, hlocked,
    hget, LightMng.unlock, LightMng.enter, hm]

theorem perm_enter (b : Nat) (po : Pool) (id : UInt8) (opt : Opt) :
    (lm.enter b po id opt).lights.Perm (b :: lm.lights) := by
  simp only [LightMng.lights, LightMng.enter, List.append_assoc, List.singleton_append]
  exact List.perm_middle

@[simp] theorem idOf_enter_self (b : Nat) (po : Pool) (id : UInt8) (opt : Opt) :
    (lm.enter b po id opt).idOf b = id := by
  simp [LightMng.idOf, LightMng.enter]

theorem idOf_enter_of_ne {b c : Nat} (h : c ≠ b) (po : Pool) (id : UInt8) (opt : Opt) :
    (lm.enter b po id opt).idOf c = lm.idOf c := by
  simp [LightMng.idOf, LightMng.enter, h]

theorem LightMng.Inv.enter (h : lm.Inv) {id : UInt8} (opt : Opt) {b : Nat} {po : Pool}
    (hid : id ∉ lm.registered) (hget : getFromPool lm.lightPo = some (b, po)) :
    (lm.enter b po id opt).Inv := by
  obtain ⟨hfree, hused, htotal⟩ := getFromPool_some hget
  have hblocks := h.blocks
  rw [hfree, List.cons_append, List.nodup_cons] at hblocks
  have hb : b ∉ lm.lights := fun hb => hblocks.1 (List.mem_append_right _ hb)
  -- the entry that was taken is in none of the lists
  have hkeep : ∀ c ∈ lm.lights, (lm.enter b po id opt).idOf c = lm.idOf c := by
    intro c hc
    apply idOf_enter_of_ne
    rintro rfl
    exact hb hc
  have hperm := @perm_enter Opt lm b po id opt
  constructor
  · show (po.free ++ (lm.enter b po id opt).lights).Nodup
    rw [(hperm.append_left po.free).nodup_iff, List.perm_middle.nodup_iff, List.nodup_cons]
    exact hblocks
  · refine (hperm.map _).trans ?_
    rw [List.map_cons, idOf_enter_self, List.map_congr_left hkeep]
    exact (h.ids.cons id).trans (List.perm_append_singleton id lm.registered).symm
  · exact (List.perm_append_singleton id lm.registered).nodup_iff.mpr
      (List.nodup_cons.mpr ⟨hid, h.distinct⟩)
  · show po.nrUsed = ((lm.registered ++ [id]).length : Nat)
    rw [hused, h.used, List.length_append]
    rfl
  · exact htotal.trans h.total
  · intro c hc
    rcases List.mem_cons.mp (hperm.mem_iff.mp hc) with rfl | hc
    · -- a new light has had no control
      constructor
      · intro hflash
        exact absurd (@mem_lights_of_flash Opt lm c hflash) hb
      · rintro ⟨info, happlied, -⟩
        rw [idOf_enter_self] at happlied
        exact absurd ((h.fresh id hid).symm.trans happlied) (by simp)
    · rw [hkeep c hc]
      exact h.flash c hc
  · intro d hd
    exact h.fresh d fun hmem => hd (List.mem_append_left _ hmem)

/-! ## Moving a light -/

theorem perm_unlink {b : Nat} (h : lm.lights.Nodup) (hb : b ∈ lm.lights) :
    ((lm.unlink b).lights ++ [b]).Perm lm.lights := by
  have hlights : (lm.unlink b).lights = lm.lights.erase b := by
    rw [h.erase_eq_filter]
    unfold LightMng.lights at h ⊢
    rw [List.filter_append, List.filter_append, ← (h.of_append_right).erase_eq_filter,
      ← (h.of_append_left.of_append_left).erase_eq_filter,
      ← (h.of_append_left.of_append_right).erase_eq_filter]
    rfl
  rw [hlights]
  exact (List.perm_append_singleton b _).trans (List.perm_cons_erase hb).symm

theorem perm_moveIdle {b : Nat} (h : lm.lights.Nodup) (hb : b ∈ lm.lights) :
    (lm.moveIdle b).lights.Perm lm.lights := by
  refine List.Perm.trans ?_ (perm_unlink h hb)
  simp only [LightMng.lights, LightMng.moveIdle, List.append_assoc]
  refine List.Perm.append_left _ ?_
  rw [← List.append_assoc (lm.unlink b).steadyLs]
  exact List.perm_append_comm

theorem perm_moveSteady {b : Nat} (h : lm.lights.Nodup) (hb : b ∈ lm.lights) :
    (lm.moveSteady b).lights.Perm lm.lights := by
  refine List.Perm.trans ?_ (perm_unlink h hb)
  simp only [LightMng.lights, LightMng.moveSteady, List.append_assoc]
  exact (List.perm_append_comm.append_left _).append_left _

theorem perm_moveFlash {b : Nat} (h : lm.lights.Nodup) (hb : b ∈ lm.lights) :
    (lm.moveFlash b).lights.Perm lm.lights := by
  refine List.Perm.trans ?_ (perm_unlink h hb)
  simp only [LightMng.lights, LightMng.moveFlash, List.append_assoc]
  exact List.Perm.refl _

/-- What a call that registers nothing has to keep. -/
theorem LightMng.Inv.of_perm (h : lm.Inv) (hpo : lm'.lightPo = lm.lightPo)
    (hreg : lm'.registered = lm.registered) (hperm : lm'.lights.Perm lm.lights)
    (hid : ∀ b ∈ lm.lights, lm'.idOf b = lm.idOf b)
    (hflash : ∀ b ∈ lm.lights, b ∈ lm'.flashLs ↔ lm'.Flashes (lm.idOf b))
    (hfresh : ∀ id, id ∉ lm.registered → lm'.applied id = none) : lm'.Inv := by
  constructor
  · rw [hpo, (hperm.append_left _).nodup_iff]
    exact h.blocks
  · rw [hreg]
    refine (hperm.map _).trans ?_
    rw [List.map_congr_left hid]
    exact h.ids
  · rw [hreg]
    exact h.distinct
  · rw [hpo, hreg]
    exact h.used
  · rw [hpo]
    exact h.total
  · intro b hb
    have hb₁ := hperm.mem_iff.mp hb
    rw [hid b hb₁]
    exact hflash b hb₁
  · rw [hreg]
    exact hfresh

/-! ## Controlling a light -/

theorem idOf_store {light : Light Opt} {b : Nat} (h : light.id = lm.idOf b) (c : Nat) :
    (lm.store b light).idOf c = lm.idOf c := by
  show (Function.update lm.lightEntry b light c).id = lm.idOf c
  by_cases hc : c = b
  · rw [hc, Function.update_self, h]
  · rw [Function.update_of_ne hc]
    rfl

theorem lightCtrlPutId_kept (h : lm.Inv) (id : UInt8) (info : LightInfo)
    (clock : Option Timespec) :
    (lightCtrlPutId id info clock lm).2.Inv
      ∧ (lightCtrlPutId id info clock lm).2.mutex = lm.mutex
      ∧ (lightCtrlPutId id info clock lm).2.registered = lm.registered := by
  unfold lightCtrlPutId
  cases hfind : lightFind lm id with
  | none => exact ⟨h, rfl, rfl⟩
  | some b =>
    obtain ⟨hb, hid⟩ := lightFind_some hfind
    have hfresh : ∀ d, d ∉ lm.registered →
        Function.update lm.applied id (some info) d = none := by
      intro d hd
      have hne : d ≠ id := by
        rintro rfl
        exact hd (h.mem_registered.mpr ⟨b, hb, hid⟩)
      rw [Function.update_of_ne hne]
      exact h.fresh d hd
    -- the other lights keep the controls they have had
    have hother : ∀ c ∈ lm.lights, c ≠ b →
        Function.update lm.applied id (some info) (lm.idOf c) = lm.applied (lm.idOf c) := by
      intro c hc hne
      apply Function.update_of_ne
      rintro heq
      exact hne (h.idOf_inj hc hb (heq.trans hid.symm))
    have hself : Function.update lm.applied id (some info) (lm.idOf b) = some info := by
      rw [hid, Function.update_self]
    have hnd : lm.flashLs.Nodup := h.nodup.of_append_right
    simp only
    split
    · rename_i hintv
      have hids := idOf_store (rfl : { lm.lightEntry b with info }.id = lm.idOf b)
      refine ⟨h.of_perm rfl rfl (perm_moveSteady h.nodup hb) (fun c _ => hids c) ?_ hfresh,
        rfl, rfl⟩
      intro c hc
      show c ∈ lm.flashLs.erase b ↔
        ∃ i, Function.update lm.applied id (some info) (lm.idOf c) = some i ∧ i.intv ≠ 0
      rw [hnd.mem_erase_iff]
      by_cases hcb : c = b
      · rw [hcb, hself]
        simp [hintv]
      · rw [hother c hc hcb, and_iff_right hcb]
        exact h.flash c hc
    · rename_i hintv
      have hids := idOf_store (rfl : { lm.lightEntry b with
        info, prevTm := clock.getD ⟨0, 0⟩, prevVal := 0 }.id = lm.idOf b)
      refine ⟨h.of_perm rfl rfl (perm_moveFlash h.nodup hb) (fun c _ => hids c) ?_ hfresh,
        rfl, rfl⟩
      intro c hc
      show c ∈ lm.flashLs.erase b ++ [b] ↔
        ∃ i, Function.update lm.applied id (some info) (lm.idOf c) = some i ∧ i.intv ≠ 0
      rw [List.mem_append, hnd.mem_erase_iff, List.mem_singleton]
      by_cases hcb : c = b
      · rw [hcb, hself]
        simp [hintv]
      · rw [hother c hc hcb, and_iff_right hcb, or_iff_left hcb]
        exact h.flash c hc

theorem lightCtrlPutLoop_kept (ctrl : LightCtrl) (clock : Fin LIGHT_ID_END → Option Timespec)
    (is : List (Fin LIGHT_ID_END)) (h : lm.Inv) :
    (lightCtrlPutLoop ctrl clock is lm).2.Inv
      ∧ (lightCtrlPutLoop ctrl clock is lm).2.mutex = lm.mutex
      ∧ (lightCtrlPutLoop ctrl clock is lm).2.registered = lm.registered := by
  induction is generalizing lm with
  | nil => exact ⟨h, rfl, rfl⟩
  | cons i is ih =>
    rw [lightCtrlPutLoop]
    split
    · obtain ⟨hinv, hmutex, hreg⟩ :=
        lightCtrlPutId_kept h (UInt8.ofNat i) (ctrl.info i) (clock i)
      simp only
      split
      · obtain ⟨hinv₁, hmutex₁, hreg₁⟩ := ih hinv
        exact ⟨hinv₁, hmutex₁.trans hmutex, hreg₁.trans hreg⟩
      · exact ⟨hinv, hmutex, hreg⟩
    · exact ih h

/-! ## A round of the daemon -/

theorem steadyLight_kept (h : lm.Inv) {b : Nat} (hb : b ∈ lm.lights) (hflash : b ∉ lm.flashLs) :
    (steadyLight lm b).Inv := by
  have hnd : lm.flashLs.Nodup := h.nodup.of_append_right
  refine h.of_perm rfl rfl (perm_moveIdle h.nodup hb) (fun _ _ => rfl) ?_ h.fresh
  intro c hc
  show c ∈ lm.flashLs.erase b ↔ _
  rw [List.erase_of_not_mem hflash]
  exact h.flash c hc

theorem steadyLights_kept (bs : List Nat) (h : lm.Inv)
    (hbs : ∀ b ∈ bs, b ∈ lm.lights ∧ b ∉ lm.flashLs) :
    (bs.foldl steadyLight lm).Inv ∧ (bs.foldl steadyLight lm).mutex = lm.mutex
      ∧ (bs.foldl steadyLight lm).registered = lm.registered := by
  induction bs generalizing lm with
  | nil => exact ⟨h, rfl, rfl⟩
  | cons b bs ih =>
    obtain ⟨hb, hflash⟩ := hbs b (List.mem_cons_self ..)
    have hperm : (steadyLight lm b).lights.Perm lm.lights := perm_moveIdle h.nodup hb
    apply ih (steadyLight_kept h hb hflash)
    intro c hc
    obtain ⟨hc₁, hc₂⟩ := hbs c (List.mem_cons_of_mem _ hc)
    exact ⟨hperm.mem_iff.mpr hc₁, fun hmem => hc₂ (List.mem_of_mem_erase hmem)⟩

theorem flashLight_kept (curr : Timespec) (h : lm.Inv) (b : Nat) :
    (flashLight curr lm b).Inv ∧ (flashLight curr lm b).mutex = lm.mutex
      ∧ (flashLight curr lm b).registered = lm.registered := by
  unfold flashLight
  simp only
  split
  · refine ⟨h.of_perm rfl rfl (List.Perm.refl _) ?_ h.flash h.fresh, rfl, rfl⟩
    intro c _
    refine (idOf_store ?_ c).trans ?_
    · rfl
    · rfl
  · exact ⟨h, rfl, rfl⟩

theorem flashLights_kept (curr : Timespec) (bs : List Nat) (h : lm.Inv) :
    (bs.foldl (flashLight curr) lm).Inv ∧ (bs.foldl (flashLight curr) lm).mutex = lm.mutex
      ∧ (bs.foldl (flashLight curr) lm).registered = lm.registered := by
  induction bs generalizing lm with
  | nil => exact ⟨h, rfl, rfl⟩
  | cons b bs ih =>
    obtain ⟨hinv, hmutex, hreg⟩ := flashLight_kept curr h b
    obtain ⟨hinv₁, hmutex₁, hreg₁⟩ := ih hinv
    exact ⟨hinv₁, hmutex₁.trans hmutex, hreg₁.trans hreg⟩

theorem flashLs_flashLight (curr : Timespec) (b : Nat) :
    (flashLight curr lm b).flashLs = lm.flashLs := by
  simp only [flashLight]
  split <;> rfl

theorem steadyLs_steadyLight {b : Nat} {bs : List Nat} (h : lm.steadyLs = b :: bs) : (steadyLight lm b).steadyLs = bs := by
  show lm.steadyLs.erase b = bs
  rw [h, List.erase_cons_head]

/-! ## Runs -/

theorem lightCtrlPut_kept (h : lm.Inv) (hm : lm.mutex = false) (ctrl : LightCtrl)
    (clock : Fin LIGHT_ID_END → Option Timespec) :
    ∃ ret lm', lightCtrlPut ctrl clock lm = some (ret, lm') ∧ lm'.Inv ∧ lm'.mutex = false
      ∧ lm'.registered = lm.registered := by
  have hlocked : ({ lm with mutex := true } : LightMng Opt).Inv := h.congr
  obtain ⟨hinv, -, hreg⟩ :=
    lightCtrlPutLoop_kept ctrl clock (List.finRange LIGHT_ID_END) hlocked
  simp only [lightCtrlPut, LightMng.lock_free hm, Option.bind_eq_bind, Option.bind_some]
  exact ⟨_, _, rfl, hinv.congr, rfl, hreg⟩

theorem lightCtrlDaemon_kept (h : lm.Inv) (hm : lm.mutex = false) (clock : Option Timespec) :
    ∃ lm', lightCtrlDaemon clock lm = some lm' ∧ lm'.Inv ∧ lm'.mutex = false
      ∧ lm'.registered = lm.registered := by
  have hlocked : ({ lm with mutex := true } : LightMng Opt).Inv := h.congr
  -- a steady light does not flash
  have hsteady : ∀ b ∈ lm.steadyLs, b ∈ lm.lights ∧ b ∉ lm.flashLs := by
    intro b hb
    refine ⟨by simp [LightMng.lights, hb], ?_⟩
    intro hflash
    exact (List.nodup_append.mp h.nodup).2.2 b (List.mem_append_right _ hb) b hflash rfl
  obtain ⟨hinv₁, -, hreg₁⟩ := steadyLights_kept lm.steadyLs hlocked hsteady
  obtain ⟨hinv₂, -, hreg₂⟩ := flashLights_kept (clock.getD ⟨0, 0⟩)
    (lm.steadyLs.foldl steadyLight { lm with mutex := true }).flashLs hinv₁
  simp only [lightCtrlDaemon, LightMng.lock_free hm, Option.bind_eq_bind, Option.bind_some]
  exact ⟨_, rfl, hinv₂.congr, rfl, hreg₂.trans hreg₁⟩

/-- The books are right after every call exactly when the ids that are registered are distinct and
no more than the manager has entries. -/
theorem lights_bookkept_iff (entry : Nat → Light Opt) (ops : List (LightOp Opt)) :
    Along lightStep (fun lm op => After lightStep LightMng.Bookkept lm op) (lightRamInit entry) ops
      ↔ (registrations ops).Nodup ∧ (registrations ops).length ≤ LIGHT_ID_END := by
  have hrun : ∀ (ops : List (LightOp Opt)) (lm : LightMng Opt), lm.Inv → lm.mutex = false →
      (Along lightStep (fun lm op => After lightStep LightMng.Bookkept lm op) lm ops
        ↔ (lm.registered ++ registrations ops).Nodup
          ∧ (lm.registered ++ registrations ops).length ≤ LIGHT_ID_END) := by
    intro ops
    induction ops with
    | nil =>
      intro lm h _
      have hlen := h.length_free
      simp only [along_nil, registrations, List.append_nil, true_iff]
      exact ⟨h.distinct, by omega⟩
    | cons op ops ih =>
      intro lm h hm
      -- a call that keeps the books
      have hkept : ∀ lm', lightStep lm op = some lm' → lm'.Inv → lm'.mutex = false →
          (Along lightStep (fun lm op => After lightStep LightMng.Bookkept lm op) lm (op :: ops)
            ↔ (lm'.registered ++ registrations ops).Nodup
              ∧ (lm'.registered ++ registrations ops).length ≤ LIGHT_ID_END) := by
        intro lm' hs hinv hm'
        rw [along_cons, after_of_eq hs, and_iff_right (hinv.bookkept hm'), ← ih lm' hinv hm', hs]
        simp
      cases op with
      | regst id opt =>
        by_cases hfail : id ∈ lm.registered ∨ lm.lightPo.free = []
        · -- the mutex stays locked
          have hs : lightStep lm (.regst id opt) = some { lm with mutex := true } := by
            rw [lightStep, lightRegst_fails hm (hfail.imp_left fun hid => ?_)]
            · rfl
            · rw [Ne, h.lightFind_eq_none, not_not]
              exact hid
          constructor
          · intro hal
            have hbooks := (after_of_eq hs).mp hal.1
            exact absurd hbooks.mutex (by simp)
          · rintro ⟨hnd, hlen⟩
            exfalso
            rcases hfail with hid | hfree
            · exact (List.nodup_append.mp hnd).2.2 id hid id (List.mem_cons_self ..) rfl
            · have hfull := h.length_free
              rw [hfree] at hfull
              simp only [registrations, List.length_append, List.length_cons, List.length_nil] at *
              omega
        · obtain ⟨hid, hfree⟩ := not_or.mp hfail
          obtain ⟨b, po, hget⟩ : ∃ b po, getFromPool lm.lightPo = some (b, po) := by
            cases hget : getFromPool lm.lightPo with
            | none => exact absurd (getFromPool_eq_none.mp hget) hfree
            | some p => exact ⟨p.1, p.2, rfl⟩
          have hs : lightStep lm (.regst id opt) = some (lm.enter b po id opt) := by
            rw [lightStep, lightRegst_succeeds hm (h.lightFind_eq_none.mpr hid) hget]
            rfl
          rw [hkept _ hs (h.enter opt hid hget) hm]
          simp [registrations, LightMng.enter]
      | ctrlPut ctrl clock =>
        obtain ⟨ret, lm', hput, hinv, hm', hreg⟩ := lightCtrlPut_kept h hm ctrl clock
        have hs : lightStep lm (.ctrlPut ctrl clock) = some lm' := by
          rw [lightStep, hput]
          rfl
        rw [hkept lm' hs hinv hm', hreg, registrations]
      | daemon clock =>
        obtain ⟨lm', hdaemon, hinv, hm', hreg⟩ := lightCtrlDaemon_kept h hm clock
        rw [hkept lm' hdaemon hinv hm', hreg, registrations]
  rw [hrun ops (lightRamInit entry) (lightRamInit_inv entry) rfl]
  rfl

/-- A second registration of the green light leaves the mutex held. -/
theorem lights_not_bookkept_twice :
    ¬ Along lightStep (fun lm op => After lightStep LightMng.Bookkept lm op)
      (lightRamInit fun _ => ⟨0, (), ⟨0, 0⟩, ⟨0, 0⟩, 0⟩) [.regst 0 (), .regst 0 ()] := by
  rintro ⟨-, hal⟩
  obtain ⟨hbooks, -⟩ := hal _ rfl
  exact absurd (hbooks _ rfl).mutex (by decide)

end VdCamera.Dev
