import VdCamera.Dev.LightLinks
import VdCamera.Dev.Proofs.Light
import VdCamera.Sys.Proofs.LinkPool

/-!
# The pointers of the light manager

Each function does to the links what its counterpart does to the lists of entry numbers. The two loops
that walk a list while its entries move remember the next entry before, which still stands where it
stood.
-/

namespace VdCamera.Dev

open Misc Misc.Links Sys

variable {Opt : Type}

/-- The three lists by their heads. -/
def lightLists (lm : LightMng Opt) : ListHeads LightAddr
  | .idleLs => some (lm.idleLs.map .link)
  | .steadyLs => some (lm.steadyLs.map .link)
  | .flashLs => some (lm.flashLs.map .link)
  | .free => none
  | .link _ => none

/-- The memory of the one manager holds what the other one says. -/
structure Holds (s : LinkLightMng Opt) (lm : LightMng Opt) : Prop where
  pooled : Pooled lightLayout s.lightPo
    { po := lm.lightPo, used := lm.lights, ls := lightLists lm }
  mutex : s.mutex = lm.mutex
  lightEntry : s.lightEntry = lm.lightEntry
  calls : s.calls = lm.calls
  registered : s.registered = lm.registered
  applied : s.applied = lm.applied

variable {s : LinkLightMng Opt} {lm lm' : LightMng Opt} {b : Nat} {bs cs : List Nat}
variable {ls : LightAddr} {id : UInt8} {m : Links LightAddr} {fuel : Nat} {pos n : LightAddr}

theorem link_injective : Function.Injective LightAddr.link := fun _ _ heq => LightAddr.link.inj heq

/-! ## The links of the lists -/

theorem lists_of_lightLists {v : PoolView LightAddr} {xs : List LightAddr}
    (hv : v.ls = lightLists lm) (hls : lightLists lm ls = some xs) :
    v.lists lightLayout ls = some xs := by
  rw [PoolView.lists, put_of_ne ?_]
  · rw [hv, hls]
  · rintro rfl
    cases hls

theorem Holds.ring (h : Holds s lm) {xs : List LightAddr} (hls : lightLists lm ls = some xs) :
    Ring s.lightPo.links ls xs :=
  h.pooled.rings.ring (lists_of_lightLists rfl hls)

theorem Holds.nodup (h : Holds s lm) : lm.lights.Nodup :=
  (List.nodup_append'.mp (h.pooled.blocks.nodup_iff.mpr List.nodup_range)).2.1

/-- No list has more entries than there are lights. -/
theorem Holds.length_lights (h : Holds s lm) : lm.lights.length ≤ LIGHT_ID_END := by
  have hlen := h.pooled.blocks.length_eq
  rw [List.length_append, List.length_range] at hlen
  exact hlen ▸ Nat.le_add_left _ _

/-- An entry of the manager is in one of its lists. -/
theorem isEntry_link : (lightLists lm).IsEntry (.link b) ↔ b ∈ lm.lights := by
  have hmem : ∀ {bs : List Nat}, LightAddr.link b ∈ bs.map LightAddr.link ↔ b ∈ bs :=
    List.mem_map_of_injective link_injective
  rw [LightMng.lights, List.mem_append, List.mem_append]
  constructor
  · rintro ⟨head, hin⟩
    cases head with
    | idleLs => exact .inl (.inl (hmem.mp hin))
    | steadyLs => exact .inl (.inr (hmem.mp hin))
    | flashLs => exact .inr (hmem.mp hin)
    | free => cases hin
    | link c => cases hin
  · rintro ((hin | hin) | hin)
    · exact ⟨.idleLs, hmem.mpr hin⟩
    · exact ⟨.steadyLs, hmem.mpr hin⟩
    · exact ⟨.flashLs, hmem.mpr hin⟩

theorem without_lightLists : without (lightLists lm) (.link b) = lightLists (lm.unlink b) := by
  funext head
  cases head with
  | idleLs => exact congrArg some (List.map_erase link_injective ..).symm
  | steadyLs => exact congrArg some (List.map_erase link_injective ..).symm
  | flashLs => exact congrArg some (List.map_erase link_injective ..).symm
  | free => rfl
  | link c => rfl

theorem put_idleLs : (lightLists lm).put .idleLs (bs.map .link)
    = lightLists { lm with idleLs := bs } := by
  funext head
  cases head <;> rfl

theorem put_steadyLs : (lightLists lm).put .steadyLs (bs.map .link)
    = lightLists { lm with steadyLs := bs } := by
  funext head
  cases head <;> rfl

theorem put_flashLs : (lightLists lm).put .flashLs (bs.map .link)
    = lightLists { lm with flashLs := bs } := by
  funext head
  cases head <;> rfl

/-! ## Calls on links -/

/-- A call on entries of the manager that leaves each of them in one list. -/
theorem Holds.list (h : Holds s lm) {op : ListOp LightAddr} {xs ys zs : List Nat}
    (hop : op.Rightful (lightLists lm))
    (hnodes : ∀ a ∈ op.nodes, a ≠ .free ∧ ∀ c ∈ lm.lightPo.free, a ≠ .link c)
    (hlists : lightLists { lm with idleLs := xs, steadyLs := ys, flashLs := zs }
      = op.effect (lightLists lm))
    (hperm : (xs ++ ys ++ zs).Perm lm.lights) :
    ∃ s', s.list op = some s' ∧
      Holds s' { lm with idleLs := xs, steadyLs := ys, flashLs := zs } := by
  obtain ⟨po, hrun, hpooled⟩ := h.pooled.list ⟨hop, hnodes⟩
  refine ⟨{ s with lightPo := po }, by rw [LinkLightMng.list, hrun]; rfl, { h with pooled := ?_ }⟩
  rw [← hlists] at hpooled
  exact { hpooled with blocks := (hperm.append_left lm.lightPo.free).trans h.pooled.blocks }

/-- Neither a list head nor an entry in use is a free entry. -/
theorem Holds.apart_free (h : Holds s lm) (hb : b ∈ lm.lights) :
    ∀ c ∈ lm.lightPo.free, LightAddr.link b ≠ .link c := by
  intro c hc heq
  obtain rfl := LightAddr.link.inj heq
  exact (List.nodup_append'.mp (h.pooled.blocks.nodup_iff.mpr List.nodup_range)).2.2 hc hb

theorem Holds.nodes_apart (h : Holds s lm) (hb : b ∈ lm.lights) (hls : lightOf ls = none)
    (hfree : ls ≠ .free) :
    ∀ a ∈ [LightAddr.link b, ls], a ≠ .free ∧ ∀ c ∈ lm.lightPo.free, a ≠ .link c := by
  intro a ha
  rcases List.mem_cons.mp ha with rfl | ha
  · exact ⟨by simp, h.apart_free hb⟩
  · obtain rfl := List.mem_singleton.mp ha
    refine ⟨hfree, fun c _ heq => ?_⟩
    subst heq
    cases hls

/-- An entry is moved behind the others of a list. -/
theorem Holds.moveTail (h : Holds s lm) (hb : b ∈ lm.lights) (hls : lightOf ls = none)
    {xs ys zs : List Nat} (hlists : lightLists (lm.unlink b) ls = some (bs.map .link))
    (hput : (lightLists (lm.unlink b)).put ls ((bs ++ [b]).map .link)
      = lightLists { lm with idleLs := xs, steadyLs := ys, flashLs := zs })
    (hperm : (xs ++ ys ++ zs).Perm lm.lights) :
    ∃ s', s.list (.moveTail (.link b) ls) = some s' ∧
      Holds s' { lm with idleLs := xs, steadyLs := ys, flashLs := zs } := by
  have hfree : ls ≠ .free := by
    rintro rfl
    cases hlists
  have hhead : (lightLists lm ls).isSome := by
    have hrest : (without (lightLists lm) (.link b) ls).isSome := by
      rw [without_lightLists, hlists]
      rfl
    simpa [without] using hrest
  refine h.list ⟨isEntry_link.mpr hb, hhead⟩ (h.nodes_apart hb hls hfree) ?_ hperm
  have hmap : (lightLists (lm.unlink b)).entries ls ++ [.link b]
      = (bs ++ [b]).map LightAddr.link := by
    rw [ListHeads.entries, hlists, List.map_append]
    rfl
  simp only [ListOp.effect]
  rw [without_lightLists, hmap, hput]

theorem Holds.moveIdle (h : Holds s lm) (hb : b ∈ lm.lights) :
    ∃ s', s.list (.moveTail (.link b) .idleLs) = some s' ∧ Holds s' (lm.moveIdle b) :=
  h.moveTail hb rfl rfl put_idleLs (perm_moveIdle h.nodup hb)

theorem Holds.moveSteady (h : Holds s lm) (hb : b ∈ lm.lights) :
    ∃ s', s.list (.moveTail (.link b) .steadyLs) = some s' ∧ Holds s' (lm.moveSteady b) :=
  h.moveTail hb rfl rfl put_steadyLs (perm_moveSteady h.nodup hb)

theorem Holds.moveFlash (h : Holds s lm) (hb : b ∈ lm.lights) :
    ∃ s', s.list (.moveTail (.link b) .flashLs) = some s' ∧ Holds s' (lm.moveFlash b) :=
  h.moveTail hb rfl rfl put_flashLs (perm_moveFlash h.nodup hb)

theorem Holds.store (h : Holds s lm) (b : Nat) (light : Light Opt) :
    Holds (s.store b light) (lm.store b light) := by
  refine { h with lightEntry := ?_ }
  rw [LinkLightMng.store, LightMng.store, h.lightEntry]

theorem Holds.set (h : Holds s lm) (b : Nat) (value : UInt8) :
    Holds (s.set b value) (lm.set b value) := by
  refine { h with calls := ?_ }
  rw [LinkLightMng.set, LightMng.set, h.lightEntry, h.calls]

theorem Holds.unlock (h : Holds s lm) : Holds s.unlock lm.unlock := { h with mutex := rfl }

/-- Both wait for the mutex, or both have it. -/
theorem Holds.lock (h : Holds s lm) :
    (s.lock = none ∧ lm.lock = none) ∨
      ∃ s' lm', s.lock = some s' ∧ lm.lock = some lm' ∧ Holds s' lm' := by
  rw [LinkLightMng.lock, LightMng.lock, h.mutex]
  cases lm.mutex with
  | true => exact .inl ⟨rfl, rfl⟩
  | false => exact .inr ⟨_, _, rfl, rfl, { h with mutex := rfl }⟩

/-! ## Walking a list -/

/-- What stands in a ring can be followed. -/
theorem ring_next {xs : List LightAddr} (h : Ring m ls xs) (hpos : pos ∈ ls :: xs) :
    ∃ n, m.next pos = some n := by
  rcases List.mem_cons.mp hpos with rfl | hmem
  · exact ⟨_, h.ends.1⟩
  · obtain ⟨ys, zs, rfl⟩ := List.append_of_mem hmem
    exact ⟨_, h.neighbours.2⟩

theorem linkLightFindFrom_eq (hentry : s.lightEntry = lm.lightEntry) (hls : lightOf ls = none)
    (hring : Ring s.lightPo.links ls ((cs ++ bs).map .link)) (hfuel : bs.length < fuel)
    (hn : s.lightPo.links.next (firstOf ls (bs.map .link)) = some n) :
    linkLightFindFrom s ls id fuel (firstOf ls (bs.map .link)) n
      = some (lightFindFromList lm bs id) := by
  induction bs generalizing cs fuel n with
  | nil =>
    obtain ⟨fuel, rfl⟩ := Nat.exists_eq_succ_of_ne_zero (Nat.ne_of_gt hfuel)
    exact if_pos rfl
  | cons b bs ih =>
    obtain ⟨fuel, rfl⟩ := Nat.exists_eq_succ_of_ne_zero (Nat.ne_of_gt (Nat.zero_lt_of_lt hfuel))
    have hne : LightAddr.link b ≠ ls := by
      rintro rfl
      cases hls
    rw [List.map_append, List.map_cons] at hring
    rw [List.map_cons, firstOf_cons] at hn ⊢
    obtain rfl : firstOf ls (bs.map .link) = n := Option.some.inj (hring.neighbours.2.symm.trans hn)
    rw [linkLightFindFrom, if_neg hne, lightOf, Option.bind_eq_bind, Option.bind_some, hentry,
      lightFindFromList, List.find?_cons]
    by_cases hid : (lm.lightEntry b).id = id
    · simp [hid]
    · have hpos : firstOf ls (bs.map .link) ∈ ls :: (cs.map .link ++ .link b :: bs.map .link) := by
        have hmem : firstOf ls (bs.map .link) ∈ ls :: bs.map .link := firstOf_mem
        simp only [List.mem_cons, List.mem_append] at hmem ⊢
        tauto
      obtain ⟨n', hn'⟩ := ring_next hring hpos
      have hring' : Ring s.lightPo.links ls ((cs ++ [b] ++ bs).map .link) := by simpa using hring
      have hrest := ih hring' (Nat.lt_of_succ_lt_succ hfuel) hn'
      rw [if_neg hid, hn', Option.bind_eq_bind, Option.bind_some, hrest]
      simp [hid, lightFindFromList]

theorem Holds.findFromList (h : Holds s lm) (hls : lightOf ls = none)
    (hlists : lightLists lm ls = some (bs.map .link)) (hlen : bs.length ≤ LIGHT_ID_END) :
    linkLightFindFromList s ls id = some (lightFindFromList lm bs id) := by
  have hring := h.ring hlists
  have hpos : firstOf ls (bs.map .link) ∈ ls :: bs.map .link := firstOf_mem
  obtain ⟨n, hn⟩ := ring_next hring hpos
  have hall : Ring s.lightPo.links ls (([] ++ bs).map .link) := hring
  simp only [linkLightFindFromList, hring.ends.1, Option.bind_eq_bind, Option.bind_some, hn]
  exact linkLightFindFrom_eq h.lightEntry hls hall (Nat.lt_succ_of_le hlen) hn

theorem Holds.find (h : Holds s lm) : linkLightFind s id = some (lightFind lm id) := by
  have hlen := h.length_lights
  rw [LightMng.lights, List.length_append, List.length_append] at hlen
  have hidle : linkLightFindFromList s .idleLs id = _ := h.findFromList rfl rfl (by omega)
  have hsteady : linkLightFindFromList s .steadyLs id = _ := h.findFromList rfl rfl (by omega)
  have hflash : linkLightFindFromList s .flashLs id = _ := h.findFromList rfl rfl (by omega)
  rw [linkLightFind, hidle, hsteady, hflash, lightFind]
  cases lightFindFromList lm lm.idleLs id with
  | some b => rfl
  | none => cases lightFindFromList lm lm.steadyLs id <;> rfl

/-! ## The functions -/

/-- The body of a loop over a list that keeps its entries. -/
def Steps (body : Nat → LinkLightMng Opt → Option (LinkLightMng Opt))
    (body' : LightMng Opt → Nat → LightMng Opt) : Prop :=
  ∀ {s : LinkLightMng Opt} {lm : LightMng Opt}, Holds s lm → ∀ b ∈ lm.lights,
    ∃ s', body b s = some s' ∧ Holds s' (body' lm b)

theorem steps_steadyLight : Steps (@linkSteadyLight Opt) steadyLight := by
  intro s lm h b hb
  obtain ⟨s', hrun, hs'⟩ := (h.set b (lm.lightEntry b).info.value).moveIdle hb
  exact ⟨s', by rw [linkSteadyLight, h.lightEntry]; exact hrun, hs'⟩

theorem holds_flashLight (h : Holds s lm) (curr : Timespec) (b : Nat) :
    Holds (linkFlashLight curr b s) (flashLight curr lm b) := by
  simp only [linkFlashLight, flashLight, h.lightEntry]
  split
  · exact (h.set b _).store b _
  · exact h

theorem links_flashLight (curr : Timespec) (b : Nat) :
    (linkFlashLight curr b s).lightPo = s.lightPo := by
  simp only [linkFlashLight]
  split <;> rfl

/-- Each light of the steady list is set and moved to the idle list; the loop ends with the list. -/
theorem Holds.steadyLoop (h : Holds s lm) (hbs : lm.steadyLs = bs) (hfuel : bs.length < fuel)
    (hn : s.lightPo.links.next (firstOf .steadyLs (bs.map .link)) = some n) :
    ∃ s', lightForEachFrom .steadyLs linkSteadyLight fuel (firstOf .steadyLs (bs.map .link)) n s
        = some s' ∧ Holds s' (bs.foldl steadyLight lm) := by
  induction bs generalizing fuel n s lm with
  | nil =>
    obtain ⟨fuel, rfl⟩ := Nat.exists_eq_succ_of_ne_zero (Nat.ne_of_gt hfuel)
    exact ⟨s, if_pos rfl, h⟩
  | cons b bs ih =>
    obtain ⟨fuel, rfl⟩ := Nat.exists_eq_succ_of_ne_zero (Nat.ne_of_gt (Nat.zero_lt_of_lt hfuel))
    have hlists : lightLists lm .steadyLs = some ([] ++ .link b :: bs.map .link) := by
      rw [lightLists, hbs]
      rfl
    rw [List.map_cons, firstOf_cons] at hn ⊢
    obtain rfl : firstOf .steadyLs (bs.map .link) = n :=
      Option.some.inj ((h.ring hlists).neighbours.2.symm.trans hn)
    have hb : b ∈ lm.lights := by simp [LightMng.lights, hbs]
    obtain ⟨s₁, hbody, hs₁⟩ := steps_steadyLight h b hb
    have hbs₁ := steadyLs_steadyLight hbs
    have hlists₁ : lightLists (steadyLight lm b) .steadyLs = some (bs.map .link) := by
      rw [lightLists, hbs₁]
    have hpos : firstOf .steadyLs (bs.map .link) ∈ LightAddr.steadyLs :: bs.map .link := firstOf_mem
    obtain ⟨n', hn'⟩ := ring_next (hs₁.ring hlists₁) hpos
    obtain ⟨s', hrest, hs'⟩ := ih hs₁ hbs₁ (Nat.lt_of_succ_lt_succ hfuel) hn'
    refine ⟨s', ?_, hs'⟩
    rw [lightForEachFrom, if_neg (by simp), lightOf]
    simp [hbody, hn', hrest]

/-- The lights of the flash list stay in it. -/
theorem Holds.flashLoop (h : Holds s lm) (curr : Timespec) (hbs : lm.flashLs = cs ++ bs)
    (hfuel : bs.length < fuel)
    (hn : s.lightPo.links.next (firstOf .flashLs (bs.map .link)) = some n) :
    ∃ s', lightForEachFrom .flashLs (fun b lm => some (linkFlashLight curr b lm)) fuel
        (firstOf .flashLs (bs.map .link)) n s = some s' ∧
      Holds s' (bs.foldl (flashLight curr) lm) := by
  induction bs generalizing cs fuel n s lm with
  | nil =>
    obtain ⟨fuel, rfl⟩ := Nat.exists_eq_succ_of_ne_zero (Nat.ne_of_gt hfuel)
    exact ⟨s, if_pos rfl, h⟩
  | cons b bs ih =>
    obtain ⟨fuel, rfl⟩ := Nat.exists_eq_succ_of_ne_zero (Nat.ne_of_gt (Nat.zero_lt_of_lt hfuel))
    have hlists : lightLists lm .flashLs = some (cs.map .link ++ .link b :: bs.map .link) := by
      rw [lightLists, hbs, List.map_append, List.map_cons]
    have hring := h.ring hlists
    rw [List.map_cons, firstOf_cons] at hn ⊢
    obtain rfl : firstOf .flashLs (bs.map .link) = n :=
      Option.some.inj (hring.neighbours.2.symm.trans hn)
    have hs₁ := holds_flashLight h curr b
    have hpos : firstOf .flashLs (bs.map .link)
        ∈ LightAddr.flashLs :: (cs.map .link ++ .link b :: bs.map .link) := by
      have hmem : firstOf .flashLs (bs.map .link) ∈ LightAddr.flashLs :: bs.map .link := firstOf_mem
      simp only [List.mem_cons, List.mem_append] at hmem ⊢
      tauto
    obtain ⟨n', hn'⟩ := ring_next hring hpos
    rw [← links_flashLight (s := s) curr b] at hn'
    have hbs₁ : (flashLight curr lm b).flashLs = (cs ++ [b]) ++ bs := by
      rw [flashLs_flashLight, hbs, List.append_cons]
    obtain ⟨s', hrest, hs'⟩ := ih hs₁ hbs₁ (Nat.lt_of_succ_lt_succ hfuel) hn'
    refine ⟨s', ?_, hs'⟩
    rw [lightForEachFrom, if_neg (by simp), lightOf]
    simp [hn', hrest]

theorem Holds.putId (h : Holds s lm) (id : UInt8) (info : LightInfo) (clock : Option Timespec) :
    ∃ s', linkLightCtrlPutId id info clock s = some ((lightCtrlPutId id info clock lm).1, s') ∧
      Holds s' (lightCtrlPutId id info clock lm).2 := by
  rw [linkLightCtrlPutId, h.find, lightCtrlPutId]
  cases hfind : lightFind lm id with
  | none => exact ⟨s, rfl, h⟩
  | some b =>
    have hb : b ∈ lm.lights := (lightFind_some hfind).1
    have happly : Holds { s with applied := Function.update s.applied id (some info) }
        { lm with applied := Function.update lm.applied id (some info) } :=
      { h with applied := congrArg (fun applied => Function.update applied id (some info)) h.applied }
    have hlight : s.lightEntry b = lm.lightEntry b := congrFun h.lightEntry b
    simp only [Option.bind_eq_bind, Option.bind_some, hlight]
    split
    · obtain ⟨s', hrun, hs'⟩ :=
        (happly.store b { lm.lightEntry b with info }).moveSteady hb
      exact ⟨s', congrArg (Option.bind · fun lm => some (0, lm)) hrun, hs'⟩
    · obtain ⟨s', hrun, hs'⟩ := (happly.store b
        { lm.lightEntry b with info, prevTm := clock.getD ⟨0, 0⟩, prevVal := 0 }).moveFlash hb
      exact ⟨s', congrArg (Option.bind · fun lm => some (0, lm)) hrun, hs'⟩

theorem Holds.putLoop (h : Holds s lm) (ctrl : LightCtrl)
    (clock : Fin LIGHT_ID_END → Option Timespec) (is : List (Fin LIGHT_ID_END)) :
    ∃ s', linkLightCtrlPutLoop ctrl clock is s = some ((lightCtrlPutLoop ctrl clock is lm).1, s') ∧
      Holds s' (lightCtrlPutLoop ctrl clock is lm).2 := by
  induction is generalizing s lm with
  | nil => exact ⟨s, rfl, h⟩
  | cons i is ih =>
    rw [linkLightCtrlPutLoop, lightCtrlPutLoop]
    by_cases hbit : getbit ctrl.mask i = true
    · obtain ⟨s₁, hrun, hs₁⟩ := h.putId (UInt8.ofNat i) (ctrl.info i) (clock i)
      rw [if_pos hbit, if_pos hbit, hrun]
      simp only [Option.bind_eq_bind, Option.bind_some]
      split
      · exact ih hs₁
      · exact ⟨s₁, rfl, hs₁⟩
    · rw [if_neg hbit, if_neg hbit]
      exact ih h

/-- The two managers return the same, or both wait for the mutex for ever. -/
def SameCall (s : Option (Int × LinkLightMng Opt)) (lm : Option (Int × LightMng Opt)) : Prop :=
  (s = none ∧ lm = none) ∨
    ∃ ret s' lm', s = some (ret, s') ∧ lm = some (ret, lm') ∧ Holds s' lm'

theorem Holds.ctrlPut (h : Holds s lm) (ctrl : LightCtrl)
    (clock : Fin LIGHT_ID_END → Option Timespec) :
    SameCall (linkLightCtrlPut ctrl clock s) (lightCtrlPut ctrl clock lm) := by
  rw [linkLightCtrlPut, lightCtrlPut]
  rcases h.lock with ⟨hs, hlm⟩ | ⟨s₁, lm₁, hs, hlm, h₁⟩
  · rw [hs, hlm]
    exact .inl ⟨rfl, rfl⟩
  · obtain ⟨s₂, hrun, h₂⟩ := h₁.putLoop ctrl clock (List.finRange LIGHT_ID_END)
    rw [hs, hlm]
    simp only [Option.bind_eq_bind, Option.bind_some, hrun]
    exact .inr ⟨_, _, _, rfl, rfl, h₂.unlock⟩

/-- A loop over a list is one from its first entry on, with rounds enough. -/
theorem Holds.forEach (h : Holds s lm) (hlists : lightLists lm ls = some (bs.map .link))
    {body : Nat → LinkLightMng Opt → Option (LinkLightMng Opt)} {P : LinkLightMng Opt → Prop}
    (hloop : ∀ n, s.lightPo.links.next (firstOf ls (bs.map .link)) = some n →
      ∃ s₁, lightForEachFrom ls body lightRounds (firstOf ls (bs.map .link)) n s = some s₁ ∧ P s₁) :
    ∃ s₁, lightForEach ls body s = some s₁ ∧ P s₁ := by
  have hring := h.ring hlists
  have hpos : firstOf ls (bs.map .link) ∈ ls :: bs.map .link := firstOf_mem
  obtain ⟨n, hn⟩ := ring_next hring hpos
  obtain ⟨s₁, hrun, hs₁⟩ := hloop n hn
  refine ⟨s₁, ?_, hs₁⟩
  simp only [lightForEach, hring.ends.1, Option.bind_eq_bind, Option.bind_some, hn]
  exact hrun

theorem Holds.forEachSteady (h : Holds s lm) :
    ∃ s', lightForEach .steadyLs linkSteadyLight s = some s' ∧
      Holds s' (lm.steadyLs.foldl steadyLight lm) := by
  have hlen := h.length_lights
  rw [LightMng.lights, List.length_append, List.length_append] at hlen
  exact h.forEach rfl fun n hn => h.steadyLoop rfl (Nat.lt_succ_of_le (by omega)) hn

theorem Holds.forEachFlash (h : Holds s lm) (curr : Timespec) :
    ∃ s', lightForEach .flashLs (fun b lm => some (linkFlashLight curr b lm)) s = some s' ∧
      Holds s' (lm.flashLs.foldl (flashLight curr) lm) := by
  have hlen := h.length_lights
  rw [LightMng.lights, List.length_append, List.length_append] at hlen
  exact h.forEach rfl fun n hn =>
    h.flashLoop curr (List.nil_append lm.flashLs).symm (Nat.lt_succ_of_le (by omega)) hn

theorem Holds.daemon (h : Holds s lm) (clock : Option Timespec) :
    SameCall ((linkLightCtrlDaemon clock s).map fun lm => (0, lm))
      ((lightCtrlDaemon clock lm).map fun lm => (0, lm)) := by
  rw [linkLightCtrlDaemon, lightCtrlDaemon]
  rcases h.lock with ⟨hs, hlm⟩ | ⟨s₁, lm₁, hs, hlm, h₁⟩
  · rw [hs, hlm]
    exact .inl ⟨rfl, rfl⟩
  · obtain ⟨s₂, hsteady, h₂⟩ := h₁.forEachSteady
    obtain ⟨s₃, hflash, h₃⟩ := h₂.forEachFlash (clock.getD ⟨0, 0⟩)
    rw [hs, hlm]
    simp only [Option.bind_eq_bind, Option.bind_some, hsteady, hflash]
    exact .inr ⟨_, _, _, rfl, rfl, h₃.unlock⟩

theorem Holds.enter (h : Holds s lm) {po : Pool} {links : LinkPool LightAddr}
    (hpo : Pooled lightLayout links { po, used := b :: lm.lights, ls := lightLists lm })
    (opt : Opt) :
    ∃ s', LinkLightMng.enter b id opt { s with lightPo := links } = some s' ∧
      Holds s' (lm.enter b po id opt) := by
  have hnodup := hpo.blocks.nodup_iff.mpr List.nodup_range
  have hnew : b ∉ lm.lights := (List.nodup_cons.mp (List.nodup_append'.mp hnodup).2.1).1
  have hfree : ∀ c ∈ po.free, LightAddr.link b ≠ .link c := by
    intro c hc heq
    obtain rfl := LightAddr.link.inj heq
    exact (List.nodup_append'.mp hnodup).2.2 hc List.mem_cons_self
  have hop : (PoolOp.list (.addTail (.link b) .idleLs)).Rightful lightLayout
      { po, used := b :: lm.lights, ls := lightLists lm } := by
    refine ⟨⟨rfl, by simp, mt isEntry_link.mp hnew⟩, fun a ha => ?_⟩
    rcases List.mem_cons.mp ha with rfl | ha
    · exact ⟨by simp [lightLayout], hfree⟩
    · obtain rfl := List.mem_singleton.mp ha
      exact ⟨by simp [lightLayout], fun _ _ => by simp [lightLayout]⟩
  obtain ⟨po', hrun, hpooled⟩ := hpo.list hop
  have hlists : (ListOp.addTail (.link b) .idleLs).effect (lightLists lm)
      = lightLists (lm.enter b po id opt) := by
    have hmap : (lightLists lm).entries .idleLs ++ [.link b]
        = (lm.idleLs ++ [b]).map LightAddr.link := by rw [List.map_append]; rfl
    have hforget : (lightLists lm).forget (.link b) = lightLists lm :=
      Function.update_eq_self_iff.mpr rfl
    simp only [ListOp.effect]
    rw [hforget, hmap, put_idleLs]
    rfl
  refine ⟨{ s with
    lightPo := po'
    lightEntry := Function.update s.lightEntry b { s.lightEntry b with id, opt }
    registered := s.registered ++ [id] }, ?_, ?_⟩
  · simp [LinkLightMng.enter, LinkLightMng.list, LinkLightMng.store, hrun]
  · rw [hlists] at hpooled
    refine { h with pooled := ?_, lightEntry := ?_, registered := ?_ }
    · exact { hpooled with
        blocks := ((perm_enter b po id opt).append_left po.free).trans hpooled.blocks }
    · simp only [LightMng.enter, h.lightEntry]
    · simp only [LightMng.enter, h.registered]

theorem Holds.regst (h : Holds s lm) (id : UInt8) (opt : Opt) :
    SameCall (linkLightRegst id opt s) (lightRegst id opt lm) := by
  rw [linkLightRegst, lightRegst]
  rcases h.lock with ⟨hs, hlm⟩ | ⟨s₁, lm₁, hs, hlm, h₁⟩
  · rw [hs, hlm]
    exact .inl ⟨rfl, rfl⟩
  · rw [hs, hlm]
    simp only [Option.bind_eq_bind, Option.bind_some, h₁.find]
    cases lightFind lm₁ id with
    | some b => exact .inr ⟨_, _, _, rfl, rfl, h₁⟩
    | none =>
      cases hget : getFromPool lm₁.lightPo with
      | none =>
        simp only [h₁.pooled.get_none hget]
        exact .inr ⟨_, _, _, rfl, rfl, h₁⟩
      | some got =>
        obtain ⟨links, hrun, hpooled⟩ := h₁.pooled.get_some hget
        obtain ⟨s₂, (henter : LinkLightMng.enter got.1 id opt _ = _), h₂⟩ := h₁.enter hpooled opt
        have hlink : lightOf (lightLayout.block got.1) = some got.1 := rfl
        simp only [hrun, Option.bind_some, hlink, henter]
        exact .inr ⟨_, _, _, rfl, rfl, h₂.unlock⟩

theorem Holds.call (h : Holds s lm) (op : LightOp Opt) :
    (linkLightStep s op = none ∧ lightStep lm op = none) ∨
      ∃ s' lm', linkLightStep s op = some s' ∧ lightStep lm op = some lm' ∧ Holds s' lm' := by
  have hsame : ∀ {c : Option (Int × LinkLightMng Opt)} {c' : Option (Int × LightMng Opt)},
      SameCall c c' → (c.map Prod.snd = none ∧ c'.map Prod.snd = none) ∨
        ∃ s' lm', c.map Prod.snd = some s' ∧ c'.map Prod.snd = some lm' ∧ Holds s' lm' := by
    rintro c c' (⟨rfl, rfl⟩ | ⟨ret, s', lm', rfl, rfl, hs'⟩)
    · exact .inl ⟨rfl, rfl⟩
    · exact .inr ⟨s', lm', rfl, rfl, hs'⟩
  cases op with
  | regst id opt => exact hsame (h.regst id opt)
  | ctrlPut ctrl clock => exact hsame (h.ctrlPut ctrl clock)
  | daemon clock =>
    have hdaemon := hsame (h.daemon clock)
    rw [Option.map_map, Option.map_map] at hdaemon
    rw [linkLightStep, linkLightCall, lightStep, Option.map_map]
    simpa [Function.comp_def] using hdaemon

/-! ## Runs -/

section

variable {lists : ListHeads LightAddr} {a : LightAddr}

theorem not_mem_of_nil (hnil : ∀ head, lists.entries head = []) (head : LightAddr) :
    a ∉ (lists head).getD [] := by
  have hhead : (lists head).getD [] = [] := hnil head
  rw [hhead]
  exact List.not_mem_nil

theorem entries_put_nil (hnil : ∀ head, lists.entries head = []) (head : LightAddr) :
    (lists.put a []).entries head = [] := by
  by_cases heq : head = a
  · subst heq
    exact entries_put_self
  · rw [entries_put_of_ne heq]
    exact hnil head

end

theorem holds_init (m : Links LightAddr) (entry : Nat → Light Opt) :
    ∃ s, LinkLightMng.init m entry = some s ∧ Holds s (lightRamInit entry) := by
  have hnone : ∀ head, ListHeads.entries (fun _ : LightAddr => none) head = [] := fun _ => rfl
  have hidle := (rings_none (m := m)).initHead (a := .idleLs) (not_mem_of_nil hnone)
  have hsteady := hidle.initHead (a := .steadyLs) (not_mem_of_nil (entries_put_nil hnone))
  have hflash := hsteady.initHead (a := .flashLs)
    (not_mem_of_nil (entries_put_nil (entries_put_nil hnone)))
  have hlists : lightLists (lightRamInit entry)
      = ListHeads.put (ListHeads.put (ListHeads.put (fun _ => none) .idleLs []) .steadyLs [])
          .flashLs [] := by
    funext head
    cases head <;> rfl
  have hnil : ∀ head, (lightLists (lightRamInit entry)).entries head = [] := fun head => by
    cases head <;> rfl
  have hrings : Rings (((m.initHead .idleLs).initHead .steadyLs).initHead .flashLs)
      (lightLists (lightRamInit entry)) := by
    rw [hlists]
    exact hflash
  have hfree : Unused (lightLists (lightRamInit entry)) lightLayout.free :=
    ⟨rfl, not_mem_of_nil hnil⟩
  obtain ⟨po, hcreate, hpooled⟩ := pooled_create hrings hfree fun _ _ => ⟨rfl, not_mem_of_nil hnil⟩
  refine ⟨{ lightPo := po, lightEntry := entry }, ?_, ⟨hpooled, rfl, rfl, rfl, rfl, rfl⟩⟩
  rw [LinkLightMng.init, hcreate]
  rfl

/-- Whatever is in the memory and whatever calls are made, in any order: either both managers stop, at
a mutex that is never given back, or both go on, the one with pointers with the same calls of the
driver and with lists that read, forwards and backwards, as the other one's. -/
theorem linkLights_refine (m : Links LightAddr) (entry : Nat → Light Opt) (ops : List (LightOp Opt)) :
    (runFrom lightStep (lightRamInit entry) ops = none ∧
      (LinkLightMng.init m entry).bind (fun s => runFrom linkLightStep s ops) = none) ∨
    ∃ lm s, runFrom lightStep (lightRamInit entry) ops = some lm ∧
      (LinkLightMng.init m entry).bind (fun s => runFrom linkLightStep s ops) = some s ∧
      Holds s lm ∧ ReadsAs s.lightPo.links (lightLists lm) := by
  obtain ⟨s, hinit, hs⟩ := holds_init m entry
  rw [hinit, Option.bind_some]
  generalize lightRamInit entry = lm at hs
  clear hinit
  induction ops generalizing s lm with
  | nil =>
    refine .inr ⟨lm, s, rfl, rfl, hs, readsAs ⟨fun hhead => hs.ring hhead, ?_⟩⟩
    exact fun hhead hhead' => hs.pooled.rings.apart (lists_of_lightLists rfl hhead)
      (lists_of_lightLists rfl hhead')
  | cons op ops ih =>
    rcases hs.call op with ⟨hs', hlm'⟩ | ⟨s', lm', hs', hlm', h'⟩
    · rw [runFrom_cons, hlm', runFrom_cons, hs']
      exact .inl ⟨rfl, rfl⟩
    · rw [runFrom_cons, hlm', runFrom_cons, hs']
      exact ih s' lm' h'

end VdCamera.Dev
