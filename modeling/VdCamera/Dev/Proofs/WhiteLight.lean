import VdCamera.Dev.Proofs.Light
import VdCamera.Dev.WhiteLight

/-!
# The status of the white light

Between the rounds a driver has been told the value of the control that was applied last, if its light
waits; the white light's own controls are those that its status stands for.
-/

namespace VdCamera.Dev

open Misc Sys

variable {Opt : Type}

/-! ## What a driver has been told -/

/-- The value that the driver of the light was handed last. -/
def LightMng.told (lm : LightMng Opt) (id : UInt8) : Option UInt8 :=
  ((lm.calls.filter (·.2.1 = id)).getLast?).map (·.2.2)

/-- An entry has the control that was applied last, its driver has been told if the light waits, and a
light that is to be set has a control. -/
structure LightMng.Tells (lm : LightMng Opt) : Prop where
  info : ∀ b ∈ lm.lights, ∀ info ∈ lm.applied (lm.idOf b), (lm.lightEntry b).info = info
  idle : ∀ b ∈ lm.idleLs, lm.told (lm.idOf b) = (lm.applied (lm.idOf b)).map LightInfo.value
  steady : ∀ b ∈ lm.steadyLs, (lm.applied (lm.idOf b)).isSome

variable {lm lm' : LightMng Opt} {b c : Nat} {id : UInt8} {info : LightInfo} {s : LightSys Opt}

theorem told_set_self (value : UInt8) : (lm.set b value).told (lm.idOf b) = some value := by
  simp [LightMng.told, LightMng.set, LightMng.idOf]

theorem told_set_of_ne (h : lm.idOf b ≠ id) (value : UInt8) :
    (lm.set b value).told id = lm.told id := by
  simp [LightMng.told, LightMng.set, show (lm.lightEntry b).id ≠ id from h]

theorem LightMng.Inv.idle_ne_flash (h : lm.Inv) (hb : b ∈ lm.flashLs) (hc : c ∈ lm.idleLs) :
    c ≠ b := by
  rintro rfl
  exact (List.nodup_append'.mp h.nodup).2.2 (List.mem_append_left _ hc) hb

theorem mem_lights_of_idle (hb : b ∈ lm.idleLs) : b ∈ lm.lights :=
  List.mem_append_left _ (List.mem_append_left _ hb)

theorem mem_lights_of_steady (hb : b ∈ lm.steadyLs) : b ∈ lm.lights :=
  List.mem_append_left _ (List.mem_append_right _ hb)

/-- A control is applied to a light, which then waits no more. -/
theorem LightMng.Tells.put (h : lm.Tells) (hinv : lm.Inv) (hb : b ∈ lm.lights) (light : Light Opt)
    (hid : light.id = lm.idOf b) (hinfo : light.info = info) (hcalls : lm'.calls = lm.calls)
    (happlied : lm'.applied = Function.update lm.applied (lm.idOf b) (some info))
    (hentry : lm'.lightEntry = Function.update lm.lightEntry b light)
    (hlights : ∀ c ∈ lm'.lights, c ∈ lm.lights) (hidle : lm'.idleLs = lm.idleLs.erase b)
    (hsteady : ∀ c ∈ lm'.steadyLs, c = b ∨ c ∈ lm.steadyLs) : lm'.Tells := by
  have hidOf : ∀ c, lm'.idOf c = lm.idOf c := by
    intro c
    rw [LightMng.idOf, hentry]
    by_cases hc : c = b
    · subst hc
      rw [Function.update_self, hid]
    · rw [Function.update_of_ne hc, LightMng.idOf]
  have hother : ∀ c ∈ lm.lights, c ≠ b → lm'.applied (lm.idOf c) = lm.applied (lm.idOf c) := by
    intro c hc hne
    rw [happlied, Function.update_of_ne (fun heq => hne (hinv.idOf_inj hc hb heq))]
  have hself : lm'.applied (lm.idOf b) = some info := by rw [happlied, Function.update_self]
  constructor
  · intro c hc info' hinfo'
    rw [hidOf] at hinfo'
    by_cases hcb : c = b
    · subst hcb
      rw [hself] at hinfo'
      rw [hentry, Function.update_self, hinfo]
      exact Option.some.inj hinfo'
    · rw [hother c (hlights c hc) hcb] at hinfo'
      rw [hentry, Function.update_of_ne hcb]
      exact h.info c (hlights c hc) info' hinfo'
  · intro c hc
    have hnodup : lm.idleLs.Nodup := (List.nodup_append'.mp (List.nodup_append'.mp hinv.nodup).1).1
    rw [hidle, hnodup.mem_erase_iff] at hc
    rw [hidOf, hother c (mem_lights_of_idle hc.2) hc.1, ← h.idle c hc.2, LightMng.told, hcalls,
      LightMng.told]
  · intro c hc
    rw [hidOf]
    by_cases hcb : c = b
    · subst hcb
      rw [hself]
      rfl
    · have hold := (hsteady c hc).resolve_left hcb
      rw [hother c (mem_lights_of_steady hold) hcb]
      exact h.steady c hold

theorem LightMng.Tells.putId (h : lm.Tells) (hinv : lm.Inv) (id : UInt8) (info : LightInfo)
    (clock : Option Timespec) : (lightCtrlPutId id info clock lm).2.Tells := by
  rw [lightCtrlPutId]
  cases hfind : lightFind lm id with
  | none => exact h
  | some b =>
    obtain ⟨hb, rfl⟩ := lightFind_some hfind
    simp only
    split
    · refine h.put hinv hb { lm.lightEntry b with info } rfl rfl rfl rfl rfl
        (fun c hc => (perm_moveSteady hinv.nodup hb).mem_iff.mp hc) rfl fun c hc => ?_
      rcases List.mem_append.mp hc with hc | hc
      · exact .inr (List.mem_of_mem_erase hc)
      · exact .inl (List.mem_singleton.mp hc)
    · refine h.put hinv hb
        { lm.lightEntry b with info, prevTm := clock.getD ⟨0, 0⟩, prevVal := 0 }
        rfl rfl rfl rfl rfl (fun c hc => (perm_moveFlash hinv.nodup hb).mem_iff.mp hc) rfl
        fun c hc => .inr (List.mem_of_mem_erase hc)

theorem LightMng.Tells.putLoop (ctrl : LightCtrl) (clock : Fin LIGHT_ID_END → Option Timespec)
    (is : List (Fin LIGHT_ID_END)) (h : lm.Tells) (hinv : lm.Inv) :
    (lightCtrlPutLoop ctrl clock is lm).2.Tells := by
  induction is generalizing lm with
  | nil => exact h
  | cons i is ih =>
    rw [lightCtrlPutLoop]
    split
    · have h' := h.putId hinv (UInt8.ofNat i) (ctrl.info i) (clock i)
      have hinv' := (lightCtrlPutId_kept hinv (UInt8.ofNat i) (ctrl.info i) (clock i)).1
      simp only
      split
      · exact ih h' hinv'
      · exact h'
    · exact ih h hinv

theorem LightMng.Tells.steadyLight (h : lm.Tells) (hinv : lm.Inv) (hb : b ∈ lm.steadyLs) :
    (steadyLight lm b).Tells := by
  have hlights := mem_lights_of_steady hb
  constructor
  · intro c hc info hinfo
    exact h.info c ((perm_moveIdle hinv.nodup hlights).mem_iff.mp hc) info hinfo
  · intro c hc
    by_cases hcb : c = b
    · subst hcb
      obtain ⟨info, hinfo⟩ := Option.isSome_iff_exists.mp (h.steady c hb)
      have htold : (Dev.steadyLight lm c).told (lm.idOf c) = some (lm.lightEntry c).info.value :=
        told_set_self _
      rw [h.info c hlights info hinfo] at htold
      show _ = (lm.applied (lm.idOf c)).map LightInfo.value
      rw [hinfo]
      exact htold
    · have hidle : c ∈ lm.idleLs := by
        rcases List.mem_append.mp hc with hc | hc
        · exact List.mem_of_mem_erase hc
        · exact absurd (List.mem_singleton.mp hc) hcb
      have hne : lm.idOf b ≠ lm.idOf c := fun heq =>
        hcb (hinv.idOf_inj (mem_lights_of_idle hidle) hlights heq.symm)
      exact (told_set_of_ne hne _).trans (h.idle c hidle)
  · intro c hc
    exact h.steady c (List.mem_of_mem_erase hc)

theorem LightMng.Tells.flashLight (h : lm.Tells) (hinv : lm.Inv) (hb : b ∈ lm.flashLs)
    (curr : Timespec) : (flashLight curr lm b).Tells := by
  have hlights := mem_lights_of_flash hb
  unfold Dev.flashLight
  simp only
  split
  · rename_i hdue
    generalize (if (lm.lightEntry b).prevVal = 0 then (lm.lightEntry b).info.value else 0) = value
    have hidOf : ∀ c, ((lm.set b value).store b
        { lm.lightEntry b with prevVal := value, prevTm := curr }).idOf c = lm.idOf c :=
      fun c => @idOf_store Opt (lm.set b value)
        { lm.lightEntry b with prevVal := value, prevTm := curr } b rfl c
    constructor
    · intro c hc info hinfo
      rw [hidOf] at hinfo
      have hold := h.info c hc info hinfo
      show (Function.update lm.lightEntry b _ c).info = info
      by_cases hcb : c = b
      · subst hcb
        rw [Function.update_self]
        exact hold
      · rw [Function.update_of_ne hcb]
        exact hold
    · intro c hc
      have hne : lm.idOf b ≠ lm.idOf c := fun heq =>
        hinv.idle_ne_flash hb hc (hinv.idOf_inj (mem_lights_of_idle hc) hlights heq.symm)
      rw [hidOf]
      exact (told_set_of_ne hne _).trans (h.idle c hc)
    · intro c hc
      rw [hidOf]
      exact h.steady c hc
  · exact h

/-- The loop over the steady list leaves it empty. -/
theorem LightMng.Tells.steadyLights {bs : List Nat} (h : lm.Tells) (hinv : lm.Inv)
    (hbs : lm.steadyLs = bs) :
    (bs.foldl Dev.steadyLight lm).Tells ∧ (bs.foldl Dev.steadyLight lm).Inv ∧
      (bs.foldl Dev.steadyLight lm).steadyLs = [] ∧
      (bs.foldl Dev.steadyLight lm).applied = lm.applied := by
  induction bs generalizing lm with
  | nil => exact ⟨h, hinv, hbs, rfl⟩
  | cons b bs ih =>
    have hb : b ∈ lm.steadyLs := by simp [hbs]
    have hflash : b ∉ lm.flashLs := fun hflash =>
      (List.nodup_append'.mp hinv.nodup).2.2 (List.mem_append_right _ hb) hflash
    exact ih (h.steadyLight hinv hb) (steadyLight_kept hinv (mem_lights_of_steady hb) hflash)
      (steadyLs_steadyLight hbs)

theorem LightMng.Tells.flashLights (curr : Timespec) {bs : List Nat} (h : lm.Tells) (hinv : lm.Inv)
    (hbs : ∀ b ∈ bs, b ∈ lm.flashLs) :
    (bs.foldl (Dev.flashLight curr) lm).Tells ∧
      (bs.foldl (Dev.flashLight curr) lm).steadyLs = lm.steadyLs ∧
      (bs.foldl (Dev.flashLight curr) lm).applied = lm.applied := by
  induction bs generalizing lm with
  | nil => exact ⟨h, rfl, rfl⟩
  | cons b bs ih =>
    have hsame : (Dev.flashLight curr lm b).steadyLs = lm.steadyLs ∧
        (Dev.flashLight curr lm b).applied = lm.applied := by
      unfold Dev.flashLight
      simp only
      split <;> exact ⟨rfl, rfl⟩
    have hrest : ∀ c ∈ bs, c ∈ (Dev.flashLight curr lm b).flashLs := fun c hc => by
      rw [flashLs_flashLight]
      exact hbs c (List.mem_cons_of_mem b hc)
    obtain ⟨htells, hsteady, happlied⟩ := ih (h.flashLight hinv (hbs b List.mem_cons_self) curr)
      (flashLight_kept curr hinv b).1 hrest
    exact ⟨htells, hsteady.trans hsame.1, happlied.trans hsame.2⟩

theorem LightMng.Tells.congr (h : lm.Tells) (m : Bool) :
    ({ lm with mutex := m } : LightMng Opt).Tells :=
  ⟨h.info, h.idle, h.steady⟩

theorem LightMng.Tells.daemon (h : lm.Tells) (hinv : lm.Inv) (hm : lm.mutex = false)
    (clock : Option Timespec) :
    ∃ lm', lightCtrlDaemon clock lm = some lm' ∧ lm'.Inv ∧ lm'.mutex = false ∧
      lm'.registered = lm.registered ∧ lm'.Tells ∧ lm'.steadyLs = [] ∧ lm'.applied = lm.applied := by
  obtain ⟨lm', hdaemon, hinv', hm', hreg⟩ := lightCtrlDaemon_kept hinv hm clock
  have hlocked : ({ lm with mutex := true } : LightMng Opt).Inv := hinv.congr
  obtain ⟨hsteady, hinv₁, hnone, happlied⟩ := (h.congr true).steadyLights hlocked rfl
  obtain ⟨hflash, hsame, happlied'⟩ :=
    hsteady.flashLights (clock.getD ⟨0, 0⟩) hinv₁ fun _ hb => hb
  refine ⟨lm', hdaemon, hinv', hm', hreg, ?_⟩
  simp only [lightCtrlDaemon, LightMng.lock_free hm, Option.bind_eq_bind, Option.bind_some] at hdaemon
  cases hdaemon
  exact ⟨hflash.congr false, hsame.trans hnone, happlied'.trans happlied⟩

/-! ## The status and the driver -/

/-- The last control applied to the white light is what the status says. -/
def WhiteStatus.Applied : WhiteStatus → Option LightInfo → Prop
  | .ON, applied => applied = some ⟨255, 0⟩
  | .OFF, applied => applied = none ∨ applied = some ⟨0, 0⟩

/-- The driver of the white light was last told what the status says. -/
def WhiteStatus.Told : WhiteStatus → Option UInt8 → Prop
  | .ON, value => value = some 255
  | .OFF, value => value = none ∨ value = some 0

/-- The manager is free and knows the white light. -/
structure LightSys.Ready (s : LightSys Opt) : Prop where
  inv : s.lm.Inv
  tells : s.lm.Tells
  mutex : s.lm.mutex = false
  registered : 3 ∈ s.lm.registered

structure LightSys.Inv (s : LightSys Opt) : Prop extends s.Ready where
  applied : s.white.status.Applied (s.lm.applied 3)

theorem LightSys.Ready.congr (h : s.Ready) (white : WhiteLight) :
    ({ s with white } : LightSys Opt).Ready :=
  ⟨h.inv, h.tells, h.mutex, h.registered⟩

theorem applied_putId_of_ne {id' : UInt8} (h : id' ≠ id) (clock : Option Timespec) :
    (lightCtrlPutId id info clock lm).2.applied id' = lm.applied id' := by
  rw [lightCtrlPutId]
  cases lightFind lm id with
  | none => rfl
  | some b =>
    simp only
    split <;> exact Function.update_of_ne h _ _

/-- A control that spares the white light. -/
theorem applied_putLoop {ctrl : LightCtrl} (hspares : getbit ctrl.mask LIGHT_ID_WHITE = false)
    (clock : Fin LIGHT_ID_END → Option Timespec) (is : List (Fin LIGHT_ID_END)) :
    (lightCtrlPutLoop ctrl clock is lm).2.applied 3 = lm.applied 3 := by
  induction is generalizing lm with
  | nil => rfl
  | cons i is ih =>
    rw [lightCtrlPutLoop]
    split
    · rename_i hbit
      have hwhite : ∀ i : Fin LIGHT_ID_END, 3 = UInt8.ofNat i → i = LIGHT_ID_WHITE := by decide
      have hne : 3 ≠ UInt8.ofNat i := by
        intro heq
        rw [hwhite i heq, hspares] at hbit
        cases hbit
      simp only
      split
      · rw [ih, applied_putId_of_ne hne]
      · exact applied_putId_of_ne hne (clock i)
    · exact ih

theorem applied_whiteCtrl (hinv : lm.Inv) (hreg : 3 ∈ lm.registered) (on : Bool) :
    (lightCtrlPutLoop (whiteCtrl on) (fun _ => none) (List.finRange LIGHT_ID_END) lm).2.applied 3
      = some ⟨if on then 255 else 0, 0⟩ := by
  have hfind : lightFind lm 3 ≠ none := by
    rw [Ne, hinv.lightFind_eq_none, not_not]
    exact hreg
  obtain ⟨b, hb⟩ := Option.ne_none_iff_exists'.mp hfind
  have hall : List.finRange LIGHT_ID_END
      = [⟨0, by decide⟩, ⟨1, by decide⟩, ⟨2, by decide⟩, LIGHT_ID_WHITE] := by decide
  have hbits : ∀ i : Fin LIGHT_ID_END, getbit (whiteCtrl on).mask i = decide (i = LIGHT_ID_WHITE) := by
    show ∀ i : Fin LIGHT_ID_END, getbit ((1 : UInt32) <<< 3) i = decide (i = LIGHT_ID_WHITE)
    decide
  have hid : UInt8.ofNat LIGHT_ID_WHITE = 3 := by decide
  rw [hall, lightCtrlPutLoop, if_neg (by rw [hbits]; decide), lightCtrlPutLoop,
    if_neg (by rw [hbits]; decide), lightCtrlPutLoop, if_neg (by rw [hbits]; decide),
    lightCtrlPutLoop, if_pos (by rw [hbits]; decide), hid]
  simp [lightCtrlPutId, hb, whiteCtrl, lightCtrlPutLoop, LightMng.moveSteady, LightMng.unlink,
    LightMng.store]

theorem LightSys.Ready.ctrlPut (h : s.Ready) (ctrl : LightCtrl)
    (clock : Fin LIGHT_ID_END → Option Timespec) :
    ∃ ret lm', lightCtrlPut ctrl clock s.lm = some (ret, lm') ∧
      ({ s with lm := lm' } : LightSys Opt).Ready ∧
      lm'.applied = (lightCtrlPutLoop ctrl clock (List.finRange LIGHT_ID_END)
        { s.lm with mutex := true }).2.applied := by
  have hlocked : ({ s.lm with mutex := true } : LightMng Opt).Inv := h.inv.congr
  obtain ⟨hinv, -, hreg⟩ :=
    lightCtrlPutLoop_kept ctrl clock (List.finRange LIGHT_ID_END) hlocked
  have htells := (h.tells.congr true).putLoop ctrl clock (List.finRange LIGHT_ID_END) hlocked
  simp only [lightCtrlPut, LightMng.lock_free h.mutex, Option.bind_eq_bind, Option.bind_some]
  refine ⟨_, _, rfl, ⟨hinv.congr, htells.congr false, rfl, ?_⟩, rfl⟩
  show 3 ∈ (lightCtrlPutLoop ctrl clock (List.finRange LIGHT_ID_END) _).2.registered
  rw [hreg]
  exact h.registered

theorem LightSys.Ready.set (h : s.Ready) (on : Bool) :
    ∃ s', whiteLightSet on s = some s' ∧ s'.Ready ∧
      s'.lm.applied 3 = some ⟨if on then 255 else 0, 0⟩ := by
  obtain ⟨ret, lm', hput, hready, happlied⟩ := h.ctrlPut (whiteCtrl on) fun _ => none
  refine ⟨{ s with lm := lm' }, by rw [whiteLightSet, hput]; rfl, hready, ?_⟩
  show lm'.applied 3 = _
  rw [happlied]
  have hlocked : ({ s.lm with mutex := true } : LightMng Opt).Inv := h.inv.congr
  exact applied_whiteCtrl hlocked h.registered on

/-! ## The handlers -/

/-- A handler comes to an end, and the light is told what the next status says. -/
def Decides (r : Option (WhiteStatus × LightSys Opt)) : Prop :=
  ∃ next s', r = some (next, s') ∧ s'.Ready ∧ next.Applied (s'.lm.applied 3)

theorem LightSys.Ready.turnOn (h : s.Ready) :
    Decides ((whiteLightSet true s).map fun s => (.ON, s)) := by
  obtain ⟨s', hset, hready, happlied⟩ := h.set true
  rw [hset]
  exact ⟨.ON, s', rfl, hready, happlied⟩

theorem LightSys.Ready.turnOff (h : s.Ready) :
    Decides ((whiteLightSet false s).map fun s => (.OFF, s)) := by
  obtain ⟨s', hset, hready, happlied⟩ := h.set false
  rw [hset]
  exact ⟨.OFF, s', rfl, hready, .inr happlied⟩

/-- The handler leaves the light as it is. -/
theorem LightSys.Inv.stay (h : s.Inv) {status : WhiteStatus} (hstatus : s.white.status = status) :
    Decides (some (status, s)) :=
  ⟨status, s, rfl, h.toReady, hstatus ▸ h.applied⟩

theorem LightSys.Inv.always (h : s.Inv) (i : WhiteInput) : Decides (whiteLightAlways i s) := by
  cases hstatus : s.white.status with
  | OFF =>
    rw [whiteLightAlways, hstatus]
    dsimp only
    exact h.turnOn
  | ON =>
    rw [whiteLightAlways, hstatus]
    dsimp only
    exact h.stay hstatus

theorem LightSys.Inv.night (h : s.Inv) (i : WhiteInput) : Decides (whiteLightNight i s) := by
  cases hstatus : s.white.status with
  | OFF =>
    rw [whiteLightNight, hstatus]
    dsimp only
    split
    · exact h.stay hstatus
    · exact h.turnOn
  | ON =>
    -- a new brightness leaves the light on
    have hrest : ∀ s' : LightSys Opt, s'.Ready → WhiteStatus.ON.Applied (s'.lm.applied 3) →
        Decides (if i.daytime then (whiteLightSet false s').map fun s => (.OFF, s)
          else some (.ON, s')) := by
      intro s' hready happlied
      split
      · exact hready.turnOff
      · exact ⟨.ON, s', rfl, hready, happlied⟩
    rw [whiteLightNight, hstatus]
    dsimp only
    split
    · obtain ⟨s', hset, hready, happlied⟩ :=
        (h.toReady.congr { s.white with prevBright := i.whiteBright }).set true
      exact hset ▸ hrest s' hready happlied
    · exact hrest s h.toReady (hstatus ▸ h.applied)

theorem LightSys.Inv.nightCoil (h : s.Inv) (i : WhiteInput) : Decides (whiteLightNightCoil i s) := by
  have hready := h.toReady.congr { s.white with action := -1 }
  cases hstatus : s.white.status with
  | OFF =>
    rw [whiteLightNightCoil, hstatus]
    dsimp only
    split
    · split
      · exact ⟨.OFF, _, rfl, hready, hstatus ▸ h.applied⟩
      · exact hready.turnOn
    · exact h.stay hstatus
  | ON =>
    rw [whiteLightNightCoil, hstatus]
    dsimp only
    split
    · exact hready.turnOff
    · exact h.stay hstatus

theorem decides_of_handle (h : s.Inv) (i : WhiteInput)
    {handle : WhiteInput → LightSys Opt → Option (WhiteStatus × LightSys Opt)}
    (hhandle : wlightCtrlHandle i.detectMode i.whiteMode = some handle) : Decides (handle i s) := by
  unfold wlightCtrlHandle at hhandle
  split_ifs at hhandle
  · cases hhandle
    exact h.night i
  · cases hhandle
    exact h.nightCoil i
  · cases hhandle
    exact h.always i

theorem status_update (next : WhiteStatus) (s : LightSys Opt) :
    (whiteLightUpdateStatus next s).white.status = next ∧ (whiteLightUpdateStatus next s).lm = s.lm := by
  unfold whiteLightUpdateStatus
  split
  · rename_i heq
    exact ⟨heq.symm, rfl⟩
  · exact ⟨rfl, rfl⟩

theorem LightSys.Inv.daemon (h : s.Inv) (i : WhiteInput) :
    ∃ s', whiteLightDaemon i s = some s' ∧ s'.Inv := by
  rw [whiteLightDaemon]
  cases hhandle : wlightCtrlHandle i.detectMode i.whiteMode with
  | none => exact ⟨s, rfl, h⟩
  | some handle =>
    obtain ⟨next, s', heq, hready, happlied⟩ := decides_of_handle h i hhandle
    obtain ⟨hstatus, hlm⟩ := status_update next s'
    refine ⟨whiteLightUpdateStatus next s', by simp only [heq, Option.map_some], ⟨?_, ?_⟩⟩
    · exact ⟨hlm ▸ hready.inv, hlm ▸ hready.tells, hlm ▸ hready.mutex, hlm ▸ hready.registered⟩
    · rw [hstatus, hlm]
      exact happlied

theorem LightSys.Inv.step (h : s.Inv) (op : LightSysOp) :
    ∃ s', lightSysStep s op = some s' ∧ s'.Inv := by
  cases op with
  | ctrlPut ctrl spares clock =>
    obtain ⟨ret, lm', hput, hready, happlied⟩ := h.toReady.ctrlPut ctrl clock
    refine ⟨{ s with lm := lm' }, by rw [lightSysStep, hput]; rfl, ⟨hready, ?_⟩⟩
    show s.white.status.Applied (lm'.applied 3)
    rw [happlied, applied_putLoop spares]
    exact h.applied
  | coil on runMode =>
    simp only [lightSysStep]
    split
    · exact ⟨_, rfl, ⟨h.toReady.congr _, h.applied⟩⟩
    · exact ⟨s, rfl, h⟩
  | round clock i =>
    obtain ⟨lm', hdaemon, hinv, hm, hreg, htells, -, happlied⟩ :=
      h.tells.daemon h.inv h.mutex clock
    have h' : ({ s with lm := lm' } : LightSys Opt).Inv :=
      ⟨⟨hinv, htells, hm, hreg ▸ h.registered⟩, happlied ▸ h.applied⟩
    obtain ⟨s', hs', hinv'⟩ := h'.daemon i
    exact ⟨s', by rw [lightSysStep, hdaemon]; exact hs', hinv'⟩

/-! ## Runs -/

theorem regst_kept (id : UInt8) (h : lm.Inv) (hm : lm.mutex = false) (hid : id ∉ lm.registered)
    (hroom : lm.registered.length < LIGHT_ID_END) (opt : Opt) :
    ∃ lm', lightStep lm (.regst id opt) = some lm' ∧ lm'.Inv ∧ lm'.mutex = false ∧
      lm'.registered = lm.registered ++ [id] ∧ lm'.applied = lm.applied ∧ lm'.calls = lm.calls ∧
      lm'.steadyLs = lm.steadyLs := by
  have hfree : lm.lightPo.free ≠ [] := by
    intro hfree
    have hlen := h.length_free
    rw [hfree, List.length_nil] at hlen
    omega
  cases hget : getFromPool lm.lightPo with
  | none => exact absurd (getFromPool_eq_none.mp hget) hfree
  | some got =>
    refine ⟨lm.enter got.1 got.2 id opt, ?_, h.enter opt hid hget, hm, rfl, rfl, rfl, rfl⟩
    rw [lightStep, lightRegst_succeeds hm (h.lightFind_eq_none.mpr hid) hget]
    rfl

/-- The four lights are there, and none has been controlled. -/
theorem boardLightInit_inv (entry : Nat → Light Opt) (red blue white green : Opt) :
    ∃ lm, boardLightInit red blue white green (lightRamInit entry) = some lm ∧
      ({ lm } : LightSys Opt).Inv := by
  obtain ⟨lm₁, h₁, hinv₁, hm₁, hreg₁, happ₁, hcalls₁, hst₁⟩ := regst_kept 1
    (lightRamInit_inv entry) rfl (by simp [lightRamInit]) (by simp [lightRamInit, LIGHT_ID_END]) red
  have hreg₁ : lm₁.registered = [1] := hreg₁
  obtain ⟨lm₂, h₂, hinv₂, hm₂, hreg₂, happ₂, hcalls₂, hst₂⟩ := regst_kept 2 hinv₁ hm₁
    (by simp [hreg₁]) (by simp [hreg₁, LIGHT_ID_END]) blue
  rw [hreg₁] at hreg₂
  obtain ⟨lm₃, h₃, hinv₃, hm₃, hreg₃, happ₃, hcalls₃, hst₃⟩ := regst_kept 3 hinv₂ hm₂
    (by simp [hreg₂]) (by simp [hreg₂, LIGHT_ID_END]) white
  rw [hreg₂] at hreg₃
  obtain ⟨lm₄, h₄, hinv₄, hm₄, hreg₄, happ₄, hcalls₄, hst₄⟩ := regst_kept 0 hinv₃ hm₃
    (by simp [hreg₃]) (by simp [hreg₃, LIGHT_ID_END]) green
  rw [hreg₃] at hreg₄
  have happlied : ∀ id, lm₄.applied id = none := by
    intro id
    rw [happ₄, happ₃, happ₂, happ₁]
    rfl
  have hcalls : lm₄.calls = [] := by rw [hcalls₄, hcalls₃, hcalls₂, hcalls₁]; rfl
  have hsteady : lm₄.steadyLs = [] := by rw [hst₄, hst₃, hst₂, hst₁]; rfl
  refine ⟨lm₄, ?_, ⟨⟨hinv₄, ⟨?_, ?_, ?_⟩, hm₄, by simp [hreg₄]⟩, .inl (happlied 3)⟩⟩
  · simp only [boardLightInit, runFrom_cons, runFrom_nil, h₁, h₂, h₃, h₄, Option.bind_some]
  · intro b _ info hinfo
    rw [happlied] at hinfo
    cases hinfo
  · intro b _
    rw [happlied, LightMng.told, hcalls]
    rfl
  · intro b hb
    rw [hsteady] at hb
    cases hb

theorem LightSys.Inv.run (h : s.Inv) (ops : List LightSysOp) :
    ∃ s', runFrom lightSysStep s ops = some s' ∧ s'.Inv := by
  induction ops generalizing s with
  | nil => exact ⟨s, rfl, h⟩
  | cons op ops ih =>
    obtain ⟨s₁, hstep, h₁⟩ := h.step op
    obtain ⟨s', hrun, h'⟩ := ih h₁
    exact ⟨s', by rw [runFrom_cons, hstep]; exact hrun, h'⟩

/-- The driver of the white light is told what the status says in the next round. -/
theorem LightSys.Inv.told (h : s.Inv) (clock : Option Timespec) :
    ∃ lm', lightCtrlDaemon clock s.lm = some lm' ∧ s.white.status.Told (lm'.told 3) := by
  obtain ⟨lm', hdaemon, hinv, -, hreg, htells, hsteady, happlied⟩ :=
    h.tells.daemon h.inv h.mutex clock
  refine ⟨lm', hdaemon, ?_⟩
  obtain ⟨b, hb, hid⟩ := hinv.mem_registered.mp (hreg ▸ h.registered)
  have hflash : b ∉ lm'.flashLs := by
    rw [hinv.flash b hb, hid]
    rintro ⟨info, hinfo, hne⟩
    have hstatus := h.applied
    rw [happlied] at hinfo
    rw [hinfo] at hstatus
    cases hwhite : s.white.status with
    | ON =>
      rw [hwhite] at hstatus
      cases hstatus
      exact hne rfl
    | OFF =>
      rw [hwhite] at hstatus
      rcases hstatus with hstatus | hstatus
      · cases hstatus
      · cases hstatus
        exact hne rfl
  have hidle : b ∈ lm'.idleLs := by
    rw [LightMng.lights, hsteady, List.append_nil] at hb
    exact (List.mem_append.mp hb).resolve_right hflash
  have htold := htells.idle b hidle
  rw [hid, happlied] at htold
  rw [htold]
  have hstatus := h.applied
  cases hwhite : s.white.status with
  | ON =>
    rw [hwhite] at hstatus
    exact congrArg (Option.map LightInfo.value) hstatus
  | OFF =>
    rw [hwhite] at hstatus
    exact hstatus.imp (congrArg (Option.map LightInfo.value)) (congrArg (Option.map LightInfo.value))

/-- Whatever the configuration, the brightness and the time of day are in each round, whatever the coil
reports and whatever other lights are controlled, in any order: nothing waits for ever, the control that
was applied last to the white light is what its status says, and in the next round its driver is told so.
-/
theorem whiteLight_told (entry : Nat → Light Opt) (red blue white green : Opt)
    (ops : List LightSysOp) :
    ∃ lm s, boardLightInit red blue white green (lightRamInit entry) = some lm ∧
      runFrom lightSysStep { lm } ops = some s ∧ s.white.status.Applied (s.lm.applied 3) ∧
      ∀ clock, ∃ lm', lightCtrlDaemon clock s.lm = some lm' ∧ s.white.status.Told (lm'.told 3) := by
  obtain ⟨lm, hinit, h⟩ := boardLightInit_inv entry red blue white green
  obtain ⟨s, hrun, hs⟩ := h.run ops
  exact ⟨lm, s, hinit, hrun, hs.applied, hs.told⟩

end VdCamera.Dev
