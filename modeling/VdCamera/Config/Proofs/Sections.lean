import VdCamera.Config.Sections
import VdCamera.Config.Proofs.JsonCfg

/-!
# The sections, written and read back
-/

namespace VdCamera.Config

open Misc

/-! ## The ranges that the readers accept -/

structure GlobalCfg.InRange (gc : GlobalCfg) : Prop where
  detectMode : gc.detectMode < 3
  veMode : gc.veMode < 2
  rgMode : gc.rgMode < 4

structure LightCfg.InRange (lc : LightCfg) : Prop where
  whiteBright : (lc.whiteBright.toNat : Int) ≤ 100
  whiteMode : lc.whiteMode < 3

structure LedCfg.InRange (lc : LedCfg) : Prop where
  model : lc.model < 3
  rebootWday : (lc.rebootWday.toNat : Int) ≤ 6
  rebootHour : (lc.rebootHour.toNat : Int) ≤ 23

structure AudioCfg.InRange (ac : AudioCfg) : Prop where
  model : ac.model < 2
  volume : (ac.volume.toNat : Int) ≤ 100

structure DspCfg.InRange (dc : DspCfg) : Prop where
  nonMotorMode : dc.nonMotorMode < 3
  captureMode : dc.captureMode < 2

structure PfmBitcomCfg.InRange (bc : PfmBitcomCfg) : Prop where
  upPort : bc.upPort ≠ 0
  downPort : bc.downPort ≠ 0

/-- The numbers of a configuration are in the ranges that the readers accept. -/
structure VeCfg.InRange (c : VeCfg) : Prop where
  global : c.global.InRange
  light : c.dev.light.InRange
  led : c.dev.led.InRange
  audio : c.dev.audio.InRange
  dsp : c.dsp.InRange
  bitcom : c.pfm.bitcom.InRange

/-! ## Round trips -/

theorem roundItems_cons {σ : Type} {item : JsonCfgItem σ} {tab : List (JsonCfgItem σ)} {c : σ}
    (h : (item.set c).1 = c) (c₀ : σ) :
    roundItems (item :: tab) c c₀ = roundItems tab c (item.get (item.set c).2 c₀) := by
  rw [roundItems, h]

theorem global_round {c : GlobalCfg} (h : c.InRange) (c₀ : GlobalCfg) :
    readNew globalCfgEntry (writeNew globalCfgEntry c).2 c₀
      = { c with prov := c.prov.take 31, city := c.city.take 31, runMode := c₀.runMode } := by
  rw [readNew_writeNew (by decide)]
  unfold globalCfgEntry
  rw [roundItems_cons rfl, roundItems_cons rfl, roundItems_cons rfl, roundItems_cons rfl,
    roundItems_cons rfl, enumItem_round _ (by decide) _ _ h.detectMode,
    enumItem_round _ (by decide) _ _ h.veMode, enumItem_round _ (by decide) _ _ h.rgMode]
  rfl

theorem light_kept {c : LightCfg} (h : c.InRange) : (writeNew devLightCfgEntry c).1 = c := by
  apply writeNew_kept (by decide)
  simp only [devLightCfgEntry, List.forall_mem_cons]
  exact ⟨boundedItem_kept _ _ _ _ h.whiteBright, rfl, by simp⟩

theorem light_round {c : LightCfg} (h : c.InRange) (c₀ : LightCfg) :
    readNew devLightCfgEntry (writeNew devLightCfgEntry c).2 c₀ = c := by
  rw [readNew_writeNew (by decide)]
  unfold devLightCfgEntry
  rw [roundItems_cons (boundedItem_kept _ _ _ _ h.whiteBright),
    boundedItem_round _ _ _ _ h.whiteBright, roundItems_cons rfl,
    enumItem_round _ (by decide) _ _ h.whiteMode]
  rfl

theorem led_kept {c : LedCfg} (h : c.InRange) : (writeNew devLedCfgEntry c).1 = c := by
  apply writeNew_kept (by decide)
  simp only [devLedCfgEntry, List.forall_mem_cons]
  exact ⟨rfl, rfl, boundedItem_kept _ _ _ _ h.rebootWday, boundedItem_kept _ _ _ _ h.rebootHour,
    rfl, rfl, rfl, rfl, by simp⟩

theorem led_round {c : LedCfg} (h : c.InRange) (c₀ : LedCfg) :
    readNew devLedCfgEntry (writeNew devLedCfgEntry c).2 c₀
      = { c with userContent := c.userContent.take 127 } := by
  rw [readNew_writeNew (by decide)]
  unfold devLedCfgEntry
  rw [roundItems_cons rfl, enumItem_round _ (by decide) _ _ h.model, roundItems_cons rfl,
    roundItems_cons (boundedItem_kept _ _ _ _ h.rebootWday),
    boundedItem_round _ _ _ _ h.rebootWday,
    roundItems_cons (boundedItem_kept _ _ _ _ h.rebootHour),
    boundedItem_round _ _ _ _ h.rebootHour, roundItems_cons rfl, roundItems_cons rfl,
    byteItem_round, roundItems_cons rfl, byteItem_round, roundItems_cons rfl, byteItem_round]
  rfl

theorem audio_kept {c : AudioCfg} (h : c.InRange) : (writeNew devAudioCfgEntry c).1 = c := by
  apply writeNew_kept (by decide)
  simp only [devAudioCfgEntry, List.forall_mem_cons]
  exact ⟨rfl, boundedItem_kept _ _ _ _ h.volume, by simp⟩

theorem audio_round {c : AudioCfg} (h : c.InRange) (c₀ : AudioCfg) :
    readNew devAudioCfgEntry (writeNew devAudioCfgEntry c).2 c₀ = c := by
  rw [readNew_writeNew (by decide)]
  unfold devAudioCfgEntry
  rw [roundItems_cons rfl, enumItem_round _ (by decide) _ _ h.model,
    roundItems_cons (boundedItem_kept _ _ _ _ h.volume), boundedItem_round _ _ _ _ h.volume]
  rfl

theorem dsp_round {c : DspCfg} (h : c.InRange) (c₀ : DspCfg) :
    readNew dspCfgEntry (writeNew dspCfgEntry c).2 c₀ = c := by
  rw [readNew_writeNew (by decide)]
  unfold dspCfgEntry
  rw [roundItems_cons rfl, byteItem_round, roundItems_cons rfl,
    enumItem_round _ (by decide) _ _ h.nonMotorMode, roundItems_cons rfl,
    enumItem_round _ (by decide) _ _ h.captureMode]
  rfl

theorem bitcom_round {c : PfmBitcomCfg} (h : c.InRange) (c₀ : PfmBitcomCfg) :
    readNew pfmBitcomCfgEntry (writeNew pfmBitcomCfgEntry c).2 c₀
      = { c with id := c.id.take 31, httpLong := c₀.httpLong } := by
  rw [readNew_writeNew (by decide)]
  unfold pfmBitcomCfgEntry
  rw [roundItems_cons rfl, roundItems_cons rfl, roundItems_cons rfl, roundItems_cons rfl,
    roundItems_cons rfl, addrItem_round, roundItems_cons rfl, portItem_round _ _ h.upPort,
    roundItems_cons rfl, portItem_round _ _ h.downPort]
  rfl

theorem dev_kept {c : DevCfg} (hlight : c.light.InRange) (hled : c.led.InRange)
    (haudio : c.audio.InRange) : (writeNew devCfgEntry c).1 = c := by
  apply writeNew_kept (by decide)
  simp only [devCfgEntry, List.forall_mem_cons]
  exact ⟨sectionItem_kept _ (light_kept hlight) rfl, sectionItem_kept _ (led_kept hled) rfl,
    sectionItem_kept _ (audio_kept haudio) rfl, by simp⟩

theorem dev_round {c : DevCfg} (hlight : c.light.InRange) (hled : c.led.InRange)
    (haudio : c.audio.InRange) (c₀ : DevCfg) :
    readNew devCfgEntry (writeNew devCfgEntry c).2 c₀
      = { c with led.userContent := c.led.userContent.take 127 } := by
  rw [readNew_writeNew (by decide)]
  unfold devCfgEntry
  rw [roundItems_cons (sectionItem_kept _ (light_kept hlight) rfl), sectionItem_round,
    light_round hlight, roundItems_cons (sectionItem_kept _ (led_kept hled) rfl),
    sectionItem_round, led_round hled, roundItems_cons (sectionItem_kept _ (audio_kept haudio) rfl),
    sectionItem_round, audio_round haudio]
  rfl

theorem pfm_round {c : PfmCfg} (h : c.bitcom.InRange) (c₀ : PfmCfg) :
    readNew pfmCfgEntry (writeNew pfmCfgEntry c).2 c₀
      = { c with
          bitcom.id := c.bitcom.id.take 31
          bitcom.httpLong := c₀.bitcom.httpLong } := by
  rw [readNew_writeNew (by decide)]
  unfold pfmCfgEntry
  rw [roundItems_cons rfl, byteItem_round, roundItems_cons rfl, sectionItem_round,
    bitcom_round h]
  rfl

/-! ## The whole configuration -/

/-- A configuration with other texts. -/
def VeCfg.withTexts (c : VeCfg) (prov city content id : List UInt8) : VeCfg :=
  { c with
    global.prov := prov
    global.city := city
    dev.led.userContent := content
    pfm.bitcom.id := id }

/-- What is not stored is what it was before. -/
def VeCfg.over (c c₀ : VeCfg) : VeCfg :=
  { c with
    global.runMode := c₀.global.runMode
    pfm.bitcom.httpLong := c₀.pfm.bitcom.httpLong }

/-- What the writers write, the readers read back, but for texts that do not fit their field. -/
theorem ve_round {c : VeCfg} (h : c.InRange) (c₀ : VeCfg) :
    readNew rootEntry (writeNew rootEntry c).2 c₀
      = (c.withTexts (c.global.prov.take 31) (c.global.city.take 31)
          (c.dev.led.userContent.take 127) (c.pfm.bitcom.id.take 31)).over c₀ := by
  rw [readNew_writeNew (by decide)]
  unfold rootEntry
  rw [roundItems_cons rfl, sectionItem_round, global_round h.global,
    roundItems_cons (sectionItem_kept _ (dev_kept h.light h.led h.audio) rfl), sectionItem_round,
    dev_round h.light h.led h.audio, roundItems_cons rfl, sectionItem_round, dsp_round h.dsp,
    roundItems_cons rfl, sectionItem_round, pfm_round h.bitcom]
  rfl

end VdCamera.Config
