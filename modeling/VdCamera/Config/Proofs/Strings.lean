import VdCamera.Config.Proofs.SpreadJson

/-!
# The tokens of a configuration

Of all the tokens that the writers make, four are strings that somebody has entered. What holds of
every token is what holds of those four.
-/

namespace VdCamera.Config

open Misc

/-- A string that is a key, a name of an enumeration or an address. -/
def IsName (s : List UInt8) : Prop :=
  s.length ≤ 20 ∧ ∀ b ∈ s, isPlain b = true ∧ isPrintable b = true

instance (s : List UInt8) : Decidable (IsName s) :=
  decidable_of_iff (s.length ≤ 20 ∧ (s.all fun b => isPlain b = true ∧ isPrintable b = true) = true)
    (and_congr_right' List.all_iff_forall_prop)

/-- What holds of the tokens that do not depend on the texts. -/
structure Common (P : Token → Prop) : Prop where
  lbrace : P .lbrace
  rbrace : P .rbrace
  colon : P .colon
  comma : P .comma
  bool : ∀ b, P (.bool b)
  int : ∀ n : Nat, n < 2 ^ 16 → P (.int n)
  name : ∀ s, IsName s → P (.str s)

/-- Every token of a value. -/
def All (P : Token → Prop) (j : Json) : Prop := ∀ tk ∈ j.tokens, P tk

def AllMembers (P : Token → Prop) (ms : Members) : Prop := ∀ tk ∈ ms.tokens, P tk

variable {P : Token → Prop}

theorem all_str {s : List UInt8} : All P (.str s) ↔ P (.str s) := by
  simp [All, Json.tokens]

section

variable (hP : Common P)
include hP

theorem Common.all_obj {ms : Members} : All P (.obj ms) ↔ AllMembers P ms := by
  simp [All, AllMembers, Json.tokens, hP.lbrace]

theorem Common.all_nil : AllMembers P .nil := by
  simp [AllMembers, Members.tokens, hP.rbrace]

theorem Common.all_cons {k : List UInt8} (hk : IsName k) {v : Json} {ms : Members} :
    AllMembers P (.cons k v ms) ↔ All P v ∧ AllMembers P ms := by
  have hsep : ∀ tk ∈ ms.sep, P tk := by
    cases ms with
    | nil => simp [Members.sep]
    | cons => simpa [Members.sep] using hP.comma
  simp only [AllMembers, All, Members.tokens, List.forall_mem_cons, List.forall_mem_append]
  exact ⟨fun h => ⟨h.2.2.1, h.2.2.2.2⟩, fun h => ⟨hP.name k hk, hP.colon, h.1, hsep, h.2⟩⟩

theorem Common.all_byte (b : UInt8) : All P (.int b.toNat) := by
  intro tk htk
  rw [List.mem_singleton.mp htk]
  exact hP.int _ (Nat.lt_trans b.toNat_lt (by decide))

theorem Common.all_port (w : UInt16) : All P (.int w.toNat) := by
  intro tk htk
  rw [List.mem_singleton.mp htk]
  exact hP.int _ w.toNat_lt

theorem Common.all_bool (b : Bool) : All P (.bool b) := by
  intro tk htk
  rw [List.mem_singleton.mp htk]
  exact hP.bool b

theorem Common.all_enum {tab : EnumStr} (ht : ∀ p ∈ tab, IsName p.2) {name : List UInt8}
    (hname : IsName name) (e : Int) : All P (.str ((enum2str tab e).getD name)) := by
  rw [all_str]
  apply hP.name
  cases hfind : enum2str tab e with
  | none => exact hname
  | some s =>
    obtain ⟨p, hp, rfl⟩ := Option.map_eq_some_iff.mp hfind
    exact ht p (List.mem_of_find?_eq_some hp)

theorem Common.all_addr (ip : InAddr) : All P (.str (inetNtop ip)) := by
  have hpart : ∀ n : Fin 256, (fmtInt (n : Nat)).length ≤ 3
      ∧ ((fmtInt (n : Nat)).all fun b => isPlain b = true ∧ isPrintable b = true) = true := by
    decide +kernel
  have hbyte : ∀ b : UInt8, (fmtInt b.toNat).length ≤ 3
      ∧ ∀ c ∈ fmtInt b.toNat, isPlain c = true ∧ isPrintable c = true :=
    fun b => (hpart ⟨b.toNat, b.toNat_lt⟩).imp_right List.all_iff_forall_prop.mp
  have hdot : isPlain 46 = true ∧ isPrintable 46 = true := by decide
  rw [all_str]
  apply hP.name
  constructor
  · simp only [inetNtop, List.length_append, List.length_cons]
    have ha := (hbyte ip.a).1
    have hb := (hbyte ip.b).1
    have hc := (hbyte ip.c).1
    have hd := (hbyte ip.d).1
    omega
  · simp only [inetNtop, List.forall_mem_append, List.forall_mem_cons]
    exact ⟨(hbyte ip.a).2, hdot, (hbyte ip.b).2, hdot, (hbyte ip.c).2, hdot, (hbyte ip.d).2⟩

/-! ## The sections -/

theorem Common.light {c : LightCfg} (hc : c.InRange) : All P (writeNew devLightCfgEntry c).2 := by
  have hbright := not_lt.mpr hc.whiteBright
  rw [writeNew_members (by decide), hP.all_obj]
  unfold devLightCfgEntry
  rw [members_cons (boundedItem_kept _ _ _ _ hc.whiteBright), hP.all_cons (by decide),
    members_cons rfl, hP.all_cons (by decide)]
  simp only [boundedItem, if_neg hbright]
  exact ⟨hP.all_byte _, hP.all_enum (by decide) (by decide) _, hP.all_nil⟩

theorem Common.audio {c : AudioCfg} (hc : c.InRange) : All P (writeNew devAudioCfgEntry c).2 := by
  have hvolume := not_lt.mpr hc.volume
  rw [writeNew_members (by decide), hP.all_obj]
  unfold devAudioCfgEntry
  rw [members_cons rfl, hP.all_cons (by decide),
    members_cons (boundedItem_kept _ _ _ _ hc.volume), hP.all_cons (by decide)]
  simp only [boundedItem, if_neg hvolume]
  exact ⟨hP.all_enum (by decide) (by decide) _, hP.all_byte _, hP.all_nil⟩

theorem Common.dsp (c : DspCfg) : All P (writeNew dspCfgEntry c).2 := by
  rw [writeNew_members (by decide), hP.all_obj]
  unfold dspCfgEntry
  rw [members_cons rfl, hP.all_cons (by decide), members_cons rfl, hP.all_cons (by decide),
    members_cons rfl, hP.all_cons (by decide)]
  exact ⟨hP.all_byte _, hP.all_enum (by decide) (by decide) _,
    hP.all_enum (by decide) (by decide) _, hP.all_nil⟩

theorem Common.global (c : GlobalCfg) :
    All P (writeNew globalCfgEntry c).2 ↔ P (.str c.prov) ∧ P (.str c.city) := by
  rw [writeNew_members (by decide), hP.all_obj]
  unfold globalCfgEntry
  rw [members_cons rfl, hP.all_cons (by decide), members_cons rfl, hP.all_cons (by decide),
    members_cons rfl, hP.all_cons (by decide), members_cons rfl, hP.all_cons (by decide),
    members_cons rfl, hP.all_cons (by decide)]
  constructor
  · rintro ⟨hprov, hcity, -⟩
    exact ⟨all_str.mp hprov, all_str.mp hcity⟩
  · rintro ⟨hprov, hcity⟩
    exact ⟨all_str.mpr hprov, all_str.mpr hcity, hP.all_enum (by decide) (by decide) _,
      hP.all_enum (by decide) (by decide) _, hP.all_enum (by decide) (by decide) _, hP.all_nil⟩

theorem Common.led {c : LedCfg} (hc : c.InRange) :
    All P (writeNew devLedCfgEntry c).2 ↔ P (.str c.userContent) := by
  rw [writeNew_members (by decide), hP.all_obj, led_members hc, hP.all_cons (by decide),
    hP.all_cons (by decide), hP.all_cons (by decide), hP.all_cons (by decide),
    hP.all_cons (by decide), hP.all_cons (by decide), hP.all_cons (by decide),
    hP.all_cons (by decide)]
  constructor
  · rintro ⟨-, -, -, -, hcontent, -⟩
    exact all_str.mp hcontent
  · intro hcontent
    exact ⟨hP.all_enum (by decide) (by decide) _, hP.all_bool _, hP.all_byte _, hP.all_byte _,
      all_str.mpr hcontent, hP.all_byte _, hP.all_byte _, hP.all_byte _, hP.all_nil⟩

theorem Common.bitcom (c : PfmBitcomCfg) :
    All P (writeNew pfmBitcomCfgEntry c).2 ↔ P (.str c.id) := by
  rw [writeNew_members (by decide), hP.all_obj]
  unfold pfmBitcomCfgEntry
  rw [members_cons rfl, hP.all_cons (by decide), members_cons rfl, hP.all_cons (by decide),
    members_cons rfl, hP.all_cons (by decide), members_cons rfl, hP.all_cons (by decide),
    members_cons rfl, hP.all_cons (by decide), members_cons rfl, hP.all_cons (by decide),
    members_cons rfl, hP.all_cons (by decide)]
  constructor
  · rintro ⟨hid, -⟩
    exact all_str.mp hid
  · intro hid
    exact ⟨all_str.mpr hid, hP.all_bool _, hP.all_bool _, hP.all_bool _, hP.all_addr _,
      hP.all_port _, hP.all_port _, hP.all_nil⟩

/-- What the tokens of a configuration have in common is what its four texts have. -/
theorem Common.ve {c : VeCfg} (hc : c.InRange) :
    All P (writeNew rootEntry c).2 ↔ P (.str c.global.prov) ∧ P (.str c.global.city)
      ∧ P (.str c.dev.led.userContent) ∧ P (.str c.pfm.bitcom.id) := by
  have hdev : All P (writeNew devCfgEntry c.dev).2 ↔ P (.str c.dev.led.userContent) := by
    rw [dev_json hc.light hc.led, hP.all_obj, hP.all_cons (by decide), hP.all_cons (by decide),
      hP.all_cons (by decide), hP.led hc.led]
    exact ⟨fun h => h.2.1, fun h => ⟨hP.light hc.light, h, hP.audio hc.audio, hP.all_nil⟩⟩
  have hpfm : All P (writeNew pfmCfgEntry c.pfm).2 ↔ P (.str c.pfm.bitcom.id) := by
    rw [writeNew_members (by decide), hP.all_obj]
    unfold pfmCfgEntry
    rw [members_cons rfl, hP.all_cons (by decide), members_cons rfl, hP.all_cons (by decide)]
    simp only [sectionItem]
    rw [hP.bitcom]
    exact ⟨fun h => h.2.1, fun h => ⟨hP.all_byte _, h, hP.all_nil⟩⟩
  rw [ve_json hc, hP.all_obj, hP.all_cons (by decide), hP.all_cons (by decide),
    hP.all_cons (by decide), hP.all_cons (by decide), hP.global, hdev, hpfm]
  constructor
  · rintro ⟨⟨hprov, hcity⟩, hcontent, -, hid, -⟩
    exact ⟨hprov, hcity, hcontent, hid⟩
  · rintro ⟨hprov, hcity, hcontent, hid⟩
    exact ⟨⟨hprov, hcity⟩, hcontent, hP.dsp _, hid, hP.all_nil⟩

end

end VdCamera.Config
