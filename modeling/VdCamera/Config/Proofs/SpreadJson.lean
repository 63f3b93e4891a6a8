import VdCamera.Config.Proofs.FormatTokens
import VdCamera.Config.Proofs.Sections

/-!
# What the pretty printer does to a value

A value whose text is indented is the value with lines that end in some of its strings. In a value
that the writers of the configuration make, those are the four texts of the configuration.
-/

namespace VdCamera.Config

open Misc

mutual

/-- A value and the value that its indented text spells. -/
inductive SpreadJson : Json → Json → Prop
  | null : SpreadJson .null .null
  | bool (b : Bool) : SpreadJson (.bool b) (.bool b)
  | int (n : Int) : SpreadJson (.int n) (.int n)
  | str {s s' : List UInt8} (h : Spread 34 s s') : SpreadJson (.str s) (.str s')
  | obj {ms ms' : Members} (h : SpreadMembers ms ms') : SpreadJson (.obj ms) (.obj ms')

inductive SpreadMembers : Members → Members → Prop
  | nil : SpreadMembers .nil .nil
  | cons {k k' : List UInt8} {v v' : Json} {ms ms' : Members} (hk : Spread 34 k k')
      (hv : SpreadJson v v') (h : SpreadMembers ms ms') :
      SpreadMembers (.cons k v ms) (.cons k' v' ms')

end

theorem SpreadMembers.sep_eq {ms ms' : Members} (h : SpreadMembers ms ms') : ms'.sep = ms.sep := by
  cases h with
  | nil => rfl
  | cons => rfl

theorem SpreadToken.eq_self {tk tk' : Token} (h : SpreadToken tk tk') (hne : ∀ s, tk ≠ .str s) :
    tk' = tk := by
  cases h with
  | str => exact absurd rfl (hne _)
  | same => rfl

theorem forall₂_sep {ms : Members} {us ts' : List Token}
    (h : List.Forall₂ SpreadToken (ms.sep ++ us) ts') :
    ∃ us', ts' = ms.sep ++ us' ∧ List.Forall₂ SpreadToken us us' := by
  cases ms with
  | nil => exact ⟨ts', rfl, h⟩
  | cons k v ms =>
    cases h with
    | cons hx h =>
      rw [hx.eq_self (by simp)]
      exact ⟨_, rfl, h⟩

mutual

/-- Tokens that are spread from those of a value are the tokens of a spread value. -/
theorem exists_spreadJson : ∀ (j : Json) {us ts' : List Token},
    List.Forall₂ SpreadToken (j.tokens ++ us) ts' →
    ∃ j' us', SpreadJson j j' ∧ ts' = j'.tokens ++ us' ∧ List.Forall₂ SpreadToken us us'
  | .null, _, _, .cons hx h => by
    rw [hx.eq_self (by simp)]
    exact ⟨.null, _, .null, rfl, h⟩
  | .bool b, _, _, .cons hx h => by
    rw [hx.eq_self (by simp)]
    exact ⟨.bool b, _, .bool b, rfl, h⟩
  | .int n, _, _, .cons hx h => by
    rw [hx.eq_self (by simp)]
    exact ⟨.int n, _, .int n, rfl, h⟩
  | .str s, _, _, .cons hx h => by
    cases hx with
    | str hs => exact ⟨.str _, _, .str hs, rfl, h⟩
    | same hne => exact absurd rfl (hne s)
  | .obj ms, _, _, .cons hx h => by
    rw [hx.eq_self (by simp)]
    obtain ⟨ms', us', hms, rfl, hus⟩ := exists_spreadMembers ms h
    exact ⟨.obj ms', us', .obj hms, rfl, hus⟩

theorem exists_spreadMembers : ∀ (ms : Members) {us ts' : List Token},
    List.Forall₂ SpreadToken (ms.tokens ++ us) ts' →
    ∃ ms' us', SpreadMembers ms ms' ∧ ts' = ms'.tokens ++ us' ∧ List.Forall₂ SpreadToken us us'
  | .nil, _, _, .cons hx h => by
    rw [hx.eq_self (by simp)]
    exact ⟨.nil, _, .nil, rfl, h⟩
  | .cons k v ms, us, _, .cons hk (.cons hc h) => by
    rw [hc.eq_self (by simp)]
    rw [List.append_eq, List.append_assoc, List.append_assoc] at h
    obtain ⟨v', us₁, hv, rfl, h₁⟩ := exists_spreadJson v h
    obtain ⟨us₂, rfl, h₂⟩ := forall₂_sep h₁
    obtain ⟨ms', us₃, hms, rfl, h₃⟩ := exists_spreadMembers ms h₂
    cases hk with
    | str hs =>
      refine ⟨.cons _ v' ms', us₃, .cons hs hv hms, ?_, h₃⟩
      rw [Members.tokens, hms.sep_eq]
      simp
    | same hne => exact absurd rfl (hne k)

end

/-! ## Values in which no line ends -/

/-- A value that is itself when its text is indented. -/
def Still (j : Json) : Prop := ∀ j', SpreadJson j j' → j' = j

theorem still_str {s : List UInt8} (h : PlainText s) : Still (.str s) := by
  intro j' hj
  cases hj with
  | str hs => rw [hs.eq_self rfl h]

theorem still_int (n : Int) : Still (.int n) := by
  intro j' hj
  cases hj
  rfl

theorem still_bool (b : Bool) : Still (.bool b) := by
  intro j' hj
  cases hj
  rfl

/-- A member under a plain key. -/
theorem SpreadMembers.uncons {k : List UInt8} {v : Json} {ms ms' : Members}
    (h : SpreadMembers (.cons k v ms) ms') (hk : PlainText k) :
    ∃ v' ms₁, ms' = .cons k v' ms₁ ∧ SpreadJson v v' ∧ SpreadMembers ms ms₁ := by
  cases h with
  | cons hs hv h =>
    rw [hs.eq_self rfl hk]
    exact ⟨_, _, rfl, hv, h⟩

theorem SpreadMembers.uncons_still {k : List UInt8} {v : Json} {ms ms' : Members}
    (h : SpreadMembers (.cons k v ms) ms') (hk : PlainText k) (hv : Still v) :
    ∃ ms₁, ms' = .cons k v ms₁ ∧ SpreadMembers ms ms₁ := by
  obtain ⟨v', ms₁, rfl, hv', h₁⟩ := h.uncons hk
  rw [hv v' hv']
  exact ⟨ms₁, rfl, h₁⟩

/-- A member that is a string. -/
theorem SpreadMembers.uncons_str {k s : List UInt8} {ms ms' : Members}
    (h : SpreadMembers (.cons k (.str s) ms) ms') (hk : PlainText k) :
    ∃ s' ms₁, ms' = .cons k (.str s') ms₁ ∧ Spread 34 s s' ∧ SpreadMembers ms ms₁ := by
  obtain ⟨v', ms₁, rfl, hv', h₁⟩ := h.uncons hk
  cases hv' with
  | str hs => exact ⟨_, ms₁, rfl, hs, h₁⟩

/-- The members that a writer makes. -/
def members {σ : Type} : List (JsonCfgItem σ) → σ → Members
  | [], _ => .nil
  | item :: tab, c => .cons item.field (item.set c).2 (members tab (item.set c).1)

theorem writeNew_members {σ : Type} {tab : List (JsonCfgItem σ)}
    (hnd : (tab.map (·.field)).Nodup) (c : σ) : (writeNew tab c).2 = .obj (members tab c) := by
  have hsub : ∀ (part : List (JsonCfgItem σ)) (c : σ), part ⊆ tab →
      (writeMembers (jsonCfgInit tab) part c).2 = members part c := by
    intro part
    induction part with
    | nil =>
      intro c _
      rfl
    | cons item part ih =>
      intro c h
      rw [writeMembers, jsonCfgFind_init hnd (h (List.mem_cons_self ..)), members]
      simp only
      rw [ih _ fun item hm => h (List.mem_cons_of_mem _ hm)]
  exact congrArg Json.obj (hsub tab c (List.Subset.refl _))

theorem members_cons {σ : Type} {item : JsonCfgItem σ} {tab : List (JsonCfgItem σ)} {c : σ}
    (h : (item.set c).1 = c) :
    members (item :: tab) c = .cons item.field (item.set c).2 (members tab c) := by
  rw [members, h]

theorem still_members {σ : Type} {tab : List (JsonCfgItem σ)}
    (hkey : ∀ item ∈ tab, PlainText item.field)
    (hset : ∀ item ∈ tab, ∀ c, Still (item.set c).2) (c : σ) {ms' : Members}
    (h : SpreadMembers (members tab c) ms') : ms' = members tab c := by
  induction tab generalizing c ms' with
  | nil =>
    cases h
    rfl
  | cons item tab ih =>
    obtain ⟨v', ms₁, rfl, hv, h⟩ := h.uncons (hkey item (List.mem_cons_self ..))
    rw [members, hset item (List.mem_cons_self ..) c v' hv,
      ih (fun i hi => hkey i (List.mem_cons_of_mem _ hi))
        (fun i hi => hset i (List.mem_cons_of_mem _ hi)) _ h]

/-- The names of an enumeration have neither braces nor commas. -/
def PlainNames (tab : EnumStr) : Prop := ∀ p ∈ tab, PlainText p.2

instance (tab : EnumStr) : Decidable (PlainNames tab) :=
  inferInstanceAs (Decidable (∀ p ∈ tab, PlainText p.2))

theorem still_enumItem {σ : Type} (field : List UInt8) {tab : EnumStr} (ht : PlainNames tab)
    («end» dft : UInt8) {name : List UInt8} (hname : PlainText name)
    (proj : σ → UInt8) (upd : UInt8 → σ → σ) (c : σ) :
    Still ((enumItem field tab «end» dft name proj upd).set c).2 := by
  apply still_str
  cases hfind : enum2str tab (proj c).toNat with
  | none => exact hname
  | some s =>
    obtain ⟨p, hp, rfl⟩ := Option.map_eq_some_iff.mp hfind
    exact ht p (List.mem_of_find?_eq_some hp)

theorem still_addrItem {σ : Type} (field dft : List UInt8) (proj : σ → InAddr)
    (upd : InAddr → σ → σ) (c : σ) : Still ((addrItem field dft proj upd).set c).2 := by
  apply still_str
  intro b hb
  simp only [inetNtop, List.mem_append, List.mem_cons] at hb
  rcases hb with hb | rfl | hb | rfl | hb | rfl | hb
  · exact fmtInt_plain _ b hb
  · rfl
  · exact fmtInt_plain _ b hb
  · rfl
  · exact fmtInt_plain _ b hb
  · rfl
  · exact fmtInt_plain _ b hb

/-! ## The sections -/

theorem light_spread {c : LightCfg} {j' : Json}
    (h : SpreadJson (writeNew devLightCfgEntry c).2 j') :
    j' = (writeNew devLightCfgEntry c).2 := by
  rw [writeNew_members (by decide)] at h ⊢
  cases h with
  | obj h =>
    rw [still_members (by decide) _ c h]
    simp only [devLightCfgEntry, List.forall_mem_cons]
    exact ⟨fun c => still_int _,
      still_enumItem _ (by decide) _ _ (by decide) _ _, by simp⟩

theorem audio_spread {c : AudioCfg} {j' : Json}
    (h : SpreadJson (writeNew devAudioCfgEntry c).2 j') :
    j' = (writeNew devAudioCfgEntry c).2 := by
  rw [writeNew_members (by decide)] at h ⊢
  cases h with
  | obj h =>
    rw [still_members (by decide) _ c h]
    simp only [devAudioCfgEntry, List.forall_mem_cons]
    exact ⟨still_enumItem _ (by decide) _ _ (by decide) _ _, fun c => still_int _, by simp⟩

theorem dsp_spread {c : DspCfg} {j' : Json} (h : SpreadJson (writeNew dspCfgEntry c).2 j') :
    j' = (writeNew dspCfgEntry c).2 := by
  rw [writeNew_members (by decide)] at h ⊢
  cases h with
  | obj h =>
    rw [still_members (by decide) _ c h]
    simp only [dspCfgEntry, List.forall_mem_cons]
    exact ⟨fun c => still_int _, still_enumItem _ (by decide) _ _ (by decide) _ _,
      still_enumItem _ (by decide) _ _ (by decide) _ _, by simp⟩

theorem global_spread {c : GlobalCfg} {j' : Json}
    (h : SpreadJson (writeNew globalCfgEntry c).2 j') :
    ∃ prov city, Spread 34 c.prov prov ∧ Spread 34 c.city city
      ∧ j' = (writeNew globalCfgEntry { c with prov := prov, city := city }).2 := by
  rw [writeNew_members (by decide)] at h
  cases h with
  | obj h =>
    obtain ⟨prov, _, rfl, hprov, h₁⟩ := h.uncons_str (by decide)
    obtain ⟨city, _, rfl, hcity, h₂⟩ := h₁.uncons_str (by decide)
    refine ⟨prov, city, hprov, hcity, ?_⟩
    rw [writeNew_members (by decide), still_members (by decide) _ _ h₂]
    · rfl
    · simp only [List.forall_mem_cons]
      exact ⟨still_enumItem _ (by decide) _ _ (by decide) _ _,
        still_enumItem _ (by decide) _ _ (by decide) _ _,
        still_enumItem _ (by decide) _ _ (by decide) _ _, by simp⟩

/-- The members of a screen whose numbers are in their ranges. -/
theorem led_members {c : LedCfg} (hc : c.InRange) :
    members devLedCfgEntry c = .cons (ascii "model")
        (.str ((enum2str ledModelTab c.model.toNat).getD (ascii "degao")))
      (.cons (ascii "reboot_enable") (.bool c.rebootEnable)
      (.cons (ascii "reboot_wday") (.int c.rebootWday.toNat)
      (.cons (ascii "reboot_hour") (.int c.rebootHour.toNat)
      (.cons (ascii "user_content") (.str c.userContent)
      (.cons (ascii "lattice") (.int c.lattice.toNat)
      (.cons (ascii "width") (.int c.width.toNat)
      (.cons (ascii "height") (.int c.height.toNat) .nil))))))) := by
  have hwday := not_lt.mpr hc.rebootWday
  have hhour := not_lt.mpr hc.rebootHour
  unfold devLedCfgEntry
  rw [members_cons rfl, members_cons rfl, members_cons (boundedItem_kept _ _ _ _ hc.rebootWday),
    members_cons (boundedItem_kept _ _ _ _ hc.rebootHour)]
  simp only [boundedItem, if_neg hwday, if_neg hhour]
  rfl

theorem led_spread {c : LedCfg} (hc : c.InRange) {j' : Json}
    (h : SpreadJson (writeNew devLedCfgEntry c).2 j') :
    ∃ content, Spread 34 c.userContent content
      ∧ j' = (writeNew devLedCfgEntry { c with userContent := content }).2 := by
  rw [writeNew_members (by decide), led_members hc] at h
  have hmodel := still_enumItem (ascii "model") (by decide : PlainNames ledModelTab) 3 0
    (by decide : PlainText (ascii "degao")) (·.model)
    (fun v lc => { lc with model := v }) c
  cases h with
  | obj h =>
    obtain ⟨_, rfl, h₁⟩ := h.uncons_still (by decide) hmodel
    obtain ⟨_, rfl, h₂⟩ := h₁.uncons_still (by decide) (still_bool _)
    obtain ⟨_, rfl, h₃⟩ := h₂.uncons_still (by decide) (still_int _)
    obtain ⟨_, rfl, h₄⟩ := h₃.uncons_still (by decide) (still_int _)
    obtain ⟨content, _, rfl, hcontent, h₅⟩ := h₄.uncons_str (by decide)
    obtain ⟨_, rfl, h₆⟩ := h₅.uncons_still (by decide) (still_int _)
    obtain ⟨_, rfl, h₇⟩ := h₆.uncons_still (by decide) (still_int _)
    obtain ⟨_, rfl, h₈⟩ := h₇.uncons_still (by decide) (still_int _)
    cases h₈
    have hc' : ({ c with userContent := content } : LedCfg).InRange :=
      ⟨hc.model, hc.rebootWday, hc.rebootHour⟩
    refine ⟨content, hcontent, ?_⟩
    rw [writeNew_members (by decide), led_members hc']

theorem bitcom_spread {c : PfmBitcomCfg} {j' : Json}
    (h : SpreadJson (writeNew pfmBitcomCfgEntry c).2 j') :
    ∃ id, Spread 34 c.id id
      ∧ j' = (writeNew pfmBitcomCfgEntry { c with id := id }).2 := by
  rw [writeNew_members (by decide)] at h
  cases h with
  | obj h =>
    obtain ⟨id, _, rfl, hid, h₁⟩ := h.uncons_str (by decide)
    refine ⟨id, hid, ?_⟩
    rw [writeNew_members (by decide), still_members (by decide) _ _ h₁]
    · rfl
    · simp only [List.forall_mem_cons]
      exact ⟨fun c => still_bool _, fun c => still_bool _, fun c => still_bool _,
        still_addrItem _ _ _ _, fun c => still_int _, fun c => still_int _, by simp⟩

theorem dev_json {c : DevCfg} (hlight : c.light.InRange) (hled : c.led.InRange) :
    (writeNew devCfgEntry c).2 = .obj (.cons (ascii "light") (writeNew devLightCfgEntry c.light).2
      (.cons (ascii "led") (writeNew devLedCfgEntry c.led).2
      (.cons (ascii "audio") (writeNew devAudioCfgEntry c.audio).2 .nil))) := by
  rw [writeNew_members (by decide)]
  unfold devCfgEntry
  rw [members_cons (sectionItem_kept _ (light_kept hlight) rfl),
    members_cons (sectionItem_kept _ (led_kept hled) rfl)]
  rfl

theorem dev_spread {c : DevCfg} (hlight : c.light.InRange) (hled : c.led.InRange)
    {j' : Json} (h : SpreadJson (writeNew devCfgEntry c).2 j') :
    ∃ content, Spread 34 c.led.userContent content
      ∧ j' = (writeNew devCfgEntry { c with led.userContent := content }).2 := by
  rw [dev_json hlight hled] at h
  cases h with
  | obj h =>
    obtain ⟨_, _, rfl, hv₁, h₁⟩ := h.uncons (by decide)
    obtain ⟨_, _, rfl, hv₂, h₂⟩ := h₁.uncons (by decide)
    obtain ⟨_, _, rfl, hv₃, h₃⟩ := h₂.uncons (by decide)
    cases h₃
    obtain ⟨content, hcontent, rfl⟩ := led_spread hled hv₂
    have hled' : ({ c.led with userContent := content } : LedCfg).InRange :=
      ⟨hled.model, hled.rebootWday, hled.rebootHour⟩
    refine ⟨content, hcontent, ?_⟩
    rw [light_spread hv₁, audio_spread hv₃,
      dev_json (c := { c with led.userContent := content }) hlight hled']

theorem pfm_spread {c : PfmCfg} {j' : Json} (h : SpreadJson (writeNew pfmCfgEntry c).2 j') :
    ∃ id, Spread 34 c.bitcom.id id
      ∧ j' = (writeNew pfmCfgEntry { c with bitcom.id := id }).2 := by
  rw [writeNew_members (by decide)] at h
  cases h with
  | obj h =>
    obtain ⟨_, rfl, h₁⟩ := h.uncons_still (by decide) (still_int _)
    obtain ⟨_, _, rfl, hv₂, h₂⟩ := h₁.uncons (by decide)
    cases h₂
    obtain ⟨id, hid, rfl⟩ := bitcom_spread hv₂
    refine ⟨id, hid, ?_⟩
    rw [writeNew_members (by decide)]
    rfl

theorem ve_json {c : VeCfg} (h : c.InRange) :
    (writeNew rootEntry c).2 = .obj (.cons (ascii "global") (writeNew globalCfgEntry c.global).2
      (.cons (ascii "device") (writeNew devCfgEntry c.dev).2
      (.cons (ascii "dsp") (writeNew dspCfgEntry c.dsp).2
      (.cons (ascii "plateform") (writeNew pfmCfgEntry c.pfm).2 .nil)))) := by
  rw [writeNew_members (by decide)]
  unfold rootEntry
  rw [members_cons rfl, members_cons (sectionItem_kept _ (dev_kept h.light h.led h.audio) rfl)]
  rfl

/-- The texts do not matter for the ranges of the numbers. -/
theorem VeCfg.InRange.withTexts {c : VeCfg} (h : c.InRange)
    (prov city content id : List UInt8) : (c.withTexts prov city content id).InRange where
  global := ⟨h.global.detectMode, h.global.veMode, h.global.rgMode⟩
  light := h.light
  led := ⟨h.led.model, h.led.rebootWday, h.led.rebootHour⟩
  audio := h.audio
  dsp := h.dsp
  bitcom := ⟨h.bitcom.upPort, h.bitcom.downPort⟩

/-- The value that the indented text of a configuration spells is the value of the configuration
with other texts. -/
theorem ve_spread {c : VeCfg} (hc : c.InRange) {j' : Json}
    (h : SpreadJson (writeNew rootEntry c).2 j') :
    ∃ prov city content id, Spread 34 c.global.prov prov ∧ Spread 34 c.global.city city
      ∧ Spread 34 c.dev.led.userContent content ∧ Spread 34 c.pfm.bitcom.id id
      ∧ j' = (writeNew rootEntry (c.withTexts prov city content id)).2 := by
  rw [ve_json hc] at h
  cases h with
  | obj h =>
    obtain ⟨_, _, rfl, hv₁, h₁⟩ := h.uncons (by decide)
    obtain ⟨_, _, rfl, hv₂, h₂⟩ := h₁.uncons (by decide)
    obtain ⟨_, _, rfl, hv₃, h₃⟩ := h₂.uncons (by decide)
    obtain ⟨_, _, rfl, hv₄, h₄⟩ := h₃.uncons (by decide)
    cases h₄
    obtain ⟨prov, city, hprov, hcity, rfl⟩ := global_spread hv₁
    obtain ⟨content, hcontent, rfl⟩ := dev_spread hc.light hc.led hv₂
    obtain ⟨id, hid, rfl⟩ := pfm_spread hv₄
    refine ⟨prov, city, content, id, hprov, hcity, hcontent, hid, ?_⟩
    rw [dsp_spread hv₃, ve_json (hc.withTexts prov city content id)]
    rfl

end VdCamera.Config
