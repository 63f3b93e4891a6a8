import VdCamera.Misc.JsonReader
import VdCamera.Config.VeCfg
import VdCamera.Config.Proofs.Strings

/-!
# A dump and a load
-/

namespace VdCamera.Config

open Misc

/-- The text that an undisturbed dump writes. -/
def dumped (L : JsonLibrary) (c : VeCfg) : List UInt8 :=
  indented 4 0 0 (L.print (writeNew rootEntry c).2)

/-- The texts of a configuration are printable and fit their fields. -/
structure VeCfg.Printable (c : VeCfg) : Prop where
  prov : c.global.prov.length ≤ 31 ∧ ∀ b ∈ c.global.prov, isPrintable b = true
  city : c.global.city.length ≤ 31 ∧ ∀ b ∈ c.global.city, isPrintable b = true
  content : c.dev.led.userContent.length ≤ 127 ∧ ∀ b ∈ c.dev.led.userContent, isPrintable b = true
  id : c.pfm.bitcom.id.length ≤ 31 ∧ ∀ b ∈ c.pfm.bitcom.id, isPrintable b = true

/-- None of the texts has a brace or a comma. -/
def VeCfg.Clean (c : VeCfg) : Prop :=
  (∀ b ∈ c.global.prov, isPlain b = true) ∧ (∀ b ∈ c.global.city, isPlain b = true)
    ∧ (∀ b ∈ c.dev.led.userContent, isPlain b = true) ∧ ∀ b ∈ c.pfm.bitcom.id, isPlain b = true

/-- A field of at most `n` bytes has no brace and no comma, but for one that would open or separate
something and is the last byte of a field that is full. -/
def Almost (n : Nat) (s : List UInt8) : Prop :=
  ∀ i b, s[i]? = some b → b ≠ 125 ∧ (isPlain b = true ∨ i + 1 = n)

def VeCfg.AlmostClean (c : VeCfg) : Prop :=
  Almost 31 c.global.prov ∧ Almost 31 c.global.city ∧ Almost 127 c.dev.led.userContent
    ∧ Almost 31 c.pfm.bitcom.id

/-! ## The text of a configuration -/

theorem common_clean : Common Clean where
  lbrace := trivial
  rbrace := trivial
  colon := trivial
  comma := trivial
  bool _ := trivial
  int _ _ := trivial
  name _ h := fun b hb => (h.2 b hb).1

theorem common_printable : Common Token.Printable where
  lbrace := trivial
  rbrace := trivial
  colon := trivial
  comma := trivial
  bool _ := trivial
  int _ _ := trivial
  name _ h := fun b hb => (h.2 b hb).2

theorem common_inRange : Common Token.InRange where
  lbrace := trivial
  rbrace := trivial
  colon := trivial
  comma := trivial
  bool _ := trivial
  int n h := ⟨by omega, by omega⟩
  name _ _ := trivial

theorem common_width : Common fun tk => tk.width ≤ 300 where
  lbrace := by decide
  rbrace := by decide
  colon := by decide
  comma := by decide
  bool _ := by simp [Token.width]
  int n h := by
    have hdigits : (digits n).length ≤ 5 := (length_digits_le_iff (by decide)).mpr (by omega)
    rw [Token.width, fmtInt_eq, if_neg (by omega), Int.natAbs_natCast]
    omega
  name s h := by
    have hlen := h.1
    rw [Token.width]
    omega

variable {L : JsonLibrary} {c : VeCfg}

theorem ve_printable (hr : c.InRange) (hp : c.Printable) :
    All Token.Printable (writeNew rootEntry c).2 :=
  (common_printable.ve hr).mpr ⟨hp.prov.2, hp.city.2, hp.content.2, hp.id.2⟩

theorem ve_inRange (hr : c.InRange) : All Token.InRange (writeNew rootEntry c).2 :=
  (common_inRange.ve hr).mpr ⟨trivial, trivial, trivial, trivial⟩

set_option maxRecDepth 20000 in
theorem ve_nests (c : VeCfg) : (writeNew rootEntry c).2.nests 32 = true := rfl

theorem ve_spelled (hL : L.Lawful) (hr : c.InRange) (hp : c.Printable) :
    Spelled Written Spaced (writeNew rootEntry c).2.tokens (L.print (writeNew rootEntry c).2) :=
  hL.print_spells _ (ve_nests c) (ve_inRange hr) (ve_printable hr hp)

set_option maxRecDepth 20000 in
theorem ve_tokens_length (c : VeCfg) : (writeNew rootEntry c).2.tokens.length = 145 := rfl

/-- The text fits the buffer of a dump. -/
theorem ve_fits (hL : L.Lawful) (hr : c.InRange) (hp : c.Printable) :
    (L.print (writeNew rootEntry c).2).length + 1 ≤ bufSize := by
  have hw : All (fun tk => tk.width ≤ 300) (writeNew rootEntry c).2 := by
    refine (common_width.ve hr).mpr ⟨?_, ?_, ?_, ?_⟩
    · have hlen := hp.prov.1
      simp only [Token.width]
      omega
    · have hlen := hp.city.1
      simp only [Token.width]
      omega
    · have hlen := hp.content.1
      simp only [Token.width]
      omega
    · have hlen := hp.id.1
      simp only [Token.width]
      omega
  have hle := (ve_spelled hL hr hp).length_le hw
  rw [ve_tokens_length] at hle
  have hbuf : bufSize = 1048576 := rfl
  omega

/-- White space is put in outside the literals of the text alone exactly when the texts of the
configuration are clean. -/
theorem ve_blanked_iff (hL : L.Lawful) (hr : c.InRange) (hp : c.Printable) :
    Blanked .outside (L.print (writeNew rootEntry c).2) (dumped L c) ↔ c.Clean := by
  rw [dumped, blanked_indented_iff, quiet_spelled 0 (ve_spelled hL hr hp)]
  exact common_clean.ve hr

theorem ve_head (hL : L.Lawful) (hr : c.InRange) (hp : c.Printable) :
    ∃ r, L.print (writeNew rootEntry c).2 = 123 :: r := by
  have hspelled := ve_spelled hL hr hp
  rw [ve_json hr] at hspelled ⊢
  exact hspelled.head_lbrace

/-- The indented text spells the value of the configuration with lines that end in its texts. -/
theorem dumped_spelled (hL : L.Lawful) (hr : c.InRange) (hp : c.Printable) :
    ∃ prov city content id, Spread 34 c.global.prov prov ∧ Spread 34 c.global.city city
      ∧ Spread 34 c.dev.led.userContent content ∧ Spread 34 c.pfm.bitcom.id id
      ∧ Spelled Raw White (writeNew rootEntry (c.withTexts prov city content id)).2.tokens
          (dumped L c) := by
  have hspelled := ve_spelled hL hr hp
  obtain ⟨ts', t', k', hts, ht', heq⟩ := indented_spelled 0 4 hspelled 0
  have hlast : (L.print (writeNew rootEntry c).2).getLast? = some 125 := by
    apply hspelled.getLast_rbrace
    rw [ve_json hr]
    exact Json.getLast?_tokens_obj _
  rw [List.getLastD_eq_getLast?, hlast, Option.getD_some, padding_eq_nil (by decide),
    List.append_nil] at heq
  rw [← List.append_nil (writeNew rootEntry c).2.tokens] at hts
  obtain ⟨j', us', hj, rfl, hus⟩ := exists_spreadJson _ hts
  cases hus
  obtain ⟨prov, city, content, id, hprov, hcity, hcontent, hid, rfl⟩ := ve_spread hr hj
  rw [List.append_nil] at ht'
  refine ⟨prov, city, content, id, hprov, hcity, hcontent, hid, ?_⟩
  rw [dumped, heq]
  exact ht'

/-! ## The steps of an undisturbed dump -/

/-- A dump at which nothing fails, into memory that holds `junk`; `n` bytes reach the file. -/
def calm (junk : List UInt8) (n : Nat) : List DumpEvent :=
  [.backup true, .create true, .alloc (some junk), .format none, .reach n, .close, .settle true]

/-- What the formatter does with the text of a configuration, on a stream of any room. -/
theorem format_ve (hL : L.Lawful) (hr : c.InRange) (hp : c.Printable) (buf : List UInt8)
    (f : File) :
    jsonFormatStream (veCfgWriteNew L c buf bufSize).2 4 f
      = ((if (f.put (dumped L c)).1 then ((dumped L c).length : Int) else -1),
        (f.put (dumped L c)).2) := by
  obtain ⟨r, hhead⟩ := ve_head hL hr hp
  have hbuf : (veCfgWriteNew L c buf bufSize).2 = L.print (writeNew rootEntry c).2 :=
    if_pos (ve_fits hL hr hp)
  rw [hbuf, jsonFormatStream, hhead, if_neg (by simp), ← hhead, formatLoop_eq _ (by decide),
    Nat.zero_add]
  rfl

theorem dumped_pos (hL : L.Lawful) (hr : c.InRange) (hp : c.Printable) :
    0 < (dumped L c).length := by
  obtain ⟨r, hhead⟩ := ve_head hL hr hp
  rw [dumped, hhead, indented, List.length_cons]
  exact Nat.succ_pos _

theorem calm_run (hL : L.Lawful) (hr : c.InRange) (hp : c.Printable) (disk : Disk)
    (junk : List UInt8) {n : Nat} (hn : (dumped L c).length ≤ n) :
    ∃ s, runFrom (dumpStep L) (dumpStart disk c) (calm junk n) = some s
      ∧ s.disk.profile = some (dumped L c) := by
  have hformat := format_ve hL hr hp junk ⟨[], none⟩
  have hlen : (0 : Int) < (dumped L c).length := Int.natCast_pos.mpr (dumped_pos hL hr hp)
  simp only [File.put, List.nil_append, if_true] at hformat
  refine ⟨⟨⟨some (dumped L c), none⟩, (veCfgWriteNew L c junk bufSize).1, .done 0⟩, ?_, rfl⟩
  simp only [calm, dumpStart, runFrom_cons, runFrom_nil, dumpStep, Option.bind_some, if_true,
    hformat, Option.getD_some, List.length_nil, Nat.zero_le, List.take_of_length_le hn, hlen]
  obtain ⟨_ | profile, _ | bak⟩ := disk
  · rfl
  · rfl
  · rfl
  · rfl

/-! ## A load after a dump -/

/-- After an undisturbed dump of `c` a load into any `c₀` gives the configuration back. -/
def Survives (L : JsonLibrary) (c c₀ : VeCfg) (disk : Disk) (junk : List UInt8) : Prop :=
  ∀ n s, (dumped L c).length ≤ n →
    runFrom (dumpStep L) (dumpStart disk c) (calm junk n) = some s →
    veCfgLoad L s.disk c₀ = (0, c.over c₀)

theorem survives_iff (hL : L.Lawful) (hr : c.InRange) (hp : c.Printable) (c₀ : VeCfg) (disk : Disk)
    (junk : List UInt8) :
    Survives L c c₀ disk junk ↔ veCfgReadNew L (dumped L c) c₀ = (0, c.over c₀) := by
  constructor
  · intro h
    obtain ⟨s, hrun, hprofile⟩ := calm_run hL hr hp disk junk (Nat.le_refl _)
    have hload := h _ s (Nat.le_refl _) hrun
    rw [veCfgLoad, hprofile] at hload
    exact hload
  · intro h n s hn hrun
    obtain ⟨s', hrun', hprofile⟩ := calm_run hL hr hp disk junk hn
    rw [hrun'] at hrun
    cases hrun
    rw [veCfgLoad, hprofile]
    exact h

/-- What comes back as it was had at most its last byte next to a line that ends. -/
theorem Spread.almost {p : UInt8} {s s' : List UInt8} (h : Spread p s s') {m : Nat}
    (hs : ∀ b ∈ s, isPrintable b = true) (hm : s'.take m = s) :
    (p = 123 ∨ p = 44 → m = 0) ∧ Almost m s := by
  induction h generalizing m with
  | @nil p g hg =>
    refine ⟨fun hp => ?_, fun i b hi => by simp at hi⟩
    obtain ⟨k, rfl⟩ := hg
    rw [padding, if_pos (breaks_iff.mpr (.inl hp))] at hm
    cases m with
    | zero => rfl
    | succ m => simp at hm
  | @cons p b g s s' hg hs' ih =>
    obtain ⟨k, rfl⟩ := hg
    cases m with
    | zero => simp at hm
    | succ m =>
      by_cases hb : breaks p b = true
      · -- the line feed would be a byte of the string
        rw [padding, if_pos hb, List.cons_append, List.take_succ_cons] at hm
        injection hm with hfeed
        exact absurd (hs b (List.mem_cons_self ..)) (by rw [← hfeed]; decide)
      · rw [padding_eq_nil hb, List.nil_append, List.take_succ_cons] at hm
        injection hm with _ hm
        obtain ⟨hnext, hrest⟩ := ih (fun b hb => hs b (List.mem_cons_of_mem _ hb)) hm
        rw [breaks_iff, not_or] at hb
        refine ⟨fun hp => absurd hp hb.1, fun i d hi => ?_⟩
        cases i with
        | zero =>
          cases hi
          refine ⟨hb.2, ?_⟩
          by_cases hopen : b = 123 ∨ b = 44
          · exact .inr (by rw [hnext hopen])
          · exact .inl (isPlain_iff.mpr ⟨not_or.mp hopen, hb.2⟩)
        | succ i =>
          obtain ⟨hne, hor⟩ := hrest i d hi
          refine ⟨hne, hor.imp_right fun h => ?_⟩
          omega

/-- A clean configuration is read back. -/
theorem read_dumped (hL : L.Lawful) (hr : c.InRange) (hp : c.Printable) (hc : c.Clean)
    (c₀ : VeCfg) : veCfgReadNew L (dumped L c) c₀ = (0, c.over c₀) := by
  obtain ⟨prov, city, content, id, hprov, hcity, hcontent, hid, hraw⟩ := dumped_spelled hL hr hp
  rw [hprov.eq_self rfl hc.1, hcity.eq_self rfl hc.2.1, hcontent.eq_self rfl hc.2.2.1,
    hid.eq_self rfl hc.2.2.2] at hraw
  have hparse := hL.parse_spelled _ _ (ve_nests c) (ve_inRange hr) (hraw.written (ve_printable hr hp))
  rw [veCfgReadNew, hparse]
  simp only
  rw [ve_round hr, List.take_of_length_le hp.prov.1, List.take_of_length_le hp.city.1,
    List.take_of_length_le hp.content.1, List.take_of_length_le hp.id.1]
  rfl

/-- What is read back has texts that are almost clean. -/
theorem almost_of_read (hL : L.Lawful) (hr : c.InRange) (hp : c.Printable) {c₀ : VeCfg}
    (h : veCfgReadNew L (dumped L c) c₀ = (0, c.over c₀)) : c.AlmostClean := by
  obtain ⟨prov, city, content, id, hprov, hcity, hcontent, hid, hraw⟩ := dumped_spelled hL hr hp
  have hr' := hr.withTexts prov city content id
  rcases hL.parse_raw _ _ (ve_nests _) (ve_inRange hr') hraw with hparse | hparse
  · rw [veCfgReadNew, hparse] at h
    simp only [ve_round hr', Prod.mk.injEq, true_and] at h
    have htake : ∀ {α : Type} (f : VeCfg → α), f _ = f _ := fun f => congrArg f h
    exact ⟨(hprov.almost hp.prov.2 (htake (·.global.prov))).2,
      (hcity.almost hp.city.2 (htake (·.global.city))).2,
      (hcontent.almost hp.content.2 (htake (·.dev.led.userContent))).2,
      (hid.almost hp.id.2 (htake (·.pfm.bitcom.id))).2⟩
  · rw [veCfgReadNew, hparse] at h
    exact absurd (congrArg Prod.fst h) (by simp)

/-- A configuration survives a dump and a load, with white space put in outside string literals
alone, exactly when its texts have neither braces nor commas. It does not survive when one of them
stands anywhere but at the end of a field that is full. -/
theorem survives_iff_clean (hL : L.Lawful) (hr : c.InRange) (hp : c.Printable) (c₀ : VeCfg)
    (disk : Disk) (junk : List UInt8) :
    (Survives L c c₀ disk junk
        ∧ Blanked .outside (L.print (writeNew rootEntry c).2)
          (jsonFormatStream (L.print (writeNew rootEntry c).2) 4 ⟨[], none⟩).2.data ↔ c.Clean)
      ∧ (Survives L c c₀ disk junk → c.AlmostClean) := by
  have hdata : (jsonFormatStream (L.print (writeNew rootEntry c).2) 4 ⟨[], none⟩).2.data
      = dumped L c := by
    have hformat := format_ve hL hr hp [] ⟨[], none⟩
    have hbuf : (veCfgWriteNew L c [] bufSize).2 = L.print (writeNew rootEntry c).2 :=
      if_pos (ve_fits hL hr hp)
    rw [← hbuf, hformat]
    rfl
  rw [hdata, survives_iff hL hr hp, ve_blanked_iff hL hr hp]
  exact ⟨⟨fun h => h.2, fun hc => ⟨read_dumped hL hr hp hc c₀, hc⟩⟩, almost_of_read hL hr hp⟩

/-- A configuration whose province has a comma in it. -/
def commaCfg : VeCfg where
  pfm :=
    { resendRotate := 10
      bitcom :=
        { enable := true, ftpEnable := false, mqEnable := true, httpLong := false
          servIp := ⟨192, 168, 9, 70⟩, upPort := 8088, downPort := 2015
          id := ascii "3700009099" } }
  dsp := { whiteListMatch := 1, captureMode := 0, nonMotorMode := 0 }
  dev :=
    { light := { whiteBright := 50, whiteMode := 0 }
      led :=
        { model := 0, rebootHour := 2, rebootWday := 6, lattice := 16, height := 32, width := 64
          rebootEnable := false, userContent := ascii "slow down" }
      audio := { model := 0, volume := 80 } }
  global :=
    { prov := ascii "Shandong, Qingdao", city := ascii "Qingdao", runMode := 0, veMode := 0
      detectMode := 1, rgMode := 0 }

theorem commaCfg_inRange : commaCfg.InRange where
  global := ⟨by decide, by decide, by decide⟩
  light := ⟨by decide, by decide⟩
  led := ⟨by decide, by decide, by decide⟩
  audio := ⟨by decide, by decide⟩
  dsp := ⟨by decide, by decide⟩
  bitcom := ⟨by decide, by decide⟩

theorem commaCfg_printable : commaCfg.Printable where
  prov := ⟨by decide, List.all_eq_true.mp rfl⟩
  city := ⟨by decide, List.all_eq_true.mp rfl⟩
  content := ⟨by decide, List.all_eq_true.mp rfl⟩
  id := ⟨by decide, List.all_eq_true.mp rfl⟩

theorem survives_iff_clean_comma :
    (Survives plainLibrary commaCfg commaCfg ⟨none, none⟩ []
        ∧ Blanked .outside (plainLibrary.print (writeNew rootEntry commaCfg).2)
          (jsonFormatStream (plainLibrary.print (writeNew rootEntry commaCfg).2) 4
            ⟨[], none⟩).2.data ↔ commaCfg.Clean)
      ∧ (Survives plainLibrary commaCfg commaCfg ⟨none, none⟩ [] → commaCfg.AlmostClean) :=
  survives_iff_clean plainLibrary_lawful commaCfg_inRange commaCfg_printable commaCfg ⟨none, none⟩
    []

/-- The comma of the province does not come back alone. -/
theorem comma_does_not_survive :
    plainLibrary.Lawful ∧ commaCfg.InRange ∧ commaCfg.Printable
      ∧ ¬ Survives plainLibrary commaCfg commaCfg ⟨none, none⟩ [] := by
  refine ⟨plainLibrary_lawful, commaCfg_inRange, commaCfg_printable, fun h => ?_⟩
  have hread := (survives_iff plainLibrary_lawful commaCfg_inRange commaCfg_printable commaCfg
    ⟨none, none⟩ []).mp h
  obtain ⟨-, hplain | hend⟩ :=
    (almost_of_read plainLibrary_lawful commaCfg_inRange commaCfg_printable hread).1 8 44 rfl
  · exact absurd hplain (by decide)
  · exact absurd hend (by decide)

end VdCamera.Config
