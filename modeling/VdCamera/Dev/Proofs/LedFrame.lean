import VdCamera.Dev.LedFrame
import VdCamera.Dev.Proofs.LedAsk
import VdCamera.Misc.Memory

/-!
# When a frame for the A4 card is consistent

A region that does not fit is reported as -1 in a variable without a sign, so the frame is built
without it. A frame parses back exactly when everything fits into the buffer.
-/

namespace VdCamera.Dev

open Misc

/-! ## Parsing a frame back -/

/-- The texts of `n` regions from a place on, and the sum of their lengths. -/
def regionTexts (mem : Nat → UInt8) : Nat → Nat → Option (List (List UInt8) × Nat)
  | 0, _ => some ([], 0)
  | n + 1, p =>
    let len := numAt 4 mem (p + 1)
    let textLen := numAt 4 mem (p + 22)
    if len = 26 + textLen then
      (regionTexts mem n (p + len)).map fun (texts, size) =>
        ((Peek.contents textLen (p + 26)).value mem :: texts, len + size)
    else none

/-- The texts that a frame of `len` bytes shows; `none` when it is not consistent. -/
def parseReqFrm (mem : Nat → UInt8) (len : Nat) : Option (List (List UInt8)) :=
  let dispLen := numAt 4 mem 14
  let showLen := numAt 4 mem 51
  if (Peek.contents 4 0).value mem = askSof ∧ numAt 2 mem 18 = dispLen ∧ len = 20 + dispLen + 4
      ∧ (Peek.contents 4 (20 + dispLen)).value mem = askEof
      ∧ mem 41 = 1 ∧ dispLen = 30 + showLen then
    match regionTexts mem (mem 55).toNat 75 with
    | some (texts, size) => if showLen = 25 + size then some texts else none
    | none => none
  else none

/-- `make_req_frm` returns; the mutex is free, nothing behind the buffer has changed, and unless it
returns -1 the frame fits into the buffer and shows the kept lines. -/
def Consistent (asserts : Bool) (led : ListenLedCfg) (mem : Nat → UInt8) (bufsz : UInt32)
    (screen : List ScreenLine) (bufs : LinesBuf) : Prop :=
  ∃ ret out, makeReqFrm asserts led mem bufsz screen bufs = .ok (ret, out) ∧ out.locked = false
    ∧ (∀ a, bufsz.toNat ≤ a → out.mem a = mem a)
    ∧ (ret = -1 ∨ 0 ≤ ret ∧ ret ≤ bufsz.toNat ∧
      parseReqFrm out.mem ret.toNat = some ((led.rows out.lines).map (·.line.text)))

/-! ## The lines that are shown -/

/-- The line of the screen that a row of it takes last. -/
def lastLine (screen : List ScreenLine) (i : Fin A4_LED_LINES_NUM) : Option ScreenLine :=
  (screen.filter (·.idx.toNat = i.val)).getLast?

/-- The text that a row shows: the one that the screen gives it, or the one that it has. -/
def rowText (screen : List ScreenLine) (bufs : LinesBuf) (i : Fin A4_LED_LINES_NUM) : List UInt8 :=
  match lastLine screen i with
  | some line => (cleared line).text
  | none => (bufs i).line.text

def ListenLedCfg.rowIdxs (led : ListenLedCfg) : List (Fin A4_LED_LINES_NUM) :=
  (List.finRange A4_LED_LINES_NUM).take led.nrRow

/-- The size of the frame: the headers, the tail and the regions of the rows. -/
def frameSize (led : ListenLedCfg) (screen : List ScreenLine) (bufs : LinesBuf) : Nat :=
  20 + 30 + 25 + (led.rowIdxs.map fun i => 26 + (rowText screen bufs i).length).sum + 4

/-- What `make_show` divides by and what it asserts. -/
def Supported (asserts : Bool) (led : ListenLedCfg) : Prop :=
  2 ≤ led.lattice ∧ (asserts = true → led.lattice = 16 ∨ led.high < led.lattice)

/-! ## Reading the fields -/

section Region

variable {asserts : Bool} {led : ListenLedCfg} {mem mem' : Nat → UInt8} {p sd n w : Nat}
  {remain : UInt32} {buf : LineBuf} {bufs : List LineBuf} {s s' : ShowState} {r : RegionData}

theorem numAt_of_holds (h : Holds mem p (leBytes w n)) (hn : n < 256 ^ w) : numAt w mem p = n := by
  have hvalue := h.value_contents
  rw [length_leBytes] at hvalue
  rw [numAt, readNum, Peek.value_bind, Peek.value_pure, hvalue, leNat_leBytes hn]

theorem numAt_congr (h : ∀ j, p ≤ j → j < p + w → mem' j = mem j) :
    numAt w mem' p = numAt w mem p := by
  rw [numAt, numAt, readNum, Peek.value_bind, Peek.value_bind, Peek.value_pure, Peek.value_pure,
    Peek.value_contents_congr h]

theorem leNat_lt (bs : List UInt8) : leNat bs < 256 ^ bs.length := by
  induction bs with
  | nil => exact Nat.one_pos
  | cons b bs ih =>
    have hb := b.toNat_lt
    rw [leNat, List.length_cons, Nat.pow_succ]
    omega

theorem numAt_lt : numAt w mem p < 256 ^ w := by
  rw [numAt, readNum, Peek.value_bind, Peek.value_pure]
  have h := leNat_lt ((Peek.contents w p).value mem)
  rwa [Peek.length_contents] at h

/-! ## One region -/

/-- The length of a region. -/
def regionLen (text : List UInt8) : Nat := 26 + text.length

/-- A region stands at a place. -/
structure RegionAt (mem : Nat → UInt8) (p : Nat) (text : List UInt8) : Prop where
  len : numAt 4 mem (p + 1) = regionLen text
  textLen : numAt 4 mem (p + 22) = text.length
  text : (Peek.contents text.length (p + 26)).value mem = text

theorem RegionAt.congr {text : List UInt8} (h : RegionAt mem p text)
    (heq : ∀ j, p ≤ j → j < p + regionLen text → mem' j = mem j) : RegionAt mem' p text := by
  unfold regionLen at heq
  refine ⟨(numAt_congr fun j hj hlt => heq j (by omega) (by omega)).trans h.len,
    (numAt_congr fun j hj hlt => heq j (by omega) (by omega)).trans h.textLen, ?_⟩
  rw [Peek.value_contents_congr fun j hj hlt => heq j (by omega) (by omega)]
  exact h.text

theorem length_regionHead (r : RegionData) (type color : UInt8) :
    (regionHead r type color).length = 15 := by
  simp [regionHead]

theorem length_regionTail (r : RegionData) : (regionTail r).length = 9 + r.text.length := by
  simp [regionTail]
  omega

/-- The memory after a region that fits. -/
def regionWritten (mem : Nat → UInt8) (p : Nat) (r : RegionData) : Nat → UInt8 :=
  let mem := overwrite mem (p + 22) (leBytes 4 r.text.length)
  let mem := overwrite mem (p + 1) (leBytes 4 (26 + r.text.length))
  let mem := overwrite mem p (regionHead r (mem p) (mem (p + 14)))
  overwrite mem (p + 17) (regionTail r)

theorem regionWritten_outside {a : Nat} (h : a < p ∨ p + regionLen r.text ≤ a) :
    regionWritten mem p r a = mem a := by
  unfold regionLen at h
  rcases h with h | h
  · rw [regionWritten, overwrite_of_lt (by omega), overwrite_of_lt (by omega),
      overwrite_of_lt (by omega), overwrite_of_lt (by omega)]
  · rw [regionWritten, overwrite_of_le (by rw [length_regionTail]; omega),
      overwrite_of_le (by rw [length_regionHead]; omega),
      overwrite_of_le (by rw [length_leBytes]; omega),
      overwrite_of_le (by rw [length_leBytes]; omega)]

theorem regionAt_written (h : r.text.length < LED_TEXT_MAX_LEN) :
    RegionAt (regionWritten mem p r) p r.text := by
  have hlen : r.text.length < 1024 := h
  have htail : Holds (regionWritten mem p r) (p + 17) (regionTail r) := holds_overwrite
  have hhead : Holds (regionWritten mem p r) p
      (regionHead r (overwrite (overwrite mem (p + 22) (leBytes 4 r.text.length)) (p + 1)
        (leBytes 4 (26 + r.text.length)) p) (overwrite (overwrite mem (p + 22)
        (leBytes 4 r.text.length)) (p + 1) (leBytes 4 (26 + r.text.length)) (p + 14))) :=
    holds_overwrite.overwrite (.inl (by rw [length_regionHead]; omega))
  rw [regionTail, Holds.append] at htail
  obtain ⟨hlens, htext⟩ := htail
  refine ⟨numAt_of_holds (Holds.append.mp hhead.2).1 (by rw [regionLen]; omega), ?_, ?_⟩
  · exact numAt_of_holds (Holds.append.mp hlens.2.2).2.2 (by omega)
  · have hplace : p + 17 + (r.inStyle :: r.speed ::
        (leBytes 2 r.duration ++ r.lattice :: leBytes 4 r.text.length)).length = p + 26 := by
      simp
    rw [hplace] at htext
    exact htext.value_contents

theorem makeRegion_fits (hlat : asserts = true → led.lattice = 16)
    (hfit : regionLen buf.line.text ≤ remain.toNat) :
    makeRegion asserts led mem p remain buf = .ok ((regionLen buf.line.text : Nat),
      regionWritten mem p (regionData led buf), some (regionData led buf)) := by
  have hassert : ¬ (asserts && decide (led.lattice ≠ 16)) = true := by
    simpa using hlat
  have hroom : ¬ 26 + (regionData led buf).text.length > remain.toNat := Nat.not_lt.mpr hfit
  rw [makeRegion, if_neg hassert]
  dsimp only
  rw [if_neg hroom]
  rfl

/-- The lengths of a region that does not fit are written all the same. -/
theorem makeRegion_tight (mem : Nat → UInt8) (p : Nat) (hlat : asserts = true → led.lattice = 16)
    (htight : remain.toNat < regionLen buf.line.text) :
    ∃ mem', makeRegion asserts led mem p remain buf = .ok (-1, mem', none)
      ∧ ∀ a ≤ p, mem' a = mem a := by
  have hassert : ¬ (asserts && decide (led.lattice ≠ 16)) = true := by
    simpa using hlat
  have hroom : 26 + (regionData led buf).text.length > remain.toNat := htight
  rw [makeRegion, if_neg hassert]
  dsimp only
  rw [if_pos hroom]
  refine ⟨_, rfl, fun a ha => ?_⟩
  rw [overwrite_of_lt (by omega), overwrite_of_lt (by omega)]

theorem regionLen_lt (buf : LineBuf) : regionLen buf.line.text < 1050 := by
  have h : buf.line.text.length < 1024 := buf.line.fits
  unfold regionLen
  omega

theorem addRegion_of_makeRegion (sd : Nat) {ret : Int} {made : Option RegionData}
    (h : makeRegion asserts led s.mem s.p.toNat s.remain buf = .ok (ret, mem', made))
    (hne : UInt32.ofInt ret ≠ 0) :
    addRegion asserts led sd buf s = .ok (true, {
      mem := overwrite mem' (sd + 1)
        (leBytes 4 ((numAt 4 mem' (sd + 1) + (UInt32.ofInt ret).toNat) % 2 ^ 32))
      p := s.p + UInt32.ofInt ret
      remain := s.remain - UInt32.ofInt ret
      regions := s.regions ++ made.toList }) := by
  rw [addRegion, h]
  exact if_neg (by simpa using hne)

/-- What a round of the loop does with a region that fits. -/
structure Added (led : ListenLedCfg) (sd : Nat) (buf : LineBuf) (s s' : ShowState) : Prop where
  p : s'.p.toNat = s.p.toNat + regionLen buf.line.text
  remain : s'.remain.toNat = s.remain.toNat - regionLen buf.line.text
  regions : s'.regions = s.regions ++ [regionData led buf]
  showLen : numAt 4 s'.mem (sd + 1) = numAt 4 s.mem (sd + 1) + regionLen buf.line.text
  region : RegionAt s'.mem s.p.toNat buf.line.text
  outside : ∀ a, a < sd + 1 ∨ sd + 5 ≤ a → a < s.p.toNat ∨ s'.p.toNat ≤ a → s'.mem a = s.mem a

theorem addRegion_fits (sd : Nat) (buf : LineBuf) (hlat : asserts = true → led.lattice = 16)
    (hfit : regionLen buf.line.text ≤ s.remain.toNat) (hbehind : sd + 5 ≤ s.p.toNat)
    (hp : s.p.toNat + regionLen buf.line.text < 2 ^ 32)
    (hlen : numAt 4 s.mem (sd + 1) + regionLen buf.line.text < 2 ^ 32) :
    ∃ s', addRegion asserts led sd buf s = .ok (true, s') ∧ Added led sd buf s s' := by
  have hlt := regionLen_lt buf
  have hpos : 0 < regionLen buf.line.text := by
    unfold regionLen
    omega
  have hof : (UInt32.ofInt (regionLen buf.line.text : Nat)).toNat = regionLen buf.line.text := by
    rw [UInt32.ofInt, UInt32.toNat_ofNat']
    omega
  have hne : UInt32.ofInt (regionLen buf.line.text : Nat) ≠ 0 := by
    intro h
    rw [h] at hof
    exact absurd hof (Nat.ne_of_lt hpos)
  have hadd := addRegion_of_makeRegion (s := s) sd (makeRegion_fits hlat hfit) hne
  rw [hof] at hadd
  have hkept : numAt 4 (regionWritten s.mem s.p.toNat (regionData led buf)) (sd + 1)
      = numAt 4 s.mem (sd + 1) :=
    numAt_congr fun j _ hj => regionWritten_outside (.inl (by omega))
  rw [hkept, Nat.mod_eq_of_lt hlen] at hadd
  refine ⟨_, hadd, ?_, ?_, rfl, ?_, ?_, ?_⟩
  · show (s.p + UInt32.ofInt _).toNat = _
    rw [UInt32.toNat_add, hof, Nat.mod_eq_of_lt hp]
  · show (s.remain - UInt32.ofInt _).toNat = _
    rw [UInt32.toNat_sub_of_le _ _ (by rw [UInt32.le_iff_toNat_le, hof]; exact hfit), hof]
  · exact numAt_of_holds holds_overwrite hlen
  · refine (regionAt_written buf.line.fits).congr fun j hj _ => overwrite_of_le ?_
    rw [length_leBytes]
    omega
  · intro a hsd hreg
    have hp' : (s.p + UInt32.ofInt (regionLen buf.line.text : Nat)).toNat
        = s.p.toNat + regionLen buf.line.text := by
      rw [UInt32.toNat_add, hof, Nat.mod_eq_of_lt hp]
    dsimp only at hreg ⊢
    rw [hp'] at hreg
    have hover : overwrite (regionWritten s.mem s.p.toNat (regionData led buf)) (sd + 1)
        (leBytes 4 (numAt 4 s.mem (sd + 1) + regionLen buf.line.text)) a
        = regionWritten s.mem s.p.toNat (regionData led buf) a := by
      rcases hsd with hsd | hsd
      · exact overwrite_of_lt hsd
      · exact overwrite_of_le (by rw [length_leBytes]; omega)
    rw [hover]
    exact regionWritten_outside hreg

/-- A region that does not fit takes one from the length and the place. -/
theorem addRegion_tight (sd : Nat) (hlat : asserts = true → led.lattice = 16)
    (htight : s.remain.toNat < regionLen buf.line.text) (hbehind : sd + 5 < s.p.toNat)
    (hlen : 0 < numAt 4 s.mem (sd + 1)) :
    ∃ s', addRegion asserts led sd buf s = .ok (true, s') ∧ s'.p.toNat = s.p.toNat - 1
      ∧ s'.remain.toNat = s.remain.toNat + 1 ∧ s'.regions = s.regions
      ∧ numAt 4 s'.mem (sd + 1) = numAt 4 s.mem (sd + 1) - 1 := by
  have hlt := regionLen_lt buf
  have hof : (UInt32.ofInt (-1)).toNat = 2 ^ 32 - 1 := rfl
  obtain ⟨mem', hmake, hkept⟩ := makeRegion_tight s.mem s.p.toNat hlat htight
  have hadd := addRegion_of_makeRegion sd hmake (by decide)
  have hnum : numAt 4 mem' (sd + 1) = numAt 4 s.mem (sd + 1) :=
    numAt_congr fun j _ hj => hkept j (by omega)
  have hbyte : numAt 4 s.mem (sd + 1) < 2 ^ 32 := numAt_lt
  rw [hnum, hof] at hadd
  have hmod : (numAt 4 s.mem (sd + 1) + (2 ^ 32 - 1)) % 2 ^ 32 = numAt 4 s.mem (sd + 1) - 1 := by
    omega
  rw [hmod] at hadd
  refine ⟨_, hadd, ?_, ?_, ?_, numAt_of_holds holds_overwrite (by omega)⟩
  · show (s.p + UInt32.ofInt (-1)).toNat = _
    have := s.p.toNat_lt
    rw [UInt32.toNat_add, hof]
    omega
  · show (s.remain - UInt32.ofInt (-1)).toNat = _
    have := s.remain.toNat_lt
    rw [UInt32.toNat_sub, hof]
    omega
  · show s.regions ++ [] = _
    rw [List.append_nil]

/-! ## The loop over the rows -/

/-- The sizes of the regions together. -/
def regionsLen (bufs : List LineBuf) : Nat := (bufs.map fun buf => regionLen buf.line.text).sum

theorem regionsLen_cons : regionsLen (buf :: bufs) = regionLen buf.line.text + regionsLen bufs := by
  simp [regionsLen]

/-- The rows whose regions fit into what is left: one that does not fit leaves a byte more. -/
def rowsMade {α : Type} (text : α → List UInt8) : Nat → List α → List α
  | _, [] => []
  | room, row :: rows =>
    if regionLen (text row) ≤ room then
      row :: rowsMade text (room - regionLen (text row)) rows
    else rowsMade text (room + 1) rows

theorem addRegions_ok (sd : Nat) (hlat : bufs ≠ [] → asserts = true → led.lattice = 16)
    (hbehind : sd + 5 + bufs.length ≤ s.p.toNat) (hp : s.p.toNat + regionsLen bufs < 2 ^ 32)
    (hpos : bufs.length ≤ numAt 4 s.mem (sd + 1))
    (hlen : numAt 4 s.mem (sd + 1) + regionsLen bufs < 2 ^ 32) :
    ∃ s', addRegions asserts led sd bufs s = .ok (true, s')
      ∧ numAt 4 s.mem (sd + 1) ≤ numAt 4 s'.mem (sd + 1) + bufs.length
      ∧ numAt 4 s'.mem (sd + 1) ≤ numAt 4 s.mem (sd + 1) + regionsLen bufs
      ∧ s'.regions = s.regions
        ++ (rowsMade (·.line.text) s.remain.toNat bufs).map (regionData led) := by
  induction bufs generalizing s with
  | nil => exact ⟨s, rfl, by simp, by simp [regionsLen], by simp [rowsMade]⟩
  | cons buf bufs ih =>
    rw [regionsLen_cons] at hp hlen
    rw [List.length_cons] at hbehind hpos
    by_cases hfit : regionLen buf.line.text ≤ s.remain.toNat
    · obtain ⟨s₁, hadd, h⟩ := addRegion_fits sd buf (hlat (List.cons_ne_nil _ _)) hfit
        (by omega) (by omega) (by omega)
      obtain ⟨s', hrest, hlow, hhigh, hregions⟩ := ih (s := s₁)
        (fun _ => hlat (List.cons_ne_nil _ _)) (by rw [h.p]; omega)
        (by rw [h.p]; omega) (by rw [h.showLen]; omega) (by rw [h.showLen]; omega)
      refine ⟨s', by rw [addRegions, hadd]; exact hrest, ?_, ?_, ?_⟩
      · rw [h.showLen] at hlow
        rw [List.length_cons]
        omega
      · rw [h.showLen] at hhigh
        rw [regionsLen_cons]
        omega
      · rw [hregions, h.regions, h.remain, rowsMade, if_pos hfit, List.map_cons, List.append_assoc]
        rfl
    · obtain ⟨s₁, hadd, hp₁, hremain, hmade, hshow⟩ := addRegion_tight sd
        (hlat (List.cons_ne_nil _ _)) (Nat.not_le.mp hfit) (by omega) (by omega)
      obtain ⟨s', hrest, hlow, hhigh, hregions⟩ := ih (s := s₁)
        (fun _ => hlat (List.cons_ne_nil _ _)) (by rw [hp₁]; omega)
        (by rw [hp₁]; omega) (by rw [hshow]; omega) (by rw [hshow]; omega)
      refine ⟨s', by rw [addRegions, hadd]; exact hrest, ?_, ?_, ?_⟩
      · rw [hshow] at hlow
        rw [List.length_cons]
        omega
      · rw [hshow] at hhigh
        rw [regionsLen_cons]
        omega
      · rw [hregions, hmade, hremain, rowsMade, if_neg hfit]

theorem regionTexts_cons {text : List UInt8} {texts : List (List UInt8)} {size : Nat}
    (h : RegionAt mem p text)
    (hrest : regionTexts mem n (p + regionLen text) = some (texts, size)) :
    regionTexts mem (n + 1) p = some (text :: texts, regionLen text + size) := by
  rw [regionTexts, h.len, h.textLen]
  dsimp only
  rw [if_pos (show regionLen text = 26 + text.length from rfl), hrest, h.text]
  rfl

/-- The texts depend on what stands in the regions only. -/
theorem regionTexts_congr {texts : List (List UInt8)} {size : Nat}
    (h : regionTexts mem n p = some (texts, size))
    (heq : ∀ j, p ≤ j → j < p + size → mem' j = mem j) :
    regionTexts mem' n p = some (texts, size) := by
  induction n generalizing p texts size with
  | zero => exact h
  | succ n ih =>
    rw [regionTexts] at h
    dsimp only at h
    split_ifs at h with hlen
    · obtain ⟨⟨texts', size'⟩, hrest, hcons⟩ := Option.map_eq_some_iff.mp h
      simp only [Prod.mk.injEq] at hcons
      obtain ⟨rfl, rfl⟩ := hcons
      have hat : RegionAt mem p ((Peek.contents (numAt 4 mem (p + 22)) (p + 26)).value mem) := by
        refine ⟨?_, ?_, ?_⟩
        · rw [regionLen, Peek.length_contents]
          exact hlen
        · rw [Peek.length_contents]
        · rw [Peek.length_contents]
      have hsize : regionLen ((Peek.contents (numAt 4 mem (p + 22)) (p + 26)).value mem)
          = numAt 4 mem (p + 1) := hat.len.symm
      have hat' : RegionAt mem' p ((Peek.contents (numAt 4 mem (p + 22)) (p + 26)).value mem) :=
        hat.congr fun j hj hlt => heq j hj (by omega)
      have hrest' := ih hrest fun j hj hlt => heq j (by omega) (by omega)
      rw [← hsize] at hrest' ⊢
      exact regionTexts_cons hat' hrest'

/-- Regions that all fit stand one behind the other. -/
theorem addRegions_fit (sd : Nat) (hlat : bufs ≠ [] → asserts = true → led.lattice = 16)
    (hfit : regionsLen bufs ≤ s.remain.toNat) (hbehind : sd + 5 ≤ s.p.toNat)
    (hp : s.p.toNat + regionsLen bufs < 2 ^ 32)
    (hlen : numAt 4 s.mem (sd + 1) + regionsLen bufs < 2 ^ 32) :
    ∃ s', addRegions asserts led sd bufs s = .ok (true, s')
      ∧ numAt 4 s'.mem (sd + 1) = numAt 4 s.mem (sd + 1) + regionsLen bufs
      ∧ (∀ a, a < sd + 1 ∨ sd + 5 ≤ a → a < s.p.toNat ∨ s.p.toNat + regionsLen bufs ≤ a →
        s'.mem a = s.mem a)
      ∧ regionTexts s'.mem bufs.length s.p.toNat
        = some (bufs.map (·.line.text), regionsLen bufs) := by
  induction bufs generalizing s with
  | nil => exact ⟨s, rfl, by simp [regionsLen], fun _ _ _ => rfl, rfl⟩
  | cons buf bufs ih =>
    rw [regionsLen_cons] at hp hlen hfit ⊢
    obtain ⟨s₁, hadd, h⟩ := addRegion_fits sd buf (s := s)
      (hlat (List.cons_ne_nil _ _)) (by omega) hbehind (by omega) (by omega)
    obtain ⟨s', hrest, hshow, houtside, htexts⟩ := ih (s := s₁)
        (fun _ => hlat (List.cons_ne_nil _ _)) (by rw [h.remain]; omega)
      (by rw [h.p]; omega) (by rw [h.p]; omega) (by rw [h.showLen]; omega)
    rw [h.p] at houtside htexts
    refine ⟨s', by rw [addRegions, hadd]; exact hrest, ?_, ?_, ?_⟩
    · rw [hshow, h.showLen]
      omega
    · intro a hsd ha
      rw [houtside a hsd (by omega)]
      exact h.outside a hsd (by rw [h.p]; omega)
    · refine regionTexts_cons (h.region.congr fun j hj hlt => ?_) htexts
      exact houtside j (.inr (by omega)) (.inl hlt)

theorem addRegions_halt (hassert : asserts = true) (hlat : led.lattice ≠ 16) (hne : bufs ≠ []) :
    addRegions asserts led sd bufs s = .error .assertion := by
  cases bufs with
  | nil => exact absurd rfl hne
  | cons buf bufs =>
    have hmake : makeRegion asserts led s.mem s.p.toNat s.remain buf = .error .assertion :=
      if_pos (by simp [hassert, hlat])
    rw [addRegions, addRegion, hmake]

end Region

/-! ## The lines that are kept -/

section Lines

variable {led : ListenLedCfg} {screen : List ScreenLine} {bufs : LinesBuf}
  {i : Fin A4_LED_LINES_NUM}

theorem lastLine_append (line : ScreenLine) :
    lastLine (screen ++ [line]) i
      = if line.idx.toNat = i.val then some line else lastLine screen i := by
  rw [lastLine, List.filter_append]
  by_cases h : line.idx.toNat = i.val
  · rw [if_pos h, List.filter_cons_of_pos (by simpa using h)]
    exact List.getLast?_concat
  · rw [if_neg h, List.filter_cons_of_neg (by simpa using h)]
    exact congrArg List.getLast? (List.append_nil _)

/-- A row that is shown keeps the last line that the screen has for it. -/
theorem foldl_keepLine (hi : i.val < led.nrRow) :
    screen.foldl (keepLine led) bufs i = match lastLine screen i with
      | some line => placed led i (cleared line)
      | none => bufs i := by
  induction screen using List.reverseRecOn with
  | nil => rfl
  | append_singleton screen line ih =>
    rw [List.foldl_append, List.foldl_cons, List.foldl_nil, lastLine_append, keepLine]
    by_cases hidx : line.idx.toNat = i.val
    · have hlt : line.idx.toNat < led.nrRow := by omega
      have hfin : (⟨line.idx.toNat, hlt.trans_le (Nat.min_le_right _ _)⟩
          : Fin A4_LED_LINES_NUM) = i := Fin.ext hidx
      rw [dif_pos hlt, if_pos hidx]
      dsimp only
      rw [hfin, Function.update_self]
    · rw [if_neg hidx, ← ih]
      split
      · rename_i hlt
        exact Function.update_of_ne (fun h => hidx (by rw [h])) _ _
      · rfl

theorem text_placed (line : ScreenLine) : (placed led i line).line.text = line.text := by
  unfold placed
  split
  · rfl
  · rfl

theorem mem_rowIdxs : i ∈ led.rowIdxs ↔ i.val < led.nrRow := by
  have h : led.nrRow ≤ A4_LED_LINES_NUM := Nat.min_le_right _ _
  rw [ListenLedCfg.rowIdxs, List.mem_take_iff_getElem]
  simp only [List.length_finRange, List.getElem_finRange]
  constructor
  · rintro ⟨j, hj, rfl⟩
    exact (Nat.lt_min.mp hj).1
  · intro hi
    exact ⟨i, Nat.lt_min.mpr ⟨hi, i.isLt⟩, rfl⟩

/-- The texts of the rows are those that the screen and the kept lines give. -/
theorem text_rows (led : ListenLedCfg) (screen : List ScreenLine) (bufs : LinesBuf) :
    (led.rows (screen.foldl (keepLine led) bufs)).map (·.line.text)
    = led.rowIdxs.map (rowText screen bufs) := by
  rw [ListenLedCfg.rows, List.map_map]
  refine List.map_congr_left fun i hi => ?_
  rw [Function.comp_apply, foldl_keepLine (mem_rowIdxs.mp hi), rowText]
  cases lastLine screen i with
  | some line => exact text_placed _
  | none => rfl

theorem length_rows (led : ListenLedCfg) (bufs : LinesBuf) : (led.rows bufs).length = led.nrRow := by
  have h : led.nrRow ≤ A4_LED_LINES_NUM := Nat.min_le_right _ _
  rw [ListenLedCfg.rows, List.length_map, List.length_take, List.length_finRange,
    Nat.min_eq_left h]

theorem regionsLen_rows : regionsLen (led.rows (screen.foldl (keepLine led) bufs))
    = (led.rowIdxs.map fun i => 26 + (rowText screen bufs i).length).sum := by
  have h := congrArg (fun texts => (texts.map regionLen).sum)
    (text_rows led screen bufs)
  rw [List.map_map, List.map_map] at h
  exact h

theorem frameSize_eq : frameSize led screen bufs
    = 79 + regionsLen (led.rows (screen.foldl (keepLine led) bufs)) := by
  rw [regionsLen_rows, frameSize]
  omega

end Lines

/-! ## The show -/

section Frame

variable {asserts : Bool} {led : ListenLedCfg} {mem : Nat → UInt8} {sd : Nat} {bufsz : UInt32}
  {screen : List ScreenLine} {bufs : LinesBuf}

theorem Supported.nrRow (h : Supported asserts led) (bufs : LinesBuf) (hne : led.rows bufs ≠ [])
    (hassert : asserts = true) : led.lattice = 16 := by
  rcases h.2 hassert with hlat | hlow
  · exact hlat
  · refine absurd (List.eq_nil_of_length_eq_zero ?_) hne
    rw [length_rows, ListenLedCfg.nrRow, Nat.div_eq_of_lt (UInt8.lt_iff_toNat_lt.mp hlow)]
    rfl

theorem Supported.divisors (h : Supported asserts led) : led.lattice ≠ 0 ∧ led.cWidth ≠ 0 := by
  have hlat : 2 ≤ led.lattice.toNat := UInt8.le_iff_toNat_le.mp h.1
  refine ⟨fun h0 => ?_, ?_⟩
  · rw [h0] at hlat
    exact absurd hlat (by decide)
  · rw [ListenLedCfg.cWidth]
    omega

theorem regionsLen_le (bufs : List LineBuf) : regionsLen bufs ≤ 1050 * bufs.length := by
  induction bufs with
  | nil => exact Nat.le_refl _
  | cons buf bufs ih =>
    have h := regionLen_lt buf
    rw [regionsLen_cons, List.length_cons]
    omega

theorem nrRow_le (led : ListenLedCfg) : led.nrRow ≤ 4 := Nat.min_le_right _ _

theorem regionsLen_rows_le (led : ListenLedCfg) (bufs : LinesBuf) :
    regionsLen (led.rows bufs) ≤ 4200 := by
  have h := regionsLen_le (led.rows bufs)
  have hrow := nrRow_le led
  rw [length_rows] at h
  omega

theorem length_showHeader : (showHeader led).length = 25 := by
  simp [showHeader]

/-- The loop of `make_show` begins with a header that is written. -/
theorem showHeader_written : numAt 4 (overwrite mem sd (showHeader led)) (sd + 1) = 25
    ∧ overwrite mem sd (showHeader led) (sd + 5) = UInt8.ofNat led.nrRow := by
  have h : Holds (overwrite mem sd (showHeader led)) sd (showHeader led) := holds_overwrite
  rw [showHeader, Holds, Holds.append] at h
  exact ⟨numAt_of_holds h.2.1 (by decide), h.2.2.1⟩

/-- The state in which the loop of `make_show` begins. -/
def showState (led : ListenLedCfg) (mem : Nat → UInt8) (sd : Nat) (bufsz : UInt32) : ShowState where
  mem := overwrite mem sd (showHeader led)
  p := UInt32.ofNat (sd + 25)
  remain := bufsz - 26 + 1

theorem showState_p (hsd : sd < 2 ^ 31) : (showState led mem sd bufsz).p.toNat = sd + 25 := by
  show (UInt32.ofNat (sd + 25)).toNat = _
  rw [UInt32.toNat_ofNat']
  omega

/-- What a `ssize_t` holds. -/
theorem bmod_of_lt {n : Nat} (h : n < 2 ^ 31) : Int.bmod n (2 ^ 32) = n := by
  rw [Int.bmod_def]
  omega

theorem makeShow_of_addRegions {s : ShowState} (h : Supported asserts led)
    (hloop : addRegions asserts led sd (led.rows (screen.foldl (keepLine led) bufs))
      (showState led mem sd bufsz) = .ok (true, s)) :
    makeShow asserts led mem sd bufsz screen bufs = .ok (Int.bmod (numAt 4 s.mem (sd + 1)) (2 ^ 32),
      ⟨s.mem, screen.foldl (keepLine led) bufs, s.regions, false⟩) := by
  unfold showState at hloop
  rw [makeShow, if_neg h.divisors.1, if_neg h.divisors.2]
  dsimp only
  rw [hloop]

theorem makeShow_ok (mem : Nat → UInt8) (bufsz : UInt32) (screen : List ScreenLine)
    (bufs : LinesBuf) (h : Supported asserts led) (hsd : sd < 2 ^ 31) :
    ∃ len out, makeShow asserts led mem sd bufsz screen bufs = .ok (len, out)
      ∧ out.locked = false ∧ 0 < len ∧ out.lines = screen.foldl (keepLine led) bufs
      ∧ out.regions = (rowsMade (·.line.text) (bufsz - 26 + 1).toNat
        (led.rows (screen.foldl (keepLine led) bufs))).map (regionData led) := by
  have hrow := nrRow_le led
  have hsize := regionsLen_rows_le led (screen.foldl (keepLine led) bufs)
  have hshow : numAt 4 (showState led mem sd bufsz).mem (sd + 1) = 25 := showHeader_written.1
  obtain ⟨s, hloop, hlow, hhigh, hregions⟩ := addRegions_ok (s := showState led mem sd bufsz) sd
    (h.nrRow (screen.foldl (keepLine led) bufs))
    (by rw [showState_p hsd, length_rows]; omega) (by rw [showState_p hsd]; omega)
    (by rw [hshow, length_rows]; omega) (by rw [hshow]; omega)
  rw [hshow, length_rows] at hlow
  rw [hshow] at hhigh
  refine ⟨_, _, makeShow_of_addRegions h hloop, rfl, ?_, rfl, hregions⟩
  rw [bmod_of_lt (by omega)]
  omega

/-- A show whose regions fit. -/
theorem makeShow_fit (mem : Nat → UInt8) (h : Supported asserts led) (hsd : sd < 2 ^ 31)
    (hfit : regionsLen (led.rows (screen.foldl (keepLine led) bufs)) ≤ (bufsz - 26 + 1).toNat) :
    ∃ out, makeShow asserts led mem sd bufsz screen bufs
        = .ok ((25 + regionsLen (led.rows (screen.foldl (keepLine led) bufs)) : Nat), out)
      ∧ out.locked = false ∧ out.lines = screen.foldl (keepLine led) bufs
      ∧ numAt 4 out.mem (sd + 1) = 25 + regionsLen (led.rows (screen.foldl (keepLine led) bufs))
      ∧ out.mem (sd + 5) = UInt8.ofNat led.nrRow
      ∧ (∀ a, a < sd ∨ sd + 25 + regionsLen (led.rows (screen.foldl (keepLine led) bufs)) ≤ a →
        out.mem a = mem a)
      ∧ regionTexts out.mem led.nrRow (sd + 25) = some (led.rowIdxs.map (rowText screen bufs),
        regionsLen (led.rows (screen.foldl (keepLine led) bufs))) := by
  have hsize := regionsLen_rows_le led (screen.foldl (keepLine led) bufs)
  have hshow : numAt 4 (showState led mem sd bufsz).mem (sd + 1) = 25 := showHeader_written.1
  have hp : (showState led mem sd bufsz).p.toNat = sd + 25 := showState_p hsd
  obtain ⟨s, hloop, hlen, houtside, htexts⟩ := addRegions_fit (s := showState led mem sd bufsz) sd
    (h.nrRow (screen.foldl (keepLine led) bufs)) hfit
    (by rw [hp]; omega) (by rw [hp]; omega) (by rw [hshow]; omega)
  rw [hshow] at hlen
  rw [hp] at houtside htexts
  rw [length_rows, text_rows] at htexts
  have hmake := makeShow_of_addRegions h hloop
  rw [hlen, bmod_of_lt (by omega)] at hmake
  refine ⟨_, hmake, rfl, rfl, hlen, ?_, fun a ha => ?_, htexts⟩
  · exact (houtside (sd + 5) (.inr (by omega)) (.inl (by omega))).trans showHeader_written.2
  · refine (houtside a (by omega) (by omega)).trans ?_
    rcases ha with ha | ha
    · exact overwrite_of_lt ha
    · exact overwrite_of_le (by rw [length_showHeader]; omega)

/-! ## The whole frame -/

/-- What is left for the regions. -/
def regionsRoom (bufsz : UInt32) : UInt32 := bufsz - 20 - 4 - 31 + 1 - 26 + 1

theorem regionsRoom_of_le (h : 79 ≤ bufsz.toNat) :
    (regionsRoom bufsz).toNat = bufsz.toNat - 79 := by
  have hlt := bufsz.toNat_lt
  simp only [regionsRoom, UInt32.toNat_add, UInt32.toNat_sub, UInt32.reduceToNat]
  omega

/-- The memory that `make_show` is called with. -/
def dispWritten (led : ListenLedCfg) (mem : Nat → UInt8) : Nat → UInt8 := overwrite mem 20
  (led.model.toList ++ (leBytes 2 led.width.toNat ++ (leBytes 2 led.high.toNat ++ [1, 1])))

/-- The memory after the header and the tail of a frame. -/
def frameWritten (led : ListenLedCfg) (mem : Nat → UInt8) (len : Int) : Nat → UInt8 :=
  overwrite (overwrite mem 0 (reqHeader led len)) (20 + len.toNat) askEof

theorem makeReqFrm_of_makeShow {len : Int} {out : FrameOut} (hlen : 0 < len)
    (h : makeShow asserts led (dispWritten led mem) 50 (bufsz - 20 - 4 - 31 + 1) screen bufs
      = .ok (len, out)) :
    makeReqFrm asserts led mem bufsz screen bufs
      = .ok (20 + (30 + len) + 4, { out with mem := frameWritten led out.mem (30 + len) }) := by
  have hdisp : makeDisp asserts led mem 20 (bufsz - 20 - 4) screen bufs = .ok (30 + len, out) := by
    unfold dispWritten at h
    rw [makeDisp]
    rw [h]
    exact if_neg (Int.not_le.mpr hlen)
  rw [makeReqFrm, hdisp]
  exact if_neg (by omega)

theorem makeReqFrm_ok (mem : Nat → UInt8) (bufsz : UInt32) (screen : List ScreenLine)
    (bufs : LinesBuf) (h : Supported asserts led) :
    ∃ ret out, makeReqFrm asserts led mem bufsz screen bufs = .ok (ret, out)
      ∧ out.locked = false ∧ 0 < ret ∧ out.lines = screen.foldl (keepLine led) bufs
      ∧ out.regions = (rowsMade (·.line.text) (regionsRoom bufsz).toNat
        (led.rows (screen.foldl (keepLine led) bufs))).map (regionData led) := by
  obtain ⟨len, out, hshow, hlocked, hlen, hlines, hregions⟩ := makeShow_ok (dispWritten led mem)
    (bufsz - 20 - 4 - 31 + 1) screen bufs h (show 50 < 2 ^ 31 by decide)
  exact ⟨_, _, makeReqFrm_of_makeShow hlen hshow, hlocked, by omega, hlines, hregions⟩

/-- The fields of the request and of the block that a frame of the right size has. -/
theorem frameWritten_fields (led : ListenLedCfg) (mem : Nat → UInt8) {len : Nat} (hlen : len < 2 ^ 16) :
    (Peek.contents 4 0).value (frameWritten led mem len) = askSof
      ∧ numAt 4 (frameWritten led mem len) 14 = len
      ∧ numAt 2 (frameWritten led mem len) 18 = len
      ∧ (Peek.contents 4 (20 + len)).value (frameWritten led mem len) = askEof
      ∧ ∀ a, 20 ≤ a → a < 20 + len ∨ 24 + len ≤ a → frameWritten led mem len a = mem a := by
  have hhead : (reqHeader led len).length = 20 := by simp [reqHeader, askSof]
  have htail : askEof.length = 4 := rfl
  have hreq : Holds (frameWritten led mem len) 0 (reqHeader led len) :=
    holds_overwrite.overwrite (.inl (by rw [hhead]; omega))
  rw [reqHeader, Holds.append] at hreq
  obtain ⟨hsof, -, -, hreq⟩ := hreq
  simp only [Holds.append] at hreq
  have heof : Holds (frameWritten led mem len) (20 + len) askEof := holds_overwrite
  refine ⟨hsof.value_contents, numAt_of_holds hreq.2.2.2.1 (by omega),
    numAt_of_holds hreq.2.2.2.2 (by omega), heof.value_contents, ?_⟩
  intro a hbehind ha
  have htailed : frameWritten led mem len a = overwrite mem 0 (reqHeader led len) a := by
    rcases ha with ha | ha
    · exact overwrite_of_lt ha
    · exact overwrite_of_le (by rw [htail]; show 20 + len + 4 ≤ a; omega)
  rw [htailed]
  exact overwrite_of_le (by rw [hhead]; omega)

theorem parseReqFrm_of_fields {mem : Nat → UInt8} {texts : List (List UInt8)} {size n : Nat}
    (hsof : (Peek.contents 4 0).value mem = askSof) (hlen : numAt 4 mem 14 = 55 + size)
    (hfrm : numAt 2 mem 18 = 55 + size)
    (heof : (Peek.contents 4 (20 + (55 + size))).value mem = askEof) (hone : mem 41 = 1)
    (hshow : numAt 4 mem 51 = 25 + size) (hrows : (mem 55).toNat = n)
    (htexts : regionTexts mem n 75 = some (texts, size)) :
    parseReqFrm mem (79 + size) = some texts := by
  rw [parseReqFrm]
  rw [hlen, hshow, hrows, htexts, if_pos ⟨hsof, hfrm, by omega, heof, hone, by omega⟩]
  exact if_pos rfl

/-- A frame that fits parses back. -/
theorem makeReqFrm_fit (mem : Nat → UInt8) (h : Supported asserts led)
    (hfit : frameSize led screen bufs ≤ bufsz.toNat) :
    ∃ out, makeReqFrm asserts led mem bufsz screen bufs
        = .ok ((frameSize led screen bufs : Nat), out)
      ∧ out.locked = false ∧ out.lines = screen.foldl (keepLine led) bufs
      ∧ (∀ a, bufsz.toNat ≤ a → out.mem a = mem a)
      ∧ parseReqFrm out.mem (frameSize led screen bufs)
        = some (led.rowIdxs.map (rowText screen bufs)) := by
  have hsize := regionsLen_rows_le led (screen.foldl (keepLine led) bufs)
  rw [frameSize_eq] at hfit ⊢
  have hroom : (regionsRoom bufsz).toNat = bufsz.toNat - 79 := regionsRoom_of_le (by omega)
  have hshown : regionsLen (led.rows (screen.foldl (keepLine led) bufs))
      ≤ (bufsz - 20 - 4 - 31 + 1 - 26 + 1).toNat := by
    show _ ≤ (regionsRoom bufsz).toNat
    omega
  obtain ⟨out, hshow, hlocked, hlines, hlen, hrow, houtside, htexts⟩ := makeShow_fit
    (dispWritten led mem) h (show 50 < 2 ^ 31 by decide) hshown
  generalize hR : regionsLen (led.rows (screen.foldl (keepLine led) bufs)) = R at *
  have hmake := makeReqFrm_of_makeShow (by omega) hshow
  have hcast : (30 : Int) + ((25 + R : Nat) : Int) = ((55 + R : Nat) : Int) := by omega
  rw [hcast] at hmake
  obtain ⟨hsof, hreq, hfrm, heof, hkept⟩ := frameWritten_fields led out.mem
    (show 55 + R < 2 ^ 16 by omega)
  have hdisp : dispWritten led mem 41 = 1 := by
    have hholds : Holds (dispWritten led mem) 20 _ := holds_overwrite
    rw [Holds.append, Holds.append, Holds.append] at hholds
    simpa using hholds.2.2.2.2.1
  have hret : (20 : Int) + ((55 + R : Nat) : Int) + 4 = ((79 + R : Nat) : Int) := by omega
  rw [hret] at hmake
  refine ⟨_, hmake, hlocked, hlines, fun a ha => ?_, ?_⟩
  · refine (hkept a (by omega) (by omega)).trans ((houtside a (by omega)).trans ?_)
    refine overwrite_of_le ?_
    simp
    omega
  · refine parseReqFrm_of_fields (n := led.nrRow) hsof hreq hfrm heof ?_ ?_ ?_ ?_
    · exact (hkept 41 (by omega) (by omega)).trans ((houtside 41 (by omega)).trans hdisp)
    · rw [← hlen]
      exact numAt_congr fun j hj hlt => hkept j (by omega) (by omega)
    · have hrow4 := nrRow_le led
      show (frameWritten led out.mem _ 55).toNat = _
      rw [hkept 55 (by omega) (by omega), hrow, UInt8.toNat_ofNat']
      omega
    · exact regionTexts_congr htexts fun j hj hlt => hkept j (by omega) (by omega)

/-! ## Where the program ends -/

theorem makeReqFrm_of_halt {e : Halt}
    (h : makeShow asserts led (dispWritten led mem) 50 (bufsz - 20 - 4 - 31 + 1) screen bufs
      = .error e) :
    makeReqFrm asserts led mem bufsz screen bufs = .error e := by
  have hdisp : makeDisp asserts led mem 20 (bufsz - 20 - 4) screen bufs = .error e := by
    unfold dispWritten at h
    rw [makeDisp, h]
  rw [makeReqFrm, hdisp]

theorem makeReqFrm_divByZero (h : led.lattice < 2) :
    makeReqFrm asserts led mem bufsz screen bufs = .error .divByZero := by
  apply makeReqFrm_of_halt
  rw [makeShow]
  by_cases h0 : led.lattice = 0
  · rw [if_pos h0]
  · have hlt : led.lattice.toNat < 2 := UInt8.lt_iff_toNat_lt.mp h
    have hcol : led.cWidth = 0 := by
      rw [ListenLedCfg.cWidth]
      omega
    rw [if_neg h0, if_pos hcol]

theorem makeReqFrm_assertion (h2 : 2 ≤ led.lattice) (hassert : asserts = true)
    (hlat : led.lattice ≠ 16) (hhigh : led.lattice ≤ led.high) :
    makeReqFrm asserts led mem bufsz screen bufs = .error .assertion := by
  have hsup : Supported false led := ⟨h2, nofun⟩
  have hpos : 0 < led.high.toNat / led.lattice.toNat := by
    have h2' : 2 ≤ led.lattice.toNat := UInt8.le_iff_toNat_le.mp h2
    exact Nat.div_pos (UInt8.le_iff_toNat_le.mp hhigh) (by omega)
  have hne : led.rows (screen.foldl (keepLine led) bufs) ≠ [] := by
    intro hnil
    have hlen := length_rows led (screen.foldl (keepLine led) bufs)
    rw [hnil, ListenLedCfg.nrRow, List.length_nil] at hlen
    have := Nat.lt_min.mpr ⟨hpos, show 0 < A4_LED_LINES_NUM by decide⟩
    omega
  apply makeReqFrm_of_halt
  rw [makeShow, if_neg hsup.divisors.1, if_neg hsup.divisors.2]
  dsimp only
  rw [addRegions_halt hassert hlat hne]

theorem supported_of_ok {ret : Int} {out : FrameOut}
    (h : makeReqFrm asserts led mem bufsz screen bufs = .ok (ret, out)) :
    Supported asserts led := by
  by_cases h2 : 2 ≤ led.lattice
  · refine ⟨h2, fun hassert => ?_⟩
    by_contra hnot
    rw [not_or, UInt8.not_lt] at hnot
    rw [makeReqFrm_assertion h2 hassert hnot.1 hnot.2] at h
    cases h
  · rw [makeReqFrm_divByZero (UInt8.not_le.mp h2)] at h
    cases h

/-! ## Consistent frames -/

theorem regionTexts_size {n p size : Nat} {texts : List (List UInt8)}
    (h : regionTexts mem n p = some (texts, size)) : size = (texts.map regionLen).sum := by
  induction n generalizing p texts size with
  | zero =>
    cases h
    rfl
  | succ n ih =>
    rw [regionTexts] at h
    dsimp only at h
    split_ifs at h with hlen
    obtain ⟨⟨texts', size'⟩, hrest, hcons⟩ := Option.map_eq_some_iff.mp h
    simp only [Prod.mk.injEq] at hcons
    obtain ⟨rfl, rfl⟩ := hcons
    rw [List.map_cons, List.sum_cons, ← ih hrest, hlen, regionLen, Peek.length_contents]

/-- The length of a frame is that of its texts with their headers. -/
theorem parseReqFrm_len {len : Nat} {texts : List (List UInt8)}
    (h : parseReqFrm mem len = some texts) : len = 79 + (texts.map regionLen).sum := by
  rw [parseReqFrm] at h
  split_ifs at h with hfields
  obtain ⟨-, -, hlen, -, -, hdisp⟩ := hfields
  split at h
  · rename_i texts' size htexts
    split_ifs at h with hshow
    have hsize := regionTexts_size htexts
    cases h
    omega
  · cases h

theorem fits_of_consistent (h : Consistent asserts led mem bufsz screen bufs) :
    Supported asserts led ∧ frameSize led screen bufs ≤ bufsz.toNat := by
  obtain ⟨ret, out, hmake, -, -, hret⟩ := h
  have hsup := supported_of_ok hmake
  obtain ⟨ret', out', hmake', -, hpos, hlines, -⟩ := makeReqFrm_ok mem bufsz screen bufs hsup
  rw [hmake, Except.ok.injEq, Prod.mk.injEq] at hmake'
  obtain ⟨rfl, rfl⟩ := hmake'
  refine ⟨hsup, ?_⟩
  rcases hret with hminus | ⟨-, hle, hparse⟩
  · omega
  · have hlen := parseReqFrm_len hparse
    rw [hlines, List.map_map] at hlen
    have hsize : frameSize led screen bufs = ret.toNat := frameSize_eq.trans hlen.symm
    omega

/-- The frame is consistent exactly when the lattice is supported and everything fits. -/
theorem frame_consistent_iff (asserts : Bool) (led : ListenLedCfg) (mem : Nat → UInt8)
    (bufsz : UInt32) (screen : List ScreenLine) (bufs : LinesBuf) :
    Consistent asserts led mem bufsz screen bufs
      ↔ Supported asserts led ∧ frameSize led screen bufs ≤ bufsz.toNat := by
  refine ⟨fits_of_consistent, fun ⟨hsup, hfit⟩ => ?_⟩
  obtain ⟨out, hmake, hlocked, hlines, houtside, hparse⟩ := makeReqFrm_fit mem hsup hfit
  refine ⟨_, out, hmake, hlocked, houtside, .inr ⟨Int.natCast_nonneg _, by omega, ?_⟩⟩
  rw [Int.toNat_natCast, hparse, hlines, text_rows]

/-- A line of a row with a text of `n` letters. -/
def lettersLine (idx : UInt8) (n : Nat) (h : n < LED_TEXT_MAX_LEN) : ScreenLine where
  idx
  mode := 0
  action := LED_ACTION_DISP
  style := LED_STYLE_IMMEDIATE
  duration := 0
  volume := 0
  cover := false
  text := List.replicate n 65
  audio := []
  timePerCol := 100
  fits := by rwa [List.length_replicate]

/-- A screen of two rows. -/
def twoRows : ListenLedCfg := ⟨Vector.replicate 16 0, 1, 32, 64, 16⟩

/-- Two lines of 1000 letters do not fit into the 2048 bytes of the buffer, and no -1 is returned. -/
theorem not_frame_consistent : ¬ Consistent true twoRows (fun _ => 0) 2048
    [lettersLine 0 1000 (by decide), lettersLine 1 1000 (by decide)] blankLines := by
  intro h
  have hfit := (fits_of_consistent h).2
  have hrow : ∀ i ∈ twoRows.rowIdxs, rowText
      [lettersLine 0 1000 (by decide), lettersLine 1 1000 (by decide)] blankLines i
        = List.replicate 1000 65 := List.forall_mem_cons.mpr ⟨rfl,
    List.forall_mem_cons.mpr ⟨rfl, fun _ h => nomatch h⟩⟩
  rw [frameSize, List.map_congr_left fun i hi => congrArg (26 + List.length ·) (hrow i hi),
    List.length_replicate] at hfit
  exact absurd hfit (by decide)

end Frame

end VdCamera.Dev
