import VdCamera.Config.Proofs.Sections
import VdCamera.Dev.Proofs.LedFrame
import VdCamera.Misc.Run

/-!
# Where the regions of the A4 card lie

`listen_refresh` lets a lattice of 0 through to two divisions, a row that was never given a line is
shown as a region that ends before it begins, and the origins of the rows are those of a lattice of
16. The regions lie on the screen and apart exactly when none of this happens.
-/

namespace VdCamera.Dev

open Misc Config

/-! ## What is claimed of the regions -/

/-- The region lies on the screen. -/
def OnScreen (led : ListenLedCfg) (r : RegionData) : Prop :=
  r.x ≤ r.xx ∧ r.xx.toNat < led.width.toNat ∧ r.y ≤ r.yy ∧ r.yy.toNat < led.high.toNat

def RegionData.Apart (r r' : RegionData) : Prop :=
  r.xx < r'.x ∨ r'.xx < r.x ∨ r.yy < r'.y ∨ r'.yy < r.y

/-- A refresh does not divide by zero, and the regions that it makes before it ends lie on the screen
and do not overlap. -/
def Shown (asserts : Bool) (bufs : LinesBuf) (r : Refresh) : Prop :=
  match listenRefresh asserts r.model r.lc r.mem r.screen bufs with
  | .error .divByZero => False
  | .error .assertion => True
  | .ok none => True
  | .ok (some (_, out)) =>
    (∀ g ∈ out.regions, OnScreen (listenCfg r.model r.lc) g)
      ∧ out.regions.Pairwise RegionData.Apart

/-! ## When it is so -/

/-- A row can be shown: the line that the screen has for it is not empty or runs, or else the kept
line was placed on a screen that was not larger. -/
def RowSuits (led : ListenLedCfg) (screen : List ScreenLine) (bufs : LinesBuf)
    (i : Fin A4_LED_LINES_NUM) : Prop :=
  match lastLine screen i with
  | some line => 16 * i.val + led.lattice.toNat ≤ led.high.toNat ∧ 0 < led.width
      ∧ (line.style ≠ LED_STYLE_IMMEDIATE ∨ (cleared line).text ≠ [])
  | none => 0 < (bufs i).pos.high ∧ 16 * i.val + (bufs i).pos.high.toNat ≤ led.high.toNat
      ∧ if (bufs i).line.style = LED_STYLE_IMMEDIATE then
          0 < (bufs i).pos.width
            ∧ (bufs i).pos.x.toNat + (bufs i).pos.width.toNat ≤ led.width.toNat
        else 0 < led.width

/-- The height of a row. -/
def rowHigh (led : ListenLedCfg) (screen : List ScreenLine) (bufs : LinesBuf)
    (i : Fin A4_LED_LINES_NUM) : Nat :=
  match lastLine screen i with
  | some _ => led.lattice.toNat
  | none => (bufs i).pos.high.toNat

/-- Where a row begins and how wide it is; a line that runs takes the whole width. -/
def rowSpan (led : ListenLedCfg) (screen : List ScreenLine) (bufs : LinesBuf)
    (i : Fin A4_LED_LINES_NUM) : Nat × Nat :=
  match lastLine screen i with
  | some line =>
    if line.style = LED_STYLE_IMMEDIATE ∧ (cleared line).text.length ≤ led.nrCol then
      ((led.nrCol - (cleared line).text.length) / 2 * led.cWidth,
        (cleared line).text.length * led.cWidth)
    else (0, led.width.toNat)
  | none =>
    if (bufs i).line.style = LED_STYLE_IMMEDIATE then
      ((bufs i).pos.x.toNat, (bufs i).pos.width.toNat)
    else (0, led.width.toNat)

/-- A row ends above a later one, or they are side by side. -/
def RowsApart (led : ListenLedCfg) (screen : List ScreenLine) (bufs : LinesBuf)
    (i j : Fin A4_LED_LINES_NUM) : Prop :=
  16 * i.val + rowHigh led screen bufs i ≤ 16 * j.val
    ∨ (rowSpan led screen bufs i).1 + (rowSpan led screen bufs i).2 ≤ (rowSpan led screen bufs j).1
    ∨ (rowSpan led screen bufs j).1 + (rowSpan led screen bufs j).2 ≤ (rowSpan led screen bufs i).1

/-- The rows whose regions fit into the buffer of `listen_led_refresh`. -/
def shownRows (led : ListenLedCfg) (screen : List ScreenLine) (bufs : LinesBuf) :
    List (Fin A4_LED_LINES_NUM) :=
  rowsMade (rowText screen bufs) (2048 - 79) led.rowIdxs

/-- A size that is not a multiple of eight is refused. -/
def Refused (lc : LedCfg) : Prop :=
  lc.height % LISTEN_A4_LATTICE_UNIT ≠ 0 ∨ lc.width % LISTEN_A4_LATTICE_UNIT ≠ 0
    ∨ lc.lattice % LISTEN_A4_LATTICE_UNIT ≠ 0

/-- The refresh is refused, or the lattice is not zero and either an assertion ends the program before
a region is made or all rows that are shown suit the screen and are apart. -/
def Suits (asserts : Bool) (bufs : LinesBuf) (r : Refresh) : Prop :=
  let led := listenCfg r.model r.lc
  Refused r.lc ∨ led.lattice ≠ 0 ∧
    (asserts = true ∧ led.lattice ≠ 16 ∧ led.lattice ≤ led.high
      ∨ (∀ i ∈ shownRows led r.screen bufs, RowSuits led r.screen bufs i)
        ∧ (shownRows led r.screen bufs).Pairwise (RowsApart led r.screen bufs))

/-! ## The place of a region -/

section Place

variable {led : ListenLedCfg} {buf buf' : LineBuf} {screen : List ScreenLine} {bufs : LinesBuf}
  {i j : Fin A4_LED_LINES_NUM} {line : ScreenLine}

/-- Where a line begins and how wide it is. -/
def LineBuf.span (led : ListenLedCfg) (buf : LineBuf) : Nat × Nat :=
  if buf.line.style = LED_STYLE_IMMEDIATE then (buf.pos.x.toNat, buf.pos.width.toNat)
  else (0, led.width.toNat)

/-- A line is placed on the screen. -/
structure LineBuf.Placed (led : ListenLedCfg) (buf : LineBuf) : Prop where
  width : 0 < (buf.span led).2
  right : (buf.span led).1 + (buf.span led).2 ≤ led.width.toNat
  high : 0 < buf.pos.high.toNat
  bottom : buf.pos.y.toNat + buf.pos.high.toNat ≤ led.high.toNat

theorem regionData_x : (regionData led buf).x.toNat = (buf.span led).1 := by
  unfold regionData LineBuf.span
  dsimp only
  split
  · rfl
  · rfl

theorem regionData_y : (regionData led buf).y.toNat = buf.pos.y.toNat := rfl

theorem toNat_ofInt_pred {n : Nat} (h : n < 2 ^ 16) :
    (UInt16.ofInt ((n : Int) - 1)).toNat = if n = 0 then 65535 else n - 1 := by
  rw [UInt16.ofInt, UInt16.toNat_ofNat']
  split
  · omega
  · omega

theorem regionData_xx : (regionData led buf).xx.toNat
    = if (buf.span led).1 + (buf.span led).2 = 0 then 65535
      else (buf.span led).1 + (buf.span led).2 - 1 := by
  have hx := buf.pos.x.toNat_lt
  have hw := buf.pos.width.toNat_lt
  have hled := led.width.toNat_lt
  unfold regionData LineBuf.span
  dsimp only
  split
  · exact toNat_ofInt_pred (n := buf.pos.x.toNat + buf.pos.width.toNat) (by omega)
  · rw [Nat.zero_add]
    exact toNat_ofInt_pred (by omega)

theorem regionData_yy : (regionData led buf).yy.toNat
    = if buf.pos.y.toNat + buf.pos.high.toNat = 0 then 65535
      else buf.pos.y.toNat + buf.pos.high.toNat - 1 := by
  have hy := buf.pos.y.toNat_lt
  have hh := buf.pos.high.toNat_lt
  exact toNat_ofInt_pred (n := buf.pos.y.toNat + buf.pos.high.toNat) (by omega)

/-- A region lies on the screen exactly when its line is placed there. -/
theorem onScreen_iff : OnScreen led (regionData led buf) ↔ buf.Placed led := by
  have hw := led.width.toNat_lt
  have hh := led.high.toNat_lt
  rw [OnScreen, UInt16.le_iff_toNat_le, UInt16.le_iff_toNat_le, regionData_x, regionData_xx,
    regionData_y, regionData_yy]
  constructor
  · rintro ⟨hx, hxx, hy, hyy⟩
    refine ⟨?_, ?_, ?_, ?_⟩ <;> (split_ifs at hx hxx hy hyy <;> omega)
  · rintro ⟨hwidth, hright, hhigh, hbottom⟩
    rw [if_neg (by omega), if_neg (by omega)]
    omega

theorem apart_iff (h : buf.Placed led) (h' : buf'.Placed led)
    (hy : buf.pos.y.toNat < buf'.pos.y.toNat) :
    (regionData led buf).Apart (regionData led buf')
      ↔ buf.pos.y.toNat + buf.pos.high.toNat ≤ buf'.pos.y.toNat
        ∨ (buf.span led).1 + (buf.span led).2 ≤ (buf'.span led).1
        ∨ (buf'.span led).1 + (buf'.span led).2 ≤ (buf.span led).1 := by
  obtain ⟨hwidth, -, hhigh, -⟩ := h
  obtain ⟨hwidth', -, hhigh', -⟩ := h'
  rw [RegionData.Apart, UInt16.lt_iff_toNat_lt, UInt16.lt_iff_toNat_lt, UInt16.lt_iff_toNat_lt,
    UInt16.lt_iff_toNat_lt, regionData_x, regionData_x, regionData_xx, regionData_xx,
    regionData_y, regionData_y, regionData_yy, regionData_yy, if_neg (by omega), if_neg (by omega),
    if_neg (by omega), if_neg (by omega)]
  omega

theorem lineYTab_toNat (i : Fin A4_LED_LINES_NUM) : (lineYTab i).toNat = 16 * i.val := by
  revert i
  decide

theorem nrCol_mul_cWidth (led : ListenLedCfg) : led.nrCol * led.cWidth ≤ led.width.toNat := Nat.div_mul_le_self _ _

theorem span_placed : (placed led i line).span led
    = if line.style = LED_STYLE_IMMEDIATE ∧ line.text.length ≤ led.nrCol then
        ((led.nrCol - line.text.length) / 2 * led.cWidth, line.text.length * led.cWidth)
      else (0, led.width.toNat) := by
  have hled := led.width.toNat_lt
  have hcols := nrCol_mul_cWidth led
  by_cases hlong : line.text.length > led.nrCol
  · rw [placed, if_pos hlong, if_neg (fun h => absurd h.2 (Nat.not_le.mpr hlong))]
    exact if_neg (show ¬ LED_STYLE_SHIFT_LEFT = LED_STYLE_IMMEDIATE by decide)
  · rw [placed, if_neg hlong, LineBuf.span]
    dsimp only
    by_cases hstyle : line.style = LED_STYLE_IMMEDIATE
    · have hwidth : line.text.length * led.cWidth ≤ led.nrCol * led.cWidth :=
        Nat.mul_le_mul_right _ (Nat.not_lt.mp hlong)
      have hx : (led.nrCol - line.text.length) / 2 * led.cWidth ≤ led.nrCol * led.cWidth :=
        Nat.mul_le_mul_right _ (by omega)
      rw [if_pos hstyle, if_pos ⟨hstyle, Nat.not_lt.mp hlong⟩, UInt8.toNat_ofNat', UInt8.toNat_ofNat',
        Nat.mod_eq_of_lt (by omega), Nat.mod_eq_of_lt (by omega)]
    · rw [if_neg hstyle, if_neg fun h => hstyle h.1]

theorem pos_placed : (placed led i line).pos.y = lineYTab i
    ∧ (placed led i line).pos.high = led.lattice := by
  unfold placed
  split
  · exact ⟨rfl, rfl⟩
  · exact ⟨rfl, rfl⟩

/-- A line that comes with the screen is placed on it unless it is empty and does not run. -/
theorem placed_placed_iff (hcol : led.cWidth ≠ 0) (hlat : led.lattice ≠ 0) :
    (placed led i line).Placed led ↔ 16 * i.val + led.lattice.toNat ≤ led.high.toNat
      ∧ 0 < led.width ∧ (line.style ≠ LED_STYLE_IMMEDIATE ∨ line.text ≠ []) := by
  have hcols := nrCol_mul_cWidth led
  have hpos : 0 < led.lattice.toNat :=
    Nat.pos_of_ne_zero fun h => hlat (UInt8.toNat_inj.mp h)
  have hwidth : 0 < led.width ↔ 0 < led.width.toNat := UInt8.lt_iff_toNat_lt
  have hspan : 0 < ((placed led i line).span led).2
      ∧ ((placed led i line).span led).1 + ((placed led i line).span led).2 ≤ led.width.toNat
      ↔ 0 < led.width ∧ (line.style ≠ LED_STYLE_IMMEDIATE ∨ line.text ≠ []) := by
    rw [span_placed, hwidth]
    by_cases hshort : line.style = LED_STYLE_IMMEDIATE ∧ line.text.length ≤ led.nrCol
    · rw [if_pos hshort]
      dsimp only
      have hle : (led.nrCol - line.text.length) / 2 * led.cWidth + line.text.length * led.cWidth
          ≤ led.nrCol * led.cWidth := by
        rw [← Nat.add_mul]
        exact Nat.mul_le_mul_right _ (by omega)
      have hstyle : line.style ≠ LED_STYLE_IMMEDIATE ∨ line.text ≠ [] ↔ 0 < line.text.length := by
        rw [List.length_pos_iff]
        exact ⟨fun h => h.resolve_left (not_not_intro hshort.1), .inr⟩
      rw [hstyle, Nat.mul_pos_iff_of_pos_right (Nat.pos_of_ne_zero hcol)]
      refine ⟨fun ⟨htext, _⟩ => ⟨?_, htext⟩, fun ⟨_, htext⟩ => ⟨htext, by omega⟩⟩
      have hone : 1 * led.cWidth ≤ line.text.length * led.cWidth := Nat.mul_le_mul_right _ htext
      omega
    · rw [if_neg hshort]
      refine ⟨fun ⟨hw, _⟩ => ⟨hw, ?_⟩, fun ⟨hw, _⟩ => ⟨hw, by simp⟩⟩
      by_contra hnot
      rw [not_or, not_not, not_not] at hnot
      exact hshort ⟨hnot.1, by rw [hnot.2]; exact Nat.zero_le _⟩
  have hy : (placed led i line).pos.y.toNat = 16 * i.val := by
    rw [pos_placed.1, lineYTab_toNat]
  constructor
  · rintro ⟨hw, hr, -, hbottom⟩
    rw [hy, pos_placed.2] at hbottom
    exact ⟨hbottom, hspan.mp ⟨hw, hr⟩⟩
  · rintro ⟨hbottom, h⟩
    obtain ⟨hw, hr⟩ := hspan.mpr h
    exact ⟨hw, hr, by rw [pos_placed.2]; exact hpos, by rw [hy, pos_placed.2]; exact hbottom⟩

/-- The kept lines stand at the origins of their rows, or were never set. -/
def Origins (bufs : LinesBuf) : Prop :=
  ∀ i, (bufs i).pos.high = 0 ∨ (bufs i).pos.y.toNat = 16 * i.val

theorem origins_blankLines : Origins blankLines := fun _ => .inl rfl

theorem Origins.keep (h : Origins bufs) : Origins (keepLine led bufs line) := by
  intro j
  unfold keepLine
  split
  · rename_i hidx
    rw [Function.update_apply]
    split
    · rename_i heq
      rw [heq, pos_placed.1]
      exact .inr (lineYTab_toNat _)
    · exact h j
  · exact h j

theorem Origins.foldl (h : Origins bufs) : Origins (screen.foldl (keepLine led) bufs) := by
  induction screen generalizing bufs with
  | nil => exact h
  | cons line screen ih => exact ih h.keep

theorem style_cleared (line : ScreenLine) : (cleared line).style = line.style := by
  unfold cleared
  split
  · rfl
  · rfl

/-! ## The rows that are shown -/

theorem rowSpan_eq (hi : i.val < led.nrRow) :
    (screen.foldl (keepLine led) bufs i).span led = rowSpan led screen bufs i := by
  rw [foldl_keepLine hi, rowSpan]
  cases lastLine screen i with
  | some line =>
    dsimp only
    rw [span_placed, style_cleared]
  | none => rfl

theorem rowHigh_eq (hi : i.val < led.nrRow) :
    (screen.foldl (keepLine led) bufs i).pos.high.toNat = rowHigh led screen bufs i := by
  rw [foldl_keepLine hi, rowHigh]
  cases lastLine screen i with
  | some line => exact congrArg _ pos_placed.2
  | none => rfl

theorem rowSuits_iff (h : Origins bufs) (hcol : led.cWidth ≠ 0) (hlat : led.lattice ≠ 0)
    (hi : i.val < led.nrRow) :
    (screen.foldl (keepLine led) bufs i).Placed led ↔ RowSuits led screen bufs i := by
  rw [foldl_keepLine hi, RowSuits]
  cases lastLine screen i with
  | some line =>
    dsimp only
    rw [placed_placed_iff hcol hlat, style_cleared]
  | none =>
    dsimp only
    rw [UInt8.lt_iff_toNat_lt, UInt8.lt_iff_toNat_lt, UInt8.lt_iff_toNat_lt]
    have hspan : (if (bufs i).line.style = LED_STYLE_IMMEDIATE then
          (0 : UInt8).toNat < (bufs i).pos.width.toNat
            ∧ (bufs i).pos.x.toNat + (bufs i).pos.width.toNat ≤ led.width.toNat
        else (0 : UInt8).toNat < led.width.toNat)
        ↔ 0 < ((bufs i).span led).2
          ∧ ((bufs i).span led).1 + ((bufs i).span led).2 ≤ led.width.toNat := by
      rw [LineBuf.span]
      split
      · exact Iff.rfl
      · exact ⟨fun hw => ⟨hw, by simp⟩, fun hw => hw.1⟩
    rw [hspan]
    rcases h i with hzero | hy
    · rw [hzero]
      exact ⟨fun hp => absurd hp.high (by rw [hzero]; decide), fun hp => absurd hp.1 (by decide)⟩
    · rw [← hy]
      exact ⟨fun ⟨hw, hr, hh, hb⟩ => ⟨hh, hb, hw, hr⟩, fun ⟨hh, hb, hw, hr⟩ => ⟨hw, hr, hh, hb⟩⟩

theorem rowsApart_iff (h : Origins bufs) (hi : i.val < led.nrRow) (hj : j.val < led.nrRow)
    (hlt : i < j) (hpi : (screen.foldl (keepLine led) bufs i).Placed led)
    (hpj : (screen.foldl (keepLine led) bufs j).Placed led) :
    (regionData led (screen.foldl (keepLine led) bufs i)).Apart
        (regionData led (screen.foldl (keepLine led) bufs j))
      ↔ RowsApart led screen bufs i j := by
  have horigins : Origins (screen.foldl (keepLine led) bufs) := h.foldl
  have horigin : ∀ k, (screen.foldl (keepLine led) bufs k).Placed led →
      (screen.foldl (keepLine led) bufs k).pos.y.toNat = 16 * k.val := fun k hk =>
    (horigins k).resolve_left fun h0 => absurd hk.high (by rw [h0]; decide)
  have hval : i.val < j.val := hlt
  rw [apart_iff hpi hpj (by rw [horigin i hpi, horigin j hpj]; omega), horigin i hpi, horigin j hpj,
    rowHigh_eq hi, rowSpan_eq hi, rowSpan_eq hj]
  exact Iff.rfl

section RowsMade

variable {α β : Type} {f : α → List UInt8} {rows : List α} {room : Nat}

theorem rowsMade_sublist : (rowsMade f room rows).Sublist rows := by
  induction rows generalizing room with
  | nil => exact .slnil
  | cons row rows ih =>
    rw [rowsMade]
    split
    · exact ih.cons_cons row
    · exact ih.cons row

theorem rowsMade_map (g : β → α) (rows : List β) :
    rowsMade f room (rows.map g) = (rowsMade (fun row => f (g row)) room rows).map g := by
  induction rows generalizing room with
  | nil => rfl
  | cons row rows ih =>
    rw [List.map_cons, rowsMade, rowsMade]
    split
    · rw [ih, List.map_cons]
    · exact ih

theorem rowsMade_congr {f' : α → List UInt8} (h : ∀ row ∈ rows, f row = f' row) :
    rowsMade f room rows = rowsMade f' room rows := by
  induction rows generalizing room with
  | nil => rfl
  | cons row rows ih =>
    obtain ⟨hrow, hrows⟩ := List.forall_mem_cons.mp h
    rw [rowsMade, rowsMade, hrow, ih hrows, ih hrows]

end RowsMade

theorem mem_shownRows (h : i ∈ shownRows led screen bufs) : i.val < led.nrRow :=
  mem_rowIdxs.mp (rowsMade_sublist.subset h)

theorem pairwise_shownRows : (shownRows led screen bufs).Pairwise (· < ·) :=
  ((List.pairwise_lt_finRange _).sublist (List.take_sublist _ _)).sublist rowsMade_sublist

/-- The regions that are made are those of the rows that are shown. -/
theorem regions_eq : (rowsMade (·.line.text) (regionsRoom 2048).toNat
      (led.rows (screen.foldl (keepLine led) bufs))).map (regionData led)
    = (shownRows led screen bufs).map
      fun i => regionData led (screen.foldl (keepLine led) bufs i) := by
  have hroom : (regionsRoom 2048).toNat = 2048 - 79 := regionsRoom_of_le (by decide)
  have htext : ∀ i ∈ led.rowIdxs,
      (screen.foldl (keepLine led) bufs i).line.text = rowText screen bufs i := by
    intro i hi
    rw [foldl_keepLine (mem_rowIdxs.mp hi), rowText]
    cases lastLine screen i with
    | some line => exact text_placed _
    | none => rfl
  rw [hroom, ListenLedCfg.rows, rowsMade_map, List.map_map]
  exact congrArg _ (rowsMade_congr htext)

/-- The regions lie on the screen and apart exactly when the rows do. -/
theorem regions_shown_iff (h : Origins bufs) (hcol : led.cWidth ≠ 0) (hlat : led.lattice ≠ 0) :
    ((∀ g ∈ (shownRows led screen bufs).map
          fun i => regionData led (screen.foldl (keepLine led) bufs i), OnScreen led g)
        ∧ ((shownRows led screen bufs).map
          fun i => regionData led (screen.foldl (keepLine led) bufs i)).Pairwise RegionData.Apart)
      ↔ (∀ i ∈ shownRows led screen bufs, RowSuits led screen bufs i)
        ∧ (shownRows led screen bufs).Pairwise (RowsApart led screen bufs) := by
  have hon : (∀ g ∈ (shownRows led screen bufs).map
        fun i => regionData led (screen.foldl (keepLine led) bufs i), OnScreen led g)
      ↔ ∀ i ∈ shownRows led screen bufs, RowSuits led screen bufs i := by
    rw [List.forall_mem_map]
    exact forall₂_congr fun i hi => onScreen_iff.trans (rowSuits_iff h hcol hlat (mem_shownRows hi))
  rw [hon, List.pairwise_map]
  refine and_congr_right fun hsuits => ?_
  have hplaced : ∀ i ∈ shownRows led screen bufs,
      (screen.foldl (keepLine led) bufs i).Placed led := fun i hi =>
    (rowSuits_iff h hcol hlat (mem_shownRows hi)).mpr (hsuits i hi)
  have happart : ∀ {i j}, i ∈ shownRows led screen bufs → j ∈ shownRows led screen bufs → i < j →
      ((regionData led (screen.foldl (keepLine led) bufs i)).Apart
        (regionData led (screen.foldl (keepLine led) bufs j)) ↔ RowsApart led screen bufs i j) :=
    fun hi hj hlt => rowsApart_iff h (mem_shownRows hi) (mem_shownRows hj) hlt (hplaced _ hi)
      (hplaced _ hj)
  constructor
  · intro hpair
    exact (pairwise_shownRows.and hpair).imp_of_mem fun hi hj ⟨hlt, hap⟩ =>
      (happart hi hj hlt).mp hap
  · intro hpair
    exact (pairwise_shownRows.and hpair).imp_of_mem fun hi hj ⟨hlt, hap⟩ =>
      (happart hi hj hlt).mpr hap

end Place

/-! ## Runs of refreshes -/

section Refresh

variable {asserts : Bool} {bufs bufs' : LinesBuf} {r : Refresh}

theorem listenRefresh_refused (h : Refused r.lc) :
    listenRefresh asserts r.model r.lc r.mem r.screen bufs = .ok none := by
  rw [listenRefresh]
  rcases h with h | h | h
  · rw [if_pos h]
  · rw [if_pos h, ite_self]
  · rw [if_pos h, ite_self, ite_self]

theorem listenRefresh_accepted (h : ¬ Refused r.lc) :
    listenRefresh asserts r.model r.lc r.mem r.screen bufs
      = (makeReqFrm asserts (listenCfg r.model r.lc) r.mem 2048 r.screen bufs).map some := by
  rw [Refused, not_or, not_or] at h
  rw [listenRefresh, if_neg h.1, if_neg h.2.1, if_neg h.2.2]

/-- A lattice that is let through is 0 or at least 8. -/
theorem lattice_accepted (h : ¬ Refused r.lc) (h0 : (listenCfg r.model r.lc).lattice ≠ 0) :
    2 ≤ (listenCfg r.model r.lc).lattice := by
  rw [Refused, not_or, not_or, not_not, not_not, not_not] at h
  have hmod : r.lc.lattice.toNat % 8 = 0 := by
    have hbyte := congrArg UInt8.toNat h.2.2
    rwa [UInt8.toNat_mod] at hbyte
  have hmin : (listenCfg r.model r.lc).lattice = minByte r.lc.lattice 32 := rfl
  rw [hmin, minByte] at h0 ⊢
  split
  · rename_i hlt
    rw [if_pos hlt] at h0
    have hne : r.lc.lattice.toNat ≠ 0 := fun hz => h0 (UInt8.toNat_inj.mp hz)
    show (2 : UInt8).toNat ≤ r.lc.lattice.toNat
    have htwo : (2 : UInt8).toNat = 2 := rfl
    omega
  · decide

theorem shown_iff_suits (h : Origins bufs) : Shown asserts bufs r ↔ Suits asserts bufs r := by
  by_cases hrefused : Refused r.lc
  · rw [Shown, listenRefresh_refused hrefused]
    exact ⟨fun _ => .inl hrefused, fun _ => trivial⟩
  · rw [Shown, listenRefresh_accepted hrefused, Suits]
    generalize hled : listenCfg r.model r.lc = led
    have hlattice := lattice_accepted hrefused
    rw [hled] at hlattice
    by_cases h0 : led.lattice = 0
    · rw [makeReqFrm_divByZero (by rw [h0]; decide)]
      exact ⟨False.elim, fun hsuits => (hsuits.resolve_left hrefused).1 h0⟩
    · have h2 := hlattice h0
      by_cases hassert : asserts = true ∧ led.lattice ≠ 16 ∧ led.lattice ≤ led.high
      · rw [makeReqFrm_assertion h2 hassert.1 hassert.2.1 hassert.2.2]
        exact ⟨fun _ => .inr ⟨h0, .inl hassert⟩, fun _ => trivial⟩
      · have hsup : Supported asserts led := by
          refine ⟨h2, fun ha => ?_⟩
          by_contra hnot
          rw [not_or, UInt8.not_lt] at hnot
          exact hassert ⟨ha, hnot.1, hnot.2⟩
        obtain ⟨ret, out, hmake, -, -, -, hregions⟩ := makeReqFrm_ok r.mem 2048 r.screen bufs hsup
        rw [hmake]
        rw [regions_eq] at hregions
        show (∀ g ∈ out.regions, OnScreen led g) ∧ out.regions.Pairwise RegionData.Apart ↔ _
        rw [hregions, regions_shown_iff h hsup.divisors.2 h0]
        exact ⟨fun hrows => .inr ⟨h0, .inr hrows⟩, fun hsuits =>
          (hsuits.resolve_left hrefused).2.resolve_left hassert⟩

theorem Origins.step (h : Origins bufs) (hstep : refreshStep asserts bufs r = some bufs') :
    Origins bufs' := by
  rw [refreshStep] at hstep
  by_cases hrefused : Refused r.lc
  · rw [listenRefresh_refused hrefused] at hstep
    cases hstep
    exact h
  · rw [listenRefresh_accepted hrefused] at hstep
    cases hmake : makeReqFrm asserts (listenCfg r.model r.lc) r.mem 2048 r.screen bufs with
    | error e =>
      rw [hmake] at hstep
      cases hstep
    | ok p =>
      obtain ⟨ret, out⟩ := p
      obtain ⟨ret', out', hmake', -, -, hlines, -⟩ := makeReqFrm_ok r.mem 2048 r.screen bufs
        (supported_of_ok hmake)
      rw [hmake, Except.ok.injEq, Prod.mk.injEq] at hmake'
      obtain ⟨rfl, rfl⟩ := hmake'
      rw [hmake] at hstep
      cases hstep
      rw [hlines]
      exact h.foldl

/-- In every run of refreshes the regions lie on the screen and apart as long as the rows suit. -/
theorem regions_shown_along_iff (asserts : Bool) (rs : List Refresh) :
    Along (refreshStep asserts) (Shown asserts) blankLines rs
      ↔ Along (refreshStep asserts) (Suits asserts) blankLines rs :=
  along_congr origins_blankLines (fun _ _ _ h _ hstep => h.step hstep)
    fun _ _ h => shown_iff_suits h

/-- The sizes as they are in a configuration that has no file. -/
def ledSizes (height width lattice : UInt8) : LedCfg where
  model := 0
  rebootHour := 2
  rebootWday := 6
  lattice
  height
  width
  rebootEnable := false
  userContent := []

/-- The reader of the configuration accepts every size. -/
theorem exists_ledSizes_read (height width lattice : UInt8) (lc : LedCfg) :
    ∃ obj, readNew devLedCfgEntry obj lc = ledSizes height width lattice :=
  ⟨_, led_round (c := ledSizes height width lattice)
    ⟨show (0 : UInt8) < 3 by decide, show ((6 : UInt8).toNat : Int) ≤ 6 by decide,
      show ((2 : UInt8).toNat : Int) ≤ 23 by decide⟩ lc⟩

/-- A lattice of 0 is accepted. -/
theorem not_regions_shown_along : ¬ Along (refreshStep true) (Shown true) blankLines
    [⟨Vector.replicate 16 0, ledSizes 32 64 0, fun _ => 0, [lettersLine 0 4 (by decide)]⟩] :=
  fun h => h.1

end Refresh

end VdCamera.Dev
