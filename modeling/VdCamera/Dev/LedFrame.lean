import Mathlib.Algebra.Ring.Nat
import VdCamera.Config.Sections
import VdCamera.Dev.Led
import VdCamera.Dev.LedAsk

/-!
# Frames for the A4 card

`dev/led/listen.c` from `make_region` to `make_req_frm` and `listen_refresh` of
`ve/dev/led_ports.c`. The memory is a function of the place, counted from the start of the buffer; a
size and a pointer have 32 bits. The packed structures before their data have 20 bytes (`req_hdr_t`),
30 (`disp_data_t`), 25 (`sddata_t`) and 26 (`region_data_t`). `asserts` says whether `ASSERT`,
whose definition is not part of the sources, stops the program when its argument is false.
-/

namespace VdCamera.Dev

open Misc Config

def LED_TEXT_MAX_LEN : Nat := 1024

def LED_ACTION_CLR : UInt8 := 0x01

def LED_STYLE_IMMEDIATE : UInt8 := 0

def LED_STYLE_SHIFT_LEFT : UInt8 := 1

def A4_LED_LINES_NUM : Nat := 4

def UPDATE_OPT_CODE : Nat := 0xDA00

def STYLE_IMMEDIATE : UInt8 := 1

def STYLE_SHIFT_LEFT : UInt8 := 97

/-- `TIME_TO_A4_SPEED`. -/
def timeToA4Speed (ms : UInt16) : UInt8 :=
  if ms.toNat > 5 * 64 then 64 else UInt8.ofNat (ms.toNat / 5)

/-- A line with a text that fits into its `char` array. -/
structure ScreenLine extends LedLine where
  timePerCol : UInt16
  fits : text.length < LED_TEXT_MAX_LEN
  deriving DecidableEq

/-- `listen_led_cfg_t`. -/
structure ListenLedCfg where
  model : Vector UInt8 16
  addr : UInt8
  high : UInt8
  width : UInt8
  lattice : UInt8

/-- `region_pos_t`. -/
structure RegionPos where
  x : UInt8
  y : UInt8
  width : UInt8
  high : UInt8
  deriving DecidableEq, Repr

/-- `line_buf_t`. -/
structure LineBuf where
  line : ScreenLine
  pos : RegionPos
  deriving DecidableEq

/-- `lines_buf`. -/
abbrev LinesBuf := Fin A4_LED_LINES_NUM → LineBuf

/-- The number of `w` bytes that a packed structure holds at a place. -/
def numAt (w : Nat) (mem : Nat → UInt8) (p : Nat) : Nat := (readNum w p).value mem

/-- Why the program ends. -/
inductive Halt where
  | divByZero
  | assertion
  deriving DecidableEq, Repr

/-! ## A region -/

/-- `region_data_t` as `make_region` fills it. -/
structure RegionData where
  x : UInt16
  y : UInt16
  xx : UInt16
  yy : UInt16
  inStyle : UInt8
  speed : UInt8
  duration : Nat := 65533
  lattice : UInt8
  text : List UInt8
  deriving DecidableEq, Repr

/-- The values of the region; a place may be one before the first, as an `int`. -/
def regionData (led : ListenLedCfg) (buf : LineBuf) : RegionData where
  x := if buf.line.style = LED_STYLE_IMMEDIATE then buf.pos.x.toUInt16 else 0
  y := buf.pos.y.toUInt16
  xx :=
    if buf.line.style = LED_STYLE_IMMEDIATE then
      UInt16.ofInt (buf.pos.x.toNat + buf.pos.width.toNat - 1)
    else UInt16.ofInt (led.width.toNat - 1)
  yy := UInt16.ofInt (buf.pos.y.toNat + buf.pos.high.toNat - 1)
  inStyle := if buf.line.style = LED_STYLE_IMMEDIATE then STYLE_IMMEDIATE else STYLE_SHIFT_LEFT
  speed := timeToA4Speed buf.line.timePerCol
  lattice := led.lattice
  text := buf.line.text

/-- The bytes up to the colour; the bits of the two bit fields that have no name stay. -/
def regionHead (r : RegionData) (type color : UInt8) : List UInt8 :=
  (type ||| 1) :: (leBytes 4 (26 + r.text.length) ++ 0x0E :: (leBytes 2 r.x.toNat
    ++ leBytes 2 r.y.toNat ++ leBytes 2 r.xx.toNat ++ leBytes 2 r.yy.toNat
    ++ [color &&& 0xF8 ||| 1]))

/-- The bytes after the two that are not set. -/
def regionTail (r : RegionData) : List UInt8 :=
  r.inStyle :: r.speed :: (leBytes 2 r.duration ++ r.lattice :: leBytes 4 r.text.length) ++ r.text

/-- `make_region`: what it returns, the memory and the region. The two lengths are written before it
is known that the region fits. -/
def makeRegion (asserts : Bool) (led : ListenLedCfg) (mem : Nat → UInt8) (p : Nat)
    (bufsz : UInt32) (buf : LineBuf) : Except Halt (Int × (Nat → UInt8) × Option RegionData) :=
  if asserts && led.lattice ≠ 16 then .error .assertion
  else
    let r := regionData led buf
    let mem := overwrite mem (p + 22) (leBytes 4 r.text.length)
    let mem := overwrite mem (p + 1) (leBytes 4 (26 + r.text.length))
    if 26 + r.text.length > bufsz.toNat then .ok (-1, mem, none)
    else
      let mem := overwrite mem p (regionHead r (mem p) (mem (p + 14)))
      .ok ((26 + r.text.length : Nat), overwrite mem (p + 17) (regionTail r), some r)

/-! ## The show -/

/-- The divisor `c_width`. -/
def ListenLedCfg.cWidth (led : ListenLedCfg) : Nat := led.lattice.toNat / 2

def ListenLedCfg.nrCol (led : ListenLedCfg) : Nat := led.width.toNat / led.cWidth

/-- `nr_row`, at most the lines that are supported. -/
def ListenLedCfg.nrRow (led : ListenLedCfg) : Nat :=
  min (led.high.toNat / led.lattice.toNat) A4_LED_LINES_NUM

def lineYTab : Fin A4_LED_LINES_NUM → UInt8 := [0, 16, 32, 48].get

/-- A line that clears shows a blank. -/
def cleared (line : ScreenLine) : ScreenLine :=
  if ledLineHaveAction line.toLedLine LED_ACTION_CLR then
    { line with text := [32], fits := by decide }
  else line

/-- A line with its position. A text that is wider than the screen runs. -/
def placed (led : ListenLedCfg) (i : Fin A4_LED_LINES_NUM) (line : ScreenLine) : LineBuf :=
  if line.text.length > led.nrCol then
    { line := { line with style := LED_STYLE_SHIFT_LEFT }
      pos := ⟨0, lineYTab i, led.width, led.lattice⟩ }
  else
    { line
      pos := ⟨UInt8.ofNat ((led.nrCol - line.text.length) / 2 * led.cWidth), lineYTab i,
        UInt8.ofNat (line.text.length * led.cWidth), led.lattice⟩ }

/-- What `make_show` does with a line of the screen. -/
def keepLine (led : ListenLedCfg) (bufs : LinesBuf) (line : ScreenLine) : LinesBuf :=
  if h : line.idx.toNat < led.nrRow then
    let i : Fin A4_LED_LINES_NUM := ⟨line.idx.toNat, h.trans_le (Nat.min_le_right _ _)⟩
    Function.update bufs i (placed led i (cleared line))
  else bufs

/-- What the loop over the rows works on, and beside it the regions it has made. -/
structure ShowState where
  mem : Nat → UInt8
  p : UInt32
  remain : UInt32
  regions : List RegionData := []

/-- A round of the loop; `false` where `make_show` returns -1. The result of `make_region` is kept
in a `size_t`. -/
def addRegion (asserts : Bool) (led : ListenLedCfg) (sd : Nat) (buf : LineBuf)
    (s : ShowState) : Except Halt (Bool × ShowState) :=
  match makeRegion asserts led s.mem s.p.toNat s.remain buf with
  | .error e => .error e
  | .ok (ret, mem, made) =>
    let len := UInt32.ofInt ret
    if len ≤ 0 then .ok (false, { s with mem })
    else .ok (true, {
      mem := overwrite mem (sd + 1) (leBytes 4 ((numAt 4 mem (sd + 1) + len.toNat) % 2 ^ 32))
      p := s.p + len
      remain := s.remain - len
      regions := s.regions ++ made.toList })

def addRegions (asserts : Bool) (led : ListenLedCfg) (sd : Nat) :
    List LineBuf → ShowState → Except Halt (Bool × ShowState)
  | [], s => .ok (true, s)
  | buf :: bufs, s =>
    match addRegion asserts led sd buf s with
    | .error e => .error e
    | .ok (false, s) => .ok (false, s)
    | .ok (true, s) => addRegions asserts led sd bufs s

/-- The header of the show, with the length of a show without regions. -/
def showHeader (led : ListenLedCfg) : List UInt8 :=
  0 :: (leBytes 4 25 ++ UInt8.ofNat led.nrRow :: (leBytes 2 100 ++ 11 :: List.replicate 16 0))

/-- What is left behind; `locked` says whether the mutex of the lines is held. -/
structure FrameOut where
  mem : Nat → UInt8
  lines : LinesBuf
  regions : List RegionData
  locked : Bool

/-- The kept lines that are shown. -/
def ListenLedCfg.rows (led : ListenLedCfg) (bufs : LinesBuf) : List LineBuf :=
  ((List.finRange A4_LED_LINES_NUM).take led.nrRow).map bufs

/-- `make_show`. -/
def makeShow (asserts : Bool) (led : ListenLedCfg) (mem : Nat → UInt8) (sd : Nat)
    (bufsz : UInt32) (screen : List ScreenLine) (bufs : LinesBuf) : Except Halt (Int × FrameOut) :=
  if led.lattice = 0 then .error .divByZero
  else if led.cWidth = 0 then .error .divByZero
  else
    let mem := overwrite mem sd (showHeader led)
    let bufs := screen.foldl (keepLine led) bufs
    match addRegions asserts led sd (led.rows bufs)
        { mem, p := UInt32.ofNat (sd + 25), remain := bufsz - 26 + 1 } with
    | .error e => .error e
    | .ok (false, s) => .ok (-1, ⟨s.mem, bufs, s.regions, true⟩)
    | .ok (true, s) =>
      .ok (Int.bmod (numAt 4 s.mem (sd + 1)) (2 ^ 32), ⟨s.mem, bufs, s.regions, false⟩)

/-! ## The frame -/

/-- `make_disp`; the eight reserved bytes are not set. -/
def makeDisp (asserts : Bool) (led : ListenLedCfg) (mem : Nat → UInt8) (disp : Nat)
    (bufsz : UInt32) (screen : List ScreenLine) (bufs : LinesBuf) : Except Halt (Int × FrameOut) :=
  let mem := overwrite mem disp
    (led.model.toList ++ (leBytes 2 led.width.toNat ++ (leBytes 2 led.high.toNat ++ [1, 1])))
  match makeShow asserts led mem (disp + 30) (bufsz - 31 + 1) screen bufs with
  | .error e => .error e
  | .ok (len, out) => if len ≤ 0 then .ok (-1, out) else .ok (30 + len, out)

/-- The header of the request. -/
def reqHeader (led : ListenLedCfg) (len : Int) : List UInt8 :=
  askSof ++ (led.addr :: 0x01 :: (leBytes 2 UPDATE_OPT_CODE ++ (leBytes 2 0 ++ (leBytes 4 0
    ++ (leBytes 4 len.toNat ++ leBytes 2 len.toNat)))))

/-- `make_req_frm`. -/
def makeReqFrm (asserts : Bool) (led : ListenLedCfg) (mem : Nat → UInt8) (bufsz : UInt32)
    (screen : List ScreenLine) (bufs : LinesBuf) : Except Halt (Int × FrameOut) :=
  match makeDisp asserts led mem 20 (bufsz - 20 - 4) screen bufs with
  | .error e => .error e
  | .ok (len, out) =>
    if len ≤ 0 then .ok (-1, out)
    else
      let mem := overwrite out.mem 0 (reqHeader led len)
      .ok (20 + len + 4, { out with mem := overwrite mem (20 + len.toNat) askEof })

/-! ## The refresh -/

def LISTEN_A4_LATTICE_UNIT : UInt8 := 8

/-- The macro `min` at bytes. -/
def minByte (x y : UInt8) : UInt8 := if x < y then x else y

/-- What `listen_refresh` hands to the driver; it does not set the model. -/
def listenCfg (model : Vector UInt8 16) (lc : LedCfg) : ListenLedCfg where
  model
  addr := 1
  high := minByte lc.height 64
  width := minByte lc.width 64
  lattice := minByte lc.lattice 32

/-- `listen_refresh` up to the frame that is sent when the serial line is open; `none` where it
returns `-EINVAL`. -/
def listenRefresh (asserts : Bool) (model : Vector UInt8 16) (lc : LedCfg) (mem : Nat → UInt8)
    (screen : List ScreenLine) (bufs : LinesBuf) : Except Halt (Option (Int × FrameOut)) :=
  if lc.height % LISTEN_A4_LATTICE_UNIT ≠ 0 then .ok none
  else if lc.width % LISTEN_A4_LATTICE_UNIT ≠ 0 then .ok none
  else if lc.lattice % LISTEN_A4_LATTICE_UNIT ≠ 0 then .ok none
  else (makeReqFrm asserts (listenCfg model lc) mem 2048 screen bufs).map some

/-- A call of `listen_refresh`. -/
structure Refresh where
  model : Vector UInt8 16
  lc : LedCfg
  mem : Nat → UInt8
  screen : List ScreenLine

/-- The kept lines before the first refresh. -/
def blankLines : LinesBuf := fun _ =>
  { line := {
      idx := 0, mode := 0, action := 0, style := 0, duration := 0, volume := 0, cover := false
      text := [], audio := [], timePerCol := 0, fits := by decide }
    pos := ⟨0, 0, 0, 0⟩ }

/-- The lines that are kept after a refresh; `none` when the program ends. -/
def refreshStep (asserts : Bool) (bufs : LinesBuf) (r : Refresh) : Option LinesBuf :=
  match listenRefresh asserts r.model r.lc r.mem r.screen bufs with
  | .error _ => none
  | .ok none => some bufs
  | .ok (some (_, out)) => some out.lines

end VdCamera.Dev
