import VdCamera.Misc.Decimal
import VdCamera.Misc.Peek
import VdCamera.Misc.Run

/-!
# The receiver of the down tunnel

`dts_recv` of `ve/platform/bitcom/thread.cpp` and the reading of its header in `proto.cpp`. The
static variables of `dts_recv` are a state; one call receives one chunk of the stream.
-/

namespace VdCamera.Platform

open Misc

/-- `dts_head_t`. -/
structure DtsHead where
  sof : List UInt8 := []
  daddr : List UInt8 := []
  type : Int := 0
  cs : Nat := 0
  dataLen : Nat := 0
  headLen : Nat := 0
  deriving DecidableEq, Repr

/-- `IPNC`. -/
def marker : List UInt8 := [73, 80, 78, 67]

/-- `,`. -/
def comma : UInt8 := 44

/-- `dts_find_head`; `beyond` is what follows the data in memory, which the comparison of the last
three bytes reads. -/
def dtsFindHead (beyond : List UInt8) : List UInt8 → Option Nat
  | [] => none
  | b :: bs =>
    if marker.isPrefixOf (b :: bs ++ beyond) then some 0 else (dtsFindHead beyond bs).map (· + 1)

/-- A number put into an unsigned field of 32 bits. -/
def toUInt32 (n : Int) : Nat := (n % 2 ^ 32).toNat

/-- The field before the `cnt`-th comma; a number is read through a buffer of 128 bytes. -/
def DtsHead.setField (cnt : Nat) (field : List UInt8) (info : DtsHead) : DtsHead :=
  match cnt with
  | 1 => { info with sof := field.take 31 }
  | 2 => { info with daddr := field.take 31 }
  | 3 => { info with type := strtol (field.take 127) }
  | 4 => { info with cs := toUInt32 (strtol (field.take 127)) }
  | 5 => { info with dataLen := toUInt32 (strtol (field.take 127)) }
  | _ => info

/-- The loop of `dts_get_frm_info` after `cnt` commas, `field` being what it has read since the last
one and `pos` how much it has read; false when it comes to the end before the fifth comma. -/
def frmInfoLoop (cnt : Nat) (field : List UInt8) (pos : Nat) :
    List UInt8 → DtsHead → Bool × DtsHead
  | [], info => (false, info)
  | b :: bs, info =>
    if b = comma then
      let info := info.setField (cnt + 1) field
      if cnt + 1 = 5 then (true, { info with headLen := pos + 1 })
      else frmInfoLoop (cnt + 1) [] (pos + 1) bs info
    else frmInfoLoop cnt (field ++ [b]) (pos + 1) bs info

/-- `dts_get_frm_info`. The fields it reads before it fails stay changed. -/
def dtsGetFrmInfo (hdr : List UInt8) (info : DtsHead) : Bool × DtsHead :=
  frmInfoLoop 0 [] 0 hdr info

/-- `get_sum_chk`. -/
def getSumChk (data : List UInt8) : Nat := (data.map UInt8.toNat).sum % 2 ^ 32

/-- The static variables of `dts_recv`: `data` is what has been written of `msg.bitcom.data` up to
`wp`, `none` for the null pointer. -/
structure Dts where
  data : Option (List UInt8) := none
  dataLens : Nat := 0
  remain : Nat := 0
  info : DtsHead := {}
  deriving DecidableEq, Repr

/-- What one `recv` returns, with what follows it in the buffer and whether memory can be allocated.
-/
structure Chunk where
  bytes : List UInt8
  ne : bytes ≠ []
  beyond : List UInt8
  allocOk : Bool := true

/-- The copy of `len` bytes from `frm`, and the end of the frame; what was sent to the processing
thread, if anything. -/
def dtsCopy (frm : List UInt8) (len : Nat) (s : Dts) : Option (List UInt8) × Dts :=
  match s.data with
  | none => (none, s)
  | some got =>
    let l := min len s.remain
    let got := got ++ frm.take l
    let remain := s.remain - l
    if remain = 0 then
      let cs := getSumChk ((got.drop s.info.headLen).take s.info.dataLen)
      if cs = s.info.cs then (some got, { s with data := none, remain })
      else (none, { s with data := none, remain })
    else (none, { s with data := some got, remain })

/-- `dts_recv`. -/
def dtsRecv (s : Dts) (c : Chunk) : Option (List UInt8) × Dts :=
  match dtsFindHead c.beyond c.bytes with
  | some k =>
    let hdr := c.bytes.drop k
    match dtsGetFrmInfo hdr s.info with
    | (true, info) =>
      let dataLens := (info.dataLen + info.headLen) % 2 ^ 32
      if c.allocOk then
        dtsCopy hdr hdr.length { data := some [], dataLens, remain := dataLens, info }
      else (none, { s with data := none, dataLens, info })
    -- the length stays reduced, but the copy is from the beginning of the chunk
    | (false, info) => dtsCopy c.bytes hdr.length { s with info }
  | none => dtsCopy c.bytes c.bytes.length s

/-- The frames sent on when the chunks are received one after the other. -/
def dtsFeed : Dts → List Chunk → List (List UInt8) × Dts
  | s, [] => ([], s)
  | s, c :: cs =>
    let (sent, s) := dtsRecv s c
    let (sents, s) := dtsFeed s cs
    (sent.toList ++ sents, s)

/-! ## The memory that the receiver of the down tunnel touches

`dts_find_head`, `dts_get_frm_info`, `get_sum_chk` and `dts_recv` with every byte of the chunk that
they read and every address that they read or write. Addresses have 32 bits.
-/

/-- A byte of the chunk, by its index, or one of the memory, by its address. -/
inductive DtsPlace
  | chunk (i : Nat)
  | memory (a : Nat)
  deriving DecidableEq, Repr

/-- The memory from the start of the chunk on. -/
def Chunk.mem (c : Chunk) (i : Nat) : UInt8 := ((c.bytes ++ c.beyond)[i]?).getD 0

/-- `dts_find_head` of `len` bytes. -/
def dtsFindHeadAt (len : Nat) : Peek Nat UInt8 (Option Nat) := Peek.findSub marker len 0

/-- How much of a field is copied. -/
def fieldRoom (cnt : Nat) : Nat := if cnt ≤ 2 then 31 else 127

/-- The loop of `dts_get_frm_info` with `n` bytes left from `i` on; the field under way begins at
`p`. -/
def frmInfoAt (hdr : Nat) : Nat → Nat → Nat → Nat → DtsHead → Peek Nat UInt8 (Bool × DtsHead)
  | 0, _, _, _, info => return (false, info)
  | n + 1, cnt, p, i, info => do
    let b ← Peek.read i
    if b = comma then
      let field ← Peek.contents (min (i - p) (fieldRoom (cnt + 1))) p
      let info := info.setField (cnt + 1) field
      if cnt + 1 = 5 then return (true, { info with headLen := i + 1 - hdr })
      else frmInfoAt hdr n (cnt + 1) (i + 1) (i + 1) info
    else frmInfoAt hdr n cnt p (i + 1) info

/-- `dts_get_frm_info` of the `len` bytes from `hdr` on. -/
def dtsGetFrmInfoAt (hdr len : Nat) (info : DtsHead) : Peek Nat UInt8 (Bool × DtsHead) :=
  frmInfoAt hdr len 0 hdr hdr info

/-- The addresses that `get_sum_chk` reads: its pointers wrap. -/
def sumPlaces (data len : Nat) : List Nat :=
  let p := data % 2 ^ 32
  let end_ := (data + len) % 2 ^ 32
  List.range' p (end_ - p)

/-- The variables of `dts_recv`, with the address of `msg.bitcom.data`. -/
structure DtsMem where
  dts : Dts := {}
  base : Nat := 0

/-- A chunk, and the address that `xmalloc` returns if it is called and succeeds. -/
structure DtsInput where
  chunk : Chunk
  addr : Nat

/-- A frame that begins. -/
def DtsHead.start (info : DtsHead) : Dts where
  data := some []
  dataLens := (info.dataLen + info.headLen) % 2 ^ 32
  remain := (info.dataLen + info.headLen) % 2 ^ 32
  info := info

/-- The copy of up to `len` bytes of the chunk from place `frm` on, and the end of the frame. Where
the log takes text, it prints the frame as a string. -/
def dtsCopyPlaces (logs : Bool) (base : Nat) (bytes : List UInt8) (frm len : Nat) (s : Dts) :
    List DtsPlace :=
  match s.data with
  | none => []
  | some got =>
    let l := min len s.remain
    let frame := got ++ (bytes.drop frm).take l
    (List.range' frm l).map .chunk ++ (List.range' (base + got.length) l).map .memory
      ++ if s.remain - l = 0 then
        (sumPlaces (base + s.info.headLen) s.info.dataLen).map .memory
          ++ if logs then (List.range' base (frame.idxOf 0 + 1)).map .memory else []
      else []

/-- What `dts_recv` touches. -/
def dtsPlaces (logs : Bool) (m : DtsMem) (i : DtsInput) : List DtsPlace :=
  let c := i.chunk
  let len := c.bytes.length
  ((dtsFindHeadAt len).places c.mem).map .chunk
    ++ match dtsFindHead c.beyond c.bytes with
    | some k =>
      ((dtsGetFrmInfoAt k (len - k) m.dts.info).places c.mem).map .chunk
        ++ match dtsGetFrmInfo (c.bytes.drop k) m.dts.info with
        | (true, info) =>
          if c.allocOk then dtsCopyPlaces logs i.addr c.bytes k (len - k) info.start else []
        | (false, info) =>
          dtsCopyPlaces logs m.base c.bytes 0 (len - k) { m.dts with info }
    | none => dtsCopyPlaces logs m.base c.bytes 0 len m.dts

/-- The buffer of the frame that the chunk goes to: its address and its size. -/
def dtsFrame (m : DtsMem) (i : DtsInput) : Nat × Nat :=
  match dtsFindHead i.chunk.beyond i.chunk.bytes with
  | some k =>
    match dtsGetFrmInfo (i.chunk.bytes.drop k) m.dts.info with
    | (true, info) => (i.addr, (info.dataLen + info.headLen) % 2 ^ 32)
    | (false, _) => (m.base, m.dts.dataLens)
  | none => (m.base, m.dts.dataLens)

/-- `dts_recv` of one chunk. -/
def dtsStep (m : DtsMem) (i : DtsInput) : Option DtsMem :=
  some { dts := (dtsRecv m.dts i.chunk).2, base := (dtsFrame m i).1 }

/-- The place lies in the chunk or in the frame's buffer. -/
def DtsPlace.Inside (chunkLen : Nat) (frame : Nat × Nat) : DtsPlace → Prop
  | .chunk j => j < chunkLen
  | .memory a => frame.1 ≤ a ∧ a < frame.1 + frame.2

/-- The chunk and the buffer lie in the memory of 32 bits, the byte behind the buffer as well. -/
def MemoryOk (m : DtsMem) (i : DtsInput) : Prop :=
  i.chunk.bytes.length < 2 ^ 32 ∧ (i.chunk.allocOk = true → i.addr + (dtsFrame m i).2 < 2 ^ 32)

end VdCamera.Platform
