import VdCamera.Misc.Json

/-!
# The items of a configuration

`json_cfg.c`: the hash table of the items and the names of enumerations. Below it the loops that the
reader and the writer of every section share, and the kinds of fields that the sections have.
-/

namespace VdCamera.Config

open Misc

/-- `set` may put a field that is out of its range back into it. -/
structure JsonCfgItem (σ : Type) where
  field : List UInt8
  get : Json → σ → σ
  set : σ → σ × Json

/-- A `char` is signed. -/
def calStrHashVal (s : List UInt8) : UInt32 :=
  s.foldl (fun value c => value * 37 + c.toInt8.toInt32.toUInt32) 0

def jsonCfgHashSize : UInt32 := 8

def calParserFieldHashPos (s : List UInt8) : UInt32 := calStrHashVal s % jsonCfgHashSize

/-- The heads of the lists of a hash table. -/
abbrev JsonCfg (σ : Type) := UInt32 → List (JsonCfgItem σ)

variable {σ τ : Type}

def jsonCfgParserAddItem (jc : JsonCfg σ) (item : JsonCfgItem σ) : JsonCfg σ :=
  fun addr => if addr = calParserFieldHashPos item.field then item :: jc addr else jc addr

def jsonCfgInit (tab : List (JsonCfgItem σ)) : JsonCfg σ :=
  tab.foldl jsonCfgParserAddItem fun _ => []

def jsonCfgFind (jc : JsonCfg σ) (field : List UInt8) : Option (JsonCfgItem σ) :=
  (jc (calParserFieldHashPos field)).find? fun item => item.field = field

/-- Names of the values of an enumeration. -/
abbrev EnumStr := List (Int × List UInt8)

def enum2str (tab : EnumStr) (e : Int) : Option (List UInt8) :=
  (tab.find? fun p => p.1 = e).map Prod.snd

def str2enum (tab : EnumStr) (s : List UInt8) : Int :=
  match tab.find? fun p => p.2 = s with
  | some p => p.1
  | none => -1

/-! ## Sections -/

/-- `json_object_object_foreach` of a reader. -/
def readMembers (jc : JsonCfg σ) : Members → σ → σ
  | .nil, arg => arg
  | .cons key val ms, arg =>
    match jsonCfgFind jc key with
    | some item => readMembers jc ms (item.get val arg)
    | none => readMembers jc ms arg

/-- What every `.._cfg_read_new` does with the items of its section. -/
def readNew (tab : List (JsonCfgItem σ)) (obj : Json) (arg : σ) : σ :=
  match obj with
  | .obj ms => readMembers (jsonCfgInit tab) ms arg
  | _ => arg

/-- The loop of a writer over its items. -/
def writeMembers (jc : JsonCfg σ) : List (JsonCfgItem σ) → σ → σ × Members
  | [], arg => (arg, .nil)
  | entry :: tab, arg =>
    match jsonCfgFind jc entry.field with
    | some item =>
      let (arg, obj) := item.set arg
      let (arg, ms) := writeMembers jc tab arg
      (arg, .cons item.field obj ms)
    | none => writeMembers jc tab arg

/-- What every `.._cfg_write_new` does with the items of its section. -/
def writeNew (tab : List (JsonCfgItem σ)) (arg : σ) : σ × Json :=
  let (arg, ms) := writeMembers (jsonCfgInit tab) tab arg
  (arg, .obj ms)

/-! ## Fields

Where a field lies in its structure is a pair of functions, one that reads and one that writes it.
-/

/-- An item that is a section of its own. -/
def sectionItem (field : List UInt8) (tab : List (JsonCfgItem τ)) (proj : σ → τ)
    (upd : τ → σ → σ) : JsonCfgItem σ where
  field := field
  get := fun val arg => upd (readNew tab val (proj arg)) arg
  set := fun arg => (upd (writeNew tab (proj arg)).1 arg, (writeNew tab (proj arg)).2)

/-- A string of at most `size - 1` bytes. -/
def stringItem (field : List UInt8) (size : Nat) (proj : σ → List UInt8)
    (upd : List UInt8 → σ → σ) : JsonCfgItem σ where
  field := field
  get := fun val arg =>
    match val with
    | .str s => upd (s.take (size - 1)) arg
    | _ => arg
  set := fun arg => (arg, .str (proj arg))

/-- A value of an enumeration with the one that a reader takes for an unknown name and the name that
a writer gives to an unknown value. -/
def enumItem (field : List UInt8) (tab : EnumStr) («end» dft : UInt8) (name : List UInt8)
    (proj : σ → UInt8) (upd : UInt8 → σ → σ) : JsonCfgItem σ where
  field := field
  get := fun val arg =>
    match val with
    | .str s =>
      let e := UInt8.ofInt (str2enum tab s)
      if «end» ≤ e then upd dft arg else upd e arg
    | _ => arg
  set := fun arg => (arg, .str ((enum2str tab (proj arg).toNat).getD name))

/-- A number up to a bound, with what a reader and a writer take for one above it. -/
def boundedItem (field : List UInt8) (bound : Int) (dft reset : UInt8) (proj : σ → UInt8)
    (upd : UInt8 → σ → σ) : JsonCfgItem σ where
  field := field
  get := fun val arg =>
    match val with
    | .int tmp => if 0 ≤ tmp ∧ tmp ≤ bound then upd (UInt8.ofInt tmp) arg else upd dft arg
    | _ => arg
  set := fun arg =>
    let arg := if bound < (proj arg).toNat then upd reset arg else arg
    (arg, .int (proj arg).toNat)

/-- A number that nobody checks. -/
def byteItem (field : List UInt8) (proj : σ → UInt8) (upd : UInt8 → σ → σ) : JsonCfgItem σ where
  field := field
  get := fun val arg =>
    match val with
    | .int tmp => upd (UInt8.ofInt tmp) arg
    | _ => arg
  set := fun arg => (arg, .int (proj arg).toNat)

def boolItem (field : List UInt8) (proj : σ → Bool) (upd : Bool → σ → σ) : JsonCfgItem σ where
  field := field
  get := fun val arg =>
    match val with
    | .bool b => upd b arg
    | _ => arg
  set := fun arg => (arg, .bool (proj arg))

/-- The number of a port, with what a reader takes for a number that is none. -/
def portItem (field : List UInt8) (dft : UInt16) (proj : σ → UInt16) (upd : UInt16 → σ → σ) :
    JsonCfgItem σ where
  field := field
  get := fun val arg =>
    match val with
    | .int tmp => if 0 < tmp ∧ tmp ≤ 65535 then upd (UInt16.ofInt tmp) arg else upd dft arg
    | _ => arg
  set := fun arg => (arg, .int (proj arg).toNat)

/-! ## Addresses -/

/-- `struct in_addr`. -/
structure InAddr where
  a : UInt8
  b : UInt8
  c : UInt8
  d : UInt8
deriving DecidableEq

/-- `inet_ntop(AF_INET, ..)`. -/
def inetNtop (ip : InAddr) : List UInt8 :=
  fmtInt ip.a.toNat ++ 46 :: (fmtInt ip.b.toNat ++ 46 :: (fmtInt ip.c.toNat ++ 46 ::
    fmtInt ip.d.toNat))

/-- One digit of a part of an address; a part has no leading zero and is not above 255. -/
def octetDigit (cur : Option Nat) (c : UInt8) : Option (Option Nat) :=
  match cur with
  | none => some (some (c.toNat - 48))
  | some n =>
    if n = 0 then none
    else if 255 < n * 10 + (c.toNat - 48) then none
    else some (some (n * 10 + (c.toNat - 48)))

/-- The loop of `inet_pton(AF_INET, ..)`: the parts before and the digits of the one it is in. -/
def ptonLoop : List Nat → Option Nat → List UInt8 → Option (List Nat)
  | parts, cur, [] => cur.map fun n => parts ++ [n]
  | parts, cur, c :: s =>
    if isDigit c then (octetDigit cur c).bind fun cur => ptonLoop parts cur s
    else if c = 46 then
      cur.bind fun n => if parts.length = 3 then none else ptonLoop (parts ++ [n]) none s
    else none

def inetPton (s : List UInt8) : Option InAddr :=
  match ptonLoop [] none s with
  | some [a, b, c, d] =>
    some ⟨UInt8.ofNat a, UInt8.ofNat b, UInt8.ofNat c, UInt8.ofNat d⟩
  | _ => none

/-- An address, with what a reader takes for a string that is none. -/
def addrItem (field : List UInt8) (dft : List UInt8) (proj : σ → InAddr) (upd : InAddr → σ → σ) :
    JsonCfgItem σ where
  field := field
  get := fun val arg =>
    match val with
    | .str s =>
      match inetPton s with
      | some ip => upd ip arg
      | none =>
        match inetPton dft with
        | some ip => upd ip arg
        | none => arg
    | _ => arg
  set := fun arg => (arg, .str (inetNtop (proj arg)))

/-! ## The pretty printer of the configuration

`json_format_stream` of `json_format.c`: it copies a text to a stream character by character and
puts a line feed and an indentation behind each `{` and `,` and in front of each `}`.
-/

/-- An open stream: what has been handed to it, and how many more characters it takes; `none` for a
stream that takes all of them. -/
structure File where
  data : List UInt8
  room : Option Nat
deriving DecidableEq

def fputc (c : UInt8) (f : File) : Bool × File :=
  match f.room with
  | none => (true, { f with data := f.data ++ [c] })
  | some 0 => (false, f)
  | some (n + 1) => (true, { data := f.data ++ [c], room := some n })

def putSpaces : Nat → File → Bool × File
  | 0, f => (true, f)
  | n + 1, f =>
    match fputc 32 f with
    | (true, f) => putSpaces n f
    | (false, f) => (false, f)

/-- The number of spaces, or `(size_t)-1`. -/
def jsonAddSpaceStream (nrSpace : UInt64) (f : File) : UInt64 × File :=
  match putSpaces nrSpace.toNat f with
  | (true, f) => (nrSpace, f)
  | (false, f) => (-1, f)

/-- Whether a line ends between two characters. -/
def breaks (c next : UInt8) : Bool := c = 123 || c = 44 || next = 125

/-- The indentation behind a character. -/
def indentAfter (indent indentLen : UInt64) (c next : UInt8) : UInt64 :=
  if c = 123 then indentLen + indent else if next = 125 then indentLen - indent else indentLen

/-- The loop of `json_format_stream` over the rest of a string. -/
def formatLoop (indent : UInt64) : UInt64 → Nat → List UInt8 → File → Int × File
  | _, len, [], f => (len, f)
  | indentLen, len, c :: s, f =>
    match fputc c f with
    | (false, f) => (-1, f)
    | (true, f) =>
      let next := s.headD 0
      let indentLen := indentAfter indent indentLen c next
      if breaks c next then
        match fputc 10 f with
        | (false, f) => (-1, f)
        | (true, f) =>
          match jsonAddSpaceStream indentLen f with
          | (n, f) =>
            if n ≠ indentLen then (-1, f)
            else formatLoop indent indentLen (len + 1 + 1 + indentLen.toNat) s f
      else formatLoop indent indentLen (len + 1) s f

def jsonFormatStream (src : List UInt8) (indent : UInt64) (f : File) : Int × File :=
  if src.headD 0 ≠ 123 then (-1, f) else formatLoop indent 0 0 src f

/-- What a line that ends is filled with. -/
def padding (indentLen : UInt64) (c next : UInt8) : List UInt8 :=
  if breaks c next then 10 :: List.replicate indentLen.toNat 32 else []

/-- The text that the loop writes when nothing fails; `next` is what follows the text. -/
def indented (indent : UInt64) (next : UInt8) : UInt64 → List UInt8 → List UInt8
  | _, [] => []
  | indentLen, c :: s =>
    let indentLen := indentAfter indent indentLen c (s.headD next)
    c :: (padding indentLen c (s.headD next) ++ indented indent next indentLen s)

end VdCamera.Config
