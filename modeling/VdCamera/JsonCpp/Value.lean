import VdCamera.Misc.Decimal

/-!
# Values of the JSON library

`Json::Value` with the accessors that the program reads a configuration by. An accessor is `none`
where the library's assertion fails or where it throws what nobody catches. Reals are left out.
-/

namespace VdCamera.JsonCpp

open Misc (ascii)

/-- A string is the bytes that were given; the members of an object stand under their names. -/
inductive Value
  | null
  | boolean (b : Bool)
  | int (n : Int32)
  | uint (n : UInt32)
  | string (s : List UInt8)
  | array (vs : List Value)
  | object (ms : List (String × Value))

namespace Value

def isNull : Value → Bool
  | .null => true
  | _ => false

/-- `operator[] (const char *) const`. -/
def index (v : Value) (key : String) : Option Value :=
  match v with
  | .null => some .null
  | .object ms => some ((ms.lookup key).getD .null)
  | _ => none

/-- A C string of these bytes: it ends before the first terminator. -/
def cut (s : List UInt8) : List UInt8 := s.takeWhile (· ≠ 0)

def asString : Value → Option (List UInt8)
  | .null => some []
  | .string s => some (cut s)
  | .boolean b => some (if b then ascii "true" else ascii "false")
  | _ => none

def asInt : Value → Option Int32
  | .null => some 0
  | .int n => some n
  | .uint n => if n.toNat < 2 ^ 31 - 1 then some n.toInt32 else none
  | .boolean b => some (if b then 1 else 0)
  | _ => none

def asUInt : Value → Option UInt32
  | .null => some 0
  | .int n => if 0 ≤ n then some n.toUInt32 else none
  | .uint n => some n
  | .boolean b => some (if b then 1 else 0)
  | _ => none

def asCString : Value → Option (List UInt8)
  | .string s => some (cut s)
  | _ => none

def size : Value → Nat
  | .array vs => vs.length
  | .object ms => ms.length
  | _ => 0

/-- What stands at the indices below `size()`. -/
def items : Value → Option (List Value)
  | .array vs => some vs
  | .object (_ :: _) => none
  | _ => some []

/-- `v[key].asString()` -/
def text (v : Value) (key : String) : Option (List UInt8) := (v.index key).bind asString

/-! ## Reading what is there -/

variable {ms : List (String × Value)} {key : String}

@[simp]
theorem index_object : (object ms).index key = some ((ms.lookup key).getD .null) := (rfl)

@[simp]
theorem asString_string (s : List UInt8) : (string s).asString = some (cut s) := (rfl)

@[simp] theorem asInt_int (n : Int32) : (int n).asInt = some n := (rfl)

@[simp] theorem items_array (vs : List Value) : (array vs).items = some vs := (rfl)

@[simp]
theorem text_object : (object ms).text key = ((ms.lookup key).getD .null).asString := by
  simp [text]

theorem cut_nil : cut [] = [] := rfl

theorem cut_eq_self_iff {s : List UInt8} : cut s = s ↔ 0 ∉ s := by
  rw [cut, List.takeWhile_eq_self_iff]
  constructor
  · intro h h0
    simpa using h 0 h0
  · intro h x hx
    simpa using ne_of_mem_of_not_mem hx h

end Value

end VdCamera.JsonCpp
