import VdCamera.JsonCpp.FastWriter

/-!
# Whether a text is read as JSON

`Json::Reader` of `lib/Json/source/json_reader.cpp`, with all features: which texts `parse` accepts.
Every error ends in `false`, so nothing is kept of the recovery. Each function takes what is left of
the text and gives what is left behind what it reads.
-/

namespace VdCamera.JsonCpp

open Misc (isDigit)

/-- The tokens, with the text between its quotes for a string and the text of a number. -/
inductive Token
  | objectBegin
  | objectEnd
  | arrayBegin
  | arrayEnd
  | string (content : List UInt8)
  | number (text : List UInt8)
  | literal
  | arraySeparator
  | memberSeparator
  | comment
  | endOfStream
  | error
deriving DecidableEq

def isSpaceChar (c : UInt8) : Bool := c = 32 || c = 9 || c = 13 || c = 10

def isNumberChar (c : UInt8) : Bool :=
  isDigit c || c = 46 || c = 101 || c = 69 || c = 43 || c = 45

/-- `readString`, behind the opening quote, or behind a backslash. -/
def readString : Bool → List UInt8 → Option (List UInt8 × List UInt8)
  | _, [] => none
  | true, c :: r => (readString false r).map fun p => (c :: p.1, p.2)
  | false, c :: r =>
    if c = 34 then some ([], r)
    else (readString (c = 92) r).map fun p => (c :: p.1, p.2)

/-- `readCStyleComment`, behind its beginning. -/
def readCStyleComment : List UInt8 → Option (List UInt8)
  | 42 :: 47 :: r => some r
  | _ :: r => readCStyleComment r
  | [] => none

/-- `readComment`, behind the first slash. -/
def readComment : List UInt8 → Option (List UInt8)
  | 42 :: r => readCStyleComment r
  | 47 :: r => some ((r.dropWhile fun c => c ≠ 13 && c ≠ 10).drop 1)
  | _ => none

/-- `match`. -/
def matchPattern (pattern r : List UInt8) : Token × List UInt8 :=
  if pattern.isPrefixOf r then (.literal, r.drop pattern.length) else (.error, r)

/-- `readToken` at a byte that is no space. -/
def tokenAt (c : UInt8) (r : List UInt8) : Token × List UInt8 :=
  if c = 123 then (.objectBegin, r)
  else if c = 125 then (.objectEnd, r)
  else if c = 91 then (.arrayBegin, r)
  else if c = 93 then (.arrayEnd, r)
  else if c = 34 then
    match readString false r with
    | some (content, r) => (.string content, r)
    | none => (.error, [])
  else if c = 47 then
    match readComment r with
    | some r => (.comment, r)
    | none => (.error, r)
  else if isDigit c || c = 45 then
    (.number (c :: r.takeWhile isNumberChar), r.dropWhile isNumberChar)
  else if c = 116 then matchPattern (Misc.ascii "rue") r
  else if c = 102 then matchPattern (Misc.ascii "alse") r
  else if c = 110 then matchPattern (Misc.ascii "ull") r
  else if c = 44 then (.arraySeparator, r)
  else if c = 58 then (.memberSeparator, r)
  else if c = 0 then (.endOfStream, r)
  else (.error, r)

/-- `readToken`. -/
def readToken (text : List UInt8) : Token × List UInt8 :=
  match text.dropWhile isSpaceChar with
  | [] => (.endOfStream, [])
  | c :: r => tokenAt c r

/-- `skipCommentTokens`: a token that is no comment, as many comments as `n` allows before it. -/
def skipCommentTokens : Nat → List UInt8 → Token × List UInt8
  | 0, text => readToken text
  | n + 1, text =>
    match readToken text with
    | (.comment, r) => skipCommentTokens n r
    | p => p

def hexValue (c : UInt8) : Option Nat :=
  if isDigit c then some (c.toNat - 48)
  else if 97 ≤ c && c ≤ 102 then some (c.toNat - 87)
  else if 65 ≤ c && c ≤ 70 then some (c.toNat - 55)
  else none

/-- `decodeUnicodeEscapeSequence`. -/
def unicodeEscape : List UInt8 → Option (Nat × List UInt8)
  | a :: b :: c :: d :: r => do
    let a ← hexValue a
    let b ← hexValue b
    let c ← hexValue c
    let d ← hexValue d
    return (((a * 16 + b) * 16 + c) * 16 + d, r)
  | _ => none

/-- `decodeUnicodeCodePoint`: a high surrogate wants a second sequence. -/
def unicodeCodePoint (text : List UInt8) : Option (List UInt8) := do
  let (unicode, r) ← unicodeEscape text
  if 0xD800 ≤ unicode ∧ unicode ≤ 0xDBFF then
    match r with
    | 92 :: 117 :: r => (unicodeEscape r).map Prod.snd
    | _ => none
  else return r

/-- Whether `decodeString` accepts what stands between the quotes. -/
def decodeString : Nat → List UInt8 → Bool
  | 0, text => text.isEmpty
  | n + 1, text =>
    match text with
    | [] => true
    | c :: r =>
      if c = 34 then true
      else if c = 92 then
        match r with
        | [] => false
        | escape :: r =>
          if escape ∈ ([34, 47, 92, 98, 102, 110, 114, 116] : List UInt8) then decodeString n r
          else if escape = 117 then
            match unicodeCodePoint r with
            | some r => decodeString n r
            | none => false
          else false
      else decodeString n r

/-- Whether `sscanf` with `%lf` converts a number token. -/
def decodeDouble (text : List UInt8) : Bool :=
  match (if text.head? = some 45 then text.drop 1 else text) with
  | 46 :: d :: _ => isDigit d
  | d :: _ => isDigit d
  | [] => false

/-- The loop of `decodeNumber`; from the threshold on the number is read as a double. -/
def decodeDigits (threshold : Nat) (text : List UInt8) : Nat → List UInt8 → Bool
  | _, [] => true
  | value, c :: r =>
    if !isDigit c then false
    else if threshold ≤ value then decodeDouble text
    else decodeDigits threshold text (value * 10 + (c.toNat - 48)) r

/-- Whether `decodeNumber` accepts a number token. -/
def decodeNumber (text : List UInt8) : Bool :=
  if text.any (fun c => c = 46 || c = 101 || c = 69 || c = 43) || (text.drop 1).contains 45 then
    decodeDouble text
  else if text.head? = some 45 then decodeDigits 214748364 text 0 (text.drop 1)
  else decodeDigits 429496729 text 0 text

mutual

/-- `readValue`; `n` bounds the nesting and the members. -/
def readValue : Nat → List UInt8 → Option (List UInt8)
  | 0, _ => none
  | n + 1, text =>
    match skipCommentTokens text.length text with
    | (.objectBegin, r) => readObject n true r
    | (.arrayBegin, r) =>
      match readToken r with
      | (.arrayEnd, r) => some r
      | _ => readArray n r
    | (.number text, r) => if decodeNumber text then some r else none
    | (.string content, r) => if decodeString content.length content then some r else none
    | (.literal, r) => some r
    | _ => none

/-- The loop of `readObject`; a brace may close it where the last name was empty. -/
def readObject : Nat → Bool → List UInt8 → Option (List UInt8)
  | 0, _, _ => none
  | n + 1, nameEmpty, text =>
    match skipCommentTokens text.length text with
    | (.objectEnd, r) => if nameEmpty then some r else none
    | (.string content, r) =>
      if decodeString content.length content then
        match readToken r with
        | (.memberSeparator, r) =>
          (readValue n r).bind fun r =>
            match readToken r with
            | (.objectEnd, r) => some r
            | (.arraySeparator, r) => readObject n content.isEmpty r
            | (.comment, r) =>
              match skipCommentTokens r.length r with
              | (.objectEnd, r) => some r
              | (_, r) => readObject n content.isEmpty r
            | _ => none
        | _ => none
      else none
    | _ => none

/-- The loop of `readArray`: whatever stands behind an element goes for a comma. -/
def readArray : Nat → List UInt8 → Option (List UInt8)
  | 0, _ => none
  | n + 1, text =>
    (readValue n text).bind fun r =>
      match skipCommentTokens r.length r with
      | (.arrayEnd, r) => some r
      | (_, r) => readArray n r

end

/-- `parse`: a value, which has to be an array or an object only in strict mode; what stands behind
it is not looked at. -/
def parse (text : List UInt8) : Bool := (readValue (text.length + 1) text).isSome

end VdCamera.JsonCpp
