import Mathlib.Data.List.TakeWhile
import Mathlib.Data.UInt
import VdCamera.Misc.Text

/-!
# Base64

`sys/base64.c`, and its one use: `led_refresh_daemon` of `ve/dev/led.c` decodes the audio of a line that
`alleyway_bitcom_protocol` has copied out of a message. A text in memory is what stands from its first
byte on.
-/

namespace VdCamera.Sys

open Misc

/-- `pr2six`. -/
def pr2sixTab : List UInt8 :=
  [64, 64, 64, 64, 64, 64, 64, 64, 64, 64, 64, 64, 64, 64, 64, 64,
   64, 64, 64, 64, 64, 64, 64, 64, 64, 64, 64, 64, 64, 64, 64, 64,
   64, 64, 64, 64, 64, 64, 64, 64, 64, 64, 64, 62, 64, 64, 64, 63,
   52, 53, 54, 55, 56, 57, 58, 59, 60, 61, 64, 64, 64, 64, 64, 64,
   64, 0, 1, 2, 3, 4, 5, 6, 7, 8, 9, 10, 11, 12, 13, 14,
   15, 16, 17, 18, 19, 20, 21, 22, 23, 24, 25, 64, 64, 64, 64, 64,
   64, 26, 27, 28, 29, 30, 31, 32, 33, 34, 35, 36, 37, 38, 39, 40,
   41, 42, 43, 44, 45, 46, 47, 48, 49, 50, 51, 64, 64, 64, 64, 64]

/-- A lookup in `pr2six`, whose upper half is 64 throughout. -/
def pr2six (c : UInt8) : UInt8 := pr2sixTab[c.toNat]?.getD 64

/-- `basis_64`. -/
def basis64Tab : List UInt8 := ascii "ABCDEFGHIJKLMNOPQRSTUVWXYZabcdefghijklmnopqrstuvwxyz0123456789+/"

def basis64 (i : UInt8) : UInt8 := basis64Tab[i.toNat]?.getD 0

/-- The characters that the first loop of the two decoding functions counts: `nprbytes`. -/
def coded (bufcoded : List UInt8) : List UInt8 := bufcoded.takeWhile (pr2six · ≤ 63)

/-- `Base64decode_len`. -/
def base64DecodeLen (bufcoded : List UInt8) : Nat := ((coded bufcoded).length + 3) / 4 * 3 + 1

/-- The three bytes that four characters stand for, as far as they are there. -/
def decodeTail : List UInt8 → List UInt8
  | c :: d :: rest =>
    (pr2six c <<< 2 ||| pr2six d >>> 4) ::
      match rest with
      | e :: rest =>
        (pr2six d <<< 4 ||| pr2six e >>> 2) ::
          match rest with
          | f :: _ => [pr2six e <<< 6 ||| pr2six f]
          | [] => []
      | [] => []
  | _ => []

/-- The bytes that `Base64decode` writes before the last one, and `nprbytes` behind its loop. -/
def decodeLoop : List UInt8 → List UInt8 × Nat
  | c :: d :: e :: f :: g :: rest =>
    let (out, nprbytes) := decodeLoop (g :: rest)
    (decodeTail [c, d, e, f] ++ out, nprbytes)
  | tail => (decodeTail tail, tail.length)

/-- `Base64decode`: what it returns and what it makes of the buffer; `none` when the text has no end
or the buffer is too small. -/
def base64decode (bufplain bufcoded : List UInt8) : Option (Nat × List UInt8) :=
  let nprbytes := (coded bufcoded).length
  let (out, rest) := decodeLoop (coded bufcoded)
  let written := out ++ [0]
  if nprbytes < bufcoded.length ∧ written.length ≤ bufplain.length then
    some ((nprbytes + 3) / 4 * 3 - (4 - rest) % 4, written ++ bufplain.drop written.length)
  else none

/-- `Base64encode_len`. -/
def base64EncodeLen (len : Nat) : Nat := (len + 2) / 3 * 4 + 1

/-- The characters that `Base64encode` writes. -/
def encodeLoop : List UInt8 → List UInt8
  | a :: b :: c :: rest =>
    basis64 (a >>> 2 &&& 0x3F) :: basis64 ((a &&& 0x3) <<< 4 ||| (b &&& 0xF0) >>> 4) ::
      basis64 ((b &&& 0xF) <<< 2 ||| (c &&& 0xC0) >>> 6) :: basis64 (c &&& 0x3F) :: encodeLoop rest
  | [a, b] =>
    [basis64 (a >>> 2 &&& 0x3F), basis64 ((a &&& 0x3) <<< 4 ||| (b &&& 0xF0) >>> 4),
      basis64 ((b &&& 0xF) <<< 2), 61]
  | [a] => [basis64 (a >>> 2 &&& 0x3F), basis64 ((a &&& 0x3) <<< 4), 61, 61]
  | [] => []

/-- `Base64encode`: what it writes, whose length it returns. -/
def base64encode (string : List UInt8) : List UInt8 := encodeLoop string ++ [0]

/-! ## The audio of a line -/

/-- `LED_AUDIO_MAX_LEN`. -/
abbrev LED_AUDIO_MAX_LEN : Nat := 1024 * 512

/-- `AUDIO_BUF_SIZE`. -/
abbrev AUDIO_BUF_SIZE : Nat := 512 * 1024

/-- `buf` of `audio_param_t`. -/
structure AudioBuf where
  bytes : List UInt8
  length_bytes : bytes.length = AUDIO_BUF_SIZE

/-- `strlcpy` of a text into a buffer of `size` bytes: what the buffer begins with. -/
def strlcpy (src : List UInt8) (size : Nat) : List UInt8 := src.take (size - 1) ++ [0]

/-- `ap->len` and `ap->buf` when `audio_put` is called for the audio of a line; the message has the
text `audio`, and `buf` is what the allocated buffer held. `none`: a read or a write went astray;
`some none`: the audio is dropped. -/
def ledAudio (audio : List UInt8) (buf : AudioBuf) : Option (Option (Nat × List UInt8)) :=
  let lineAudio := strlcpy audio LED_AUDIO_MAX_LEN
  let len := base64DecodeLen lineAudio
  if len ≤ AUDIO_BUF_SIZE then
    (base64decode buf.bytes lineAudio).map fun r => some (len, r.2)
  else some none

end VdCamera.Sys
