import VdCamera.Sys.Base64

/-!
# What decoding gives back

The groups of four characters give back the groups of three bytes; behind the last one the terminator,
or any other character that is none of the code, ends the text.
-/

namespace VdCamera.Sys

open Misc

variable {a b c i x y : UInt8} {xs ys buf text : List UInt8} {n : Nat}

/-- The four characters of three bytes, as numbers. -/
def sixes (a b c : UInt8) : List UInt8 :=
  [a >>> 2 &&& 0x3F, (a &&& 0x3) <<< 4 ||| (b &&& 0xF0) >>> 4,
    (b &&& 0xF) <<< 2 ||| (c &&& 0xC0) >>> 6, c &&& 0x3F]

/-- The characters before those that fill the last group. -/
def encodeBody : List UInt8 → List UInt8
  | a :: b :: c :: rest => (sixes a b c).map basis64 ++ encodeBody rest
  | [a, b] => ((sixes a b 0).map basis64).take 3
  | [a] => ((sixes a 0 0).map basis64).take 2
  | [] => []

/-! ## Six bits and eight -/

/-- A property of the bytes that is checked for each. -/
@[elab_as_elim]
theorem forall_byte {P : UInt8 → Prop} (h : ∀ n : Fin 256, P (UInt8.ofNat n)) (b : UInt8) : P b := by
  simpa using h ⟨b.toNat, b.toNat_lt⟩

theorem pr2six_basis64 (h : i < 64) : pr2six (basis64 i) = i := by
  have hall : ∀ n : Fin 64, pr2six (basis64 (UInt8.ofNat n)) = UInt8.ofNat n := by decide +kernel
  have hi : i.toNat < 64 := UInt8.lt_iff_toNat_lt.mp h
  simpa using hall ⟨i.toNat, hi⟩

theorem or_lt (hx : x < 64) (hy : y < 64) : x ||| y < 64 := by
  rw [UInt8.lt_iff_toNat_lt] at hx hy ⊢
  rw [UInt8.toNat_or]
  exact Nat.or_lt_two_pow (n := 6) hx hy

/-- What the masks and shifts leave of a byte in each of the three places of a group. -/
theorem byte_split (b : UInt8) :
    (b >>> 2 &&& 0x3F < 64 ∧ (b &&& 0x3) <<< 4 < 64 ∧ (b &&& 0x3) <<< 4 <<< 4 = 0 ∧
      (b >>> 2 &&& 0x3F) <<< 2 ||| (b &&& 0x3) <<< 4 >>> 4 = b) ∧
    ((b &&& 0xF0) >>> 4 < 64 ∧ (b &&& 0xF) <<< 2 < 64 ∧ (b &&& 0xF0) >>> 4 >>> 4 = 0 ∧
      (b &&& 0xF) <<< 2 <<< 6 = 0 ∧ (b &&& 0xF0) >>> 4 <<< 4 ||| (b &&& 0xF) <<< 2 >>> 2 = b) ∧
    ((b &&& 0xC0) >>> 6 < 64 ∧ b &&& 0x3F < 64 ∧ (b &&& 0xC0) >>> 6 >>> 2 = 0 ∧
      (b &&& 0xC0) >>> 6 <<< 6 ||| (b &&& 0x3F) = b) :=
  forall_byte (by decide +kernel) b

theorem sixes_lt : ∀ i ∈ sixes a b c, i < 64 := by
  obtain ⟨⟨h1, h2, -⟩, -, -⟩ := byte_split a
  obtain ⟨-, ⟨h3, h4, -⟩, -⟩ := byte_split b
  obtain ⟨-, -, h5, h6, -⟩ := byte_split c
  simpa [sixes] using ⟨h1, or_lt h2 h3, or_lt h4 h5, h6⟩

theorem join_first : (a >>> 2 &&& 0x3F) <<< 2 ||| ((a &&& 0x3) <<< 4 ||| (b &&& 0xF0) >>> 4) >>> 4
    = a := by
  obtain ⟨⟨-, -, -, ha⟩, -, -⟩ := byte_split a
  obtain ⟨-, ⟨-, -, hb, -⟩, -⟩ := byte_split b
  rw [UInt8.shiftRight_or, hb, UInt8.or_zero, ha]

theorem join_second : ((a &&& 0x3) <<< 4 ||| (b &&& 0xF0) >>> 4) <<< 4
    ||| ((b &&& 0xF) <<< 2 ||| (c &&& 0xC0) >>> 6) >>> 2 = b := by
  obtain ⟨⟨-, -, ha, -⟩, -, -⟩ := byte_split a
  obtain ⟨-, ⟨-, -, -, -, hb⟩, -⟩ := byte_split b
  obtain ⟨-, -, -, -, hc, -⟩ := byte_split c
  rw [UInt8.shiftLeft_or, UInt8.shiftRight_or, ha, hc, UInt8.or_zero, UInt8.zero_or, hb]

theorem join_third : ((b &&& 0xF) <<< 2 ||| (c &&& 0xC0) >>> 6) <<< 6 ||| (c &&& 0x3F) = c := by
  obtain ⟨-, ⟨-, -, -, hb, -⟩, -⟩ := byte_split b
  obtain ⟨-, -, -, -, -, hc⟩ := byte_split c
  rw [UInt8.shiftLeft_or, hb, UInt8.zero_or, hc]

/-! ## Groups of four characters -/

theorem encodeLoop_eq (xs : List UInt8) :
    ∃ k, encodeLoop xs = encodeBody xs ++ List.replicate k 61 ∧
      (encodeBody xs).length + k = (xs.length + 2) / 3 * 4 := by
  fun_induction encodeLoop xs with
  | case1 a b c rest ih =>
    obtain ⟨k, hk, hlen⟩ := ih
    refine ⟨k, by simp [encodeBody, sixes, hk], ?_⟩
    simp only [encodeBody, sixes, List.length_append, List.length_map, List.length_cons,
      List.length_nil]
    omega
  | case2 a b => exact ⟨1, by simp [encodeBody, sixes], by simp [encodeBody, sixes]⟩
  | case3 a => exact ⟨2, by simp [encodeBody, sixes], by simp [encodeBody, sixes]⟩
  | case4 => exact ⟨0, rfl, rfl⟩

theorem length_encodeBody (xs : List UInt8) : (encodeBody xs).length = (xs.length * 4 + 2) / 3 := by
  fun_induction encodeBody xs with
  | case1 a b c rest ih =>
    simp only [sixes, List.length_append, List.length_map, List.length_cons, List.length_nil, ih]
    omega
  | case2 a b => simp [sixes]
  | case3 a => simp [sixes]
  | case4 => rfl

theorem pr2six_sixes : ∀ d ∈ (sixes a b c).map basis64, pr2six d ≤ 63 := by
  intro d hd
  obtain ⟨i, hi, rfl⟩ := List.mem_map.mp hd
  have hlt := sixes_lt i hi
  rw [pr2six_basis64 hlt]
  exact UInt8.le_iff_toNat_le.mpr (Nat.le_of_lt_succ (UInt8.lt_iff_toNat_lt.mp hlt))

theorem pr2six_encodeBody (xs : List UInt8) : ∀ d ∈ encodeBody xs, pr2six d ≤ 63 := by
  fun_induction encodeBody xs with
  | case1 a b c rest ih =>
    intro d hd
    exact (List.mem_append.mp hd).elim (pr2six_sixes d) (ih d)
  | case2 a b => exact fun d hd => pr2six_sixes d (List.mem_of_mem_take hd)
  | case3 a => exact fun d hd => pr2six_sixes d (List.mem_of_mem_take hd)
  | case4 => exact fun d hd => absurd hd List.not_mem_nil

/-- Of a group that is cut off, what is left of its bytes. -/
theorem decodeTail_take (hn : n ≤ 4) :
    decodeTail (((sixes a b c).map basis64).take n) = [a, b, c].take (n * 3 / 4) := by
  have hsix : ∀ i ∈ sixes a b c, pr2six (basis64 i) = i := fun i hi => pr2six_basis64 (sixes_lt i hi)
  simp only [sixes, List.mem_cons, List.not_mem_nil, or_false, forall_eq_or_imp, forall_eq] at hsix
  obtain ⟨h1, h2, h3, h4⟩ := hsix
  have hcases : n = 0 ∨ n = 1 ∨ n = 2 ∨ n = 3 ∨ n = 4 := by omega
  obtain rfl | rfl | rfl | rfl | rfl := hcases
  · rfl
  · rfl
  · simp [sixes, decodeTail, h1, h2, join_first]
  · simp [sixes, decodeTail, h1, h2, h3, join_first, join_second]
  · simp [sixes, decodeTail, h1, h2, h3, h4, join_first, join_second, join_third]

theorem decodeLoop_of_le (h : xs.length ≤ 4) : decodeLoop xs = (decodeTail xs, xs.length) := by
  match xs with
  | [] | [_] | [_, _] | [_, _, _] | [_, _, _, _] => rfl
  | _ :: _ :: _ :: _ :: _ :: _ =>
    simp only [List.length_cons] at h
    omega

theorem decodeLoop_append (h : ys ≠ []) :
    decodeLoop ((sixes a b c).map basis64 ++ ys)
      = (decodeTail ((sixes a b c).map basis64) ++ (decodeLoop ys).1, (decodeLoop ys).2) := by
  obtain ⟨y, ys, rfl⟩ := List.exists_cons_of_ne_nil h
  rfl

theorem length_map_sixes : ((sixes a b c).map basis64).length = 4 := rfl

/-- A group that is cut off, alone. -/
theorem decodeLoop_sixes (hn : n ≤ 4) :
    (decodeLoop (((sixes a b c).map basis64).take n)).1 = [a, b, c].take (n * 3 / 4) := by
  have hlen : (((sixes a b c).map basis64).take n).length ≤ 4 := by
    rw [List.length_take, length_map_sixes]
    omega
  rw [decodeLoop_of_le hlen, decodeTail_take hn]

/-- A text that is cut off is decoded to a part of the bytes. -/
theorem decodeLoop_encodeBody (xs : List UInt8) (n : Nat) :
    (decodeLoop ((encodeBody xs).take n)).1 = xs.take (n * 3 / 4) := by
  fun_induction encodeBody xs generalizing n with
  | case1 a b c rest ih =>
    by_cases hn : n ≤ 4
    · rw [List.take_append_of_le_length (by rw [length_map_sixes]; exact hn), decodeLoop_sixes hn]
      have hshort : n * 3 / 4 ≤ [a, b, c].length := show n * 3 / 4 ≤ 3 by omega
      exact (List.take_append_of_le_length hshort).symm
    · obtain ⟨k, rfl⟩ : ∃ k, n = 4 + k := ⟨n - 4, by omega⟩
      have hfour : decodeTail ((sixes a b c).map basis64) = [a, b, c] :=
        decodeTail_take (Nat.le_refl 4)
      have htake : ((sixes a b c).map basis64 ++ encodeBody rest).take (4 + k)
          = (sixes a b c).map basis64 ++ (encodeBody rest).take k := by
        rw [List.take_append, List.take_of_length_le (by rw [length_map_sixes]; omega),
          length_map_sixes, Nat.add_sub_cancel_left]
      have hbytes : (a :: b :: c :: rest).take ((4 + k) * 3 / 4)
          = [a, b, c] ++ rest.take (k * 3 / 4) := by
        rw [show (4 + k) * 3 / 4 = [a, b, c].length + k * 3 / 4 by
          rw [List.length_cons, List.length_cons, List.length_singleton]; omega]
        exact List.take_length_add_append ..
      rw [htake, hbytes]
      by_cases hrest : (encodeBody rest).take k = []
      · have hnil : rest = [] := by
          have hlen := congrArg List.length hrest
          rw [List.length_take, length_encodeBody, List.length_nil] at hlen
          exact List.length_eq_zero_iff.mp (by omega)
        rw [hrest, List.append_nil, decodeLoop_of_le (by rw [length_map_sixes]), hfour, hnil,
          List.take_nil, List.append_nil]
      · rw [decodeLoop_append hrest, ih, hfour]
  | case2 a b =>
    rw [List.take_take, decodeLoop_sixes (by omega)]
    match n with
    | 0 | 1 | 2 => rfl
    | n + 3 =>
      rw [Nat.min_eq_right (by omega), List.take_of_length_le (l := [a, b]) (by
        rw [List.length_cons, List.length_singleton]; omega)]
      rfl
  | case3 a =>
    rw [List.take_take, decodeLoop_sixes (by omega)]
    match n with
    | 0 | 1 => rfl
    | n + 2 =>
      rw [Nat.min_eq_right (by omega), List.take_of_length_le (l := [a]) (by
        rw [List.length_singleton]; omega)]
      rfl
  | case4 => simp [decodeLoop, decodeTail]

/-! ## Any text -/

/-- What is returned is how many bytes are decoded. -/
theorem length_decodeLoop (xs : List UInt8) :
    (decodeLoop xs).1.length = (xs.length + 3) / 4 * 3 - (4 - (decodeLoop xs).2) % 4 := by
  fun_induction decodeLoop xs with
  | case1 c d e f g rest out nprbytes hrec ih =>
    rw [hrec] at ih
    simp only [List.length_append, List.length_cons] at ih ⊢
    have hfour : (decodeTail [c, d, e, f]).length = 3 := rfl
    omega
  | case2 tail hshort =>
    match tail with
    | [] | [_] | [_, _] | [_, _, _] | [_, _, _, _] => simp [decodeTail]
    | c :: d :: e :: f :: g :: rest => exact absurd rfl (hshort c d e f g rest)

theorem coded_append (h : ∀ d ∈ xs, pr2six d ≤ 63) (hx : pr2six x = 64) (rest : List UInt8) :
    coded (xs ++ x :: rest) = xs := by
  rw [coded, List.takeWhile_append_of_pos (by simpa using h), List.takeWhile_cons_of_neg,
    List.append_nil]
  rw [hx]
  decide

/-- A text with an end is decoded into every buffer of the size that `Base64decode_len` gives. -/
theorem base64decode_eq (hend : (coded text).length < text.length)
    (hbuf : base64DecodeLen text ≤ buf.length) :
    base64decode buf text = some ((decodeLoop (coded text)).1.length,
      (decodeLoop (coded text)).1 ++ 0 :: buf.drop ((decodeLoop (coded text)).1.length + 1)) := by
  have hlen := length_decodeLoop (coded text)
  rw [base64DecodeLen] at hbuf
  rw [base64decode]
  simp only [List.length_append, List.length_singleton, List.append_assoc, List.singleton_append]
  rw [if_pos ⟨hend, by omega⟩, ← hlen]

/-- A text that ends in zero has an end. -/
theorem coded_lt (text : List UInt8) : (coded (text ++ [0])).length < (text ++ [0]).length := by
  have hsub := (List.takeWhile_prefix (l := text ++ [0]) (pr2six · ≤ 63)).length_le
  refine Nat.lt_of_le_of_ne hsub fun heq => ?_
  have hall := (List.takeWhile_prefix (l := text ++ [0]) (pr2six · ≤ 63)).eq_of_length heq
  have hzero := List.mem_takeWhile_imp (p := fun d => decide (pr2six d ≤ 63))
    (show (0 : UInt8) ∈ (text ++ [0]).takeWhile (pr2six · ≤ 63) by rw [hall]; simp)
  exact absurd hzero (by decide)

theorem coded_encode (xs : List UInt8) (n : Nat) :
    coded ((encodeLoop xs).take n ++ [0]) = (encodeBody xs).take n := by
  obtain ⟨k, hk, _⟩ := encodeLoop_eq xs
  have hbody : ∀ d ∈ (encodeBody xs).take n, pr2six d ≤ 63 := fun d hd =>
    pr2six_encodeBody xs d (List.mem_of_mem_take hd)
  rw [hk, List.take_append, List.take_replicate, List.append_assoc]
  cases min (n - (encodeBody xs).length) k with
  | zero => exact coded_append hbody rfl []
  | succ j =>
    rw [List.replicate_succ, List.cons_append]
    exact coded_append hbody rfl _

/-! ## Round trips -/

theorem take_length_add_one (xs : List UInt8) : xs.take (((encodeBody xs).length) * 3 / 4) = xs := by
  rw [length_encodeBody]
  exact List.take_of_length_le (by omega)

/-- What is encoded fits the length that is announced, and is decoded to what it was. -/
theorem base64_roundtrip (xs buf : List UInt8)
    (hbuf : base64DecodeLen (base64encode xs) ≤ buf.length) :
    base64decode buf (base64encode xs) = some (xs.length, xs ++ 0 :: buf.drop (xs.length + 1)) ∧
      (base64encode xs).length = base64EncodeLen xs.length := by
  obtain ⟨k, hk, hlen⟩ := encodeLoop_eq xs
  have hcoded : coded (base64encode xs) = encodeBody xs := by
    have hall := coded_encode xs (encodeLoop xs).length
    rw [List.take_length] at hall
    rw [base64encode, hall, hk, List.length_append]
    exact List.take_of_length_le (Nat.le_add_right ..)
  have hout : (decodeLoop (encodeBody xs)).1 = xs := by
    have hall := decodeLoop_encodeBody xs (encodeBody xs).length
    rwa [List.take_length, take_length_add_one] at hall
  refine ⟨?_, ?_⟩
  · have hend : (coded (base64encode xs)).length < (base64encode xs).length := coded_lt (encodeLoop xs)
    rw [base64decode_eq hend hbuf, hcoded, hout]
  · rw [base64encode, base64EncodeLen, List.length_append, hk, List.length_append,
      List.length_replicate, hlen, List.length_singleton]

theorem base64_roundtrip_five : base64decode (List.replicate 9 7) (base64encode [0, 255, 128, 3, 77])
      = some (5, [0, 255, 128, 3, 77, 0, 7, 7, 7]) ∧
    (base64encode [0, 255, 128, 3, 77]).length = base64EncodeLen 5 :=
  base64_roundtrip [0, 255, 128, 3, 77] (List.replicate 9 7) (by decide +kernel)

theorem coded_strlcpy_lt (audio : List UInt8) (size : Nat) :
    (coded (strlcpy audio size)).length < (strlcpy audio size).length :=
  coded_lt (audio.take (size - 1))

theorem length_coded_strlcpy (audio : List UInt8) (size : Nat) :
    (coded (strlcpy audio size)).length ≤ size - 1 := by
  have hlt := coded_lt (audio.take (size - 1))
  rw [List.length_append, List.length_singleton, List.length_take] at hlt
  exact Nat.le_trans (Nat.le_of_lt_succ hlt) (Nat.min_le_left ..)

/-- `Base64decode_len` of what a line can hold. -/
theorem base64DecodeLen_line (audio : List UInt8) :
    base64DecodeLen (strlcpy audio LED_AUDIO_MAX_LEN) ≤ AUDIO_BUF_SIZE := by
  have hcoded := length_coded_strlcpy audio LED_AUDIO_MAX_LEN
  simp only [base64DecodeLen, LED_AUDIO_MAX_LEN, AUDIO_BUF_SIZE] at hcoded ⊢
  omega

/-- The audio of a line is never too large, whatever the message says, and the buffer holds all that
is decoded. -/
theorem ledAudio_some (audio : List UInt8) (buf : AudioBuf) :
    ledAudio audio buf = some (some (base64DecodeLen (strlcpy audio LED_AUDIO_MAX_LEN),
      (decodeLoop (coded (strlcpy audio LED_AUDIO_MAX_LEN))).1 ++ 0 ::
        buf.bytes.drop ((decodeLoop (coded (strlcpy audio LED_AUDIO_MAX_LEN))).1.length + 1))) := by
  have hlen := base64DecodeLen_line audio
  rw [ledAudio]
  simp only [if_pos hlen]
  rw [base64decode_eq (coded_strlcpy_lt audio _) (by rw [buf.length_bytes]; exact hlen),
    Option.map_some]

/-- What is played is the audio, up to what a line can hold, and one to three bytes that are not of
it: the terminator, and what the buffer held before. -/
theorem ledAudio_eq (xs : List UInt8) (buf : AudioBuf) :
    ∃ len out rest, ledAudio (encodeLoop xs) buf = some (some (len, out)) ∧
      len ≤ AUDIO_BUF_SIZE ∧ out.length = AUDIO_BUF_SIZE ∧
      out.take len = xs.take 393215 ++ 0 :: rest ∧ rest.length < 3 ∧ rest <:+: buf.bytes := by
  have hcoded : coded (strlcpy (encodeLoop xs) LED_AUDIO_MAX_LEN) = (encodeBody xs).take 524287 :=
    coded_encode xs 524287
  have hbytes : (decodeLoop ((encodeBody xs).take 524287)).1 = xs.take 393215 :=
    decodeLoop_encodeBody xs 524287
  have hlen := base64DecodeLen_line (encodeLoop xs)
  have hsize : base64DecodeLen (strlcpy (encodeLoop xs) LED_AUDIO_MAX_LEN)
      = (((encodeBody xs).take 524287).length + 3) / 4 * 3 + 1 := by
    rw [base64DecodeLen, hcoded]
  have hnum : (xs.take 393215).length = ((encodeBody xs).take 524287).length * 3 / 4 := by
    rw [List.length_take, List.length_take, length_encodeBody]
    omega
  -- no group is left with a single character
  have hgroup : ((encodeBody xs).take 524287).length % 4 ≠ 1 := by
    rw [List.length_take, length_encodeBody]
    omega
  have hsome := ledAudio_some (encodeLoop xs) buf
  rw [hcoded, hbytes, hsize] at hsome
  rw [hsize] at hlen
  generalize ((encodeBody xs).take 524287).length = chars at hsome hlen hnum hgroup
  generalize xs.take 393215 = bytes at hsome hnum ⊢
  have hbuf := buf.length_bytes
  refine ⟨_, _, (buf.bytes.drop (bytes.length + 1)).take ((chars + 3) / 4 * 3 - bytes.length), hsome,
    hlen, ?_, ?_, ?_, ?_⟩
  · rw [List.length_append, List.length_cons, List.length_drop]
    omega
  · rw [List.take_append, List.take_of_length_le (by omega),
      show (chars + 3) / 4 * 3 + 1 - bytes.length = (chars + 3) / 4 * 3 - bytes.length + 1 by omega,
      List.take_succ_cons]
  · refine Nat.lt_of_le_of_lt (List.length_take_le ..) ?_
    have hrem : chars % 4 = 0 ∨ chars % 4 = 2 ∨ chars % 4 = 3 := by omega
    obtain hrem | hrem | hrem := hrem <;> omega
  · exact (List.take_prefix ..).isInfix.trans (List.drop_suffix ..).isInfix

end VdCamera.Sys
