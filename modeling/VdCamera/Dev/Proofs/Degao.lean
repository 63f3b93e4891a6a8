import VdCamera.Dev.Degao
import VdCamera.Misc.Stuffing

/-!
# What is sent to the Degao LED

`cvd_esc` fills its buffer with the frame in which `CVD_STX` is doubled. It gives up when the frame
ends with the buffer or behind it, unless the two bytes of a doubled `CVD_STX` lie on both sides of
the end: then the second one is written outside.
-/

namespace VdCamera.Dev

open Misc

variable {as src dest buf pre post data : List UInt8} {addr cmd n : UInt8} {size : Nat}
variable {bufs txBuf : Vector UInt8 512}

/-! ## `cvd_esc` -/

/-- One byte, for which there is room. -/
theorem cvdEscLoop_cons {s : UInt8} (hpre : as <+: dest)
    (h : as.length + (stuff CVD_STX [s]).length ≤ dest.length) :
    ∃ dest', as ++ stuff CVD_STX [s] <+: dest' ∧ dest'.length = dest.length
      ∧ ∀ post, cvdEscLoop dest.length (s :: post) dest as.length
        = cvdEscLoop dest.length post dest' (as ++ stuff CVD_STX [s]).length := by
  by_cases hs : s = CVD_STX
  · subst hs
    rw [stuff_flag, stuff_nil] at h ⊢
    rw [List.length_cons, List.length_singleton] at h
    have hfit₁ : as.length + [CVD_STX].length ≤ dest.length := by
      rw [List.length_singleton]
      omega
    obtain ⟨dest₁, hput₁, hpre₁, hlen₁⟩ := put_append hpre hfit₁
    have hfit₂ : (as ++ [CVD_STX]).length + [CVD_STX].length ≤ dest₁.length := by
      simp only [List.length_append, List.length_singleton]
      omega
    obtain ⟨dest₂, hput₂, hpre₂, hlen₂⟩ := put_append hpre₁ hfit₂
    refine ⟨dest₂, by simpa using hpre₂, by omega, fun post => ?_⟩
    have hplace : ((as ++ [CVD_STX]).length : Int) = (as.length : Int) + 1 := by simp
    rw [hplace] at hput₂
    rw [cvdEscLoop, if_pos (by omega), if_pos rfl, hput₁]
    show (put dest₁ (as.length + 1) [CVD_STX]).bind _ = _
    rw [hput₂]
    simp
  · rw [stuff_of_ne hs, stuff_nil] at h ⊢
    rw [List.length_singleton] at h
    obtain ⟨dest₁, hput₁, hpre₁, hlen₁⟩ := put_append hpre
      (show as.length + [s].length ≤ dest.length from h)
    refine ⟨dest₁, hpre₁, hlen₁, fun post => ?_⟩
    rw [cvdEscLoop, if_pos (by omega), if_neg hs, hput₁]
    simp

/-- As long as there is room the loop writes what stands in the doubled text. -/
theorem cvdEscLoop_append (hpre : as <+: dest)
    (h : as.length + (stuff CVD_STX src).length ≤ dest.length) :
    ∃ dest', as ++ stuff CVD_STX src <+: dest' ∧ dest'.length = dest.length
      ∧ ∀ post, cvdEscLoop dest.length (src ++ post) dest as.length
        = cvdEscLoop dest.length post dest' (as ++ stuff CVD_STX src).length := by
  induction src generalizing as dest with
  | nil => exact ⟨dest, by simpa using hpre, rfl, fun post => by simp⟩
  | cons s src ih =>
    have hstuff : stuff CVD_STX (s :: src) = stuff CVD_STX [s] ++ stuff CVD_STX src :=
      stuff_append CVD_STX [s] src
    rw [hstuff, List.length_append] at h
    obtain ⟨dest₁, hpre₁, hlen₁, hrun₁⟩ := cvdEscLoop_cons (s := s) hpre (by omega)
    obtain ⟨dest', hpre', hlen', hrun'⟩ := ih hpre₁ (by rw [List.length_append]; omega)
    refine ⟨dest', ?_, hlen'.trans hlen₁, fun post => ?_⟩
    · rwa [hstuff, ← List.append_assoc]
    · rw [List.cons_append, hrun₁, ← hlen₁, hrun', hstuff, ← List.append_assoc]

/-- A text that fits is written whole. -/
theorem cvdEscLoop_fits (hpre : as <+: dest)
    (h : as.length + (stuff CVD_STX src).length ≤ dest.length) :
    ∃ dest', cvdEscLoop dest.length src dest as.length
        = some (dest', as.length + (stuff CVD_STX src).length)
      ∧ as ++ stuff CVD_STX src <+: dest' := by
  obtain ⟨dest', hpre', _, hrun⟩ := cvdEscLoop_append hpre h
  refine ⟨dest', ?_, hpre'⟩
  rw [← List.append_nil src, hrun, cvdEscLoop, List.append_nil, List.length_append]

/-- A text that the end of the buffer cuts between two of its bytes ends there. -/
theorem cvdEscLoop_full (hpre : as <+: dest) (h : as.length + (stuff CVD_STX pre).length = dest.length)
    (post : List UInt8) :
    ∃ dest', cvdEscLoop dest.length (pre ++ post) dest as.length = some (dest', dest.length) := by
  obtain ⟨dest', _, _, hrun⟩ := cvdEscLoop_append hpre (Nat.le_of_eq h)
  refine ⟨dest', ?_⟩
  rw [hrun, List.length_append, h]
  cases post with
  | nil => rfl
  | cons s post => rw [cvdEscLoop, if_neg (Nat.lt_irrefl _)]

/-- A doubled `CVD_STX` on both sides of the end is written outside. -/
theorem cvdEscLoop_outside (hpre : as <+: dest)
    (h : as.length + (stuff CVD_STX pre).length + 1 = dest.length) :
    cvdEscLoop dest.length (pre ++ CVD_STX :: post) dest as.length = none := by
  have hroom : as.length + (stuff CVD_STX pre).length ≤ dest.length := by omega
  obtain ⟨dest', hpre', hlen', hrun⟩ := cvdEscLoop_append hpre hroom
  have hplace : (as ++ stuff CVD_STX pre).length + 1 = dest.length := by
    rw [List.length_append, h]
  obtain ⟨dest₁, hput₁, _, hlen₁⟩ := put_append hpre'
    (show _ + [CVD_STX].length ≤ dest'.length by rw [List.length_singleton]; omega)
  have hput₂ : put dest₁ ((as ++ stuff CVD_STX pre).length + 1) [CVD_STX] = none := by
    refine put_eq_none (List.cons_ne_nil _ _) (Or.inr ?_)
    rw [List.length_singleton]
    omega
  rw [hrun, cvdEscLoop, if_pos (by omega), if_pos rfl, hput₁]
  show (put dest₁ _ [CVD_STX]).bind _ = none
  rw [hput₂]
  rfl

/-- The start byte and the doubled text behind it. -/
def cvdEscaped (src : List UInt8) : List UInt8 := CVD_STX :: stuff CVD_STX src

/-- The end of a buffer of `size` bytes would come between the two bytes of a doubled `CVD_STX`. -/
def Straddles (size : Nat) (src : List UInt8) : Prop :=
  ∃ pre post, src = pre ++ CVD_STX :: post ∧ (cvdEscaped pre).length + 1 = size

/-- `cvd_esc` after the start byte. -/
theorem cvdEsc_eq (h : 0 < dest.length) (src : List UInt8) :
    ∃ dest₁, [CVD_STX] <+: dest₁ ∧ dest₁.length = dest.length
      ∧ cvdEsc dest CVD_STX src = (cvdEscLoop dest₁.length src dest₁ [CVD_STX].length).map
        fun r => (r.1, if r.2 = dest.length then -1 else (r.2 : Int)) := by
  obtain ⟨dest₁, hput, hpre, hlen⟩ := put_append (List.nil_prefix (l := dest))
    (show ([] : List UInt8).length + [CVD_STX].length ≤ dest.length by
      rw [List.length_nil, List.length_singleton]; omega)
  refine ⟨dest₁, hpre, hlen, ?_⟩
  show (put dest 0 [CVD_STX]).bind _ = _
  rw [show put dest 0 [CVD_STX] = some dest₁ from hput, hlen]
  show (cvdEscLoop dest.length src dest₁ 1).bind _ = _
  rw [Option.map_eq_bind]
  rfl

/-- A frame that is shorter than the buffer is written whole. -/
theorem cvdEsc_fits (h : (cvdEscaped src).length < dest.length) :
    ∃ dest', cvdEsc dest CVD_STX src = some (dest', ((cvdEscaped src).length : Int))
      ∧ cvdEscaped src <+: dest' := by
  obtain ⟨dest₁, hpre, hlen, heq⟩ := cvdEsc_eq (by omega : 0 < dest.length) src
  have hescaped : [CVD_STX].length + (stuff CVD_STX src).length = (cvdEscaped src).length := by
    rw [cvdEscaped, List.length_singleton, List.length_cons]
    omega
  have hroom : [CVD_STX].length + (stuff CVD_STX src).length ≤ dest₁.length := by omega
  obtain ⟨dest', hrun, hpre'⟩ := cvdEscLoop_fits hpre hroom
  refine ⟨dest', ?_, hpre'⟩
  rw [heq, hrun, hescaped, Option.map_some, if_neg (by omega)]

/-- A frame that ends with the buffer, or goes on behind it, is given up. -/
theorem cvdEsc_full (h : dest.length ≤ (cvdEscaped src).length) (hpos : 0 < dest.length)
    (hstraddles : ¬ Straddles dest.length src) :
    ∃ dest', cvdEsc dest CVD_STX src = some (dest', -1) := by
  obtain ⟨dest₁, hpre, hlen, heq⟩ := cvdEsc_eq hpos src
  rw [cvdEscaped, List.length_cons] at h
  have hend : dest.length - 1 ≤ (stuff CVD_STX src).length := by omega
  rcases exists_cut hend with
    ⟨pre, post, rfl, hcut⟩ | ⟨pre, post, rfl, hcut⟩
  · have hfull : [CVD_STX].length + (stuff CVD_STX pre).length = dest₁.length := by
      rw [List.length_singleton]
      omega
    obtain ⟨dest', hrun⟩ := cvdEscLoop_full hpre hfull post
    exact ⟨dest', by rw [heq, hrun, Option.map_some, if_pos hlen]⟩
  · exact absurd ⟨pre, post, rfl, by rw [cvdEscaped, List.length_cons]; omega⟩ hstraddles

theorem cvdEsc_outside (h : Straddles dest.length src) : cvdEsc dest CVD_STX src = none := by
  obtain ⟨pre, post, rfl, hcut⟩ := h
  rw [cvdEscaped, List.length_cons] at hcut
  obtain ⟨dest₁, hpre, hlen, heq⟩ := cvdEsc_eq (by omega : 0 < dest.length) (pre ++ CVD_STX :: post)
  have hend : [CVD_STX].length + (stuff CVD_STX pre).length + 1 = dest₁.length := by
    rw [List.length_singleton]
    omega
  rw [heq, cvdEscLoop_outside hpre hend]
  rfl

/-! ## `cvd_send` -/

/-- What stands between the start byte and the check bytes. -/
def cvdBody (addr n cmd : UInt8) (data : List UInt8) : List UInt8 := (0x80 + addr) :: n :: cmd :: data

/-- The frame behind its start byte. -/
def cvdTail (addr n cmd : UInt8) (data : List UInt8) : List UInt8 :=
  cvdBody addr n cmd data ++ [cvdXor (cvdBody addr n cmd data), cvdSum (cvdBody addr n cmd data)]

/-- What is handed on of what `cvd_esc` returns. -/
def cvdPut (r : List UInt8 × Int) : Option (List UInt8) :=
  if r.2 > 0 then some (r.1.take r.2.toNat) else none

/-- A payload that leaves room for the check bytes gets its frame. -/
theorem cvdSend_eq (h : data.length ≤ 506) :
    cvdSend bufs txBuf addr cmd data
      = (cvdEsc txBuf.toList CVD_STX (cvdTail addr (UInt8.ofNat (data.length + 1)) cmd data)).map
          cvdPut := by
  have hsize : bufs.toList.length = 512 := bufs.length_toList
  obtain ⟨body, hbody⟩ : ∃ body, body = cvdBody addr (UInt8.ofNat (data.length + 1)) cmd data := ⟨_, rfl⟩
  have hbodylen : (CVD_STX :: body).length = 4 + data.length := by
    rw [hbody]
    simp only [cvdBody, List.length_cons]
    omega
  have hroom : 4 + data.length ≤ bufs.toList.length := by omega
  obtain ⟨buf₁, buf₂, hput₁, hput₂, hpre₂, hlen₂⟩ := put_before hroom
    (show [CVD_STX, 0x80 + addr, UInt8.ofNat (data.length + 1), cmd].length = 4 from rfl)
  have hpre₂' : CVD_STX :: body <+: buf₂ := by
    rw [hbody]
    exact hpre₂
  have hcheck : ∀ b rest, CVD_STX :: body ++ rest <+: b →
      (b.drop 1).take (4 + data.length - 1) = body := by
    rintro _ rest ⟨later, rfl⟩
    have hlen : body.length = 4 + data.length - 1 := by
      rw [List.length_cons] at hbodylen
      omega
    rw [List.append_assoc, List.cons_append, List.drop_one, List.tail_cons]
    exact List.take_left' hlen
  have hfit₃ : (CVD_STX :: body).length + [cvdXor body].length ≤ buf₂.length := by
    rw [List.length_singleton]
    omega
  obtain ⟨buf₃, hput₃, hpre₃, hlen₃⟩ := put_append hpre₂' hfit₃
  have hfit₄ : (CVD_STX :: body ++ [cvdXor body]).length + [cvdSum body].length ≤ buf₃.length := by
    simp only [List.length_append, List.length_singleton]
    omega
  obtain ⟨buf₄, hput₄, hpre₄, hlen₄⟩ := put_append hpre₃ hfit₄
  have hplace₃ : ((CVD_STX :: body).length : Int) = 4 + (data.length : Int) := by omega
  have hplace₄ : ((CVD_STX :: body ++ [cvdXor body]).length : Int) = 4 + (data.length : Int) + 1 := by
    rw [List.length_append, List.length_singleton]
    omega
  have hsrc : buf₄.take (4 + data.length + 2) = CVD_STX :: body ++ [cvdXor body] ++ [cvdSum body] := by
    apply take_of_isPrefix hpre₄
    simp only [List.length_append, List.length_singleton]
    omega
  rw [hplace₃] at hput₃
  rw [hplace₄] at hput₄
  have hxor := hcheck buf₂ [] (by rwa [List.append_nil])
  have hsum := hcheck buf₃ [cvdXor body] hpre₃
  have htail : (CVD_STX :: body ++ [cvdXor body] ++ [cvdSum body]).tail
      = cvdTail addr (UInt8.ofNat (data.length + 1)) cmd data := by
    rw [cvdTail, ← hbody, List.append_assoc]
    rfl
  rw [cvdSend, if_neg (by omega)]
  show (put bufs.toList ((4 : Nat) : Int) data).bind _ = _
  rw [hput₁]
  show (put buf₁ 0 _).bind _ = _
  rw [hput₂]
  have hhead : (CVD_STX :: body ++ [cvdXor body] ++ [cvdSum body]).headD 0 = CVD_STX := rfl
  simp only [Option.bind_some, Option.bind_eq_bind, hxor, hput₃, hsum, hput₄, hsrc, htail, hhead]
  cases cvdEsc txBuf.toList CVD_STX (cvdTail addr (UInt8.ofNat (data.length + 1)) cmd data) with
  | none => rfl
  | some r =>
    rw [Option.bind_some, Option.map_some, cvdPut]
    split <;> rfl

/-- A payload that leaves no room for the check bytes is followed by them all the same. -/
theorem cvdSend_overflow (h : 506 < data.length) (h' : data.length ≤ 508) :
    cvdSend bufs txBuf addr cmd data = none := by
  have hsize : bufs.toList.length = 512 := bufs.length_toList
  have hroom : 4 + data.length ≤ bufs.toList.length := by omega
  obtain ⟨buf₁, buf₂, hput₁, hput₂, hpre₂, hlen₂⟩ := put_before hroom
    (show [CVD_STX, 0x80 + addr, UInt8.ofNat (data.length + 1), cmd].length = 4 from rfl)
  have hplace : (4 + (data.length : Int) + 1).toNat = 4 + data.length + 1 := by omega
  rw [cvdSend, if_neg (by omega)]
  show (put bufs.toList ((4 : Nat) : Int) data).bind _ = _
  rw [hput₁]
  show (put buf₁ 0 _).bind _ = _
  rw [hput₂, Option.bind_some]
  -- the second check byte is outside in any case
  cases hput₃ : put buf₂ (4 + (data.length : Int))
    [cvdXor ((buf₂.drop 1).take (4 + data.length - 1))] with
  | none => simp only [Option.bind_eq_bind, Option.bind_none]
  | some buf₃ =>
    have hlen₃ := length_put hput₃
    have hput₄ : put buf₃ (4 + (data.length : Int) + 1)
        [cvdSum ((buf₃.drop 1).take (4 + data.length - 1))] = none := by
      refine put_eq_none (List.cons_ne_nil _ _) (Or.inr ?_)
      rw [List.length_singleton, hplace]
      omega
    simp only [hput₄, Option.bind_eq_bind, Option.bind_some, Option.bind_none]

theorem cvdSend_long (h : 508 < data.length) : cvdSend bufs txBuf addr cmd data = some none := by
  rw [cvdSend, if_pos (by omega)]
  rfl

/-- The frame of a payload, when its length and the command fit into the length field. -/
def CvdFrame (addr cmd : UInt8) (data frame : List UInt8) : Prop :=
  ∃ n : UInt8, n.toNat = data.length + 1 ∧ frame = CVD_STX :: cvdTail addr n cmd data

/-- Nothing is written outside; what is sent is the start byte and behind it, with `CVD_STX` doubled,
the rest of the payload's frame; and a frame that fits when it is doubled is sent. -/
def SendsFrame (addr cmd : UInt8) (data : List UInt8) (result : Option (Option (List UInt8))) : Prop :=
  ∃ sent, result = some sent
    ∧ (∀ bs, sent = some bs → ∃ rest, bs = CVD_STX :: rest
        ∧ CvdFrame addr cmd data (CVD_STX :: unstuff CVD_STX rest))
    ∧ ∀ frame, CvdFrame addr cmd data frame → (cvdEscaped frame.tail).length ≤ 512 →
        sent = some (cvdEscaped frame.tail)

/-- What `cvd_send` makes the doubled frame of: the length is cut to eight bits. -/
def cvdSrc (addr cmd : UInt8) (data : List UInt8) : List UInt8 :=
  cvdTail addr (UInt8.ofNat (data.length + 1)) cmd data

theorem cvdFrame_iff (frame : List UInt8) :
    CvdFrame addr cmd data frame ↔ data.length ≤ 254 ∧ frame = CVD_STX :: cvdSrc addr cmd data := by
  constructor
  · rintro ⟨n, hn, rfl⟩
    have hlt := n.toNat_lt
    have hbyte : UInt8.ofNat (data.length + 1) = n := by rw [← hn, UInt8.ofNat_toNat]
    exact ⟨by omega, by rw [cvdSrc, hbyte]⟩
  · rintro ⟨h, rfl⟩
    refine ⟨UInt8.ofNat (data.length + 1), ?_, rfl⟩
    rw [UInt8.toNat_ofNat']
    omega

/-- The payloads that are handled as they should be. -/
def Sendable (addr cmd : UInt8) (data : List UInt8) : Prop :=
  508 < data.length
    ∨ data.length ≤ 506
      ∧ ((data.length ≤ 254 ∧ (cvdEscaped (cvdSrc addr cmd data)).length < 512)
        ∨ (254 < data.length ∧ (cvdEscaped (cvdSrc addr cmd data)).length = 512)
        ∨ (512 < (cvdEscaped (cvdSrc addr cmd data)).length
          ∧ ¬ Straddles 512 (cvdSrc addr cmd data)))

/-- Nothing is sent: right unless the payload has a frame that fits. -/
theorem sendsFrame_none :
    SendsFrame addr cmd data (some none)
      ↔ (data.length ≤ 254 → 512 < (cvdEscaped (cvdSrc addr cmd data)).length) := by
  constructor
  · rintro ⟨sent, heq, _, hfits⟩ hlen
    cases heq
    by_contra hroom
    have hsent := hfits _ ((cvdFrame_iff _).mpr ⟨hlen, rfl⟩) (Nat.le_of_not_lt hroom)
    cases hsent
  · intro h
    refine ⟨none, rfl, fun bs hbs => (nomatch hbs), fun frame hframe hroom => ?_⟩
    obtain ⟨hlen, rfl⟩ := (cvdFrame_iff frame).mp hframe
    exact absurd (h hlen) (Nat.not_lt.mpr hroom)

/-- What `cvd_esc` makes is sent: right if the length has room in its field. -/
theorem sendsFrame_some :
    SendsFrame addr cmd data (some (some (cvdEscaped (cvdSrc addr cmd data)))) ↔ data.length ≤ 254 := by
  constructor
  · rintro ⟨sent, heq, hsent, _⟩
    cases heq
    obtain ⟨rest, _, hframe⟩ := hsent _ rfl
    exact ((cvdFrame_iff _).mp hframe).1
  · intro hlen
    refine ⟨_, rfl, fun bs hbs => ?_, fun frame hframe _ => ?_⟩
    · cases hbs
      refine ⟨stuff CVD_STX (cvdSrc addr cmd data), rfl, (cvdFrame_iff _).mpr ⟨hlen, ?_⟩⟩
      rw [unstuff_stuff]
    · obtain ⟨_, rfl⟩ := (cvdFrame_iff frame).mp hframe
      rfl

/-- A doubled `CVD_STX` on both sides of the end goes on behind it. -/
theorem Straddles.lt (h : Straddles size src) : size < (cvdEscaped src).length := by
  obtain ⟨pre, post, rfl, hcut⟩ := h
  rw [cvdEscaped, List.length_cons] at hcut
  rw [cvdEscaped, stuff_append, stuff_flag]
  simp only [List.length_cons, List.length_append]
  omega

/-- A payload of 506 bytes or less, by the length of its doubled frame. -/
theorem cvdSend_short (h : data.length ≤ 506) (hlt : (cvdEscaped (cvdSrc addr cmd data)).length < 512) :
    cvdSend bufs txBuf addr cmd data = some (some (cvdEscaped (cvdSrc addr cmd data))) := by
  have hsize : txBuf.toList.length = 512 := txBuf.length_toList
  have hlt' : (cvdEscaped (cvdSrc addr cmd data)).length < txBuf.toList.length := by rwa [hsize]
  obtain ⟨dest', hesc, hpre⟩ := cvdEsc_fits hlt'
  have hpos : ((cvdEscaped (cvdSrc addr cmd data)).length : Int) > 0 := by
    rw [cvdEscaped, List.length_cons]
    omega
  rw [cvdSend_eq h]
  show (cvdEsc txBuf.toList CVD_STX (cvdSrc addr cmd data)).map cvdPut = _
  rw [hesc, Option.map_some, cvdPut, if_pos hpos, Int.toNat_natCast]
  rw [take_of_isPrefix hpre rfl]

theorem cvdSend_full (h : data.length ≤ 506) (hge : 512 ≤ (cvdEscaped (cvdSrc addr cmd data)).length)
    (hstraddles : ¬ Straddles 512 (cvdSrc addr cmd data)) :
    cvdSend bufs txBuf addr cmd data = some none := by
  have hsize : txBuf.toList.length = 512 := txBuf.length_toList
  have hge' : txBuf.toList.length ≤ (cvdEscaped (cvdSrc addr cmd data)).length := by rwa [hsize]
  obtain ⟨dest', hesc⟩ := cvdEsc_full hge' (by omega) (by rwa [hsize])
  rw [cvdSend_eq h]
  show (cvdEsc txBuf.toList CVD_STX (cvdSrc addr cmd data)).map cvdPut = _
  rw [hesc]
  rfl

theorem cvdSend_outside (h : data.length ≤ 506) (hstraddles : Straddles 512 (cvdSrc addr cmd data)) :
    cvdSend bufs txBuf addr cmd data = none := by
  have hsize : txBuf.toList.length = 512 := txBuf.length_toList
  rw [cvdSend_eq h]
  show (cvdEsc txBuf.toList CVD_STX (cvdSrc addr cmd data)).map cvdPut = _
  rw [cvdEsc_outside (by rwa [hsize])]
  rfl

/-- `cvd_send` sends nothing or the frame, stays in its buffers and sends what fits, if and only if the
payload has 509 bytes or more; or it has 254 or less and its doubled frame does not come to 512
bytes; or it has 506 or less, the doubled frame comes to more than 512 bytes (or to 512, when the
length has no room in its field) and no doubled `CVD_STX` lies on both sides of the 512th byte. -/
theorem cvd_send_framed (bufs txBuf : Vector UInt8 512) (addr cmd : UInt8) (data : List UInt8) :
    SendsFrame addr cmd data (cvdSend bufs txBuf addr cmd data) ↔ Sendable addr cmd data := by
  unfold Sendable
  by_cases hlong : 508 < data.length
  · rw [cvdSend_long hlong, sendsFrame_none]
    exact iff_of_true (by omega) (Or.inl hlong)
  by_cases hover : 506 < data.length
  · rw [cvdSend_overflow hover (by omega)]
    refine iff_of_false ?_ (by omega)
    rintro ⟨_, heq, _⟩
    cases heq
  have hshort : data.length ≤ 506 := by omega
  rw [or_iff_right hlong, and_iff_right hshort]
  by_cases hlt : (cvdEscaped (cvdSrc addr cmd data)).length < 512
  · rw [cvdSend_short hshort hlt, sendsFrame_some]
    omega
  by_cases hstraddles : Straddles 512 (cvdSrc addr cmd data)
  · have hgt := hstraddles.lt
    rw [cvdSend_outside hshort hstraddles]
    refine iff_of_false ?_ ?_
    · rintro ⟨_, heq, _⟩
      cases heq
    · rintro (h | h | h)
      · omega
      · omega
      · exact h.2 hstraddles
  · rw [cvdSend_full hshort (by omega) hstraddles, sendsFrame_none, and_iff_left hstraddles]
    omega

/-- A payload of 255 zeros gets a frame of length 0. -/
theorem not_cvd_send_framed :
    ¬ SendsFrame 1 0x41 (List.replicate 255 0)
      (cvdSend (Vector.replicate 512 0) (Vector.replicate 512 0) 1 0x41 (List.replicate 255 0)) := by
  have hlen : (List.replicate 255 (0 : UInt8)).length = 255 := List.length_replicate
  have hlt : (cvdEscaped (cvdSrc 1 0x41 (List.replicate 255 0))).length < 512 := by decide +kernel
  rw [cvdSend_short (by omega) hlt, sendsFrame_some]
  omega

end VdCamera.Dev
