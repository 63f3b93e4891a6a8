import VdCamera.Platform.Proofs.DownTunnel
import VdCamera.Platform.Proofs.HttpResend
import VdCamera.Platform.Proto

/-!
# What the encoders of the bitcom platform write

The receiver's reading of a header gives back what `respond_tcp` printed, and `record_http` reports
one byte more than its request has, the terminator.
-/

namespace VdCamera.Platform

open Misc

variable {buf buf' ask as bs text : List UInt8} {proto : BitcomPro} {r : RecordHttp}

/-! ## Printing into a buffer -/

/-- A text with room for its terminator stands at the beginning of the buffer. -/
theorem snprintfAt_fits (h : text.length < buf.length) :
    ∃ buf', snprintfAt buf 0 buf.length text = some buf' ∧ text ++ [0] <+: buf'
      ∧ buf'.length = buf.length := by
  have hprint : snprintfAt buf 0 buf.length text = put buf ([] : List UInt8).length (text ++ [0]) := by
    rw [snprintfAt, if_neg (by omega), List.take_of_length_le (by omega)]
    rfl
  rw [hprint]
  exact put_append List.nil_prefix (by simpa [Nat.succ_le_iff] using h)

/-! ## The answer of the down tunnel -/

theorem comma_not_mem_fmtInt (n : Int) : comma ∉ fmtInt n := by
  intro h
  have hall : ∀ b ∈ fmtInt n, b ≠ comma :=
    forall_mem_fmtInt (by decide) (fun b hb heq => by rw [heq] at hb; cases hb) n
  exact hall _ h rfl

/-- A number of 32 bits is printed into 11 characters or less, so `dts_get_frm_info` reads it whole. -/
theorem strtol_take_fmtInt {n : Int} (hlow : -2 ^ 31 ≤ n) (hhigh : n < 2 ^ 31) :
    strtol ((fmtInt n).take 127) = n := by
  have hlen := (length_fmtInt_le_iff (n := n) 9).mpr ⟨by omega, by omega⟩
  rw [List.take_of_length_le (by omega), strtol_fmtInt hlow hhigh]

theorem sum_toNat_le (data : List UInt8) : (data.map UInt8.toNat).sum ≤ 255 * data.length := by
  induction data with
  | nil => exact Nat.le_refl 0
  | cons b data ih =>
    have hb := b.toNat_lt
    simp only [List.map_cons, List.sum_cons, List.length_cons]
    omega

theorem getSumChk_lt (data : List UInt8) (h : data.length < 1024) : getSumChk data < 2 ^ 18 := by
  have hsum := sum_toNat_le data
  unfold getSumChk
  omega

/-- `BitcomPro.frame` of a text: what is printed is the text, and its sum. -/
theorem frame_eq (h : 0 ∉ ask) (hlen : ask.length < 1024) (proto : BitcomPro) :
    proto.frame ask = proto.hdr ++ comma :: (proto.daddr ++ comma :: (fmtInt VE_DTS_TYPE_ASK
      ++ comma :: (fmtInt (getSumChk ask) ++ comma :: (fmtInt ask.length ++ comma :: ask)))) := by
  have hdata : (ask ++ [0]).takeWhile (· ≠ 0) = ask := by
    have hne : ∀ b ∈ ask, decide (b ≠ 0) = true := by
      intro b hb
      exact decide_eq_true fun h0 => h (by rwa [h0] at hb)
    rw [List.takeWhile_append_of_pos hne]
    exact List.append_nil ask
  have hcs : (Int32.ofNat (getSumChk ask)).toInt = getSumChk ask :=
    Int32.toInt_ofNat_of_lt (by have := getSumChk_lt ask hlen; omega)
  simp only [BitcomPro.frame, hdata, List.take_left, hcs]

/-- What `dts_get_frm_info` is to read of a frame. -/
def BitcomPro.info (proto : BitcomPro) (ask : List UInt8) : DtsHead where
  sof := proto.hdr
  daddr := proto.daddr
  type := VE_DTS_TYPE_ASK
  cs := getSumChk ask
  dataLen := ask.length
  headLen := (proto.frame ask).length - ask.length

/-- The header of a frame is read back. -/
theorem dtsGetFrmInfo_frame (hhdr : comma ∉ proto.hdr) (hdaddr : comma ∉ proto.daddr) (h : 0 ∉ ask)
    (hlen : ask.length < 1024) (info : DtsHead) :
    dtsGetFrmInfo (proto.frame ask) info = (true, proto.info ask) := by
  have hsum := getSumChk_lt ask hlen
  have hhdr' : proto.hdr.take 31 = proto.hdr := List.take_of_length_le (by have := proto.hdr_text; omega)
  have hdaddr' : proto.daddr.take 31 = proto.daddr :=
    List.take_of_length_le (by have := proto.daddr_text; omega)
  have hask : strtol ((fmtInt VE_DTS_TYPE_ASK).take 127) = VE_DTS_TYPE_ASK :=
    strtol_take_fmtInt (by decide) (by decide)
  have hcs : toUInt32 (strtol ((fmtInt (getSumChk ask)).take 127)) = getSumChk ask := by
    rw [strtol_take_fmtInt (by omega) (by omega), toUInt32]
    omega
  have hdata : toUInt32 (strtol ((fmtInt ask.length).take 127)) = ask.length := by
    rw [strtol_take_fmtInt (by omega) (by omega), toUInt32]
    omega
  rw [dtsGetFrmInfo, BitcomPro.info, frame_eq h hlen, frmInfoLoop_comma hhdr (by decide),
    frmInfoLoop_comma hdaddr (by decide), frmInfoLoop_comma (comma_not_mem_fmtInt _) (by decide),
    frmInfoLoop_comma (comma_not_mem_fmtInt _) (by decide),
    frmInfoLoop_append (comma_not_mem_fmtInt _), frmInfoLoop, if_pos rfl, if_pos rfl]
  simp only [DtsHead.setField, List.nil_append, hhdr', hdaddr', hask, hcs, hdata, Prod.mk.injEq,
    DtsHead.mk.injEq, true_and, List.length_append, List.length_cons]
  omega

/-- A payload that `respond_tcp` has room for: a text of less than 1024 bytes. -/
def Payload (ask : List UInt8) : Prop := 0 ∉ ask ∧ ask.length + 1 ≤ 1024

/-- What came of the call: the frame stands at the beginning of the buffer with its terminator, the
length of the frame is returned, and the receiver reads it as it was meant, with nothing left over. -/
def RespondsWith (proto : BitcomPro) (ask : List UInt8) (info : DtsHead)
    (result : Option (List UInt8 × Int)) : Prop :=
  ∃ (buf' : List UInt8) (len headLen : Nat), result = some (buf', (len : Int))
    ∧ buf'.take (len + 1) = proto.frame ask ++ [0]
    ∧ dtsGetFrmInfo (buf'.take len) info = (true, {
        sof := proto.hdr
        daddr := proto.daddr
        type := VE_DTS_TYPE_ASK
        cs := getSumChk ask
        dataLen := ask.length
        headLen })
    ∧ (buf'.take len).drop headLen = ask ∧ len = headLen + ask.length

theorem respondAsk_eq (state : Int32) :
    respondAsk state = ascii "\x7b\n   \"desc\" : " ++ (fmtInt state.toInt
      ++ ascii ",\n   \"ret\" : 1\n\x7d\n") := by
  have hdesc : styledWrite.valueToQuoted "desc" = ascii "\"desc\"" := by decide
  have hret : styledWrite.valueToQuoted "ret" = ascii "\"ret\"" := by decide
  have hone : fmtInt 1 = ascii "1" := by decide
  simp only [respondAsk, styledWrite, hdesc, hret, hone, List.map_cons, List.map_nil,
    List.intersperse_cons_cons, List.intersperse_singleton, List.flatten_cons, List.flatten_nil,
    List.append_assoc, List.append_nil]
  rfl

/-- What `respond_tcp` answers is such a payload. -/
theorem payload_respondAsk (state : Int32) : Payload (respondAsk state) := by
  have hnum : 0 ∉ fmtInt state.toInt := by
    intro h
    have hall : ∀ b ∈ fmtInt state.toInt, b ≠ 0 :=
      forall_mem_fmtInt (by decide) (fun b hb heq => by rw [heq] at hb; cases hb) _
    exact hall 0 h rfl
  have hlen := (length_fmtInt_le_iff (n := state.toInt) 9).mpr
    ⟨by have := state.le_toInt; omega, by have := state.toInt_lt; omega⟩
  rw [Payload, respondAsk_eq]
  constructor
  · simp only [List.mem_append, hnum, false_or]
    decide
  · simp only [List.length_append]
    have h1 : (ascii "\x7b\n   \"desc\" : ").length = 14 := by decide
    have h2 : (ascii ",\n   \"ret\" : 1\n\x7d\n").length = 17 := by decide
    omega

theorem respondTcpText_decodes (hhdr : comma ∉ proto.hdr) (hdaddr : comma ∉ proto.daddr)
    (h : Payload ask) (hroom : (proto.frame ask).length < buf.length) (info : DtsHead) :
    RespondsWith proto ask info (respondTcpText buf proto ask) := by
  obtain ⟨hzero, hlen⟩ := h
  obtain ⟨buf', hprint, hpre, _⟩ := snprintfAt_fits hroom
  have hret : min ((buf.length : Int) - 1) ((proto.frame ask).length : Int)
      = ((proto.frame ask).length : Int) := by omega
  have htake : buf'.take (proto.frame ask).length = proto.frame ask :=
    take_of_isPrefix ((List.prefix_append _ _).trans hpre) rfl
  have hask : ask.length ≤ (proto.frame ask).length := by
    rw [frame_eq hzero (by omega)]
    simp only [List.length_append, List.length_cons]
    omega
  refine ⟨buf', (proto.frame ask).length, (proto.frame ask).length - ask.length, ?_, ?_, ?_, ?_, ?_⟩
  · rw [respondTcpText, if_neg (by omega)]
    simp [hprint, hret]
  · exact take_of_isPrefix hpre (by simp)
  · rw [htake, dtsGetFrmInfo_frame hhdr hdaddr hzero (by omega)]
    rfl
  · have hsuffix : ask <:+ proto.frame ask := by
      have hfield : ∀ f bs : List UInt8, ask <:+ bs → ask <:+ f ++ comma :: bs := fun f bs h =>
        (h.trans (List.suffix_cons ..)).trans (List.suffix_append ..)
      rw [frame_eq hzero (by omega)]
      apply hfield
      apply hfield
      apply hfield
      apply hfield
      exact hfield _ _ (List.suffix_refl _)
    rw [htake]
    exact (List.suffix_iff_eq_drop.mp hsuffix).symm
  · omega

/-- A frame of the down tunnel is read as what it was made of, whatever text it brings, and it is as
long as `respond_tcp` says; and every answer of `respond_tcp` is such a text. -/
theorem respond_tcp_decodes (proto : BitcomPro) (hhdr : comma ∉ proto.hdr)
    (hdaddr : comma ∉ proto.daddr) (buf : List UInt8) :
    (∀ ask, Payload ask → (proto.frame ask).length < buf.length →
        ∀ info, RespondsWith proto ask info (respondTcpText buf proto ask))
      ∧ ∀ state, respondTcp buf proto state = respondTcpText buf proto (respondAsk state)
        ∧ Payload (respondAsk state) :=
  ⟨fun _ hask hroom info => respondTcpText_decodes hhdr hdaddr hask hroom info,
    fun state => ⟨rfl, payload_respondAsk state⟩⟩

/-- A request of `IPNC` to `a`, and 64 bytes. -/
theorem respond_tcp_decodes_IPNC :
    RespondsWith ⟨marker, [97], by decide, by decide⟩ [65] {}
      (respondTcpText (List.replicate 64 0) ⟨marker, [97], by decide, by decide⟩ [65]) :=
  (respond_tcp_decodes ⟨marker, [97], by decide, by decide⟩ (by decide) (by decide)
    (List.replicate 64 0)).1 [65] ⟨by decide, by decide⟩ (by decide) {}

/-! ## The request for a record -/

/-- The buffer of `size` bytes holds what was written so far, `wp` is behind it, and a byte remains for
the terminator besides what is left. -/
structure HttpOut.Filled (o : HttpOut) (size : Nat) (as : List UInt8) : Prop where
  pre : as <+: o.buf
  wp : o.wp = as.length
  left : o.left = (size : Int) - 1 - as.length
  room : as.length < size
  size : o.buf.length = size

/-- One copy: as much of the piece as there is room for. -/
theorem HttpOut.Filled.copy {o : HttpOut} {size : Nat} (h : o.Filled size as) (piece : List UInt8) :
    ∃ o', o.copy piece = some o' ∧ o'.Filled size (as ++ piece.take (size - 1 - as.length)) := by
  obtain ⟨hpre, hwp, hleft, hroom, hsize⟩ := h
  -- how much of the piece there is room for
  obtain ⟨n, hn⟩ : ∃ n : Nat, n = min (size - 1 - as.length) piece.length := ⟨_, rfl⟩
  have hlen : min o.left (piece.length : Int) = (n : Int) := by omega
  have htake : piece.take (size - 1 - as.length) = piece.take n := by
    rw [List.take_eq_take_iff]
    omega
  have hpiece : (piece.take n).length = n := by
    rw [List.length_take]
    omega
  have hfit : as.length + (piece.take n).length ≤ o.buf.length := by omega
  obtain ⟨buf', hput, hpre', hsize'⟩ := put_append hpre hfit
  refine ⟨⟨buf', o.wp + n, o.left - n⟩, ?_, ?_⟩
  · simp only [HttpOut.copy, hlen]
    rw [if_neg (by omega), hwp, Int.toNat_natCast, hput]
    rfl
  · rw [htake]
    constructor
    · exact hpre'
    · show o.wp + n = _
      rw [List.length_append]
      omega
    · show o.left - n = _
      rw [List.length_append]
      omega
    · rw [List.length_append]
      omega
    · exact hsize'.trans hsize

/-- All pieces, one behind the other. -/
theorem HttpOut.Filled.foldlM_copy {o : HttpOut} {size : Nat} (h : o.Filled size as)
    (pieces : List (List UInt8)) :
    ∃ o', pieces.foldlM HttpOut.copy o = some o'
      ∧ o'.Filled size
        (pieces.foldl (fun out piece => out ++ piece.take (size - 1 - out.length)) as) := by
  induction pieces generalizing o as with
  | nil => exact ⟨o, rfl, h⟩
  | cons piece pieces ih =>
    obtain ⟨o₁, hcopy, h₁⟩ := h.copy piece
    obtain ⟨o₂, hrest, h₂⟩ := ih h₁
    refine ⟨o₂, ?_, h₂⟩
    rw [List.foldlM_cons, hcopy]
    exact hrest

/-- The content length is the length of the pieces. -/
theorem contentLength_eq (r : RecordHttp) : r.contentLength = r.pieces.flatten.length := by
  cases hpic : r.pic with
  | none =>
    simp only [RecordHttp.pieces, RecordHttp.contentLength, hpic, List.flatten_append,
      List.length_append, List.flatten_cons, List.flatten_nil, List.length_nil]
    omega
  | some pic =>
    simp only [RecordHttp.pieces, RecordHttp.contentLength, hpic, List.flatten_append,
      List.length_append, List.flatten_cons, List.flatten_nil, List.length_nil]
    omega

/-- With room for two bytes nothing is written outside the buffer: it holds what `recordHttp` says. What
is reported has the terminator in it. -/
theorem recordHttpInto_eq (h : 2 ≤ buf.length) :
    ∃ buf', recordHttpInto buf r = some (buf', ((recordHttp buf.length r).length : Int) + 1)
      ∧ recordHttp buf.length r ++ [0] <+: buf' := by
  obtain ⟨header, hheader⟩ : ∃ header, header = httpHeader r.info (boundaryOf r.sec) r.contentLength :=
    ⟨_, rfl⟩
  have hroom : (if (0 : Int) ≤ (buf.length : Int) - 1 then ((buf.length : Int) - 1).toNat
      else ((buf.length : Int) - 1 + 2 ^ 32).toNat) = buf.length - 1 := by
    rw [if_pos (by omega)]
    omega
  have hlen : min (header.length : Int) ((buf.length : Int) - 1 - 1)
      = ((header.take (buf.length - 2)).length : Int) := by
    rw [List.length_take]
    omega
  have hfit : ([] : List UInt8).length + (header.take (buf.length - 2) ++ [0]).length ≤ buf.length := by
    simp only [List.length_nil, List.length_append, List.length_take, List.length_singleton]
    omega
  obtain ⟨buf₁, hprint, hpre₁, hsize₁⟩ := put_append List.nil_prefix hfit
  have hfilled : HttpOut.Filled ⟨buf₁, (header.take (buf.length - 2)).length,
      (buf.length : Int) - 1 - (header.take (buf.length - 2)).length⟩
      buf.length (header.take (buf.length - 2)) :=
    ⟨(List.prefix_append _ _).trans hpre₁, rfl, rfl, by rw [List.length_take]; omega, hsize₁⟩
  obtain ⟨o, hpieces, ho⟩ := hfilled.foldlM_copy r.pieces
  have hwritten : r.pieces.foldl (fun out piece => out ++ piece.take (buf.length - 1 - out.length))
      (header.take (buf.length - 2)) = recordHttp buf.length r := by
    rw [hheader, contentLength_eq]
    rfl
  rw [hwritten] at ho
  have hlast : (recordHttp buf.length r).length + ([0] : List UInt8).length ≤ o.buf.length := by
    rw [ho.size]
    exact ho.room
  obtain ⟨buf₂, hput, hpre₂, _⟩ := put_append ho.pre hlast
  refine ⟨buf₂, ?_, hpre₂⟩
  have hsnprintf : snprintfAt buf 0 (buf.length - 1) header = some buf₁ := by
    rw [snprintfAt, if_neg (by omega)]
    exact hprint
  have hleft := ho.left
  simp only [recordHttpInto, ← hheader, hroom, hsnprintf, Option.bind_eq_bind, Option.bind_some, hlen,
    hpieces, ho.wp]
  rw [hput]
  simp only [Option.bind_some, Option.pure_def, Option.some.injEq, Prod.mk.injEq, true_and]
  omega

/-- One header, and behind it as many bytes as the header says. -/
def Framed (r : RecordHttp) (bytes : List UInt8) : Prop :=
  ∃ (n : Nat) (body : List UInt8),
    bytes = httpHeader r.info (boundaryOf r.sec) n ++ body ∧ body.length = n

/-- Nothing is written outside of the buffer; and where the whole request has room with the terminator
that is kept for it, what is reported is a request. -/
def FramesRecord (buf : List UInt8) (r : RecordHttp) : Prop :=
  ∃ buf' ret, recordHttpInto buf r = some (buf', ret)
    ∧ (r.Fits buf.length → Framed r (buf'.take ret.toNat))

/-- The header tells its content length: what stands before and behind the digits is the same. -/
theorem httpHeader_inj {info : TabitcomHttpInfo} {boundary : List UInt8} {m n : Nat}
    (h : httpHeader info boundary m ++ as = httpHeader info boundary n ++ bs) : m = n := by
  have hdigits : ∀ (k : Nat) (rest : List UInt8),
      (fmtInt k ++ crlf ++ rest).takeWhile isDigit = digits k := by
    intro k rest
    rw [fmtInt_eq, if_neg (by omega), Int.natAbs_natCast, List.append_assoc,
      List.takeWhile_append_of_pos fun b hb => isDigit_of_mem_digits hb]
    exact List.append_nil _
  simp only [httpHeader, List.append_assoc, List.append_cancel_left_eq] at h
  have htake := congrArg (List.takeWhile isDigit) h
  rw [← List.append_assoc (fmtInt (m : Int)), ← List.append_assoc (fmtInt (n : Int)), hdigits,
    hdigits] at htake
  rw [← decimal_digits m, htake, decimal_digits]

/-- With the terminator behind it a request has a byte more than it says. -/
theorem not_framed_terminator {body : List UInt8} {n : Nat} (h : body.length = n) :
    ¬ Framed r (httpHeader r.info (boundaryOf r.sec) n ++ body ++ [0]) := by
  rintro ⟨n', body', heq, hlen⟩
  rw [List.append_assoc] at heq
  have hn := httpHeader_inj heq
  rw [← hn] at heq hlen
  have hbody := List.append_cancel_left heq
  have := congrArg List.length hbody
  rw [List.length_append, List.length_singleton] at this
  omega

/-- A request that has room is reported with its terminator. -/
theorem not_framesRecord (h : r.Fits buf.length) (hsize : 2 ≤ buf.length) : ¬ FramesRecord buf r := by
  rintro ⟨buf', ret, hrun, hframed⟩
  obtain ⟨buf₂, hrun₂, hpre⟩ := recordHttpInto_eq (r := r) hsize
  rw [hrun] at hrun₂
  cases hrun₂
  have htake : buf'.take ((recordHttp buf.length r).length + 1) = recordHttp buf.length r ++ [0] :=
    take_of_isPrefix hpre (by simp)
  have hret : (((recordHttp buf.length r).length : Int) + 1).toNat
      = (recordHttp buf.length r).length + 1 := by omega
  have hreported := hframed h
  rw [hret, htake, recordHttp_eq h] at hreported
  exact not_framed_terminator rfl hreported

/-- The copy of the first piece goes to the byte before a buffer of one byte. -/
theorem copy_before (b : UInt8) (piece : List UInt8) (h : piece ≠ []) :
    HttpOut.copy ⟨[b], -1, 1⟩ piece = none := by
  have hpos := List.length_pos_iff.mpr h
  have hmin : min (1 : Int) (piece.length : Int) = 1 := by omega
  have htake : piece.take 1 ≠ [] := by
    rw [← List.length_pos_iff, List.length_take]
    omega
  simp only [HttpOut.copy, hmin]
  rw [if_neg (by decide), show Int.toNat 1 = 1 from rfl, put_eq_none htake (Or.inl (by decide))]
  rfl

/-- In a buffer of one byte or none something is written outside. -/
theorem recordHttpInto_small (h : buf.length < 2) (r : RecordHttp) : recordHttpInto buf r = none := by
  obtain ⟨header, hheader⟩ : ∃ header, header = httpHeader r.info (boundaryOf r.sec) r.contentLength :=
    ⟨_, rfl⟩
  match buf, h with
  | [], _ =>
    have hroom : (if (0 : Int) ≤ ((0 : Nat) : Int) - 1 then (((0 : Nat) : Int) - 1).toNat
        else (((0 : Nat) : Int) - 1 + 2 ^ 32).toNat) = 2 ^ 32 - 1 := by decide
    have hnone : snprintfAt [] 0 (2 ^ 32 - 1) header = none := by
      rw [snprintfAt, if_neg (by decide)]
      exact put_eq_none (by simp) (Or.inr (by simp))
    simp only [recordHttpInto, ← hheader, List.length_nil, hroom, hnone, Option.bind_eq_bind,
      Option.bind_none]
  | [b], _ =>
    have hroom : (if (0 : Int) ≤ ((1 : Nat) : Int) - 1 then (((1 : Nat) : Int) - 1).toNat
        else (((1 : Nat) : Int) - 1 + 2 ^ 32).toNat) = 0 := by decide
    have hprint : snprintfAt [b] 0 0 header = some [b] := by rw [snprintfAt, if_pos rfl, put_nil]
    have hlen : min (header.length : Int) (((1 : Nat) : Int) - 1 - 1) = -1 := by omega
    have hleft : ((1 : Nat) : Int) - 1 - -1 = 1 := by decide
    obtain ⟨piece, rest, hrest, hpiece⟩ : ∃ piece rest, r.pieces = piece :: rest ∧ piece ≠ [] :=
      ⟨_, _, rfl, by simp [crlf]⟩
    simp only [recordHttpInto, ← hheader, List.length_singleton, hroom, hprint, hlen, hleft, hrest,
      List.foldlM_cons, copy_before b piece hpiece, Option.bind_eq_bind, Option.bind_some,
      Option.bind_none]

/-- `record_http` stays in its buffer and reports a whole request as it is if and only if the buffer has
two bytes or more, but not enough for the request and its terminator: a request that is written
whole is always reported with the terminator. -/
theorem record_http_framed (buf : List UInt8) (r : RecordHttp) :
    FramesRecord buf r ↔ 2 ≤ buf.length ∧ ¬ r.Fits buf.length := by
  constructor
  · intro h
    have hsize : 2 ≤ buf.length := by
      by_contra hsmall
      obtain ⟨_, _, hrun, _⟩ := h
      rw [recordHttpInto_small (by omega) r] at hrun
      cases hrun
    exact ⟨hsize, fun hfits => not_framesRecord hfits hsize h⟩
  · rintro ⟨hsize, hfits⟩
    obtain ⟨buf', hrun, _⟩ := recordHttpInto_eq (r := r) hsize
    exact ⟨buf', _, hrun, fun h => absurd h hfits⟩

/-- The first record, without a picture, in 2048 bytes. -/
theorem not_record_http_framed :
    ¬ FramesRecord (List.replicate 2048 0)
      ⟨firstText, none, 0, ⟨ascii "1", ascii "10.0.0.1", 80, ascii "ice_wind"⟩⟩ := by
  have hfits : RecordHttp.Fits ⟨firstText, none, 0,
      ⟨ascii "1", ascii "10.0.0.1", 80, ascii "ice_wind"⟩⟩ 2048 := by
    unfold RecordHttp.Fits
    decide +kernel
  exact not_framesRecord (by rwa [List.length_replicate]) (by rw [List.length_replicate]; decide)

end VdCamera.Platform
