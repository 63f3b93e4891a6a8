import VdCamera.Platform.DownTunnel

/-!
# When the down tunnel puts its frames together

The frames that a client has sent, cut into chunks. `dts_recv` looks for a header in every chunk and
begins a frame only where it finds a whole one, and it never looks past the end of a frame. Every
byte that it does not keep is lost, so counting them shows that the frames come out as they were
sent if and only if each frame has its own chunks, the first of which holds its header, and the
others are not taken for a header.
-/

namespace VdCamera.Platform

open Misc

/-- A frame as it is sent. -/
structure DtsFrame where
  addr : List UInt8
  type : List UInt8
  cs : List UInt8
  len : List UInt8
  data : List UInt8
  addr_ne_comma : comma ∉ addr
  type_ne_comma : comma ∉ type
  cs_digits : ∀ b ∈ cs, isDigit b = true
  cs_eq : decimal cs = (data.map UInt8.toNat).sum
  len_digits : ∀ b ∈ len, isDigit b = true
  len_eq : decimal len = data.length

/-- What stands before the last comma. -/
def DtsFrame.fields (f : DtsFrame) : List UInt8 :=
  marker ++ comma :: (f.addr ++ comma :: (f.type ++ comma :: (f.cs ++ comma :: f.len)))

/-- The header, up to and with the fifth comma. -/
def DtsFrame.header (f : DtsFrame) : List UInt8 := f.fields ++ [comma]

/-- The frame. -/
def DtsFrame.bytes (f : DtsFrame) : List UInt8 := f.header ++ f.data

/-- What `dts_get_frm_info` reads of the header. -/
def DtsFrame.info (f : DtsFrame) : DtsHead where
  sof := marker.take 31
  daddr := f.addr.take 31
  type := strtol (f.type.take 127)
  cs := toUInt32 (strtol (f.cs.take 127))
  dataLen := toUInt32 (strtol (f.len.take 127))
  headLen := f.header.length

variable {f : DtsFrame} {fs : List DtsFrame} {c : Chunk} {cs later : List Chunk} {s s' : Dts}
variable {info : DtsHead} {bs bs' field got : List UInt8} {cnt pos k r : Nat}

/-! ## Headers -/

theorem frmInfoLoop_append (h : comma ∉ bs) :
    frmInfoLoop cnt field pos (bs ++ bs') info =
      frmInfoLoop cnt (field ++ bs) (pos + bs.length) bs' info := by
  induction bs generalizing field pos with
  | nil => simp
  | cons b bs ih =>
    have hb : b ≠ comma := fun hb => h (by simp [hb])
    rw [List.cons_append, frmInfoLoop, if_neg hb, ih (fun hmem => h (List.mem_cons_of_mem _ hmem))]
    simp only [List.append_assoc, List.singleton_append, List.length_cons]
    congr 1
    omega

/-- Up to a comma that is not the fifth. -/
theorem frmInfoLoop_comma (h : comma ∉ bs) (hcnt : cnt + 1 ≠ 5) :
    frmInfoLoop cnt [] pos (bs ++ comma :: bs') info =
      frmInfoLoop (cnt + 1) [] (pos + bs.length + 1) bs' (info.setField (cnt + 1) bs) := by
  rw [frmInfoLoop_append h, List.nil_append, frmInfoLoop, if_pos rfl, if_neg hcnt]

theorem digits_ne_comma (h : ∀ b ∈ bs, isDigit b = true) : comma ∉ bs :=
  fun hmem => absurd (h _ hmem) (by decide)

/-- A whole header is read, whatever was in the fields before. -/
theorem dtsGetFrmInfo_header (f : DtsFrame) (bs : List UInt8) (info : DtsHead) :
    dtsGetFrmInfo (f.header ++ bs) info = (true, f.info) := by
  have hlen := digits_ne_comma f.len_digits
  simp only [dtsGetFrmInfo, DtsFrame.header, DtsFrame.fields, List.append_assoc, List.cons_append,
    List.nil_append]
  rw [frmInfoLoop_comma (by decide) (by decide), frmInfoLoop_comma f.addr_ne_comma (by decide),
    frmInfoLoop_comma f.type_ne_comma (by decide),
    frmInfoLoop_comma (digits_ne_comma f.cs_digits) (by decide), frmInfoLoop_append hlen,
    frmInfoLoop, if_pos rfl, if_pos rfl]
  simp only [DtsHead.setField, DtsFrame.info, DtsFrame.header, DtsFrame.fields, List.nil_append,
    List.length_append, List.length_cons, List.length_nil, Prod.mk.injEq, DtsHead.mk.injEq, true_and]
  omega

/-- A header is found where there are five commas. -/
theorem frmInfoLoop_fst (hcnt : cnt < 5) :
    (frmInfoLoop cnt field pos bs info).1 = true ↔ 5 ≤ cnt + bs.count comma := by
  induction bs generalizing cnt field pos info with
  | nil => simp [frmInfoLoop, hcnt]
  | cons b bs ih =>
    rw [frmInfoLoop]
    by_cases hb : b = comma
    · rw [if_pos hb]
      by_cases h5 : cnt + 1 = 5
      · simp [hb, h5]
        omega
      · rw [if_neg h5, ih (by omega), hb, List.count_cons_self]
        omega
    · rw [if_neg hb, ih hcnt, List.count_cons_of_ne (Ne.symm (Ne.symm hb))]

theorem dtsGetFrmInfo_fst : (dtsGetFrmInfo bs info).1 = true ↔ 5 ≤ bs.count comma := by
  rw [dtsGetFrmInfo, frmInfoLoop_fst (by decide), Nat.zero_add]

/-- The lengths are those of the last whole header. -/
theorem frmInfoLoop_lens (hcnt : cnt < 5) (h : (frmInfoLoop cnt field pos bs info).1 = false) :
    (frmInfoLoop cnt field pos bs info).2.dataLen = info.dataLen ∧
      (frmInfoLoop cnt field pos bs info).2.headLen = info.headLen := by
  induction bs generalizing cnt field pos info with
  | nil => exact ⟨rfl, rfl⟩
  | cons b bs ih =>
    rw [frmInfoLoop] at h ⊢
    split_ifs at h ⊢ with hb h5
    · have hset : (info.setField (cnt + 1) field).dataLen = info.dataLen ∧
          (info.setField (cnt + 1) field).headLen = info.headLen := by
        unfold DtsHead.setField
        split <;> simp_all
      rw [← hset.1, ← hset.2]
      exact ih (by omega) h
    · exact ih hcnt h

/-- A chunk that ends within a header holds less than five commas. -/
theorem count_lt_of_prefix_fields (h : bs <+: f.fields) : bs.count comma < 5 := by
  have hcount : f.fields.count comma = 4 := by
    simp only [DtsFrame.fields, List.count_append, List.count_cons_self,
      List.count_eq_zero_of_not_mem f.addr_ne_comma, List.count_eq_zero_of_not_mem f.type_ne_comma,
      List.count_eq_zero_of_not_mem (digits_ne_comma f.cs_digits),
      List.count_eq_zero_of_not_mem (digits_ne_comma f.len_digits)]
    decide
  have hle := h.sublist.count_le comma
  omega

/-- The beginning of a frame is found at once. -/
theorem dtsFindHead_marker {beyond : List UInt8} (h : marker <+: bs) (hne : bs ≠ []) :
    dtsFindHead beyond bs = some 0 := by
  cases bs with
  | nil => exact absurd rfl hne
  | cons b bs =>
    rw [dtsFindHead, if_pos]
    exact List.isPrefixOf_iff_prefix.mpr (h.trans (List.prefix_append _ _))

/-! ## One chunk -/

/-- The bytes of the frame under way. -/
def Dts.held (s : Dts) : List UInt8 := s.data.getD []

/-- What a frame under way reads of a chunk that looks like a header. -/
def readOver (info : DtsHead) (c : Chunk) : DtsHead :=
  match dtsFindHead c.beyond c.bytes with
  | some k => (dtsGetFrmInfo (c.bytes.drop k) info).2
  | none => info

/-- A chunk is not taken for a header: no marker is found in it, or one at its beginning with fewer
than five commas behind it. -/
def Chunk.Harmless (c : Chunk) : Prop :=
  ∀ k, dtsFindHead c.beyond c.bytes = some k → k = 0 ∧ c.bytes.count comma < 5

theorem dtsCopy_none (h : s.data = none) : dtsCopy bs k s = (none, s) := by
  simp [dtsCopy, h]

theorem dtsCopy_lt (h : s.data = some got) (hlt : k < s.remain) :
    dtsCopy bs k s =
      (none, { s with data := some (got ++ bs.take k), remain := s.remain - k }) := by
  simp only [dtsCopy, h, Nat.min_eq_left hlt.le]
  rw [if_neg (by omega)]

theorem dtsCopy_ge (h : s.data = some got) (hge : s.remain ≤ k) :
    dtsCopy bs k s =
      (if getSumChk (((got ++ bs.take s.remain).drop s.info.headLen).take s.info.dataLen) = s.info.cs
        then some (got ++ bs.take s.remain) else none, { s with data := none, remain := 0 }) := by
  simp only [dtsCopy, h, Nat.min_eq_right hge, Nat.sub_self, if_true]
  split_ifs <;> rfl

/-- No byte is sent that was not received. -/
theorem dtsCopy_le (bs : List UInt8) (k : Nat) (s : Dts) :
    ((dtsCopy bs k s).1.getD []).length + (dtsCopy bs k s).2.held.length ≤
      s.held.length + k := by
  cases h : s.data with
  | none =>
    rw [dtsCopy_none h]
    simp
  | some got =>
    rcases Nat.lt_or_ge k s.remain with hlt | hge
    · rw [dtsCopy_lt h hlt]
      simp only [Dts.held, h, Option.getD_none, Option.getD_some, List.length_append,
        List.length_take, List.length_nil]
      omega
    · rw [dtsCopy_ge h hge]
      split_ifs
      · simp only [Dts.held, h, Option.getD_none, Option.getD_some, List.length_append,
          List.length_take, List.length_nil]
        omega
      · simp [Dts.held]

/-- A frame that begins. -/
def Dts.start (info : DtsHead) : Dts where
  data := some []
  dataLens := (info.dataLen + info.headLen) % 2 ^ 32
  remain := (info.dataLen + info.headLen) % 2 ^ 32
  info := info

@[simp] theorem held_start : (Dts.start info).held = [] := rfl

@[simp] theorem held_info : Dts.held { s with info } = s.held := rfl

theorem held_of_some (h : s.data = some got) : s.held = got := by simp [Dts.held, h]

theorem held_of_none (h : s.data = none) : s.held = [] := by simp [Dts.held, h]

theorem dtsRecv_none (h : dtsFindHead c.beyond c.bytes = none) :
    dtsRecv s c = dtsCopy c.bytes c.bytes.length s := by
  unfold dtsRecv
  rw [h]

theorem dtsRecv_start (h : dtsFindHead c.beyond c.bytes = some k)
    (hinfo : dtsGetFrmInfo (c.bytes.drop k) s.info = (true, info)) (halloc : c.allocOk = true) :
    dtsRecv s c = dtsCopy (c.bytes.drop k) (c.bytes.drop k).length (Dts.start info) := by
  unfold dtsRecv
  rw [h]
  dsimp only
  rw [hinfo]
  dsimp only
  rw [if_pos halloc, Dts.start]

theorem dtsRecv_noMemory (h : dtsFindHead c.beyond c.bytes = some k)
    (hinfo : dtsGetFrmInfo (c.bytes.drop k) s.info = (true, info)) (halloc : c.allocOk ≠ true) :
    (dtsRecv s c).1 = none ∧ (dtsRecv s c).2.data = none := by
  unfold dtsRecv
  rw [h]
  dsimp only
  rw [hinfo]
  dsimp only
  rw [if_neg halloc]
  exact ⟨rfl, rfl⟩

theorem dtsRecv_noHeader (h : dtsFindHead c.beyond c.bytes = some k)
    (hinfo : dtsGetFrmInfo (c.bytes.drop k) s.info = (false, info)) :
    dtsRecv s c = dtsCopy c.bytes (c.bytes.drop k).length { s with info } := by
  unfold dtsRecv
  rw [h]
  dsimp only
  rw [hinfo]

theorem dtsRecv_le (s : Dts) (c : Chunk) :
    ((dtsRecv s c).1.getD []).length + (dtsRecv s c).2.held.length ≤
      s.held.length + c.bytes.length := by
  cases h : dtsFindHead c.beyond c.bytes with
  | none =>
    rw [dtsRecv_none h]
    exact dtsCopy_le _ _ _
  | some k =>
    have hdrop : (c.bytes.drop k).length = c.bytes.length - k := List.length_drop
    rcases hinfo : dtsGetFrmInfo (c.bytes.drop k) s.info with ⟨found, info⟩
    cases found with
    | true =>
      by_cases halloc : c.allocOk = true
      · rw [dtsRecv_start h hinfo halloc]
        refine (dtsCopy_le _ _ _).trans ?_
        rw [held_start, List.length_nil]
        omega
      · obtain ⟨hsent, hdata⟩ := dtsRecv_noMemory h hinfo halloc
        simp [hsent, Dts.held, hdata]
    | false =>
      rw [dtsRecv_noHeader h hinfo]
      refine (dtsCopy_le _ _ _).trans ?_
      rw [held_info]
      omega

theorem dtsGetFrmInfo_false (h : bs.count comma < 5) (info : DtsHead) :
    (dtsGetFrmInfo bs info).1 = false := by
  rw [← Bool.not_eq_true, dtsGetFrmInfo_fst]
  omega

theorem dtsRecv_harmless (h : c.Harmless) :
    dtsRecv s c = dtsCopy c.bytes c.bytes.length { s with info := readOver s.info c } := by
  cases hfind : dtsFindHead c.beyond c.bytes with
  | none => simp only [dtsRecv_none hfind, readOver, hfind]
  | some k =>
    obtain ⟨rfl, hcount⟩ := h k hfind
    have hfalse := dtsGetFrmInfo_false hcount s.info
    simp only [readOver, hfind]
    exact dtsRecv_noHeader hfind (Prod.ext hfalse rfl)

theorem readOver_lens (h : c.Harmless) (info : DtsHead) :
    (readOver info c).dataLen = info.dataLen ∧ (readOver info c).headLen = info.headLen := by
  unfold readOver
  split
  · next k hk =>
    obtain ⟨rfl, hcount⟩ := h k hk
    exact frmInfoLoop_lens (by decide) (dtsGetFrmInfo_false hcount info)
  · exact ⟨rfl, rfl⟩

/-- A frame under way loses no byte of a chunk only if the chunk is harmless. -/
theorem harmless_of_kept (hdata : s.data = some got) (hgot : got ≠ [])
    (hkept : ((dtsRecv s c).1.getD []).length + (dtsRecv s c).2.held.length =
      got.length + c.bytes.length) : c.Harmless := by
  intro k hk
  have hpos := List.length_pos_iff.mpr hgot
  have hlen := List.length_pos_iff.mpr c.ne
  have hdrop : (c.bytes.drop k).length = c.bytes.length - k := List.length_drop
  rcases hinfo : dtsGetFrmInfo (c.bytes.drop k) s.info with ⟨found, info⟩
  cases found with
  | true =>
    by_cases halloc : c.allocOk = true
    · rw [dtsRecv_start hk hinfo halloc] at hkept
      have hle := dtsCopy_le (c.bytes.drop k) (c.bytes.drop k).length (Dts.start info)
      rw [hkept, held_start, List.length_nil] at hle
      omega
    · obtain ⟨hsent, hnone⟩ := dtsRecv_noMemory hk hinfo halloc
      simp only [hsent, Dts.held, hnone, Option.getD_none, List.length_nil] at hkept
      omega
  | false =>
    rw [dtsRecv_noHeader hk hinfo] at hkept
    have hle := dtsCopy_le c.bytes (c.bytes.drop k).length { s with info }
    rw [hkept, held_info, held_of_some hdata] at hle
    have hk0 : k = 0 := by omega
    subst hk0
    rw [List.drop_zero] at hinfo
    refine ⟨rfl, Nat.lt_of_not_le fun hcount => ?_⟩
    have htrue : (dtsGetFrmInfo c.bytes s.info).1 = true := dtsGetFrmInfo_fst.mpr hcount
    rw [hinfo] at htrue
    cases htrue

/-! ## One frame -/

theorem dtsFeed_cons : dtsFeed s (c :: cs) =
    ((dtsRecv s c).1.toList ++ (dtsFeed (dtsRecv s c).2 cs).1, (dtsFeed (dtsRecv s c).2 cs).2) := rfl

theorem dtsFeed_append : (dtsFeed s (later ++ cs)).1 =
    (dtsFeed s later).1 ++ (dtsFeed (dtsFeed s later).2 cs).1 := by
  induction later generalizing s with
  | nil => rfl
  | cons c later ih => rw [List.cons_append, dtsFeed_cons, dtsFeed_cons, ih, List.append_assoc]

/-- The bytes that the chunks bring. -/
def chunkBytes (cs : List Chunk) : List UInt8 := cs.flatMap Chunk.bytes

@[simp] theorem chunkBytes_nil : chunkBytes [] = [] := rfl

@[simp] theorem chunkBytes_cons : chunkBytes (c :: cs) = c.bytes ++ chunkBytes cs := rfl

@[simp] theorem chunkBytes_append : chunkBytes (later ++ cs) = chunkBytes later ++ chunkBytes cs :=
  List.flatMap_append

theorem length_toList_flatten (o : Option (List UInt8)) :
    o.toList.flatten.length = (o.getD []).length := by
  cases o with
  | none => rfl
  | some bs => simp

theorem dtsFeed_le (s : Dts) (cs : List Chunk) :
    (dtsFeed s cs).1.flatten.length ≤ s.held.length + (chunkBytes cs).length := by
  induction cs generalizing s with
  | nil => simp [dtsFeed]
  | cons c cs ih =>
    have hstep := dtsRecv_le s c
    have hrest := ih (dtsRecv s c).2
    rw [dtsFeed_cons, List.flatten_append, List.length_append, length_toList_flatten,
      chunkBytes_cons, List.length_append]
    omega

/-- When every byte is sent, no step loses one. -/
theorem dtsFeed_kept (h : (dtsFeed s (c :: cs)).1.flatten.length =
      s.held.length + (chunkBytes (c :: cs)).length) :
    ((dtsRecv s c).1.getD []).length + (dtsRecv s c).2.held.length =
        s.held.length + c.bytes.length ∧
      (dtsFeed (dtsRecv s c).2 cs).1.flatten.length =
        (dtsRecv s c).2.held.length + (chunkBytes cs).length := by
  have hstep := dtsRecv_le s c
  have hrest := dtsFeed_le (dtsRecv s c).2 cs
  rw [dtsFeed_cons, List.flatten_append, List.length_append, length_toList_flatten,
    chunkBytes_cons, List.length_append] at h
  omega

/-- What the checksum of a frame is compared with at its end. -/
def csAt (info : DtsHead) (later : List Chunk) : Nat := (later.foldl readOver info).cs

/-- A frame under way that is given a chunk and then harmless ones, up to its end. -/
theorem dtsCopy_feed (hdata : s.data = some got) (hlater : ∀ c ∈ later, c.Harmless)
    (hlen : c.bytes.length + (chunkBytes later).length = s.remain)
    (hcs : getSumChk (((got ++ c.bytes ++ chunkBytes later).drop s.info.headLen).take
      s.info.dataLen) = csAt s.info later) :
    (dtsCopy c.bytes c.bytes.length s).1.toList ++
        (dtsFeed (dtsCopy c.bytes c.bytes.length s).2 later).1 =
      [got ++ c.bytes ++ chunkBytes later] ∧
    (dtsFeed (dtsCopy c.bytes c.bytes.length s).2 later).2.data = none := by
  induction later generalizing s got c with
  | nil =>
    simp only [chunkBytes_nil, List.length_nil, Nat.add_zero, List.append_nil, csAt,
      List.foldl_nil] at hlen hcs
    have htake : c.bytes.take s.remain = c.bytes := List.take_of_length_le hlen.le
    rw [dtsCopy_ge hdata hlen.ge, htake, if_pos hcs]
    simp [dtsFeed]
  | cons c' later ih =>
    have hpos := List.length_pos_iff.mpr c'.ne
    have hharmless := hlater c' (by simp)
    obtain ⟨hdl, hhl⟩ := readOver_lens hharmless s.info
    rw [chunkBytes_cons, List.length_append] at hlen
    rw [dtsCopy_lt hdata (by omega), List.take_length, dtsFeed_cons, dtsRecv_harmless hharmless]
    have hnext := ih (c := c') (s := { s with
        data := some (got ++ c.bytes), remain := s.remain - c.bytes.length,
        info := readOver s.info c' }) rfl (fun c hc => hlater c (List.mem_cons_of_mem _ hc))
      (by dsimp only; omega) (by
        dsimp only
        rw [hdl, hhl]
        simpa [csAt, List.append_assoc] using hcs)
    simpa [List.append_assoc] using hnext

/-- The chunk and some harmless ones behind it bring what the frame under way still needs, with the
checksum at the end that is compared with; the frame comes out, and the rest finds nothing under
way. -/
def Completes (s : Dts) (got : List UInt8) (c : Chunk) (cs : List Chunk) : Prop :=
  ∃ later rest s', cs = later ++ rest ∧ (∀ c ∈ later, c.Harmless) ∧
    c.bytes.length + (chunkBytes later).length = s.remain ∧
    getSumChk (((got ++ c.bytes ++ chunkBytes later).drop s.info.headLen).take s.info.dataLen) =
      csAt s.info later ∧
    s'.data = none ∧
    (dtsCopy c.bytes c.bytes.length s).1.toList ++
        (dtsFeed (dtsCopy c.bytes c.bytes.length s).2 cs).1 =
      (got ++ c.bytes ++ chunkBytes later) :: (dtsFeed s' rest).1

/-- A frame under way that a chunk completes. -/
theorem completes_of_ge (hdata : s.data = some got) (hge : s.remain ≤ c.bytes.length)
    (hkept : ((dtsCopy c.bytes c.bytes.length s).1.getD []).length +
      (dtsFeed (dtsCopy c.bytes c.bytes.length s).2 cs).1.flatten.length =
        got.length + c.bytes.length + (chunkBytes cs).length) :
    Completes s got c cs := by
  unfold Completes
  have hpos := List.length_pos_iff.mpr c.ne
  have hrest := dtsFeed_le { s with data := none, remain := 0 } cs
  rw [held_of_none rfl, List.length_nil] at hrest
  rw [dtsCopy_ge hdata hge] at hkept ⊢
  dsimp only at hkept ⊢
  split_ifs at hkept ⊢ with hcs
  · rw [Option.getD_some, List.length_append, List.length_take] at hkept
    have hremain : s.remain = c.bytes.length := by omega
    rw [hremain, List.take_length] at hcs ⊢
    exact ⟨[], cs, { s with data := none, remain := 0 }, rfl, nofun, by simp,
      by simpa [csAt] using hcs, rfl, by simp⟩
  · rw [Option.getD_none, List.length_nil] at hkept
    omega

/-- A frame under way of which no byte is lost comes to its end with harmless chunks. -/
theorem completes_of_kept (hdata : s.data = some got)
    (hkept : ((dtsCopy c.bytes c.bytes.length s).1.getD []).length +
      (dtsFeed (dtsCopy c.bytes c.bytes.length s).2 cs).1.flatten.length =
        got.length + c.bytes.length + (chunkBytes cs).length) :
    Completes s got c cs := by
  unfold Completes
  induction cs generalizing s got c with
  | nil =>
    have hpos := List.length_pos_iff.mpr c.ne
    rcases Nat.lt_or_ge c.bytes.length s.remain with hlt | hge
    · rw [dtsCopy_lt hdata hlt] at hkept
      simp [dtsFeed] at hkept
      omega
    · exact completes_of_ge hdata hge hkept
  | cons c' cs ih =>
    rcases Nat.lt_or_ge c.bytes.length s.remain with hlt | hge
    · rw [dtsCopy_lt hdata hlt, List.take_length] at hkept ⊢
      simp only [Option.getD_none, List.length_nil, Nat.zero_add] at hkept
      have hheld : Dts.held { s with
          data := some (got ++ c.bytes), remain := s.remain - c.bytes.length } = got ++ c.bytes := rfl
      obtain ⟨hstep, hrest⟩ := dtsFeed_kept (by rw [hkept, hheld, List.length_append])
      have hne : got ++ c.bytes ≠ [] := fun hnil => c.ne (List.append_eq_nil_iff.mp hnil).2
      have hharmless := harmless_of_kept rfl hne hstep
      obtain ⟨hdl, hhl⟩ := readOver_lens hharmless s.info
      rw [dtsRecv_harmless hharmless] at hstep hrest
      obtain ⟨later, rest, s', rfl, hlater, hlen, hcs, hs', hsent⟩ := ih (c := c') (s := { s with
          data := some (got ++ c.bytes), remain := s.remain - c.bytes.length,
          info := readOver s.info c' }) rfl (by
            rw [hrest, ← Nat.add_assoc, hstep, hheld, List.length_append])
      dsimp only at hlen hcs
      rw [hdl, hhl] at hcs
      refine ⟨c' :: later, rest, s', rfl, ?_, ?_, ?_, hs', ?_⟩
      · intro c'' hc''
        rcases List.mem_cons.mp hc'' with rfl | hc''
        · exact hharmless
        · exact hlater c'' hc''
      · rw [chunkBytes_cons, List.length_append]
        omega
      · simpa [csAt, List.append_assoc] using hcs
      · rw [dtsFeed_cons, dtsRecv_harmless hharmless]
        simpa [List.append_assoc] using hsent
    · exact completes_of_ge hdata hge hkept

/-! ## All frames -/

/-- The bytes that a client sends. -/
def streamOf (fs : List DtsFrame) : List UInt8 := fs.flatMap DtsFrame.bytes

/-- The chunks bring one frame and nothing else; the first of them holds its header, and memory can
be allocated for it; the others are harmless; and the lengths and the checksum are what they say
after `strtol`, whose range ends at `2 ^ 31 - 1`. -/
def WellCut (f : DtsFrame) (part : List Chunk) : Prop :=
  ∃ first later, part = first :: later ∧ chunkBytes part = f.bytes ∧
    f.header.length ≤ first.bytes.length ∧ first.allocOk = true ∧ (∀ c ∈ later, c.Harmless) ∧
    f.info.dataLen = f.data.length ∧ f.bytes.length < 2 ^ 32 ∧
    csAt f.info later = getSumChk f.data

theorem header_prefix_bytes (f : DtsFrame) : f.header <+: f.bytes := List.prefix_append _ _

theorem marker_prefix_header (f : DtsFrame) : marker <+: f.header := by
  rw [DtsFrame.header, DtsFrame.fields, List.append_assoc]
  exact List.prefix_append _ _

/-- A chunk that begins with a header. -/
theorem dtsRecv_header {tail : List UInt8} (hbytes : c.bytes = f.header ++ tail)
    (halloc : c.allocOk = true) :
    dtsRecv s c = dtsCopy c.bytes c.bytes.length (Dts.start f.info) := by
  have hfind : dtsFindHead c.beyond c.bytes = some 0 :=
    dtsFindHead_marker (hbytes ▸ (marker_prefix_header f).trans (List.prefix_append _ _)) c.ne
  have hinfo : dtsGetFrmInfo (c.bytes.drop 0) s.info = (true, f.info) := by
    rw [List.drop_zero, hbytes]
    exact dtsGetFrmInfo_header f tail s.info
  exact dtsRecv_start hfind hinfo halloc

theorem dtsFeed_wellCut {part : List Chunk} (h : WellCut f part) :
    (dtsFeed s part).1 = [f.bytes] ∧ (dtsFeed s part).2.data = none := by
  obtain ⟨first, later, rfl, hbytes, hhead, halloc, hlater, hdl, hfit, hcs⟩ := h
  rw [chunkBytes_cons] at hbytes
  have hpre : f.header <+: first.bytes := by
    refine List.prefix_of_prefix_length_le (header_prefix_bytes f) ?_ hhead
    exact hbytes ▸ List.prefix_append _ _
  obtain ⟨tail, htail⟩ := hpre
  have hlen : first.bytes.length + (chunkBytes later).length = (Dts.start f.info).remain := by
    rw [← List.length_append, hbytes, Dts.start, hdl]
    have hbl : f.bytes.length = f.header.length + f.data.length := List.length_append
    have hhl : f.info.headLen = f.header.length := rfl
    dsimp only
    rw [hhl, Nat.mod_eq_of_lt (by omega)]
    omega
  have hsum : getSumChk ((([] ++ first.bytes ++ chunkBytes later).drop
      (Dts.start f.info).info.headLen).take (Dts.start f.info).info.dataLen) =
      csAt (Dts.start f.info).info later := by
    rw [List.nil_append, hbytes]
    change getSumChk ((f.bytes.drop f.header.length).take f.info.dataLen) = csAt f.info later
    rw [DtsFrame.bytes, List.drop_left, hdl, List.take_length, hcs]
  have hfeed := dtsCopy_feed (s := Dts.start f.info) rfl hlater hlen hsum
  rw [List.nil_append, hbytes] at hfeed
  rw [dtsFeed_cons, dtsRecv_header htail.symm halloc]
  exact hfeed

theorem dtsFeed_wellCuts {parts : List (List Chunk)} (h : List.Forall₂ WellCut fs parts) :
    (dtsFeed s parts.flatten).1 = fs.map DtsFrame.bytes := by
  induction h generalizing s with
  | nil => rfl
  | cons hpart _ ih =>
    obtain ⟨hsent, -⟩ := dtsFeed_wellCut (s := s) hpart
    rw [List.flatten_cons, dtsFeed_append, hsent, ih]
    rfl

theorem length_info_le (f : DtsFrame) : f.info.dataLen ≤ f.data.length := by
  have hdigits : ∀ b ∈ f.len.take 127, isDigit b = true :=
    fun b hb => f.len_digits b (List.mem_of_mem_take hb)
  have hle := decimal_le_append (f.len.take 127) (f.len.drop 127)
  rw [List.take_append_drop, f.len_eq] at hle
  have hinfo : f.info.dataLen = toUInt32 (strtol (f.len.take 127)) := rfl
  rw [hinfo, strtol_digits hdigits, toUInt32]
  omega

/-- A chunk that begins a frame and loses no byte holds the whole header. -/
theorem start_of_kept {rest : List UInt8} (hdata : s.data = none)
    (hbytes : c.bytes <+: f.bytes ++ rest)
    (hkept : ((dtsRecv s c).1.getD []).length + (dtsRecv s c).2.held.length = c.bytes.length) :
    (∃ tail, c.bytes = f.header ++ tail) ∧ c.allocOk = true := by
  have hpos := List.length_pos_iff.mpr c.ne
  cases hfind : dtsFindHead c.beyond c.bytes with
  | none =>
    rw [dtsRecv_none hfind, dtsCopy_none hdata, held_of_none hdata] at hkept
    simp at hkept
    omega
  | some k =>
    rcases hinfo : dtsGetFrmInfo (c.bytes.drop k) s.info with ⟨found, info⟩
    cases found with
    | true =>
      by_cases halloc : c.allocOk = true
      · refine ⟨?_, halloc⟩
        rw [dtsRecv_start hfind hinfo halloc] at hkept
        have hle := dtsCopy_le (c.bytes.drop k) (c.bytes.drop k).length (Dts.start info)
        rw [hkept, held_start, List.length_nil, List.length_drop] at hle
        have hk0 : k = 0 := by omega
        subst hk0
        have hcount := dtsGetFrmInfo_fst.mp (congrArg Prod.fst hinfo)
        have hhead : f.header <+: f.bytes ++ rest :=
          (header_prefix_bytes f).trans (List.prefix_append _ _)
        rcases List.prefix_or_prefix_of_prefix hbytes hhead with hpre | ⟨tail, htail⟩
        · rcases List.prefix_concat_iff.mp hpre with heq | hpre
          · exact ⟨[], by rw [heq, List.append_nil, DtsFrame.header]⟩
          · have hlt := count_lt_of_prefix_fields hpre
            rw [List.drop_zero] at hcount
            omega
        · exact ⟨tail, htail.symm⟩
      · obtain ⟨hsent, hdata'⟩ := dtsRecv_noMemory hfind hinfo halloc
        rw [hsent, held_of_none hdata'] at hkept
        simp at hkept
        omega
    | false =>
      rw [dtsRecv_noHeader hfind hinfo, dtsCopy_none (by exact hdata), held_info,
        held_of_none hdata] at hkept
      simp at hkept
      omega

/-- When all that was sent comes out, the first frame has its own chunks. -/
theorem exists_wellCut (hdata : s.data = none) (hbytes : chunkBytes cs = streamOf (f :: fs))
    (hsent : (dtsFeed s cs).1 = (f :: fs).map DtsFrame.bytes) :
    ∃ part rest s', cs = part ++ rest ∧ WellCut f part ∧ s'.data = none ∧
      chunkBytes rest = streamOf fs ∧ (dtsFeed s' rest).1 = fs.map DtsFrame.bytes := by
  have hstream : streamOf (f :: fs) = f.bytes ++ streamOf fs := rfl
  cases cs with
  | nil =>
    cases hsent
  | cons c cs =>
    have htotal : (dtsFeed s (c :: cs)).1.flatten.length =
        s.held.length + (chunkBytes (c :: cs)).length := by
      rw [hsent, hbytes, held_of_none hdata, List.length_nil, Nat.zero_add, streamOf, List.flatMap]
    obtain ⟨hstep, hrest⟩ := dtsFeed_kept htotal
    rw [held_of_none hdata, List.length_nil, Nat.zero_add] at hstep
    have hpre : c.bytes <+: f.bytes ++ streamOf fs := by
      rw [← hstream, ← hbytes, chunkBytes_cons]
      exact List.prefix_append _ _
    obtain ⟨⟨tail, htail⟩, halloc⟩ := start_of_kept hdata hpre hstep
    have hrecv := dtsRecv_header (s := s) htail halloc
    rw [dtsFeed_cons, hrecv] at hsent
    rw [hrecv] at hstep hrest
    obtain ⟨later, rest, s', rfl, hlater, hlen, hcs, hs', hout⟩ :=
      completes_of_kept (s := Dts.start f.info) rfl (by
        rw [hrest, ← Nat.add_assoc, hstep, List.length_nil, Nat.zero_add])
    rw [hout, List.map_cons, List.cons.injEq, List.nil_append] at hsent
    obtain ⟨hpart, hfs⟩ := hsent
    refine ⟨c :: later, rest, s', rfl, ⟨c, later, rfl, hpart, ?_, halloc, hlater, ?_⟩, hs', ?_, hfs⟩
    · rw [htail, List.length_append]
      omega
    · have hle := length_info_le f
      have hbl : f.bytes.length = f.header.length + f.data.length := List.length_append
      have hhl : f.info.headLen = f.header.length := rfl
      rw [← List.length_append, hpart] at hlen
      simp only [Dts.start] at hlen
      have hmod := Nat.mod_lt (f.info.dataLen + f.info.headLen) (y := 2 ^ 32) (by decide)
      have hmodle := Nat.mod_le (f.info.dataLen + f.info.headLen) (2 ^ 32)
      have hdl : f.info.dataLen = f.data.length := by omega
      refine ⟨hdl, hlen ▸ hmod, ?_⟩
      rw [List.nil_append, hpart] at hcs
      change getSumChk ((f.bytes.drop f.header.length).take f.info.dataLen) = csAt f.info later at hcs
      rw [DtsFrame.bytes, List.drop_left, hdl, List.take_length] at hcs
      exact hcs.symm
    · rw [chunkBytes_cons, chunkBytes_append, ← List.append_assoc, hpart, hstream]
        at hbytes
      exact List.append_cancel_left hbytes

theorem exists_wellCuts (hdata : s.data = none) (hbytes : chunkBytes cs = streamOf fs)
    (hsent : (dtsFeed s cs).1 = fs.map DtsFrame.bytes) :
    ∃ parts, cs = parts.flatten ∧ List.Forall₂ WellCut fs parts := by
  induction fs generalizing s cs with
  | nil =>
    cases cs with
    | nil => exact ⟨[], rfl, List.Forall₂.nil⟩
    | cons c cs => exact absurd (List.append_eq_nil_iff.mp hbytes).1 c.ne
  | cons f fs ih =>
    obtain ⟨part, rest, s', rfl, hpart, hs', hrest, hfs⟩ := exists_wellCut hdata hbytes hsent
    obtain ⟨parts, rfl, hparts⟩ := ih hs' hrest hfs
    exact ⟨part :: parts, rfl, List.Forall₂.cons hpart hparts⟩

/-- The frames that a client sends are sent on as they are, each once and in order, if and only if
their chunks fall into parts of which each is one frame well cut. -/
theorem dtsFeed_reassembles_iff (hbytes : chunkBytes cs = streamOf fs) :
    (dtsFeed {} cs).1 = fs.map DtsFrame.bytes ↔
      ∃ parts, cs = parts.flatten ∧ List.Forall₂ WellCut fs parts := by
  constructor
  · exact exists_wellCuts rfl hbytes
  · rintro ⟨parts, rfl, hparts⟩
    exact dtsFeed_wellCuts hparts

/-- `IPNC,a,1,255,1,` and a byte. -/
def oneByteFrame : DtsFrame where
  addr := [97]
  type := [49]
  cs := [50, 53, 53]
  len := [49]
  data := [255]
  addr_ne_comma := by decide
  type_ne_comma := by decide
  cs_digits := List.all_eq_true.mp rfl
  cs_eq := rfl
  len_digits := List.all_eq_true.mp rfl
  len_eq := rfl

/-- The frame with its byte in a chunk of its own. -/
def oneByteChunks : List Chunk :=
  [{ bytes := oneByteFrame.header, ne := by decide, beyond := [0, 0, 0] },
    { bytes := [255], ne := by decide, beyond := [0, 0, 0] }]

theorem dtsFeed_reassembles_oneByte :
    (dtsFeed {} (oneByteChunks ++ oneByteChunks)).1 = [oneByteFrame.bytes, oneByteFrame.bytes] := by
  have hcut : WellCut oneByteFrame oneByteChunks := by
    refine ⟨_, _, rfl, rfl, by decide, rfl, ?_, by decide, by decide, by decide⟩
    intro c hc k hk
    cases List.mem_singleton.mp hc
    cases hk
  have hbytes : chunkBytes (oneByteChunks ++ oneByteChunks) = streamOf [oneByteFrame, oneByteFrame] :=
    rfl
  exact (dtsFeed_reassembles_iff hbytes).mpr
    ⟨[oneByteChunks, oneByteChunks], rfl, .cons hcut (.cons hcut .nil)⟩

/-- Two frames in one chunk do not both come out. -/
theorem dtsFeed_not_reassembles :
    (dtsFeed {} [{ bytes := streamOf [oneByteFrame, oneByteFrame]
                   ne := by decide
                   beyond := [0, 0, 0] }]).1 ≠ [oneByteFrame.bytes, oneByteFrame.bytes] := by
  decide

end VdCamera.Platform
