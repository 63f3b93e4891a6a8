import VdCamera.Platform.DownTunnel
import VdCamera.Platform.Proofs.DownTunnel

/-!
# What the receiver of the down tunnel touches

The header is read inside the chunk and the frame written inside its buffer, whatever the fields are.
Three reads remain that need a condition: the search for the marker at the end of a chunk, the sum
over a length that wraps, and the log of a frame as a string.
-/

namespace VdCamera.Platform

open Misc

variable {bs field got : List UInt8} {c : Chunk} {mem : Nat → UInt8} {info info' : DtsHead}
  {hdr cnt p i k len hl : Nat}

/-! ## The header -/

theorem chunk_holds (c : Chunk) : Holds c.mem 0 c.bytes := by
  apply holds_of_getElem? (d := 0)
  intro j hj
  rw [Chunk.mem, Nat.zero_add, List.getElem?_append_left hj]

theorem setField_take (h : cnt < 5) :
    info.setField (cnt + 1) (field.take (min field.length (fieldRoom (cnt + 1))))
      = info.setField (cnt + 1) field := by
  rw [← List.take_take, List.take_of_length_le (List.length_take_le' _ _)]
  match cnt, h with
  | 0, _ => simp [DtsHead.setField, fieldRoom]
  | 1, _ => simp [DtsHead.setField, fieldRoom]
  | 2, _ => simp [DtsHead.setField, fieldRoom, List.take_take]
  | 3, _ => simp [DtsHead.setField, fieldRoom, List.take_take]
  | 4, _ => simp [DtsHead.setField, fieldRoom, List.take_take]

/-- The loop over the memory is the loop over the bytes, and reads nothing else. -/
theorem frmInfoAt_spec (hcnt : cnt < 5) (h : Holds mem i bs) (hfield : Holds mem p field)
    (hi : i = p + field.length) (hp : hdr ≤ p) :
    (frmInfoAt hdr bs.length cnt p i info).value mem = frmInfoLoop cnt field (i - hdr) bs info
      ∧ ∀ j ∈ (frmInfoAt hdr bs.length cnt p i info).places mem, j < i + bs.length := by
  induction bs generalizing cnt p i field info with
  | nil => exact ⟨rfl, fun j hj => by cases hj⟩
  | cons b bs ih =>
    rw [List.length_cons, frmInfoAt, frmInfoLoop, Peek.value_bind, Peek.places_bind, Peek.value_read,
      Peek.places_read, h.1]
    by_cases hb : b = comma
    · have hcopy : (Peek.contents (min (i - p) (fieldRoom (cnt + 1))) p).value mem
          = field.take (min field.length (fieldRoom (cnt + 1))) := by
        rw [Peek.value_contents hfield (by omega), hi, Nat.add_sub_cancel_left]
      rw [if_pos hb, if_pos hb, Peek.value_bind, Peek.places_bind, hcopy, setField_take hcnt]
      by_cases h5 : cnt + 1 = 5
      · rw [if_pos h5, if_pos h5]
        refine ⟨?_, fun j hj => ?_⟩
        · rw [show i + 1 - hdr = i - hdr + 1 by omega]
          rfl
        · rw [Peek.places_pure, List.append_nil] at hj
          rcases List.mem_append.mp hj with hj | hj
          · rw [List.mem_singleton.mp hj]
            omega
          · have := Peek.mem_places_contents.mp hj
            omega
      · rw [if_neg h5, if_neg h5]
        have hrest : (frmInfoAt hdr bs.length (cnt + 1) (i + 1) (i + 1)
            (info.setField (cnt + 1) field)).value mem = _ ∧ _ :=
          ih (by omega) h.2 (show Holds mem (i + 1) [] from trivial) rfl (by omega)
        obtain ⟨hvalue, hplaces⟩ := hrest
        rw [show i + 1 - hdr = i - hdr + 1 by omega] at hvalue
        refine ⟨hvalue, fun j hj => ?_⟩
        rcases List.mem_append.mp hj with hj | hj
        · rw [List.mem_singleton.mp hj]
          omega
        · rcases List.mem_append.mp hj with hj | hj
          · have := Peek.mem_places_contents.mp hj
            omega
          · have := hplaces j hj
            omega
    · rw [if_neg hb, if_neg hb]
      have hfield' : Holds mem p (field ++ [b]) :=
        Holds.append.mpr ⟨hfield, by rw [← hi]; exact ⟨h.1, trivial⟩⟩
      have hrest : (frmInfoAt hdr bs.length cnt p (i + 1) info).value mem = _ ∧ _ :=
        ih hcnt h.2 hfield' (by rw [List.length_append, List.length_singleton]; omega) hp
      obtain ⟨hvalue, hplaces⟩ := hrest
      rw [show i + 1 - hdr = i - hdr + 1 by omega] at hvalue
      refine ⟨hvalue, fun j hj => ?_⟩
      rcases List.mem_append.mp hj with hj | hj
      · rw [List.mem_singleton.mp hj]
        omega
      · have := hplaces j hj
        omega

/-- `dts_get_frm_info` reads the header inside the chunk. -/
theorem dtsGetFrmInfoAt_spec (c : Chunk) (hk : k ≤ c.bytes.length) (info : DtsHead) :
    (dtsGetFrmInfoAt k (c.bytes.length - k) info).value c.mem
        = dtsGetFrmInfo (c.bytes.drop k) info
      ∧ ∀ j ∈ (dtsGetFrmInfoAt k (c.bytes.length - k) info).places c.mem, j < c.bytes.length := by
  have hholds : Holds c.mem k (c.bytes.drop k) := by
    have h := (chunk_holds c).drop hk
    rwa [Nat.zero_add] at h
  have hspec : (frmInfoAt k (c.bytes.drop k).length 0 k k info).value c.mem = _ ∧ _ :=
    frmInfoAt_spec (by decide) hholds (show Holds c.mem k [] from trivial) rfl (Nat.le_refl k)
  rw [List.length_drop, Nat.sub_self, show k + (c.bytes.length - k) = c.bytes.length by omega]
    at hspec
  exact hspec

/-- The first marker of the bytes. -/
def MarkerAt (bs : List UInt8) (k : Nat) : Prop :=
  marker <+: bs.drop k ∧ ∀ j < k, ¬ marker <+: bs.drop j

/-- Five fields with a comma behind each: the number in the last one, as an unsigned one, and how many
bytes they take. -/
def HeaderOf (bs : List UInt8) (len hl : Nat) : Prop :=
  ∃ f₁ f₂ f₃ f₄ f₅ rest, (comma ∉ f₁ ∧ comma ∉ f₂ ∧ comma ∉ f₃ ∧ comma ∉ f₄ ∧ comma ∉ f₅)
    ∧ bs = f₁ ++ comma :: (f₂ ++ comma :: (f₃ ++ comma :: (f₄ ++ comma :: (f₅ ++ comma :: rest))))
    ∧ len = toUInt32 (strtol (f₅.take 127))
    ∧ hl = f₁.length + f₂.length + f₃.length + f₄.length + f₅.length + 5

/-- The bytes do not end within a marker, or the search ends before. -/
def TailOk (bs : List UInt8) : Prop := marker <:+: bs ∨ Peek.TailFree marker bs

/-- What follows the chunk is not taken for a part of it. -/
theorem dtsFindHead_eq_some {beyond : List UInt8} (h : TailOk bs) :
    dtsFindHead beyond bs = some k ↔ MarkerAt bs k := by
  induction bs generalizing k with
  | nil =>
    refine iff_of_false (by simp [dtsFindHead]) ?_
    rintro ⟨hmarker, _⟩
    rw [List.drop_nil, List.prefix_nil] at hmarker
    cases hmarker
  | cons b bs ih =>
    rw [dtsFindHead]
    by_cases hhere : marker <+: b :: bs
    · have hbeyond : marker.isPrefixOf (b :: bs ++ beyond) = true :=
        List.isPrefixOf_iff_prefix.mpr (hhere.trans (List.prefix_append _ _))
      rw [if_pos hbeyond, Option.some.injEq]
      constructor
      · rintro rfl
        exact ⟨hhere, fun j hj => absurd hj (Nat.not_lt_zero j)⟩
      · rintro ⟨_, hfirst⟩
        by_contra hk
        exact hfirst 0 (by omega) hhere
    · have hcut : ¬ b :: bs <+: marker := by
        intro hcut
        have hne : b :: bs ≠ marker := fun heq => hhere (heq ▸ List.prefix_rfl)
        rcases h with hin | hfree
        · have hle := hin.length_le
          have hlt := hcut.length_le
          exact hne (hcut.eq_of_length (by omega))
        · exact hfree (b :: bs) (List.cons_ne_nil _ _) hcut hne List.suffix_rfl
      have hbeyond : ¬ marker.isPrefixOf (b :: bs ++ beyond) = true := by
        intro hpre
        rcases List.prefix_or_prefix_of_prefix (List.isPrefixOf_iff_prefix.mp hpre)
          (List.prefix_append (b :: bs) beyond) with h' | h'
        · exact hhere h'
        · exact hcut h'
      have htail : TailOk bs :=
        h.imp (fun hin => (List.infix_cons_iff.mp hin).resolve_left hhere) Peek.TailFree.tail
      rw [if_neg hbeyond, Option.map_eq_some_iff]
      constructor
      · rintro ⟨j, hj, rfl⟩
        obtain ⟨hmarker, hfirst⟩ := (ih htail).mp hj
        refine ⟨hmarker, fun j' hj' => ?_⟩
        cases j' with
        | zero => exact hhere
        | succ j' => exact hfirst j' (by omega)
      · rintro ⟨hmarker, hfirst⟩
        cases k with
        | zero => exact absurd hmarker hhere
        | succ k =>
          exact ⟨k, (ih htail).mpr ⟨hmarker, fun j hj => hfirst (j + 1) (by omega)⟩, rfl⟩

theorem MarkerAt.lt (h : MarkerAt bs k) : k < bs.length := by
  have hlen := h.1.length_le
  have hmarker : marker.length = 4 := rfl
  rw [List.length_drop] at hlen
  omega

theorem exists_first_comma (h : 1 ≤ bs.count comma) :
    ∃ f rest, comma ∉ f ∧ bs = f ++ comma :: rest ∧ bs.count comma = rest.count comma + 1 := by
  obtain ⟨f, rest, rfl, hf⟩ := List.eq_append_cons_of_mem (List.count_pos_iff.mp h)
  refine ⟨f, rest, hf, rfl, ?_⟩
  rw [List.count_append, List.count_eq_zero_of_not_mem hf, List.count_cons_self, Nat.zero_add]

theorem exists_headerOf (h : 5 ≤ bs.count comma) : ∃ len hl, HeaderOf bs len hl := by
  obtain ⟨f₁, r₁, h₁, rfl, hc₁⟩ := exists_first_comma (show 1 ≤ bs.count comma by omega)
  obtain ⟨f₂, r₂, h₂, rfl, hc₂⟩ := exists_first_comma (show 1 ≤ r₁.count comma by omega)
  obtain ⟨f₃, r₃, h₃, rfl, hc₃⟩ := exists_first_comma (show 1 ≤ r₂.count comma by omega)
  obtain ⟨f₄, r₄, h₄, rfl, hc₄⟩ := exists_first_comma (show 1 ≤ r₃.count comma by omega)
  obtain ⟨f₅, r₅, h₅, rfl, hc₅⟩ := exists_first_comma (show 1 ≤ r₄.count comma by omega)
  exact ⟨_, _, f₁, f₂, f₃, f₄, f₅, r₅, ⟨h₁, h₂, h₃, h₄, h₅⟩, rfl, rfl, rfl⟩

theorem dtsGetFrmInfo_of_header (h : HeaderOf bs len hl) (info : DtsHead) :
    ∃ info', dtsGetFrmInfo bs info = (true, info') ∧ info'.dataLen = len ∧ info'.headLen = hl := by
  obtain ⟨f₁, f₂, f₃, f₄, f₅, rest, ⟨h₁, h₂, h₃, h₄, h₅⟩, rfl, rfl, rfl⟩ := h
  rw [dtsGetFrmInfo, frmInfoLoop_comma h₁ (by decide), frmInfoLoop_comma h₂ (by decide),
    frmInfoLoop_comma h₃ (by decide), frmInfoLoop_comma h₄ (by decide), frmInfoLoop_append h₅,
    frmInfoLoop, if_pos rfl, if_pos rfl]
  refine ⟨_, rfl, rfl, ?_⟩
  show 0 + f₁.length + 1 + f₂.length + 1 + f₃.length + 1 + f₄.length + 1 + f₅.length + 1 = _
  omega

/-- A header that is read is one of five fields. -/
theorem headerOf_of_dtsGetFrmInfo (h : dtsGetFrmInfo bs info = (true, info')) :
    HeaderOf bs info'.dataLen info'.headLen := by
  have hcount : 5 ≤ bs.count comma := dtsGetFrmInfo_fst.mp (by rw [h])
  obtain ⟨len, hl, hheader⟩ := exists_headerOf hcount
  obtain ⟨info'', hread, rfl, rfl⟩ := dtsGetFrmInfo_of_header hheader info
  rw [h] at hread
  cases hread
  exact hheader

theorem not_headerOf_of_dtsGetFrmInfo (h : dtsGetFrmInfo bs info = (false, info')) :
    ¬ HeaderOf bs len hl := by
  intro hheader
  obtain ⟨info'', hread, _⟩ := dtsGetFrmInfo_of_header hheader info
  rw [h] at hread
  cases hread

theorem HeaderOf.unique {len' hl' : Nat} (h : HeaderOf bs len hl) (h' : HeaderOf bs len' hl') :
    len = len' ∧ hl = hl' := by
  obtain ⟨info₁, hread₁, rfl, rfl⟩ := dtsGetFrmInfo_of_header h {}
  obtain ⟨info₂, hread₂, rfl, rfl⟩ := dtsGetFrmInfo_of_header h' {}
  rw [hread₁] at hread₂
  cases hread₂
  exact ⟨rfl, rfl⟩

theorem MarkerAt.unique {k' : Nat} (h : MarkerAt bs k) (h' : MarkerAt bs k') : k = k' := by
  rcases Nat.lt_trichotomy k k' with hlt | heq | hlt
  · exact absurd h.1 (h'.2 k hlt)
  · exact heq
  · exact absurd h'.1 (h.2 k' hlt)

theorem HeaderOf.bounds (h : HeaderOf bs len hl) : len < 2 ^ 32 ∧ hl ≤ bs.length := by
  obtain ⟨f₁, f₂, f₃, f₄, f₅, rest, _, rfl, rfl, rfl⟩ := h
  refine ⟨?_, ?_⟩
  · unfold toUInt32
    have := Int.emod_lt_of_pos (strtol (f₅.take 127)) (b := 2 ^ 32) (by decide)
    omega
  · simp only [List.length_append, List.length_cons]
    omega

/-! ## The frame -/

section Copy

variable {logs : Bool} {base frm n size chunkLen : Nat} {s : Dts}

theorem forall_chunk {l : List Nat} {frame : Nat × Nat} :
    (∀ p ∈ l.map DtsPlace.chunk, p.Inside chunkLen frame) ↔ ∀ j ∈ l, j < chunkLen :=
  List.forall_mem_map

theorem forall_memory {l : List Nat} {frame : Nat × Nat} :
    (∀ p ∈ l.map DtsPlace.memory, p.Inside chunkLen frame)
      ↔ ∀ a ∈ l, frame.1 ≤ a ∧ a < frame.1 + frame.2 :=
  List.forall_mem_map

/-- The sum over a length that does not wrap stays inside the frame; a length that wraps sums nothing,
as long as the address of the data does not wrap as well. -/
theorem sumPlaces_inside (hlen : len < 2 ^ 32) (hhl : hl < 2 ^ 32)
    (hbase : base + (len + hl) % 2 ^ 32 < 2 ^ 32) :
    (∀ a ∈ sumPlaces (base + hl) len, base ≤ a ∧ a < base + (len + hl) % 2 ^ 32)
      ↔ len + hl < 2 ^ 32 ∨ base + hl < 2 ^ 32 := by
  unfold sumPlaces
  by_cases hwrap : len + hl < 2 ^ 32
  · refine iff_of_true (fun a ha => ?_) (Or.inl hwrap)
    rw [Nat.mod_eq_of_lt hwrap] at hbase ⊢
    rw [List.mem_range'_1, Nat.mod_eq_of_lt (by omega), Nat.mod_eq_of_lt (by omega)] at ha
    omega
  · have hmod : (len + hl) % 2 ^ 32 = len + hl - 2 ^ 32 := by omega
    rw [hmod] at hbase ⊢
    have hend : (base + hl + len) % 2 ^ 32 = base + (len + hl - 2 ^ 32) := by omega
    by_cases hdata : base + hl < 2 ^ 32
    · refine iff_of_true (fun a ha => ?_) (Or.inr hdata)
      rw [List.mem_range'_1, hend, Nat.mod_eq_of_lt hdata] at ha
      omega
    · refine iff_of_false (fun h => ?_) (by omega)
      have hp : (base + hl) % 2 ^ 32 = base + hl - 2 ^ 32 := by omega
      have := h ((base + hl) % 2 ^ 32) (by rw [List.mem_range'_1, hend, hp]; omega)
      omega

/-- A string is printed inside the frame if and only if the frame has a terminator. -/
theorem print_inside {frame : List UInt8} :
    (∀ a ∈ List.range' base (frame.idxOf 0 + 1), base ≤ a ∧ a < base + frame.length)
      ↔ 0 ∈ frame := by
  rw [← List.idxOf_lt_length_iff]
  constructor
  · intro h
    have := h (base + frame.idxOf 0) (by rw [List.mem_range'_1]; omega)
    omega
  · intro h a ha
    rw [List.mem_range'_1] at ha
    omega

/-- What the copy needs: the numbers of the frame fit together, and buffer and chunk have room. -/
structure CopyOk (s : Dts) (got : List UInt8) (base : Nat) : Prop where
  data : s.data = some got
  whole : got.length + s.remain = s.dataLens
  lens : s.dataLens = (s.info.dataLen + s.info.headLen) % 2 ^ 32
  dataLen : s.info.dataLen < 2 ^ 32
  headLen : s.info.headLen < 2 ^ 32
  room : base + s.dataLens < 2 ^ 32

theorem dtsCopyPlaces_inside (h : CopyOk s got base) (hn : frm + n ≤ bs.length) :
    (∀ p ∈ dtsCopyPlaces logs base bs frm n s, p.Inside bs.length (base, s.dataLens)) ↔
      (s.remain ≤ n →
        (s.info.dataLen + s.info.headLen < 2 ^ 32 ∨ base + s.info.headLen < 2 ^ 32)
        ∧ (logs = true → 0 ∈ got ++ (bs.drop frm).take s.remain)) := by
  have hwhole := h.whole
  have hread : ∀ j ∈ List.range' frm (min n s.remain), j < bs.length := by
    intro j hj
    rw [List.mem_range'_1] at hj
    omega
  have hwrite : ∀ a ∈ List.range' (base + got.length) (min n s.remain),
      base ≤ a ∧ a < base + s.dataLens := by
    intro a ha
    rw [List.mem_range'_1] at ha
    omega
  unfold dtsCopyPlaces
  simp only [h.data, List.forall_mem_append, forall_chunk, forall_memory]
  by_cases hend : s.remain ≤ n
  · have hmin : min n s.remain = s.remain := Nat.min_eq_right hend
    rw [hmin] at hread hwrite ⊢
    rw [if_pos (Nat.sub_self _)]
    have hframe : (got ++ (bs.drop frm).take s.remain).length = s.dataLens := by
      rw [List.length_append, List.length_take, List.length_drop]
      omega
    have hprint : (∀ p ∈ if logs = true then
          (List.range' base ((got ++ (bs.drop frm).take s.remain).idxOf 0 + 1)).map DtsPlace.memory
        else [], p.Inside bs.length (base, s.dataLens))
          ↔ (logs = true → 0 ∈ got ++ (bs.drop frm).take s.remain) := by
      cases logs with
      | false => simp
      | true =>
        rw [if_pos rfl, forall_memory, ← hframe, print_inside]
        simp
    have hsum := sumPlaces_inside h.dataLen h.headLen
      (show base + (s.info.dataLen + s.info.headLen) % 2 ^ 32 < 2 ^ 32 by rw [← h.lens]; exact h.room)
    rw [← h.lens] at hsum
    simp only [List.forall_mem_append, forall_memory, hsum, hprint]
    exact ⟨fun hall _ => hall.2, fun hall => ⟨⟨hread, hwrite⟩, hall hend⟩⟩
  · rw [if_neg (by omega)]
    exact iff_of_true ⟨⟨hread, hwrite⟩, fun p hp => by cases hp⟩ fun h => absurd h hend

/-- A frame that is not whole yet goes on. -/
theorem copyOk_dtsCopy {got' : List UInt8} (h : CopyOk s got base) (hn : n ≤ bs.length)
    (hdata : (dtsCopy bs n s).2.data = some got') :
    CopyOk (dtsCopy bs n s).2 got' base ∧ (dtsCopy bs n s).2.info = s.info ∧ n < s.remain := by
  rcases Nat.lt_or_ge n s.remain with hlt | hge
  · rw [dtsCopy_lt h.data hlt] at hdata ⊢
    cases hdata
    refine ⟨⟨rfl, ?_, h.lens, h.dataLen, h.headLen, h.room⟩, rfl, hlt⟩
    have := h.whole
    rw [List.length_append, List.length_take]
    show got.length + min n bs.length + (s.remain - n) = s.dataLens
    omega
  · rw [dtsCopy_ge h.data hge] at hdata
    cases hdata

/-- A frame under way has its buffer, and its length does not wrap. -/
def FrameInv (s : Dts) (base : Nat) : Prop :=
  ∀ got, s.data = some got → CopyOk s got base ∧ s.info.dataLen + s.info.headLen < 2 ^ 32

theorem FrameInv.copy (h : FrameInv s base) (hn : n ≤ bs.length) :
    FrameInv (dtsCopy bs n s).2 base := by
  intro got' hdata
  cases hold : s.data with
  | none =>
    rw [dtsCopy_none hold, hold] at hdata
    cases hdata
  | some got =>
    obtain ⟨hok, hwrap⟩ := h got hold
    obtain ⟨hok', hinfo, _⟩ := copyOk_dtsCopy hok hn hdata
    exact ⟨hok', by rwa [hinfo]⟩

/-- The lengths are those of the frame under way, whatever else was read of a header. -/
theorem FrameInv.read (h : FrameInv s base) (hread : dtsGetFrmInfo bs s.info = (false, info)) :
    FrameInv { s with info } base := by
  intro got hdata
  obtain ⟨hok, hwrap⟩ := h got hdata
  obtain ⟨hd, hh⟩ := frmInfoLoop_lens (by decide)
    (show (frmInfoLoop 0 [] 0 bs s.info).1 = false from congrArg Prod.fst hread)
  have hinfo : (frmInfoLoop 0 [] 0 bs s.info).2 = info := congrArg Prod.snd hread
  rw [hinfo] at hd hh
  have hlens : s.dataLens = (info.dataLen + info.headLen) % 2 ^ 32 := by
    rw [hd, hh]
    exact hok.lens
  refine ⟨⟨hdata, hok.whole, hlens, ?_, ?_, hok.room⟩, ?_⟩
  · show info.dataLen < 2 ^ 32
    rw [hd]
    exact hok.dataLen
  · show info.headLen < 2 ^ 32
    rw [hh]
    exact hok.headLen
  · show info.dataLen + info.headLen < 2 ^ 32
    rwa [hd, hh]

/-- For a frame under way only the log needs a condition. -/
theorem FrameInv.places_inside (h : FrameInv s base) (hn : n ≤ bs.length) :
    (∀ p ∈ dtsCopyPlaces logs base bs 0 n s, p.Inside bs.length (base, s.dataLens)) ↔
      ∀ got, s.data = some got → s.remain ≤ n → logs = true → 0 ∈ got ++ bs.take s.remain := by
  cases hold : s.data with
  | none => simp [dtsCopyPlaces, hold]
  | some got =>
    obtain ⟨hok, hwrap⟩ := h got hold
    rw [dtsCopyPlaces_inside hok (by omega), List.drop_zero]
    constructor
    · rintro hall _ ⟨⟩ hle
      exact (hall hle).2
    · intro hall hle
      exact ⟨Or.inl hwrap, hall got rfl hle⟩

end Copy

/-! ## One chunk after the other -/

variable {logs : Bool} {m m' : DtsMem} {i : DtsInput}

theorem copyOk_start (hheader : HeaderOf bs info.dataLen info.headLen) (hbs : bs.length < 2 ^ 32)
    {addr : Nat} (hroom : addr + (info.dataLen + info.headLen) % 2 ^ 32 < 2 ^ 32) :
    CopyOk (Dts.start info) [] addr where
  data := rfl
  whole := Nat.zero_add _
  lens := rfl
  dataLen := hheader.bounds.1
  headLen := Nat.lt_of_le_of_lt hheader.bounds.2 hbs
  room := hroom

theorem frameInv_step (hinv : FrameInv m.dts m.base) (hmem : MemoryOk m i)
    (hstep : dtsStep m i = some m') : FrameInv m'.dts m'.base := by
  cases hstep
  obtain ⟨hlen, hroom⟩ := hmem
  unfold dtsFrame at hroom ⊢
  cases hfind : dtsFindHead i.chunk.beyond i.chunk.bytes with
  | none =>
    show FrameInv (dtsRecv m.dts i.chunk).2 m.base
    rw [dtsRecv_none hfind]
    exact hinv.copy (Nat.le_refl _)
  | some k =>
    rcases hread : dtsGetFrmInfo (i.chunk.bytes.drop k) m.dts.info with ⟨found, info⟩
    simp only [hfind, hread] at hroom ⊢
    cases found with
    | true =>
      show FrameInv (dtsRecv m.dts i.chunk).2 i.addr
      intro got' hdata
      by_cases halloc : i.chunk.allocOk = true
      · rw [dtsRecv_start hfind hread halloc] at hdata ⊢
        have hheader := headerOf_of_dtsGetFrmInfo hread
        have hdrop : (i.chunk.bytes.drop k).length < 2 ^ 32 := by
          rw [List.length_drop]
          omega
        have hok := copyOk_start hheader hdrop (hroom halloc)
        obtain ⟨hok', hinfo, hlt⟩ := copyOk_dtsCopy hok (Nat.le_refl _) hdata
        refine ⟨hok', ?_⟩
        rw [hinfo]
        -- a length that wraps leaves a frame shorter than its header
        have hbounds := hheader.bounds
        have hlt' : (i.chunk.bytes.drop k).length < (info.dataLen + info.headLen) % 2 ^ 32 := hlt
        show info.dataLen + info.headLen < 2 ^ 32
        omega
      · rw [(dtsRecv_noMemory hfind hread halloc).2] at hdata
        cases hdata
    | false =>
      show FrameInv (dtsRecv m.dts i.chunk).2 m.base
      rw [dtsRecv_noHeader hfind hread]
      exact (hinv.read hread).copy (by rw [List.length_drop]; omega)

/-- What a chunk that begins no frame brings for the one under way. -/
def Brings (bs : List UInt8) (n : Nat) : Prop :=
  (n = bs.length ∧ ∀ k, ¬ MarkerAt bs k)
    ∨ ∃ k, MarkerAt bs k ∧ (∀ len hl, ¬ HeaderOf (bs.drop k) len hl) ∧ n = bs.length - k

/-- The bytes do not end within a marker; a frame that begins has a length that does not wrap, or an
address at which its data does not; and where the log prints frames, each that becomes whole has a
terminator. -/
def DtsOk (logs : Bool) (m : DtsMem) (i : DtsInput) : Prop :=
  TailOk i.chunk.bytes
    ∧ (∀ k len hl, MarkerAt i.chunk.bytes k → HeaderOf (i.chunk.bytes.drop k) len hl →
      i.chunk.allocOk = true → (len + hl) % 2 ^ 32 ≤ i.chunk.bytes.length - k →
        (len + hl < 2 ^ 32 ∨ i.addr + hl < 2 ^ 32)
        ∧ (logs = true → 0 ∈ (i.chunk.bytes.drop k).take ((len + hl) % 2 ^ 32)))
    ∧ ∀ got n, m.dts.data = some got → Brings i.chunk.bytes n → m.dts.remain ≤ n →
      logs = true → 0 ∈ got ++ i.chunk.bytes.take m.dts.remain

/-- All that is touched lies in the chunk and in the frame's buffer. -/
def DtsSafe (logs : Bool) (m : DtsMem) (i : DtsInput) : Prop :=
  ∀ p ∈ dtsPlaces logs m i, p.Inside i.chunk.bytes.length (dtsFrame m i)

theorem findHead_inside (c : Chunk) {frame : Nat × Nat} :
    (∀ p ∈ ((dtsFindHeadAt c.bytes.length).places c.mem).map DtsPlace.chunk,
        p.Inside c.bytes.length frame) ↔ TailOk c.bytes := by
  rw [forall_chunk, TailOk, ← Peek.places_findSub_lt (chunk_holds c), Nat.zero_add]
  rfl

theorem dtsSafe_iff (hinv : FrameInv m.dts m.base) (hmem : MemoryOk m i) :
    DtsSafe logs m i ↔ DtsOk logs m i := by
  obtain ⟨hlen, hroom⟩ := hmem
  unfold DtsSafe DtsOk dtsPlaces
  simp only [List.forall_mem_append, findHead_inside]
  refine and_congr_right fun htail => ?_
  unfold dtsFrame at hroom ⊢
  cases hfind : dtsFindHead i.chunk.beyond i.chunk.bytes with
  | none =>
    have hnone : ∀ k, ¬ MarkerAt i.chunk.bytes k := by
      intro k hk
      rw [(dtsFindHead_eq_some htail).mpr hk] at hfind
      cases hfind
    rw [hinv.places_inside (Nat.le_refl _)]
    constructor
    · intro hall
      refine ⟨fun k len hl hk => absurd hk (hnone k), ?_⟩
      rintro got n hdata (⟨rfl, _⟩ | ⟨k, hk, _⟩)
      · exact hall got hdata
      · exact absurd hk (hnone k)
    · intro hall got hdata
      exact hall.2 got _ hdata (Or.inl ⟨rfl, hnone⟩)
  | some k =>
    have hk := (dtsFindHead_eq_some htail).mp hfind
    have hlt := hk.lt
    have hdrop : (i.chunk.bytes.drop k).length = i.chunk.bytes.length - k := List.length_drop
    have hheadPlaces : ∀ frame, ∀ p ∈ ((dtsGetFrmInfoAt k (i.chunk.bytes.length - k)
        m.dts.info).places i.chunk.mem).map DtsPlace.chunk, p.Inside i.chunk.bytes.length frame :=
      fun frame => forall_chunk.mpr (dtsGetFrmInfoAt_spec i.chunk hlt.le m.dts.info).2
    rcases hread : dtsGetFrmInfo (i.chunk.bytes.drop k) m.dts.info with ⟨found, info⟩
    simp only [hfind, hread] at hroom ⊢
    cases found with
    | true =>
      have hheader := headerOf_of_dtsGetFrmInfo hread
      -- a frame under way is dropped
      have hbrings : ∀ n, ¬ Brings i.chunk.bytes n := by
        rintro n (⟨_, hnone⟩ | ⟨k', hk', hno, _⟩)
        · exact hnone k hk
        · rw [← hk.unique hk'] at hno
          exact hno _ _ hheader
      rw [List.forall_mem_append, and_iff_right (hheadPlaces _)]
      by_cases halloc : i.chunk.allocOk = true
      · have hok := copyOk_start hheader (by omega) (hroom halloc)
        have hrest : k + (i.chunk.bytes.length - k) ≤ i.chunk.bytes.length := by omega
        simp only [if_pos halloc]
        refine (dtsCopyPlaces_inside hok hrest).trans ?_
        constructor
        · intro hall
          refine ⟨?_, fun got n _ hn => absurd hn (hbrings n)⟩
          intro k' len hl hk' hheader' _
          obtain rfl := hk.unique hk'
          obtain ⟨rfl, rfl⟩ := hheader.unique hheader'
          exact hall
        · intro hall
          exact hall.1 k _ _ hk hheader halloc
      · simp only [if_neg halloc]
        refine iff_of_true (fun p hp => by cases hp) ⟨?_, fun got n _ hn => absurd hn (hbrings n)⟩
        intro _ _ _ _ _ h
        exact absurd h halloc
    | false =>
      have hno : ∀ len hl, ¬ HeaderOf (i.chunk.bytes.drop k) len hl :=
        fun _ _ => not_headerOf_of_dtsGetFrmInfo hread
      rw [List.forall_mem_append, and_iff_right (hheadPlaces _)]
      refine ((hinv.read hread).places_inside (Nat.sub_le _ _)).trans ?_
      constructor
      · intro hall
        refine ⟨fun k' len hl hk' hheader => ?_, ?_⟩
        · rw [← hk.unique hk'] at hheader
          exact absurd hheader (hno len hl)
        · rintro got n hdata (⟨_, hnone⟩ | ⟨k', hk', _, rfl⟩)
          · exact absurd hk (hnone k)
          · rw [← hk.unique hk']
            exact hall got hdata
      · intro hall got hdata
        exact hall.2 got _ hdata (Or.inr ⟨k, hk, hno, rfl⟩)

/-! ## The main result -/

/-- In every run, every call of `dts_recv` keeps to its chunk and to its frame if and only if every
chunk is as it has to be. -/
theorem dts_recv_inside (logs : Bool) (inputs : List DtsInput)
    (hmem : Along dtsStep MemoryOk {} inputs) :
    Along dtsStep (DtsSafe logs) {} inputs ↔ Along dtsStep (DtsOk logs) {} inputs := by
  apply hmem.congr (J := fun m => FrameInv m.dts m.base)
  · intro got hdata
    cases hdata
  · intro m i m' hinv hmem _ hstep
    exact frameInv_step hinv hmem hstep
  · intro m i hinv hmem
    exact dtsSafe_iff hinv hmem

/-- A frame of one byte, at an address above the middle of the memory. -/
def oneByteInput : DtsInput where
  chunk := { bytes := ascii "IPNC,a,1,0,1," ++ [0], ne := by decide, beyond := [] }
  addr := 2 ^ 31

theorem dts_recv_inside_oneByte : Along dtsStep (DtsSafe true) {} [oneByteInput] := by
  have hmem : Along dtsStep MemoryOk {} [oneByteInput] :=
    ⟨⟨by decide, fun _ => by decide⟩, fun _ _ => trivial⟩
  apply (dts_recv_inside true [oneByteInput] hmem).mpr
  have hmarker : MarkerAt oneByteInput.chunk.bytes 0 :=
    ⟨⟨ascii ",a,1,0,1," ++ [0], by decide⟩, fun j hj => absurd hj (Nat.not_lt_zero j)⟩
  have hheader : HeaderOf (oneByteInput.chunk.bytes.drop 0) 1 13 :=
    ⟨ascii "IPNC", ascii "a", ascii "1", ascii "0", ascii "1", [0], by decide, by decide, by decide,
      by decide⟩
  refine ⟨⟨Or.inl hmarker.1.isInfix, ?_, ?_⟩, fun _ _ => trivial⟩
  · intro k len hl hk hh _ _
    obtain rfl := hmarker.unique hk
    obtain ⟨rfl, rfl⟩ := hheader.unique hh
    exact ⟨Or.inl (by decide), fun _ => by decide⟩
  · intro got n hdata
    cases hdata

/-- A chunk that ends with the first byte of a marker is read beyond its end. A frame without a
terminator is printed beyond its end. -/
theorem not_dts_recv_inside :
    ¬ DtsSafe false {} ⟨{ bytes := ascii "I", ne := by decide, beyond := [] }, 0⟩
      ∧ ¬ DtsSafe true {}
        ⟨{ bytes := ascii "IPNC,a,1,65,1,A", ne := by decide, beyond := [] }, 0⟩ := by
  constructor
  · intro h
    have hlt : 1 < 1 := h (.chunk 1) (by decide)
    omega
  · intro h
    exact absurd (h (.memory 15) (by decide)).2 (by decide)

end VdCamera.Platform
