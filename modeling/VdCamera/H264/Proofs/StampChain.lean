import VdCamera.H264.Proofs.PsHeaders
import VdCamera.H264.Proofs.PsRun

/-!
# The run over a tidy stream

On a tidy stream the loop visits the headers one after the other, and leaves them with the timestamps of
the clock.
-/

namespace VdCamera.H264

open Misc

variable {m : Mem} {bufLen start : Int} {hs done rest : List (Header × Nat)} {k : Header} {p q pos : Nat}
  {s : PsState} {c : Clock} {x y : Header × Nat}

/-! ## The searches -/

/-- Where a search starts: the headers in front of it are done, the others are ahead. -/
structure Ahead (hs done rest : List (Header × Nat)) (pos : Nat) : Prop where
  split : hs = done ++ rest
  behind : ∀ x ∈ done, x.2 < pos
  ahead : ∀ x ∈ rest, pos ≤ x.2

theorem Ahead.mem_rest (h : Ahead hs done rest pos) (hx : x ∈ hs) (hpos : pos ≤ x.2) : x ∈ rest := by
  rw [h.split] at hx
  rcases List.mem_append.mp hx with hx | hx
  · exact absurd (h.behind x hx) (Nat.not_lt.mpr hpos)
  · exact hx

theorem Ahead.mem (h : Ahead hs done rest pos) (hx : x ∈ rest) : x ∈ hs :=
  h.split ▸ List.mem_append_right done hx

theorem IsPsStream.sorted (h : IsPsStream m bufLen hs) : hs.Pairwise fun x y => x.2 < y.2 := by
  refine h.spaced.imp ?_
  intro x y hle
  have hoff := off_le_headerSize m x
  have hpos : 0 < x.1.off := by
    rcases off_eq x.1 with ⟨-, h⟩ | ⟨-, h⟩
    · omega
    · omega
  omega

theorem Ahead.sorted (h : Ahead hs done rest pos) (hm : IsPsStream m bufLen hs) :
    rest.Pairwise fun x y => x.2 < y.2 := by
  have hsorted := hm.sorted
  rw [h.split] at hsorted
  exact (List.pairwise_append.mp hsorted).2.1

/-! ## Where the loop stands -/

/-- The loop has dealt with `done` of the headers. -/
structure At (bufLen : Int) (hs done rest : List (Header × Nat)) (s : PsState) : Prop where
  tidy : Tidy s.buf bufLen hs
  ahead : Ahead hs done rest s.posBuf
  followed : PacksFollowed rest
  place : Place s rest

theorem At.stands (h : At bufLen hs done rest s) : Stands bufLen rest s where
  sorted := h.ahead.sorted h.tidy.stream
  code := by
    intro x hx
    have hin := h.tidy.stream.inside x (h.ahead.mem hx)
    have hsize := off_le_headerSize s.buf x
    refine ⟨?_, h.tidy.stream.code x (h.ahead.mem hx)⟩
    rcases off_eq x.1 with ⟨-, ho⟩ | ⟨-, ho⟩
    · omega
    · omega
  first k q hq hin hstr := ⟨q, Nat.le_refl q, h.ahead.mem_rest (h.tidy.only k q hin hstr) hq⟩
  ahead p hp := h.ahead.ahead _ hp
  place := h.place

theorem exists_firstOf_PES (h : PacksFollowed (x :: rest)) : ∃ p, firstOf .PES (x :: rest) = some p := by
  obtain ⟨k, q⟩ := x
  cases k with
  | PES => exact ⟨q, firstOf_cons_self⟩
  | pack =>
    obtain ⟨⟨p, rest', rfl⟩, -⟩ := h
    exact ⟨p, by rw [firstOf_cons_ne (by decide : Header.pack ≠ .PES), firstOf_cons_self]⟩

theorem PacksFollowed.tail (h : PacksFollowed (x :: rest)) : PacksFollowed rest := by
  obtain ⟨k, q⟩ := x
  cases k with
  | PES => exact h
  | pack => exact h.2

/-- A rewriting keeps the timestamps of the other headers. -/
theorem Tidy.stampAt_rewrite_other (h : Tidy m bufLen hs) (hx : (k, p) ∈ hs)
    (hroom : k = .PES → Room m bufLen hs p) (ts : Int) (hy : y ∈ hs) (hne : y ≠ (k, p)) :
    stampAt (VdCamera.H264.rewrite m k p ts) y.1 y.2 = stampAt m y.1 y.2 := by
  apply stampAt_congr
  intro j hlow hhigh
  have hsize : y.1.off + 5 ≤ headerSize m y := h.stamp_le hy
  exact h.rewrite_other hx hroom ts hy hne (by omega) (by omega)

/-- An iteration deals with the next header; what stands in front of it and behind it is kept. -/
theorem At.step (h : At bufLen hs done (x :: rest) s)
    (hroom : x.1 = .PES → s.clock.stamp start x.1 (stampAt s.buf x.1 x.2) ≠ stampAt s.buf x.1 x.2 →
      Room s.buf bufLen hs x.2) :
    ∃ s', psStep bufLen start s = some s' ∧ At bufLen hs (done ++ [x]) rest s' ∧
      Visits start s x.1 x.2 s' ∧ (∀ y ∈ rest, ∀ j, y.2 ≤ j → s'.buf j = s.buf j) ∧
      ∀ y ∈ done, stampAt s'.buf y.1 y.2 = stampAt s.buf y.1 y.2 := by
  obtain ⟨e, hPES⟩ := exists_firstOf_PES h.followed
  obtain ⟨s₁, hs₁, hchoose, hp, hplace⟩ := h.stands.choose hPES
  obtain ⟨s', hs', hvis, hpack', hPES', hheader'⟩ := psStep_of_choose start hs₁ hchoose
  have hx : x ∈ hs := h.ahead.mem List.mem_cons_self
  have hspaced := h.tidy.stream.spaced
  rw [h.ahead.split] at hspaced
  have hbehind := (List.pairwise_cons.mp (List.pairwise_append.mp hspaced).2.1).1
  obtain ⟨hkept, hset⟩ := hvis.buf
  have hbuf : Tidy s'.buf bufLen hs ∧ (∀ y ∈ rest, ∀ j, y.2 ≤ j → s'.buf j = s.buf j) ∧
      ∀ y ∈ hs, y ≠ x → stampAt s'.buf y.1 y.2 = stampAt s.buf y.1 y.2 := by
    by_cases heq : s.clock.stamp start x.1 (stampAt s.buf x.1 x.2) = stampAt s.buf x.1 x.2
    · rw [hkept heq]
      exact ⟨h.tidy, fun _ _ _ _ => rfl, fun _ _ _ => rfl⟩
    · have hroom := fun hk => hroom hk heq
      rw [hset heq]
      refine ⟨h.tidy.rewrite hx hroom _, ?_, fun y hy => h.tidy.stampAt_rewrite_other hx hroom _ hy⟩
      intro y hy j hj
      have hle := h.tidy.behind hx hroom (h.ahead.mem (List.mem_cons_of_mem x hy)) (hbehind y hy)
      exact rewrite_outside (.inr (Nat.le_trans hle hj))
  have hpos := h.ahead.ahead x List.mem_cons_self
  have hpos' : s'.posBuf = x.2 + x.1.off := hvis.posBuf
  have hoff := off_le_headerSize s.buf x
  have hahead : ∀ y ∈ rest, s'.posBuf ≤ y.2 := by
    intro y hy
    have hle := hbehind y hy
    omega
  have hk0 : 0 < x.1.off := by
    rcases off_eq x.1 with ⟨-, ho⟩ | ⟨-, ho⟩
    · omega
    · omega
  refine ⟨s', hs', ⟨hbuf.1, ⟨?_, ?_, hahead⟩, h.followed.tail, ?_⟩, hvis, hbuf.2.1, ?_⟩
  · rw [h.ahead.split, List.append_assoc, List.singleton_append]
  · intro y hy
    rcases List.mem_append.mp hy with hy | hy
    · have hlt := h.ahead.behind y hy
      omega
    · obtain rfl := List.mem_singleton.mp hy
      omega
  · rcases hplace with ⟨hle, -, hrest⟩ | ⟨hlt, hsome, hfirst⟩
    · exact .search (by rwa [hpack', hPES', hp]) (fun q hq => hahead _ hq) (by rwa [hpack'])
    · exact .pending (by rwa [hpack', hPES', hp]) (by rwa [hheader']) (by rwa [hpack'])
  · intro y hy
    apply hbuf.2.2 y (h.ahead.split ▸ List.mem_append_left _ hy)
    rintro rfl
    exact Nat.lt_irrefl _ (Nat.lt_of_lt_of_le (h.ahead.behind y hy) hpos)

/-! ## The run -/

/-- From `s` the loop exits in `t`, with the timestamps of the clock. -/
structure RunsTo (start bufLen : Int) (hs done rest : List (Header × Nat)) (s t : PsState) : Prop where
  exits : ExitsIn (psStep bufLen start) s t
  tidy : Tidy t.buf bufLen hs
  old : t.timestampOld = (s.clock.final start (stampsOf s.buf rest)).old
  kept : newStamps start s.clock s.buf rest = (stampsOf s.buf rest).map Prod.snd → t.buf = s.buf
  stamps : t.timestampOld < 2 ^ 33 →
    (stampsOf t.buf rest).map Prod.snd = newStamps start s.clock s.buf rest
  done : ∀ y ∈ done, stampAt t.buf y.1 y.2 = stampAt s.buf y.1 y.2

theorem stampAt_nonneg (m : Mem) (k : Header) (p : Nat) : 0 ≤ stampAt m k p := by
  cases k with
  | pack =>
    rw [stampAt, getTimestampPack_eq]
    exact Int.natCast_nonneg _
  | PES =>
    rw [stampAt, getTimestampPES_eq]
    exact Int.natCast_nonneg _

theorem stampsOf_nonneg (m : Mem) (hs : List (Header × Nat)) : ∀ z ∈ stampsOf m hs, 0 ≤ z.2 := by
  intro z hz
  obtain ⟨x, -, rfl⟩ := List.mem_map.mp hz
  exact stampAt_nonneg m x.1 x.2

/-- Where the clock replaces the timestamp of a PES header there is room. -/
def Roomy (start bufLen : Int) (hs : List (Header × Nat)) (c : Clock) (m : Mem)
    (rest : List (Header × Nat)) : Prop :=
  ∀ z ∈ restamps start c m rest, z.1.1 = .PES → z.2 ≠ stampAt m z.1.1 z.1.2 → Room m bufLen hs z.1.2

/-- Room is a matter of what stands from the header on. -/
theorem Room.congr {m' : Mem} (hsame : ∀ j, p ≤ j → m' j = m j) (h : Room m bufLen hs p) :
    Room m' bufLen hs p := by
  rcases h with hdts | ⟨hother, hnone⟩
  · left
    unfold HasDts HasPts at hdts ⊢
    rwa [hsame _ (Nat.le_add_right p 7)]
  · refine .inr ⟨hother, fun ts k q hq hq' hin => ?_⟩
    rw [← hnone ts k q hq hq' hin]
    exact strAt_code_congr fun i _ => rewrite_congr _ _ ts (hsame _ (by omega))

/-- Where the clock keeps all timestamps it needs none. -/
theorem roomy_of_kept (h : newStamps start c m rest = (stampsOf m rest).map Prod.snd) :
    Roomy start bufLen hs c m rest := by
  intro z hz _ hne
  rw [restamps, h, stampsOf, List.map_map] at hz
  nth_rewrite 1 [← List.map_id rest] at hz
  rw [List.zip_map'] at hz
  obtain ⟨x, -, rfl⟩ := List.mem_map.mp hz
  exact absurd rfl hne

theorem stampsOf_congr {m' : Mem} (h : ∀ y ∈ rest, ∀ j, y.2 ≤ j → m' j = m j) :
    stampsOf m' rest = stampsOf m rest := by
  apply List.map_congr_left
  intro y hy
  rw [stampAt_congr fun j hj _ => h y hy j (Nat.le_trans (Nat.le_add_right _ _) hj)]

theorem Roomy.congr {m' : Mem} (hsame : ∀ y ∈ rest, ∀ j, y.2 ≤ j → m' j = m j)
    (h : Roomy start bufLen hs c m rest) : Roomy start bufLen hs c m' rest := by
  intro z hz hk hne
  rw [restamps, newStamps, stampsOf_congr hsame] at hz
  have hmem : z.1 ∈ rest := (List.of_mem_zip hz).1
  rw [stampAt_congr fun j hj _ => hsame _ hmem j (Nat.le_trans (Nat.le_add_right _ _) hj)] at hne
  exact (h z hz hk hne).congr (hsame _ hmem)

theorem At.run (h : At bufLen hs done rest s) (hold : 0 ≤ s.timestampOld)
    (hroomy : Roomy start bufLen hs s.clock s.buf rest) : ∃ t, RunsTo start bufLen hs done rest s t := by
  induction rest generalizing done s with
  | nil =>
    exact ⟨s, (exitsIn_iff_of_exit h.stands.exit).mpr rfl, h.tidy, rfl, fun _ => rfl, fun _ => rfl,
      fun _ _ => rfl⟩
  | cons x rest ih =>
    rw [Roomy, restamps_cons] at hroomy
    obtain ⟨hroom, hroomy⟩ := List.forall_mem_cons.mp hroomy
    obtain ⟨s', hs', hat, hvis, hahead, hdone⟩ := h.step hroom
    obtain ⟨hkept, hset⟩ := hvis.buf
    have hrest := stampsOf_congr hahead
    have hclock := hvis.clock
    have hnew : newStamps start s'.clock s'.buf rest
        = (s.clock.tick start x.1 (stampAt s.buf x.1 x.2)).stamps start (stampsOf s.buf rest) := by
      rw [newStamps, hrest, hclock]
    have hold' : 0 ≤ s'.timestampOld := by
      have hnonneg : 0 ≤ (s.clock.tick start x.1 (stampAt s.buf x.1 x.2)).old :=
        Clock.tick_old_nonneg hold (stampAt_nonneg s.buf x.1 x.2)
      rwa [← hclock] at hnonneg
    obtain ⟨t, ht⟩ := ih hat hold' (hclock ▸ Roomy.congr hahead hroomy)
    have htold := ht.old
    rw [hrest, hclock] at htold
    refine ⟨t, (exitsIn_iff_of_step hs').mpr ht.exits, ht.tidy, htold, ?_, ?_, ?_⟩
    · intro heq
      obtain ⟨hstamp, htail⟩ := List.cons.inj heq
      rw [← hkept hstamp]
      apply ht.kept
      rw [hnew, hrest]
      exact htail
    · intro hbound
      have htail := ht.stamps hbound
      rw [hnew] at htail
      refine List.cons_eq_cons.mpr ⟨?_, htail⟩
      show stampAt t.buf x.1 x.2 = s.clock.stamp start x.1 (stampAt s.buf x.1 x.2)
      rw [ht.done x (List.mem_append_right _ (List.mem_singleton.mpr rfl))]
      by_cases heq : s.clock.stamp start x.1 (stampAt s.buf x.1 x.2) = stampAt s.buf x.1 x.2
      · rw [hkept heq, heq]
      · have hle := Clock.stamp_le_final (stampsOf s.buf rest) hold (stampAt_nonneg s.buf x.1 x.2)
          (stampsOf_nonneg s.buf rest) heq
        rw [← htold] at hle
        rw [hset heq]
        exact stampAt_rewrite s.buf x.1 x.2 (Clock.stamp_nonneg hold (stampAt_nonneg s.buf x.1 x.2))
          (Int.lt_of_le_of_lt hle hbound)
    · intro y hy
      rw [ht.done y (List.mem_append_left _ hy)]
      exact hdone y hy

end VdCamera.H264
