import VdCamera.H264.Proofs.PsFrame
import VdCamera.H264.Proofs.PsOrder
import VdCamera.H264.Proofs.StampClock

/-!
# The loop and the clock

While the bytes that are written are part of no start code, the loop goes to the headers of the buffer
one after the other, and does with their timestamps what the clock does.
-/

namespace VdCamera.H264

open Misc

variable {m m' : Mem} {bufLen start ts : Int} {rest : List (Header × Nat)} {k : Header} {p q j : Nat}
  {s s' s₁ : PsState} {x : Header × Nat} {c : Clock}

/-! ## The clock of a state -/

/-- What the loop keeps of the timestamps. -/
def PsState.clock (s : PsState) : Clock := ⟨s.timestampOld, s.flagFirstStamp, s.flagTimestampOld⟩

theorem tsUsable_iff (ts : Int) : tsUsable start s ts = true ↔ s.clock.Usable start ts := by
  simp only [tsUsable, Clock.Usable, Clock.Free, Goes, PsState.clock, Bool.or_eq_true,
    Bool.and_eq_true, beq_iff_eq, decide_eq_true_eq, Int.sub_nonneg]

theorem rewrites_iff : Rewrites start s k p ↔
    stampAt s.buf k p ≠ 0 ∧ ¬ s.clock.Usable start (stampAt s.buf k p) := by
  rw [Rewrites, ← Bool.not_eq_true, tsUsable_iff]

theorem stampSet_eq (h : Rewrites start s k p) :
    stampSet s k = s.clock.stamp start k (stampAt s.buf k p) := by
  obtain ⟨h0, hu⟩ := rewrites_iff.mp h
  rw [Clock.stamp, if_neg h0, if_neg hu]
  cases k with
  | pack => exact (if_neg fun hk => nomatch hk.1).symm
  | PES => simp [stampSet, PsState.clock]

theorem stamp_of_not_rewrites (h : ¬ Rewrites start s k p) :
    s.clock.stamp start k (stampAt s.buf k p) = stampAt s.buf k p := by
  by_cases h0 : stampAt s.buf k p = 0
  · rw [h0, Clock.stamp_zero]
  · by_contra hne
    exact h (rewrites_iff.mpr ⟨h0, fun hu => hne (Clock.stamp_of_usable hu)⟩)

theorem stamp_ne_of_rewrites (h : Rewrites start s k p) :
    s.clock.stamp start k (stampAt s.buf k p) ≠ stampAt s.buf k p := by
  obtain ⟨h0, hu⟩ := rewrites_iff.mp h
  exact Clock.stamp_ne h0 hu

theorem rewrites_iff_stamp_ne : Rewrites start s k p ↔
    s.clock.stamp start k (stampAt s.buf k p) ≠ stampAt s.buf k p := by
  refine ⟨stamp_ne_of_rewrites, fun hne => ?_⟩
  by_contra hre
  exact hne (stamp_of_not_rewrites hre)

/-- A visit makes the clock tick. -/
theorem Visits.clock (h : Visits start s k p s') :
    s'.clock = s.clock.tick start k (stampAt s.buf k p) := by
  by_cases h0 : stampAt s.buf k p = 0
  · obtain ⟨hold, hfirst⟩ := h.zero h0
    simp [PsState.clock, Clock.tick, h0, hold, hfirst, h.flagTimestampOld]
  · by_cases hre : Rewrites start s k p
    · obtain ⟨-, hold, hfirst⟩ := h.rewrites hre
      have hu := (rewrites_iff.mp hre).2
      simp [PsState.clock, Clock.tick, h0, hold, hfirst, h.flagTimestampOld, stampSet_eq hre]
      exact fun _ => hu
    · obtain ⟨hold, hfirst⟩ := h.uses h0 hre
      have hu : s.clock.Usable start (stampAt s.buf k p) := by
        by_contra hu
        exact hre (rewrites_iff.mpr ⟨h0, hu⟩)
      rw [Clock.tick, if_neg h0, stamp_of_not_rewrites hre, decide_eq_true ⟨h0, hu⟩]
      simp [PsState.clock, hold, hfirst, h.flagTimestampOld]

/-- It writes the clock's timestamp, when that is another one. -/
theorem Visits.buf (h : Visits start s k p s') :
    (s.clock.stamp start k (stampAt s.buf k p) = stampAt s.buf k p → s'.buf = s.buf) ∧
      (s.clock.stamp start k (stampAt s.buf k p) ≠ stampAt s.buf k p →
        s'.buf = rewrite s.buf k p (s.clock.stamp start k (stampAt s.buf k p))) := by
  refine ⟨fun heq => h.keeps fun hre => stamp_ne_of_rewrites hre heq, fun hne => ?_⟩
  have hre := rewrites_iff_stamp_ne.mpr hne
  rw [(h.rewrites hre).1, stampSet_eq hre]

theorem psStep_places (hs₁ : psFindPES bufLen (psFindPack bufLen s) = some s₁)
    (hchoose : psChoose s₁ = (k, { s₁ with posBuf := p })) (h : psStep bufLen start s = some s') :
    s'.posPackTotal = s₁.posPackTotal ∧ s'.posPESTotal = s₁.posPESTotal ∧
      s'.posPackHeader = s₁.posPackHeader := by
  rw [psStep, hs₁, Option.map_some, hchoose] at h
  cases k with
  | pack =>
    cases h
    unfold psPack
    dsimp only
    split
    · exact ⟨rfl, rfl, rfl⟩
    · split <;> exact ⟨rfl, rfl, rfl⟩
  | PES =>
    cases h
    unfold psPES
    dsimp only
    split
    · exact ⟨rfl, rfl, rfl⟩
    · split <;> exact ⟨rfl, rfl, rfl⟩

/-- The search and the visit of an iteration that goes to a header. -/
theorem psStep_of_choose (start : Int) (hs₁ : psFindPES bufLen (psFindPack bufLen s) = some s₁)
    (hchoose : psChoose s₁ = (k, { s₁ with posBuf := p })) :
    ∃ s', psStep bufLen start s = some s' ∧ Visits start s k p s' ∧
      s'.posPackTotal = s₁.posPackTotal ∧ s'.posPESTotal = s₁.posPESTotal ∧
      s'.posPackHeader = s₁.posPackHeader := by
  have hv : visit bufLen s = some (k, p) := by
    rw [visit, hs₁, Option.map_some, hchoose]
  obtain ⟨s', hs'⟩ := psStep_of_visit start hv
  obtain ⟨k', p', hv', hvis⟩ := psStep_visits hs'
  rw [hv, Option.some.injEq, Prod.mk.injEq] at hv'
  obtain ⟨rfl, rfl⟩ := hv'
  exact ⟨s', hs', hvis, psStep_places hs₁ hchoose hs'⟩

/-- What is visited is what the search found. -/
theorem Visits.visit (h : Visits start s k p s') (hs' : psStep bufLen start s = some s') :
    visit bufLen s = some (k, p) := by
  obtain ⟨k', p', hv, hvis⟩ := psStep_visits hs'
  obtain rfl : k = k' := h.flagTimestampOld.symm.trans hvis.flagTimestampOld
  obtain rfl : p = p' := Nat.add_right_cancel (h.posBuf.symm.trans hvis.posBuf)
  exact hv

/-! ## Timestamps and start codes -/

/-- A byte that is written depends on the byte that was there. -/
theorem setTimestampPES_congr (q : Nat) (ts : Int) (h : m' j = m j) :
    setTimestampPES m' q ts j = setTimestampPES m q ts j := by
  by_cases hout : j < q ∨ q + 5 ≤ j
  · rw [setTimestampPES_outside m ts hout, setTimestampPES_outside m' ts hout, h]
  · obtain ⟨i, hi, rfl⟩ := exists_offset (q := q) (j := j) (by omega) (by omega)
    obtain ⟨b0, b1, b2, b3, b4⟩ := setTimestampPES_eq m q ts
    obtain ⟨c0, c1, c2, c3, c4⟩ := setTimestampPES_eq m' q ts
    interval_cases i
    · rw [Nat.add_zero] at h ⊢
      rw [b0, c0, h]
    · rw [b1, c1]
    · rw [b2, c2, h]
    · rw [b3, c3]
    · rw [b4, c4, h]

theorem changeTimestampPack_congr (q : Nat) (ts : Int) (h : m' j = m j) :
    h264ChangeTimestampPackheader m' q ts j = h264ChangeTimestampPackheader m q ts j := by
  by_cases hout : j < q ∨ q + 5 ≤ j
  · rw [changeTimestampPack_outside m ts hout, changeTimestampPack_outside m' ts hout, h]
  · obtain ⟨i, hi, rfl⟩ := exists_offset (q := q) (j := j) (by omega) (by omega)
    obtain ⟨b0, b1, b2, b3, b4⟩ := changeTimestampPack_eq m q ts
    obtain ⟨c0, c1, c2, c3, c4⟩ := changeTimestampPack_eq m' q ts
    interval_cases i
    · rw [Nat.add_zero] at h ⊢
      rw [b0, c0, h]
    · rw [b1, c1]
    · rw [b2, c2, h]
    · rw [b3, c3]
    · rw [b4, c4, h]

theorem rewrite_congr (k : Header) (p : Nat) (ts : Int) (h : m' j = m j) :
    rewrite m' k p ts j = rewrite m k p ts j := by
  cases k with
  | pack => exact changeTimestampPack_congr _ ts h
  | PES => exact setTimestampPES_congr _ ts (setTimestampPES_congr _ ts h)

theorem strAt_code_congr (h : ∀ i < 4, m' (p + i) = m (p + i)) :
    strAt m' p k.code = strAt m p k.code := by
  apply strAt_congr
  rwa [code_length]

/-- The headers with their timestamps. -/
def stampsOf (m : Mem) (hs : List (Header × Nat)) : List (Header × Int) :=
  hs.map fun x => (x.1, stampAt m x.1 x.2)

/-- The timestamps that the clock leaves. -/
def newStamps (start : Int) (c : Clock) (m : Mem) (hs : List (Header × Nat)) : List Int :=
  c.stamps start (stampsOf m hs)

/-- The headers with the timestamps that the clock leaves. -/
def restamps (start : Int) (c : Clock) (m : Mem) (hs : List (Header × Nat)) :
    List ((Header × Nat) × Int) :=
  hs.zip (newStamps start c m hs)

theorem restamps_cons : restamps start c m (x :: rest) =
    (x, c.stamp start x.1 (stampAt m x.1 x.2)) ::
      restamps start (c.tick start x.1 (stampAt m x.1 x.2)) m rest := rfl

theorem restamps_stamped : restamps 100000 (Clock.init 100000) stamped [(.pack, 0), (.PES, 14)]
    = [((.pack, 0), 103600), ((.PES, 14), 103600)] := by
  decide

/-- With `ts` for its timestamp: no start code stands over the bytes that are written, neither before nor
afterwards. -/
def Clear (m : Mem) (bufLen : Int) (x : Header × Nat) (ts : Int) : Prop :=
  ∀ k q, x.2 + x.1.off < q + 4 → q < x.2 + x.1.off + x.1.width → ((q + 4 : Nat) : Int) ≤ bufLen →
    strAt m q (Header.code k) = false ∧ strAt (rewrite m x.1 x.2 ts) q (Header.code k) = false

/-- So none is made and none is lost. -/
theorem Clear.code_eq (h : Clear m bufLen x ts) (hin : ((q + 4 : Nat) : Int) ≤ bufLen) :
    strAt (rewrite m x.1 x.2 ts) q k.code = strAt m q k.code := by
  by_cases hover : x.2 + x.1.off < q + 4 ∧ q < x.2 + x.1.off + x.1.width
  · obtain ⟨hold, hnew⟩ := h k q hover.1 hover.2 hin
    rw [hold, hnew]
  · exact strAt_code_congr fun i _ => rewrite_outside (by omega)

/-- So it is wherever the clock replaces a timestamp. -/
def CleanFrom (start bufLen : Int) (c : Clock) (m : Mem) (hs : List (Header × Nat)) : Prop :=
  ∀ z ∈ restamps start c m hs, z.2 ≠ stampAt m z.1.1 z.1.2 → Clear m bufLen z.1 z.2

/-- The headers up to the last PES header. -/
def upToPES : List (Header × Nat) → List (Header × Nat)
  | [] => []
  | x :: rest => if firstOf .PES (x :: rest) = none then [] else x :: upToPES rest

theorem upToPES_cons (h : firstOf .PES (x :: rest) = some p) : upToPES (x :: rest) = x :: upToPES rest :=
  if_neg (by rw [h]; exact Option.some_ne_none p)

/-- The headers that the loop goes to: where there are pack headers only, the start of the buffer is
taken for a PES header. -/
def visits (m : Mem) (bufLen : Int) : List (Header × Nat) :=
  if firstOf .PES (headers m bufLen) = none ∧ headers m bufLen ≠ [] then [(.PES, 0)]
  else upToPES (headers m bufLen)

/-- What the call writes makes no start code and hits none. -/
def Clean (m : Mem) (bufLen start : Int) : Prop :=
  CleanFrom start bufLen (Clock.init start) m (visits m bufLen)

/-- The loop has `rest` of the headers of `m` still to deal with, and has not touched them. -/
structure Follows (start bufLen : Int) (m : Mem) (rest : List (Header × Nat)) (s : PsState) : Prop where
  stands : Stands bufLen rest s
  part : ∃ n i free, i + n = (bufLen - 3).toNat ∧ rest = headersFrom m n i free
  same : ∀ x ∈ rest, ∀ j, x.2 ≤ j → s.buf j = m j
  near : ∀ x ∈ rest, s.posBuf < x.2 + x.1.off
  clean : CleanFrom start bufLen s.clock m (upToPES rest)

/-- No pack header begins less than six bytes behind a PES header. -/
def PacksApart (hs : List (Header × Nat)) : Prop :=
  ∀ p q, (.PES, p) ∈ hs → (.pack, q) ∈ hs → p < q → p + 6 ≤ q

/-- None does behind this one. -/
def Wide (x : Header × Nat) (rest : List (Header × Nat)) : Prop :=
  x.1 = .PES → ∀ q, (.pack, q) ∈ rest → x.2 + 6 ≤ q

theorem PacksApart.head (h : PacksApart (x :: rest))
    (hsorted : (x :: rest).Pairwise fun x y => x.2 < y.2) : Wide x rest := by
  obtain ⟨k, p⟩ := x
  rintro rfl q hq
  exact h p q List.mem_cons_self (List.mem_cons_of_mem _ hq) ((List.pairwise_cons.mp hsorted).1 _ hq)

theorem PacksApart.tail (h : PacksApart (x :: rest)) : PacksApart rest := fun p q hp hq =>
  h p q (List.mem_cons_of_mem _ hp) (List.mem_cons_of_mem _ hq)

theorem Follows.stamp (h : Follows start bufLen m (x :: rest) s) :
    stampAt s.buf x.1 x.2 = stampAt m x.1 x.2 :=
  stampAt_congr fun j hj _ =>
    h.same x List.mem_cons_self j (Nat.le_trans (Nat.le_add_right _ _) hj)

theorem Follows.code (h : Follows start bufLen m rest s) (hx : x ∈ rest) :
    strAt m x.2 x.1.code = true := by
  obtain ⟨n, i, free, -, rfl⟩ := h.part
  exact (mem_headersFrom hx).2.2

/-- Behind a header the others begin where the search goes on. -/
theorem Follows.behind (h : Follows start bufLen m (x :: rest) s) (hwide : Wide x rest)
    {y : Header × Nat} (hy : y ∈ rest) :
    x.2 + x.1.off ≤ y.2 ∨ (x.1 = .PES ∧ y.1 = .pack ∧ x.2 + 6 ≤ y.2) := by
  have hlt := (List.pairwise_cons.mp h.stands.sorted).1
  have hapart {z : Header × Nat} (hz : z ∈ rest) : x.2 + 4 ≤ z.2 :=
    code_apart (h.code List.mem_cons_self) (h.code (List.mem_cons_of_mem _ hz)) (hlt z hz)
  obtain ⟨k, p⟩ := x
  obtain ⟨k', q⟩ := y
  cases k with
  | pack => exact .inl (hapart hy)
  | PES =>
    cases k' with
    | pack => exact .inr ⟨rfl, rfl, hwide rfl q hy⟩
    | PES =>
      left
      obtain ⟨n, i, free, -, hlist⟩ := h.part
      obtain ⟨n', -, hrest⟩ := headersFrom_tail hlist.symm
      rcases free_le_headersFrom (hrest ▸ hy) with hle | ⟨r, hr, hrq⟩
      · exact hle
      · rw [← hrest] at hr
        have hle := hwide rfl r hr
        have hr4 := code_apart (h.code (List.mem_cons_of_mem _ hr))
          (h.code (List.mem_cons_of_mem _ hy)) hrq
        simp only [Header.off] at hle hr4 ⊢
        omega

/-- A header that gets another timestamp does not get in the way of a start code. -/
theorem Follows.written (h : Follows start bufLen m (x :: rest) s) {s' : PsState}
    (hPES : firstOf .PES (x :: rest) = some p) (hvis : Visits start s x.1 x.2 s') :
    s'.buf = s.buf ∨ ∃ ts, Clear m bufLen x ts ∧ s'.buf = rewrite s.buf x.1 x.2 ts := by
  have hclean := h.clean
  rw [upToPES_cons hPES, CleanFrom, restamps_cons] at hclean
  have hclear := hclean _ List.mem_cons_self
  obtain ⟨hkeep, hset⟩ := hvis.buf
  rw [h.stamp] at hkeep hset
  by_cases heq : s.clock.stamp start x.1 (stampAt m x.1 x.2) = stampAt m x.1 x.2
  · exact .inl (hkeep heq)
  · exact .inr ⟨_, hclear heq, hset heq⟩

/-- The other headers stand behind what is written. -/
theorem Follows.same_next (h : Follows start bufLen m (x :: rest) s) (hwide : Wide x rest)
    {buf : Mem} (hbuf : buf = s.buf ∨ ∃ ts, Clear m bufLen x ts ∧ buf = rewrite s.buf x.1 x.2 ts) :
    ∀ y ∈ rest, ∀ j, y.2 ≤ j → buf j = m j := by
  intro y hy j hj
  have hbehind := h.behind hwide hy
  have hxy : x.2 ≤ y.2 := Nat.le_of_lt ((List.pairwise_cons.mp h.stands.sorted).1 y hy)
  have hsame := h.same x List.mem_cons_self j (Nat.le_trans hxy hj)
  rcases hbuf with rfl | ⟨ts, hclear, rfl⟩
  · exact hsame
  · have hle : x.2 + x.1.off + x.1.width ≤ y.2 := by
      by_contra hlt
      have hfalse := (hclear y.1 y.2 (by rcases off_eq x.1 with ⟨-, ho⟩ | ⟨-, ho⟩ <;> omega)
        (Nat.not_le.mp hlt) (h.stands.code y (List.mem_cons_of_mem _ hy)).1).1
      rw [h.code (List.mem_cons_of_mem _ hy)] at hfalse
      cases hfalse
    rw [rewrite_outside (.inr (Nat.le_trans hle hj)), hsame]

/-- A start code behind the header is one of the buffer as it was. -/
theorem Follows.code_next (h : Follows start bufLen m (x :: rest) s) {buf : Mem} {k : Header} {q : Nat}
    (hbuf : buf = s.buf ∨ ∃ ts, Clear m bufLen x ts ∧ buf = rewrite s.buf x.1 x.2 ts)
    (hq : x.2 ≤ q) (hin : ((q + 4 : Nat) : Int) ≤ bufLen) (hstr : strAt buf q k.code = true) :
    strAt m q k.code = true := by
  have hsame := h.same x List.mem_cons_self
  rcases hbuf with rfl | ⟨ts, hclear, rfl⟩
  · rw [← hstr]
    exact (strAt_code_congr fun i _ => hsame _ (by omega)).symm
  · rw [← hclear.code_eq hin, ← hstr]
    exact (strAt_code_congr fun i _ => rewrite_congr _ _ ts (hsame _ (by omega))).symm

/-- With a PES header ahead the loop deals with the next header. -/
theorem Follows.step (h : Follows start bufLen m (x :: rest) s) (hwide : Wide x rest)
    (hPES : firstOf .PES (x :: rest) = some p) :
    ∃ s', psStep bufLen start s = some s' ∧ Visits start s x.1 x.2 s' ∧
      s'.posPESTotal = p ∧ Follows start bufLen m rest s' := by
  obtain ⟨s₁, hs₁, hchoose, hp, hplace⟩ := h.stands.choose hPES
  obtain ⟨s', hs', hvis, hpack', hPES', hheader'⟩ := psStep_of_choose start hs₁ hchoose
  have hclean := h.clean
  rw [upToPES_cons hPES, CleanFrom, restamps_cons] at hclean
  have hbuf := h.written hPES hvis
  have hsame' := h.same_next hwide hbuf
  obtain ⟨n, i, free, hend, hlist⟩ := h.part
  obtain ⟨n', hn', hrest⟩ := headersFrom_tail hlist.symm
  refine ⟨s', hs', hvis, hPES'.trans hp, ⟨?_, ?_, ?_, ?_, ?_⟩, ⟨n', _, _, by omega, hrest⟩, hsame', ?_, ?_⟩
  · exact (List.pairwise_cons.mp h.stands.sorted).2
  · intro y hy
    refine ⟨(h.stands.code y (List.mem_cons_of_mem _ hy)).1, ?_⟩
    rw [← h.code (List.mem_cons_of_mem _ hy)]
    exact strAt_code_congr fun i _ => hsame' y hy _ (Nat.le_add_right _ i)
  · intro k q hq hin hstr
    rw [hvis.posBuf] at hq
    have hold := h.code_next hbuf (Nat.le_trans (Nat.le_add_right _ _) hq) hin hstr
    rw [hrest]
    have hoff : x.2 + 1 ≤ x.2 + x.1.off := by
      rcases off_eq x.1 with ⟨-, ho⟩ | ⟨-, ho⟩ <;> omega
    exact exists_headersFrom (Nat.le_trans hoff hq) (by omega) (fun _ => hq) hold
  · intro q hq
    rw [hvis.posBuf]
    rcases h.behind hwide hq with hle | ⟨-, hk, -⟩
    · exact hle
    · cases hk
  · rcases hplace with ⟨hle, hnone, hrest'⟩ | ⟨hlt, hsome, hfirst⟩
    · refine .search (by rwa [hpack', hPES', hp]) ?_ (by rwa [hpack'])
      intro q hq
      rw [hvis.posBuf]
      rcases h.behind hwide hq with hle | ⟨hk, -, -⟩
      · exact hle
      · exact absurd hq (firstOf_none (hnone hk) q)
    · exact .pending (by rwa [hpack', hPES', hp]) (by rwa [hheader']) (by rwa [hpack'])
  · intro y hy
    rw [hvis.posBuf]
    rcases h.behind hwide hy with hle | ⟨hx, hk, hle⟩
    · rcases off_eq y.1 with ⟨-, ho⟩ | ⟨-, ho⟩ <;> omega
    · rw [hx, hk]
      show x.2 + 9 < y.2 + 4
      omega
  · rw [CleanFrom, hvis.clock, h.stamp]
    exact (List.forall_mem_cons.mp hclean).2

end VdCamera.H264
