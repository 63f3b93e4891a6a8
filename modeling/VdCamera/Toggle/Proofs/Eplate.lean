import VdCamera.Toggle.Eplate

/-!
# Counted plates

What is read of the buffer follows from the header alone; what is counted follows from the frame whose
first bytes the buffer holds.
-/

namespace VdCamera.Toggle

open Misc

variable {mem mem' : Nat → UInt8} {hdr len wp i n k o : Nat} {ep : Eplate} {bytes : List UInt8}
  {f : EplateFrame} {frames : List EplateFrame} {s s' : EplateLine}

/-! ## What is looked at -/

theorem value_eplateFindHdr :
    (eplateFindHdr len).value mem = (List.range len).find? fun i => mem i = 0x0B :=
  Peek.value_find

theorem lt_of_eplateFindHdr (h : (eplateFindHdr len).value mem = some hdr) : hdr < len := by
  rw [value_eplateFindHdr] at h
  exact List.mem_range.1 (List.mem_of_find?_eq_some h)

theorem lt_of_mem_places_findHdr (h : i ∈ (eplateFindHdr len).places mem) : i < len :=
  List.mem_range.1 (Peek.mem_of_mem_places_find h)

theorem places_eplateSum : (eplateSum hdr).places mem = List.range' (hdr + 1) 6 :=
  Peek.places_foldl ..

theorem le_of_mem_places_chkFrm (hlen : 8 ≤ len) (h : i ∈ (eplateChkFrm hdr len).places mem) :
    i < hdr + len := by
  simp only [eplateChkFrm, Peek.places_bind, Peek.value_read, Peek.places_read, List.mem_append,
    List.mem_singleton] at h
  rcases h with rfl | h
  · omega
  · by_cases hl : len < EPLATE_GET_FRM_LEN (mem (hdr + 7))
    · rw [if_pos hl] at h
      cases h
    · rw [if_neg hl] at h
      simp only [Peek.places_bind, places_eplateSum, Peek.places_read, Peek.places_pure,
        List.mem_append, List.mem_range'_1, List.mem_singleton, List.not_mem_nil, or_false] at h
      omega

theorem lt_of_mem_places_heartbeat
    (hw : ∀ hdr ∈ (eplateFindHdr wp).value mem, hdr + 8 ≤ wp)
    (h : i ∈ (eplateFrmIsHeartbeat wp).places mem) : i < wp := by
  simp only [eplateFrmIsHeartbeat, Peek.places_bind, List.mem_append] at h
  rcases h with h | h
  · exact lt_of_mem_places_findHdr h
  · cases hf : (eplateFindHdr wp).value mem with
    | none =>
      rw [hf] at h
      cases h
    | some hdr =>
      have := hw hdr hf
      simp only [hf, Peek.places_bind, places_eplateSum, Peek.places_read, Peek.places_pure,
        List.mem_append, List.mem_range'_1, List.mem_singleton, List.not_mem_nil, or_false] at h
      omega

theorem lt_of_mem_places_parse
    (hw : ∀ hdr ∈ (eplateFindHdr wp).value mem, hdr + 8 ≤ wp)
    (h : i ∈ (eplateParse wp).places mem) : i < wp := by
  simp only [eplateParse, Peek.places_bind, Peek.places_foldl, List.mem_append,
    List.mem_range] at h
  rcases h with h | h | h
  · exact h
  · exact lt_of_mem_places_findHdr h
  · cases hf : (eplateFindHdr wp).value mem with
    | none =>
      rw [hf] at h
      cases h
    | some hdr =>
      have := hw hdr hf
      simp only [hf, Peek.places_bind, List.mem_append] at h
      rcases h with h | h
      · have := le_of_mem_places_chkFrm (by omega) h
        omega
      · by_cases hc : (eplateChkFrm hdr (wp - hdr)).value mem < 0
        · rw [if_pos hc] at h
          cases h
        · rw [if_neg hc] at h
          simp only [Peek.places_bind, Peek.places_read, Peek.places_pure, List.mem_append,
            List.mem_singleton, List.not_mem_nil, or_false] at h
          omega

theorem lt_of_mem_places_judge
    (hw : ∀ hdr ∈ (eplateFindHdr wp).value mem, hdr + 8 ≤ wp)
    (h : i ∈ (eplateJudge wp).places mem) : i < wp := by
  simp only [eplateJudge, Peek.places_bind, List.mem_append] at h
  rcases h with h | h
  · exact lt_of_mem_places_heartbeat hw h
  · by_cases hb : (eplateFrmIsHeartbeat wp).value mem = 0
    · rw [if_pos hb] at h
      cases h
    · rw [if_neg hb] at h
      simp only [Peek.places_bind, Peek.places_pure, List.append_nil] at h
      exact lt_of_mem_places_parse hw h

/-- Without its last bytes a header leaves open what becomes of the bytes: the byte in the place of the
heartbeat's checksum is not one of those received. -/
theorem judge_undecided (hf : (eplateFindHdr wp).value mem = some hdr) (hlt : wp < hdr + 8)
    (hwp : wp < SZ_BUF) : ∃ mem₁ mem₂ : Nat → UInt8, (∀ i < wp, mem₁ i = mem i)
      ∧ (∀ i < wp, mem₂ i = mem i)
      ∧ (eplateJudge wp).value mem₁ ≠ (eplateJudge wp).value mem₂ := by
  have hh := lt_of_eplateFindHdr hf
  let cs := eplateCs ((eplateSum hdr).value mem)
  have hagree (b : UInt8) : ∀ i < wp, Function.update mem (hdr + 7) b i = mem i := fun i hi =>
    Function.update_of_ne (by omega) ..
  have hfind (b : UInt8) :
      (eplateFindHdr wp).value (Function.update mem (hdr + 7) b) = some hdr := by
    rw [← hf]
    exact Peek.value_congr fun i hi => hagree b i (lt_of_mem_places_findHdr hi)
  have hsum (b : UInt8) :
      (eplateSum hdr).value (Function.update mem (hdr + 7) b) = (eplateSum hdr).value mem := by
    refine Peek.value_congr fun i hi => Function.update_of_ne ?_ ..
    rw [places_eplateSum, List.mem_range'_1] at hi
    omega
  have hbeat (b : UInt8) :
      (eplateFrmIsHeartbeat wp).value (Function.update mem (hdr + 7) b)
        = if cs ≠ b then -1 else 0 := by
    simp [eplateFrmIsHeartbeat, hfind, hsum, cs]
  have hparse (b : UInt8) :
      ((eplateParse wp).value (Function.update mem (hdr + 7) b)).1 = -1 := by
    have hl : wp - hdr < EPLATE_GET_FRM_LEN b := by
      simp only [EPLATE_GET_FRM_LEN, SZ_EPLATE_HDR]
      omega
    simp [eplateParse, hfind, eplateChkFrm, if_pos hl]
  refine ⟨Function.update mem (hdr + 7) cs, Function.update mem (hdr + 7) (cs + 1), hagree cs,
    hagree (cs + 1), ?_⟩
  have hne : cs ≠ cs + 1 := by simp
  have h₁ : (eplateJudge wp).value (Function.update mem (hdr + 7) cs) = ⟨true, 0⟩ := by
    simp [eplateJudge, hbeat]
  have h₂ : (eplateJudge wp).value (Function.update mem (hdr + 7) (cs + 1)) = ⟨false, 0⟩ := by
    simp [eplateJudge, hbeat, hne, hparse, hwp]
  rw [h₁, h₂]
  simp

/-- The places of the checksum are looked at. -/
theorem mem_places_judge (hf : (eplateFindHdr wp).value mem = some hdr) :
    hdr + 7 ∈ (eplateJudge wp).places mem := by
  simp [eplateJudge, eplateFrmIsHeartbeat, hf]

theorem contained_iff (hroom : ep.wp + bytes.length ≤ SZ_BUF) :
    ep.Contained bytes ↔ ep.HeaderWhole bytes := by
  have hwp : (ep.store bytes).wp ≤ SZ_BUF := hroom
  constructor
  · rintro ⟨hdecide, hplaces⟩ hdr hf
    by_contra hlt
    rcases Nat.lt_or_ge (ep.store bytes).wp SZ_BUF with h | h
    · obtain ⟨mem₁, mem₂, h₁, h₂, hne⟩ := judge_undecided hf (by omega) h
      exact hne ((hdecide mem₁ h₁).trans (hdecide mem₂ h₂).symm)
    · have := hplaces _ (mem_places_judge hf)
      omega
  · intro hw
    constructor
    · intro mem hmem
      exact Peek.value_congr fun i hi => hmem i (lt_of_mem_places_judge hw hi)
    · intro i hi
      have := lt_of_mem_places_judge hw hi
      omega

/-! ## The stream -/

theorem EplateFrame.length_pos (f : EplateFrame) : 0 < f.bytes.length := by
  cases f with
  | heartbeat mac six => simp [EplateFrame.bytes]
  | data mac six nr ids hids => simp [EplateFrame.bytes]

theorem le_of_frameAt_none (h : frameAt frames n = none) :
    (frames.map EplateFrame.bytes).flatten.length ≤ n := by
  induction frames generalizing n with
  | nil => exact Nat.zero_le n
  | cons g frames ih =>
    rw [frameAt] at h
    split at h
    · have := ih h
      simp only [List.map_cons, List.flatten_cons, List.length_append]
      omega
    · cases h

/-- The bytes of a read that stays in its frame. -/
theorem take_drop_stream (h : frameAt frames n = some (f, o)) (hk : o + k ≤ f.bytes.length) :
    ((frames.map EplateFrame.bytes).flatten.drop n).take k = (f.bytes.drop o).take k := by
  induction frames generalizing n with
  | nil => cases h
  | cons g frames ih =>
    rw [frameAt] at h
    rw [List.map_cons, List.flatten_cons]
    split at h
    next hle =>
      have hn : n = g.bytes.length + (n - g.bytes.length) := by omega
      rw [hn, ← List.drop_drop, List.drop_left]
      exact ih h
    next hlt =>
      simp only [Option.some.injEq, Prod.mk.injEq] at h
      obtain ⟨rfl, rfl⟩ := h
      rw [List.drop_append_of_le_length (by omega), List.take_append_of_le_length]
      rw [List.length_drop]
      omega

theorem frameAt_advance (h : frameAt frames n = some (f, o)) (hk : o + k < f.bytes.length) :
    frameAt frames (n + k) = some (f, o + k)
      ∧ idsReceived frames (n + k) = idsReceived frames n := by
  induction frames generalizing n with
  | nil => cases h
  | cons g frames ih =>
    rw [frameAt] at h
    simp only [frameAt, idsReceived]
    split at h
    next hle =>
      have hn : n + k - g.bytes.length = n - g.bytes.length + k := by omega
      rw [if_pos (by omega), if_pos (by omega), if_pos hle, hn]
      obtain ⟨h₁, h₂⟩ := ih h
      exact ⟨h₁, by rw [h₂]⟩
    next hlt =>
      simp only [Option.some.injEq, Prod.mk.injEq] at h
      obtain ⟨rfl, rfl⟩ := h
      rw [if_neg (by omega), if_neg (by omega), if_neg hlt]
      exact ⟨rfl, rfl⟩

theorem frameAt_zero : frameAt frames 0 = frames.head?.map fun f => (f, 0) := by
  cases frames with
  | nil => rfl
  | cons g frames =>
    have := g.length_pos
    rw [frameAt, if_neg (by omega)]
    rfl

theorem idsReceived_zero : idsReceived frames 0 = 0 := by
  cases frames with
  | nil => rfl
  | cons g frames =>
    have := g.length_pos
    rw [idsReceived, if_neg (by omega)]

theorem frameAt_finish (h : frameAt frames n = some (f, o)) (hk : o + k = f.bytes.length) :
    (∀ g p, frameAt frames (n + k) = some (g, p) → p = 0)
      ∧ idsReceived frames (n + k) = idsReceived frames n + f.nr := by
  induction frames generalizing n with
  | nil => cases h
  | cons g frames ih =>
    rw [frameAt] at h
    simp only [frameAt, idsReceived]
    split at h
    next hle =>
      have hn : n + k - g.bytes.length = n - g.bytes.length + k := by omega
      rw [if_pos (by omega), if_pos (by omega), if_pos hle, hn]
      obtain ⟨h₁, h₂⟩ := ih h
      exact ⟨h₁, by rw [h₂, Nat.add_assoc]⟩
    next hlt =>
      simp only [Option.some.injEq, Prod.mk.injEq] at h
      obtain ⟨rfl, rfl⟩ := h
      have hn : n + k - g.bytes.length = 0 := by omega
      rw [if_pos (by omega), if_pos (by omega), if_neg hlt, hn, idsReceived_zero, frameAt_zero]
      refine ⟨fun g' p hp => ?_, by omega⟩
      obtain ⟨_, -, heq⟩ := Option.map_eq_some_iff.1 hp
      exact (congrArg Prod.snd heq).symm

/-! ## A frame in the buffer -/

/-- The buffer begins with the first `n` bytes of the frame. -/
def Holds (mem : Nat → UInt8) (f : EplateFrame) (n : Nat) : Prop := ∀ i < n, f.bytes[i]? = some (mem i)

theorem Holds.eq {b : UInt8} (h : Holds mem f n) (hi : i < n) (hb : f.bytes[i]? = some b) :
    mem i = b := by
  rw [h i hi, Option.some.injEq] at hb
  exact hb

/-- The address of a frame, and the byte behind it. -/
theorem EplateFrame.bytes_eq (f : EplateFrame) : ∃ a b c d e g t rest,
    f.bytes = 0x0B :: a :: b :: c :: d :: e :: g :: t :: rest
      ∧ (f.bytes.length = 8 ∧ t = EplateFrame.cs [a, b, c, d, e, g] ∧ f.nr = 0
        ∨ f.bytes.length = EPLATE_GET_FRM_LEN t ∧ f.nr = t.toNat
          ∧ f.bytes[f.bytes.length - 1]? = some (EplateFrame.cs [a, b, c, d, e, g])
          ∧ (¬ f.Coincides → t ≠ EplateFrame.cs [a, b, c, d, e, g])) := by
  cases f with
  | heartbeat mac six =>
    match mac, six with
    | [a, b, c, d, e, g], _ =>
      exact ⟨a, b, c, d, e, g, _, [], rfl, .inl ⟨rfl, rfl, rfl⟩⟩
  | data mac six nr ids hids =>
    match mac, six with
    | [a, b, c, d, e, g], six =>
      refine ⟨a, b, c, d, e, g, nr, ids ++ [EplateFrame.cs [a, b, c, d, e, g]], rfl, .inr ?_⟩
      refine ⟨?_, rfl, ?_, id⟩
      · simp [EplateFrame.bytes, EPLATE_GET_FRM_LEN, SZ_EPLATE_HDR, hids]
        omega
      · rw [← List.getLast?_eq_getElem?, EplateFrame.bytes, List.getLast?_concat]

theorem value_eplateSum (hdr : Nat) : (eplateSum hdr).value mem
    = [mem (hdr + 1), mem (hdr + 2), mem (hdr + 3), mem (hdr + 4), mem (hdr + 5),
        mem (hdr + 6)].foldl (· + ·) 0 := by
  rw [eplateSum, Peek.value_foldl]
  rfl

/-- From the eighth byte on the thread keeps a frame that is not complete, and counts it when it is. -/
theorem judge_of_holds (h : Holds mem f n) (h8 : 8 ≤ n) (hn : n ≤ f.bytes.length)
    (hfit : f.bytes.length ≤ SZ_BUF) (hc : ¬ f.Coincides) :
    (eplateJudge n).value mem
      = if n = f.bytes.length then ⟨true, f.nr⟩ else ⟨false, 0⟩ := by
  obtain ⟨a, b, c, d, e, g, t, rest, hbytes, hkind⟩ := f.bytes_eq
  have hbyte (i : Nat) (hi : i < n) {x : UInt8}
      (hx : (0x0B :: a :: b :: c :: d :: e :: g :: t :: rest)[i]? = some x) : mem i = x :=
    h.eq hi (by rw [hbytes]; exact hx)
  have h0 : mem 0 = 0x0B := hbyte 0 (by omega) rfl
  have ht : mem 7 = t := hbyte 7 (by omega) rfl
  have hfind : (eplateFindHdr n).value mem = some 0 := by
    obtain ⟨m, rfl⟩ : ∃ m, n = m + 1 := ⟨n - 1, by omega⟩
    rw [value_eplateFindHdr, List.range_succ_eq_map, List.find?_cons_of_pos (by simp [h0])]
  have hsum : eplateCs ((eplateSum 0).value mem) = EplateFrame.cs [a, b, c, d, e, g] := by
    rw [value_eplateSum, hbyte 1 (by omega) rfl, hbyte 2 (by omega) rfl, hbyte 3 (by omega) rfl,
      hbyte 4 (by omega) rfl, hbyte 5 (by omega) rfl, hbyte 6 (by omega) rfl]
    rfl
  rcases hkind with ⟨hlen, rfl, hnr⟩ | ⟨hlen, hnr, hlast, hne⟩
  · have hbeat : (eplateFrmIsHeartbeat n).value mem = 0 := by
      simp [eplateFrmIsHeartbeat, hfind, hsum, ht]
    rw [if_pos (by omega), hnr]
    simp [eplateJudge, hbeat]
  · have hbeat : (eplateFrmIsHeartbeat n).value mem = -1 := by
      simp [eplateFrmIsHeartbeat, hfind, hsum, ht, (hne hc).symm]
    by_cases hfull : n = f.bytes.length
    · have hend : mem (f.bytes.length - 1) = EplateFrame.cs [a, b, c, d, e, g] :=
        h.eq (by omega) hlast
      have hchk : (eplateChkFrm 0 n).value mem = 0 := by
        simp [eplateChkFrm, ht, hsum, hend, ← hlen, hfull]
      have hparse : (eplateParse n).value mem = (0, t.toNat) := by
        simp [eplateParse, hfind, hchk, ht]
      rw [if_pos hfull, hnr]
      simp [eplateJudge, hbeat, hparse]
    · have hchk : (eplateChkFrm 0 n).value mem = -1 := by
        have : n < EPLATE_GET_FRM_LEN t := by omega
        simp [eplateChkFrm, ht, this]
      have hparse : (eplateParse n).value mem = (-1, 0) := by
        simp [eplateParse, hfind, hchk]
      have hroom : ¬ SZ_BUF ≤ n := by omega
      rw [if_neg hfull]
      simp [eplateJudge, hbeat, hparse, hroom]

theorem Holds.store (h : Holds ep.mem f ep.wp) (hk : ep.wp + k ≤ f.bytes.length) :
    Holds (ep.store ((f.bytes.drop ep.wp).take k)).mem f (ep.wp + k) := by
  intro i hi
  have hlen : ((f.bytes.drop ep.wp).take k).length = k := by
    rw [List.length_take, List.length_drop]
    omega
  show _ = some (overwrite ep.mem ep.wp ((f.bytes.drop ep.wp).take k) i)
  rcases Nat.lt_or_ge i ep.wp with hlt | hge
  · rw [overwrite_of_lt hlt]
    exact h i hlt
  · rw [← getElem?_overwrite hge (by omega), List.getElem?_take_of_lt (by omega),
      List.getElem?_drop, Nat.add_sub_cancel' hge]

/-! ## Runs -/

/-- The buffer holds what has come of a frame, and the frames before it are counted. -/
structure EplateLine.Inv (frames : List EplateFrame) (s : EplateLine) : Prop where
  counted : s.Counted frames
  holds : ∀ f o, frameAt frames s.received = some (f, o) → s.ep.wp = o ∧ Holds s.ep.mem f o

theorem EplateLine.Inv.step (hi : s.Inv frames) (ha : s.Alone frames k)
    (hs : eplateLineStep frames s k = some s') : s'.Inv frames := by
  simp only [eplateLineStep] at hs
  split at hs
  next hroom =>
    obtain ⟨ep', hep, rfl⟩ := Option.map_eq_some_iff.1 hs
    rw [Eplate.step] at hep
    split at hep
    next hread =>
      cases hep
      cases hat : frameAt frames s.received with
      | none =>
        refine absurd ?_ hread.1
        rw [List.drop_eq_nil_of_le (le_of_frameAt_none hat), List.take_nil]
      | some fo =>
        obtain ⟨f, o⟩ := fo
        obtain ⟨hk, h8, hfit, hc, hcnt⟩ := ha f o hat
        obtain ⟨rfl, hholds⟩ := hi.holds f o hat
        rw [take_drop_stream hat hk]
        have hstored := hholds.store hk
        have hlen : ((f.bytes.drop s.ep.wp).take k).length = k := by
          rw [List.length_take, List.length_drop]
          omega
        have hwp : (s.ep.store ((f.bytes.drop s.ep.wp).take k)).wp = s.ep.wp + k := by
          rw [Eplate.store, hlen]
        have hjudge := judge_of_holds hstored h8 hk hfit hc
        have hcounted : s.ep.epcCnt = idsReceived frames s.received := hi.counted
        by_cases hfull : s.ep.wp + k = f.bytes.length
        · obtain ⟨hnext, hids⟩ := frameAt_finish hat hfull
          have hround : s.ep.round ((f.bytes.drop s.ep.wp).take k)
              = ⟨(s.ep.store ((f.bytes.drop s.ep.wp).take k)).mem, 0,
                (s.ep.epcCnt + f.nr).bmod (2 ^ 32)⟩ := by
            rw [Eplate.round]
            simp only [hwp, hjudge, if_pos hfull]
            rfl
          rw [hround]
          constructor
          · show (s.ep.epcCnt + f.nr).bmod (2 ^ 32) = idsReceived frames (s.received + k)
            rw [hids, hcounted, Int.bmod_eq_of_le (by omega) (by omega)]
            exact (Int.natCast_add ..).symm
          · intro g p hg
            cases hnext g p hg
            exact ⟨rfl, fun i hi => absurd hi (Nat.not_lt_zero i)⟩
        · obtain ⟨hnext, hids⟩ := frameAt_advance hat (by omega : s.ep.wp + k < f.bytes.length)
          have hround : s.ep.round ((f.bytes.drop s.ep.wp).take k)
              = ⟨(s.ep.store ((f.bytes.drop s.ep.wp).take k)).mem, s.ep.wp + k,
                s.ep.epcCnt.bmod (2 ^ 32)⟩ := by
            rw [Eplate.round]
            simp only [hwp, hjudge, if_neg hfull, Int.natCast_zero, Int.add_zero]
            rfl
          rw [hround]
          constructor
          · show s.ep.epcCnt.bmod (2 ^ 32) = idsReceived frames (s.received + k)
            rw [hids, hcounted, Int.bmod_eq_of_le (by omega) (by omega)]
          · intro g p hg
            rw [hnext] at hg
            cases hg
            exact ⟨rfl, hstored⟩
    next => cases hep
  next => cases hs

theorem EplateLine.inv_start (frames : List EplateFrame) (mem : Nat → UInt8) :
    EplateLine.Inv frames ⟨{ mem }, 0⟩ where
  counted := by
    rw [EplateLine.Counted, idsReceived_zero]
    rfl
  holds f o h := by
    rw [frameAt_zero] at h
    obtain ⟨_, -, heq⟩ := Option.map_eq_some_iff.1 h
    cases heq
    exact ⟨rfl, fun i hi => absurd hi (Nat.not_lt_zero i)⟩

/-- As long as every read ends in the frame in which it begins, behind its header, the ids of the frames
received are counted; and the bytes received decide alone exactly when the header is whole. -/
theorem eplates_counted (mem : Nat → UInt8) :
    (∀ frames ks, Along (eplateLineStep frames) (EplateLine.Alone frames) ⟨{ mem }, 0⟩ ks →
      Along (eplateLineStep frames) (After (eplateLineStep frames) (EplateLine.Counted frames))
        ⟨{ mem }, 0⟩ ks)
    ∧ ∀ reads, Along Eplate.step (fun ep r => (ep.step r).isSome → ep.Contained r) { mem } reads
      ↔ Along Eplate.step (fun ep r => (ep.step r).isSome → ep.HeaderWhole r) { mem } reads := by
  constructor
  · intro frames ks h
    exact Along.of_invariant (EplateLine.inv_start frames mem) h (fun _ _ _ => EplateLine.Inv.step)
      fun s k hi ha s' hs => (hi.step ha hs).counted
  · intro reads
    have hiff (ep : Eplate) (r : List UInt8) : ((ep.step r).isSome → ep.Contained r)
        ↔ ((ep.step r).isSome → ep.HeaderWhole r) := by
      refine imp_congr_right fun hs => contained_iff ?_
      rw [Eplate.step] at hs
      split at hs
      next h => exact h.2
      next => cases hs
    exact ⟨fun h => h.mono fun ep r => (hiff ep r).1, fun h => h.mono fun ep r => (hiff ep r).2⟩

instance (f : EplateFrame) : Decidable f.Coincides :=
  match f with
  | .heartbeat _ _ => isFalse id
  | .data mac _ nr _ _ => inferInstanceAs (Decidable (nr = EplateFrame.cs mac))

instance (frames : List EplateFrame) (s : EplateLine) (k : Nat) : Decidable (s.Alone frames k) :=
  match h : frameAt frames s.received with
  | none => isTrue fun f o h' => by simp [h] at h'
  | some (f, o) => decidable_of_iff (o + k ≤ f.bytes.length ∧ SZ_EPLATE_HDR ≤ o + k
      ∧ f.bytes.length ≤ SZ_BUF ∧ ¬ f.Coincides
      ∧ idsReceived frames s.received + f.nr < 2 ^ 31) (by simp [EplateLine.Alone, h])

instance (frames : List EplateFrame) (s : EplateLine) : Decidable (s.Counted frames) :=
  inferInstanceAs (Decidable (_ = _))

/-- A heartbeat and a frame with one id. -/
def heartbeatAndId : List EplateFrame :=
  [.heartbeat (List.replicate 6 0) rfl, .data (List.replicate 6 0) rfl 1 (List.replicate 12 7) rfl]

theorem eplates_counted_three_reads :
    Along (eplateLineStep heartbeatAndId)
      (After (eplateLineStep heartbeatAndId) (EplateLine.Counted heartbeatAndId))
      ⟨{ mem := fun _ => 0 }, 0⟩ [8, 9, 12] :=
  (eplates_counted fun _ => 0).1 heartbeatAndId [8, 9, 12] (by decide +kernel)

/-- What comes behind a heartbeat in the same read is dropped with it. -/
theorem eplates_not_counted_one_read : ¬ ∀ mem frames ks, Along (eplateLineStep frames)
    (After (eplateLineStep frames) (EplateLine.Counted frames)) ⟨{ mem }, 0⟩ ks := by
  intro h
  have h := h (fun _ => 0) heartbeatAndId [29]
  revert h
  decide +kernel

end VdCamera.Toggle
