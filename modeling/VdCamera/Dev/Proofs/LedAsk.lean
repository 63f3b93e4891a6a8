import Mathlib.Data.Nat.Find
import VdCamera.Dev.LedAsk

/-!
# When the answers of the LED cards are recognised

Each of the three parsers looks at the first header only. It is right if what it looks at there was
received and no later header begins the answer.
-/

namespace VdCamera.Dev

open Misc

variable {r : Received} {bytes bs pat : List UInt8} {mem : Nat → UInt8} {opt i j k n w : Nat}

/-- The parser looks at received bytes only, and it accepts if and only if `P`. -/
def Faithful (m : Nat → PeekByte Int) (r : Received) (P : Prop) : Prop :=
  (∀ j ∈ (m r.bytes.length).places r.mem, j < r.bytes.length)
    ∧ ((m r.bytes.length).value r.mem = 0 ↔ P)

/-- The pattern is there, and not before. -/
def FirstAt (pat bytes : List UInt8) (k : Nat) : Prop :=
  pat <+: bytes.drop k ∧ ∀ j < k, ¬ pat <+: bytes.drop j

theorem FirstAt.unique (h : FirstAt pat bytes j) (h' : FirstAt pat bytes k) : j = k := by
  rcases Nat.lt_trichotomy j k with hlt | heq | hlt
  · exact absurd h.1 (h'.2 j hlt)
  · exact heq
  · exact absurd h'.1 (h.2 k hlt)

theorem Received.holds (r : Received) : Holds r.mem 0 r.bytes := by
  apply holds_of_getElem? (d := 0)
  intro j hj
  have h : r.bytes[j - 0]? = some (r.mem j) := getElem?_overwrite (Nat.zero_le j) (by omega)
  rw [Nat.sub_zero] at h
  rw [h, Nat.zero_add]
  rfl

theorem Received.getElem? (r : Received) (hj : j < r.bytes.length) : r.bytes[j]? = some (r.mem j) := by
  have h := r.holds.getElem? hj
  rwa [Nat.zero_add] at h

theorem Received.holds_drop (r : Received) (hk : k ≤ r.bytes.length) :
    Holds r.mem k (r.bytes.drop k) := by
  have h := r.holds.drop hk
  rwa [Nat.zero_add] at h

theorem Received.length_pos (r : Received) : 0 < r.bytes.length := List.length_pos_iff.mpr r.ne

/-! ## Reading numbers -/

/-- A number of the bytes. -/
def num (bytes : List UInt8) (w i : Nat) : Nat := leNat ((bytes.drop i).take w)

theorem value_readNum (r : Received) (h : i + w ≤ r.bytes.length) :
    (readNum w i).value r.mem = num r.bytes w i := by
  have hvalue := Peek.value_contents (r.holds_drop (k := i) (by omega))
    (n := w) (by rw [List.length_drop]; omega)
  rw [readNum, Peek.value_bind, Peek.value_pure, hvalue]
  rfl

theorem mem_places_readNum : j ∈ (readNum w i).places mem ↔ i ≤ j ∧ j < i + w := by
  rw [readNum, Peek.places_bind, Peek.places_pure, List.append_nil, Peek.mem_places_contents]

/-- A number is read inside the bytes if it lies in them. -/
theorem places_readNum_lt (hw : 0 < w) :
    (∀ j ∈ (readNum w i).places mem, j < n) ↔ i + w ≤ n := by
  constructor
  · intro hall
    have := hall (i + w - 1) (mem_places_readNum.mpr ⟨by omega, by omega⟩)
    omega
  · intro h j hj
    have := mem_places_readNum.mp hj
    omega

theorem value_matchAt_singleton (b : UInt8) :
    (Peek.matchAt i [b]).value mem = decide (mem i = b) := by
  rw [Peek.matchAt, Peek.value]
  by_cases h : mem i = b
  · rw [if_pos h, decide_eq_true h]
    rfl
  · rw [if_neg h, decide_eq_false h]
    rfl

theorem places_matchAt_singleton (b : UInt8) : (Peek.matchAt i [b]).places mem = [i] := by
  rw [Peek.matchAt, Peek.places]
  split <;> rfl

/-! ## The A4 card -/

/-- A header. -/
def AskHdr (opt : Nat) (bytes : List UInt8) (k : Nat) : Prop :=
  k + 8 ≤ bytes.length ∧ askSof <+: bytes.drop k ∧ bytes[k + 5]? = some 0 ∧ num bytes 2 (k + 6) = opt

/-- A complete answer that reports success. -/
def AskFrame (opt : Nat) (bytes : List UInt8) (k : Nat) : Prop :=
  AskHdr opt bytes k ∧ num bytes 2 (k + 18) = num bytes 4 (k + 14) ∧ 4 ≤ num bytes 2 (k + 18)
    ∧ askEof <+: bytes.drop (k + 20 + num bytes 2 (k + 18)) ∧ num bytes 4 (k + 20) = 1

/-- The end of the bytes could be the beginning of a header: what there is of the start and of the flag
agrees. -/
def AskCut (bytes : List UInt8) (k : Nat) : Prop :=
  (bytes.drop k).take 4 <+: askSof ∧ ∀ b, bytes[k + 5]? = some b → b = 0

theorem value_askHdrAt {flag : UInt8} : (askHdrAt flag opt k).value mem = true ↔
    (Peek.matchAt k askSof).value mem = true ∧ mem (k + 5) = flag
      ∧ (readNum 2 (k + 6)).value mem = opt := by
  rw [askHdrAt, Peek.value_bind]
  by_cases hsof : (Peek.matchAt k askSof).value mem = true
  · rw [if_pos hsof, Peek.value_bind, value_matchAt_singleton]
    by_cases hflag : mem (k + 5) = flag
    · rw [if_pos (decide_eq_true hflag), Peek.value_bind, Peek.value_pure, decide_eq_true_eq]
      simp only [hsof, hflag, true_and]
    · rw [if_neg (by simpa using hflag), Peek.value_pure]
      simp only [hflag, false_and, and_false]
      decide
  · rw [if_neg hsof, Peek.value_pure]
    simp [hsof]

theorem mem_places_askHdrAt {flag : UInt8} : j ∈ (askHdrAt flag opt k).places mem ↔
    j ∈ (Peek.matchAt k askSof).places mem
      ∨ (Peek.matchAt k askSof).value mem = true
        ∧ (j = k + 5 ∨ mem (k + 5) = flag ∧ k + 6 ≤ j ∧ j < k + 8) := by
  rw [askHdrAt, Peek.places_bind, List.mem_append]
  apply or_congr_right
  by_cases hsof : (Peek.matchAt k askSof).value mem = true
  · rw [if_pos hsof, Peek.places_bind, value_matchAt_singleton, places_matchAt_singleton,
      List.mem_append, List.mem_singleton, and_iff_right hsof]
    apply or_congr_right
    by_cases hflag : mem (k + 5) = flag
    · rw [if_pos (decide_eq_true hflag), Peek.places_bind, Peek.places_pure, List.append_nil,
        mem_places_readNum, and_iff_right hflag]
    · rw [if_neg (by simpa using hflag), Peek.places_pure]
      simp only [hflag, List.not_mem_nil, false_and]
  · rw [if_neg hsof, Peek.places_pure]
    simp [hsof]

/-- With eight bytes the comparison tells whether a header is there, and stays inside. -/
theorem askHdrAt_whole (h : k + 8 ≤ r.bytes.length) :
    ((askHdrAt 0 opt k).value r.mem = true ↔ AskHdr opt r.bytes k)
      ∧ ∀ j ∈ (askHdrAt 0 opt k).places r.mem, j < r.bytes.length := by
  have hsof : (Peek.matchAt k askSof).value r.mem = true ↔ askSof <+: r.bytes.drop k := by
    apply Peek.value_matchAt (r.holds_drop (by omega))
    rw [List.length_drop]
    show 4 ≤ _
    omega
  constructor
  · rw [value_askHdrAt, hsof, value_readNum r (by omega), AskHdr, r.getElem? (by omega),
      and_iff_right h, Option.some.injEq]
  · intro j hj
    rcases mem_places_askHdrAt.mp hj with hj | ⟨_, rfl | ⟨_, _, hj⟩⟩
    · have := Peek.lt_of_mem_places_matchAt hj
      have hlen : askSof.length = 4 := rfl
      omega
    · omega
    · omega

/-- With less than eight bytes the comparison goes on behind them if they could begin a header. -/
theorem askHdrAt_cut (hk : k < r.bytes.length) (h : r.bytes.length < k + 8) :
    ((∀ j ∈ (askHdrAt 0 opt k).places r.mem, j < r.bytes.length) ↔ ¬ AskCut r.bytes k)
      ∧ (¬ AskCut r.bytes k → (askHdrAt 0 opt k).value r.mem = false) := by
  have hholds := r.holds_drop (k := k) (by omega)
  have hlen : (r.bytes.drop k).length = r.bytes.length - k := List.length_drop
  by_cases hsof : askSof <+: r.bytes.drop k
  · obtain ⟨hvalue, hplaces⟩ := Peek.matchAt_of_isPrefix hholds hsof
    have htake : (r.bytes.drop k).take 4 <+: askSof := by
      rw [List.prefix_iff_eq_take.mp hsof]
      exact List.take_prefix_take_left (by decide)
    by_cases hflag : r.bytes[k + 5]? = some (r.mem (k + 5)) ∧ r.mem (k + 5) ≠ 0
    · -- another flag: the comparison ends there
      have hcut : ¬ AskCut r.bytes k := fun hcut => hflag.2 (hcut.2 _ hflag.1)
      have hfive : k + 5 < r.bytes.length := (List.getElem?_eq_some_iff.mp hflag.1).1
      refine ⟨iff_of_true (fun j hj => ?_) hcut, fun _ => ?_⟩
      · rcases mem_places_askHdrAt.mp hj with hj | ⟨_, rfl | ⟨hzero, _⟩⟩
        · have := hplaces j hj
          omega
        · exact hfive
        · exact absurd hzero hflag.2
      · rw [← Bool.not_eq_true, value_askHdrAt]
        exact fun hall => hflag.2 hall.2.1
    · have hcut : AskCut r.bytes k := by
        refine ⟨htake, fun b hb => ?_⟩
        have hfive : k + 5 < r.bytes.length := (List.getElem?_eq_some_iff.mp hb).1
        rw [r.getElem? hfive] at hb hflag
        by_contra hne
        exact hflag ⟨rfl, by rwa [Option.some.inj hb]⟩
      refine ⟨iff_of_false (fun hall => ?_) (not_not.mpr hcut), fun hno => absurd hcut hno⟩
      by_cases hfive : k + 5 < r.bytes.length
      · have hzero := hcut.2 _ (r.getElem? hfive)
        have := hall (k + 7) (mem_places_askHdrAt.mpr
          (Or.inr ⟨hvalue, Or.inr ⟨hzero, by omega, by omega⟩⟩))
        omega
      · have := hall (k + 5) (mem_places_askHdrAt.mpr (Or.inr ⟨hvalue, Or.inl rfl⟩))
        omega
  · by_cases hbytes : r.bytes.drop k <+: askSof
    · have hne : r.bytes.drop k ≠ askSof := fun heq => hsof (heq ▸ List.prefix_rfl)
      have hcut : AskCut r.bytes k := by
        refine ⟨(List.take_prefix _ _).trans hbytes, fun b hb => ?_⟩
        have hfive : k + 5 < r.bytes.length := (List.getElem?_eq_some_iff.mp hb).1
        have hle := hbytes.length_le
        have hfour : askSof.length = 4 := rfl
        omega
      refine ⟨iff_of_false (fun hall => ?_) (not_not.mpr hcut), fun hno => absurd hcut hno⟩
      have := hall _ (mem_places_askHdrAt.mpr (Or.inl (Peek.mem_places_matchAt hholds hbytes hne)))
      omega
    · obtain ⟨hvalue, hplaces⟩ := Peek.matchAt_of_differ hholds hsof hbytes
      have hcut : ¬ AskCut r.bytes k := by
        rintro ⟨htake, _⟩
        by_cases hfour : 4 ≤ (r.bytes.drop k).length
        · have heq : (r.bytes.drop k).take 4 = askSof :=
            htake.eq_of_length (by rw [List.length_take, Nat.min_eq_left hfour]; rfl)
          exact hsof (heq ▸ List.take_prefix _ _)
        · rw [List.take_of_length_le (by omega)] at htake
          exact hbytes htake
      refine ⟨iff_of_true (fun j hj => ?_) hcut, fun _ => ?_⟩
      · rcases mem_places_askHdrAt.mp hj with hj | ⟨htrue, _⟩
        · have := hplaces j hj
          omega
        · rw [hvalue] at htrue
          cases htrue
      · rw [← Bool.not_eq_true, value_askHdrAt, hvalue]
        exact fun hall => nomatch hall.1

/-! The three outcomes of the search for a header. -/

theorem askFindHdr_first (h : AskHdr opt r.bytes k) (hfirst : ∀ j < k, ¬ AskHdr opt r.bytes j) :
    (askFindHdr r.bytes.length 0 opt).value r.mem = some k
      ∧ ∀ j ∈ (askFindHdr r.bytes.length 0 opt).places r.mem, j < r.bytes.length := by
  have hk := h.1
  constructor
  · rw [askFindHdr, Peek.value_scan_eq_some]
    refine ⟨Nat.zero_le k, by omega, (askHdrAt_whole hk).1.mpr h, fun j _ hj => ?_⟩
    rw [← Bool.not_eq_true, (askHdrAt_whole (by omega)).1]
    exact hfirst j hj
  · intro j hj
    obtain ⟨p, _, _, hplaces, hbefore⟩ := Peek.mem_places_scan.mp hj
    have hpk : p ≤ k := by
      by_contra hlt
      have := hbefore k (Nat.zero_le k) (by omega)
      rw [(askHdrAt_whole hk).1.mpr h] at this
      cases this
    exact (askHdrAt_whole (by omega)).2 j hplaces

theorem askFindHdr_none (hno : ∀ k, ¬ AskHdr opt r.bytes k)
    (hcut : ∀ k < r.bytes.length, r.bytes.length < k + 8 → ¬ AskCut r.bytes k) :
    (askFindHdr r.bytes.length 0 opt).value r.mem = none
      ∧ ∀ j ∈ (askFindHdr r.bytes.length 0 opt).places r.mem, j < r.bytes.length := by
  constructor
  · rw [askFindHdr, Peek.value_scan_eq_none]
    intro j _ hj
    by_cases hj8 : j + 8 ≤ r.bytes.length
    · rw [← Bool.not_eq_true, (askHdrAt_whole hj8).1]
      exact hno j
    · exact (askHdrAt_cut (by omega) (by omega)).2 (hcut j (by omega) (by omega))
  · intro j hj
    obtain ⟨p, _, hp, hplaces, _⟩ := Peek.mem_places_scan.mp hj
    by_cases hp8 : p + 8 ≤ r.bytes.length
    · exact (askHdrAt_whole hp8).2 j hplaces
    · exact (askHdrAt_cut (by omega) (by omega)).1.mpr (hcut p (by omega) (by omega)) j hplaces

theorem askFindHdr_cut (hno : ∀ k, ¬ AskHdr opt r.bytes k) (hk : k < r.bytes.length)
    (h : r.bytes.length < k + 8) (hcut : AskCut r.bytes k) :
    ¬ ∀ j ∈ (askFindHdr r.bytes.length 0 opt).places r.mem, j < r.bytes.length := by
  intro hall
  -- the first place where the comparison goes on behind the bytes
  have hexists : ∃ p, p < r.bytes.length ∧ r.bytes.length < p + 8 ∧ AskCut r.bytes p := ⟨k, hk, h, hcut⟩
  classical
  obtain ⟨hp, hp8, hpcut⟩ := Nat.find_spec hexists
  have hleast : ∀ q < Nat.find hexists, (askHdrAt 0 opt q).value r.mem = false := by
    intro q hq
    by_cases hq8 : q + 8 ≤ r.bytes.length
    · rw [← Bool.not_eq_true, (askHdrAt_whole hq8).1]
      exact hno q
    · refine (askHdrAt_cut (by omega) (by omega)).2 fun hqcut => ?_
      exact Nat.find_min hexists hq ⟨by omega, by omega, hqcut⟩
  have hinside : (∀ j ∈ (askHdrAt 0 opt (Nat.find hexists)).places r.mem, j < r.bytes.length) ↔ _ :=
    (askHdrAt_cut hp hp8).1
  refine hinside.mp (fun j hj => hall j ?_) hpcut
  exact Peek.mem_places_scan.mpr ⟨_, Nat.zero_le _, by omega, hj, fun q _ hq => hleast q hq⟩

/-- A comparison stays inside the received bytes unless they end within the pattern or before it. -/
theorem places_matchAt_received (hpat : pat ≠ []) :
    (∀ j ∈ (Peek.matchAt i pat).places r.mem, j < r.bytes.length)
      ↔ (r.bytes.drop i <+: pat → r.bytes.drop i = pat) := by
  by_cases hi : i ≤ r.bytes.length
  · rw [← Peek.places_matchAt_lt (r.holds_drop hi), List.length_drop, Nat.add_sub_cancel' hi]
  · rw [List.drop_of_length_le (by omega)]
    refine iff_of_false (fun hall => ?_) fun h => hpat (h List.nil_prefix).symm
    obtain ⟨b, bs, rfl⟩ := List.exists_cons_of_ne_nil hpat
    have := hall i (List.mem_cons_self ..)
    omega

/-- A comparison that stays inside tells whether the pattern is there. -/
theorem value_matchAt_received (hpat : pat ≠ [])
    (hinside : r.bytes.drop i <+: pat → r.bytes.drop i = pat) :
    (Peek.matchAt i pat).value r.mem = true ↔ pat <+: r.bytes.drop i := by
  have hi : i ≤ r.bytes.length := by
    by_contra hlt
    rw [List.drop_of_length_le (by omega)] at hinside
    exact hpat (hinside List.nil_prefix).symm
  have hholds := r.holds_drop hi
  by_cases hpre : pat <+: r.bytes.drop i
  · exact iff_of_true (Peek.matchAt_of_isPrefix hholds hpre).1 hpre
  · refine iff_of_false ?_ hpre
    rw [(Peek.matchAt_of_differ hholds hpre fun hcut => hpre (hinside hcut ▸ List.prefix_rfl)).1]
    decide

/-- What `parse_ask_frm` looks at behind a header was received: the two lengths, and if they agree on
four or more, as much of the end as is compared. -/
def AskReadable (bytes : List UInt8) (k : Nat) : Prop :=
  k + 20 ≤ bytes.length
    ∧ (num bytes 2 (k + 18) = num bytes 4 (k + 14) → 4 ≤ num bytes 2 (k + 18) →
        bytes.drop (k + 20 + num bytes 2 (k + 18)) <+: askEof →
        bytes.drop (k + 20 + num bytes 2 (k + 18)) = askEof)

theorem length_of_askEof (h : askEof <+: bytes.drop i) : i + 4 ≤ bytes.length := by
  have hle := h.length_le
  rw [List.length_drop] at hle
  have hfour : askEof.length = 4 := rfl
  omega

theorem parseAskAt_inside (r : Received) (k : Nat) :
    (∀ j ∈ (parseAskAt k).places r.mem, j < r.bytes.length) ↔ AskReadable r.bytes k := by
  have heof : askEof ≠ [] := List.cons_ne_nil _ _
  have hfrmin : (∀ j ∈ (readNum 2 (k + 18)).places r.mem, j < r.bytes.length)
      ↔ k + 18 + 2 ≤ r.bytes.length := places_readNum_lt (by decide)
  by_cases hk : k + 20 ≤ r.bytes.length
  · have hfrm := value_readNum r (by omega : k + 18 + 2 ≤ r.bytes.length)
    have hask := value_readNum r (by omega : k + 14 + 4 ≤ r.bytes.length)
    have haskin : ∀ j ∈ (readNum 4 (k + 14)).places r.mem, j < r.bytes.length :=
      (places_readNum_lt (by decide)).mpr (by omega)
    rw [parseAskAt, Peek.places_bind, Peek.places_bind, hfrm, hask, List.forall_mem_append,
      List.forall_mem_append, and_iff_right (hfrmin.mpr (by omega)), and_iff_right haskin, AskReadable,
      and_iff_right hk]
    by_cases heq : num r.bytes 2 (k + 18) = num r.bytes 4 (k + 14)
    · rw [if_neg (not_not.mpr heq), imp_iff_right heq]
      by_cases hfour : num r.bytes 2 (k + 18) < 4
      · rw [if_pos hfour]
        exact iff_of_true (fun j hj => nomatch hj) fun h => absurd hfour (Nat.not_lt.mpr h)
      · rw [if_neg hfour, imp_iff_right (Nat.le_of_not_lt hfour), Peek.places_bind,
          List.forall_mem_append, places_matchAt_received heof]
        apply and_iff_left_of_imp
        intro hinside
        split
        · next hmatch =>
          rw [value_matchAt_received heof hinside] at hmatch
          have hlen := length_of_askEof hmatch
          rw [Peek.places_bind, Peek.places_pure, List.append_nil]
          exact (places_readNum_lt (by decide)).mpr (by omega)
        · exact fun j hj => nomatch hj
    · rw [if_pos heq]
      exact iff_of_true (fun j hj => nomatch hj) fun h => absurd h heq
  · refine iff_of_false (fun hall => ?_) fun h => hk h.1
    rw [parseAskAt, Peek.places_bind] at hall
    have := hfrmin.mp fun j hj => hall j (List.mem_append_left _ hj)
    omega

/-- What it tells of a header is whether the answer begins there. -/
theorem parseAskAt_value (hhdr : AskHdr opt r.bytes k) (h : AskReadable r.bytes k) :
    (parseAskAt k).value r.mem = 0 ↔ AskFrame opt r.bytes k := by
  obtain ⟨hk, hinside⟩ := h
  have heof : askEof ≠ [] := List.cons_ne_nil _ _
  have hfrm := value_readNum r (by omega : k + 18 + 2 ≤ r.bytes.length)
  have hask := value_readNum r (by omega : k + 14 + 4 ≤ r.bytes.length)
  rw [parseAskAt, Peek.value_bind, Peek.value_bind, hfrm, hask, AskFrame, and_iff_right hhdr]
  by_cases heq : num r.bytes 2 (k + 18) = num r.bytes 4 (k + 14)
  · rw [if_neg (not_not.mpr heq), and_iff_right heq]
    by_cases hfour : num r.bytes 2 (k + 18) < 4
    · rw [if_pos hfour, Peek.value_pure]
      exact iff_of_false (by decide) fun h => absurd h.1 (Nat.not_le.mpr hfour)
    · have hmatch := value_matchAt_received heof (hinside heq (Nat.le_of_not_lt hfour))
      rw [if_neg hfour, and_iff_right (Nat.le_of_not_lt hfour), Peek.value_bind, ← hmatch]
      split
      · next htrue =>
        have hlen := length_of_askEof (hmatch.mp htrue)
        rw [Peek.value_bind, Peek.value_pure, value_readNum r (by omega : k + 20 + 4 ≤ r.bytes.length),
          and_iff_right htrue]
        split
        · next hne => exact iff_of_false (by decide) hne
        · next hone => exact iff_of_true rfl (not_not.mp hone)
      · next hfalse =>
        rw [Peek.value_pure]
        exact iff_of_false (by decide) fun h => hfalse h.1
  · rw [if_pos heq, Peek.value_pure]
    exact iff_of_false (by decide) fun h => heq h.1

/-- The bytes that `parse_ask_frm` treats as it should: without a header, they do not end like the
beginning of one; with a header, what is looked at behind the first one was received, and if there is an
answer at all it begins there. -/
def AskClear (opt : Nat) (bytes : List UInt8) : Prop :=
  ((∀ k, ¬ AskHdr opt bytes k) → ∀ k < bytes.length, bytes.length < k + 8 → ¬ AskCut bytes k)
    ∧ ∀ k, AskHdr opt bytes k → (∀ j < k, ¬ AskHdr opt bytes j) →
        AskReadable bytes k ∧ ∀ k', AskFrame opt bytes k' → AskFrame opt bytes k

theorem parseAskFrm_faithful (r : Received) (opt : Nat) :
    Faithful (parseAskFrm opt) r (∃ k, AskFrame opt r.bytes k) ↔ AskClear opt r.bytes := by
  rw [Faithful, parseAskFrm, Peek.value_bind, Peek.places_bind, List.forall_mem_append]
  by_cases hhdr : ∃ k, AskHdr opt r.bytes k ∧ ∀ j < k, ¬ AskHdr opt r.bytes j
  · obtain ⟨k, hk, hfirst⟩ := hhdr
    obtain ⟨hvalue, hplaces⟩ := askFindHdr_first hk hfirst
    rw [hvalue, and_iff_right hplaces, parseAskAt_inside]
    constructor
    · rintro ⟨hread, haccept⟩
      refine ⟨fun hno => absurd hk (hno k), fun k₂ hk₂ hfirst₂ => ?_⟩
      obtain rfl : k₂ = k := by
        rcases Nat.lt_trichotomy k₂ k with hlt | heq | hlt
        · exact absurd hk₂ (hfirst k₂ hlt)
        · exact heq
        · exact absurd hk (hfirst₂ k hlt)
      refine ⟨hread, fun k' hframe => ?_⟩
      rw [← parseAskAt_value hk hread]
      exact haccept.mpr ⟨k', hframe⟩
    · rintro ⟨_, hclear⟩
      obtain ⟨hread, hframe⟩ := hclear k hk hfirst
      refine ⟨hread, ?_⟩
      rw [parseAskAt_value hk hread]
      exact ⟨fun h => ⟨k, h⟩, fun ⟨k', h⟩ => hframe k' h⟩
  · have hno : ∀ k, ¬ AskHdr opt r.bytes k := by
      intro k hk
      induction k using Nat.strong_induction_on with
      | _ k ih => exact hhdr ⟨k, hk, fun j hj hj' => ih j hj hj'⟩
    have hnoframe : ¬ ∃ k, AskFrame opt r.bytes k := fun ⟨k, hframe⟩ => hno k hframe.1
    constructor
    · rintro ⟨hinside, _⟩
      refine ⟨fun _ k hk hk8 hcut => ?_, fun k hk => absurd hk (hno k)⟩
      exact askFindHdr_cut hno hk hk8 hcut hinside.1
    · rintro ⟨hcut, _⟩
      obtain ⟨hvalue, hplaces⟩ := askFindHdr_none hno (hcut hno)
      rw [hvalue, and_iff_right hplaces]
      exact ⟨fun j hj => (nomatch hj), iff_of_false (show ¬ (-1 : Int) = 0 by decide) hnoframe⟩

/-! ## The LED of the fly card -/

/-- What a search for two bytes over all places but the last one finds. -/
theorem findPair_spec (r : Received) (hpat : pat.length = 2) :
    (∀ j ∈ (Peek.findSub pat (r.bytes.length - 1) 0).places r.mem, j < r.bytes.length)
      ∧ (((Peek.findSub pat (r.bytes.length - 1) 0).value r.mem = none ∧ ∀ k, ¬ pat <+: r.bytes.drop k)
        ∨ ∃ k, (Peek.findSub pat (r.bytes.length - 1) 0).value r.mem = some k
          ∧ FirstAt pat r.bytes k) := by
  have hpos := r.length_pos
  have hn : r.bytes.length - 1 + pat.length ≤ r.bytes.length + 1 := by omega
  constructor
  · intro j hj
    have := Peek.lt_of_mem_places_findSub hn hj
    omega
  cases hfind : (Peek.findSub pat (r.bytes.length - 1) 0).value r.mem with
  | none =>
    refine Or.inl ⟨rfl, fun k hk => ?_⟩
    have hlen := hk.length_le
    rw [List.length_drop] at hlen
    exact (Peek.value_findSub_eq_none r.holds hn).mp hfind k (by omega) hk
  | some k =>
    rw [← Nat.zero_add k, Peek.value_findSub_eq_some r.holds hn] at hfind
    exact Or.inr ⟨k, rfl, hfind.2⟩

/-- The answer begins at the first two signs, and does not end with the last byte. -/
def FlyFirst (bytes : List UInt8) : Prop :=
  ∃ k, FirstAt [35, 35] bytes k ∧ okAsk <+: bytes.drop k ∧ k + 6 < bytes.length

/-- What stands between the first two signs and the first end sign is compared with the answer: they
agree if the answer is there. -/
theorem okAsk_iff {e : Nat} (hend : [36] <+: bs.drop e) (hbefore : ∀ l < e, ¬ [36] <+: bs.drop l) :
    bs.take (min 6 (e + 1)) = okAsk.take (min 6 (e + 1)) ↔ e = 5 ∧ okAsk <+: bs := by
  constructor
  swap
  · rintro ⟨rfl, hok⟩
    exact (List.prefix_iff_eq_take.mp hok).symm
  intro hcmp
  -- the end sign is at no other place of the answer
  have hat : ∀ l < 5, ¬ [36] <+: okAsk.drop l := by decide
  have hget : ∀ l < min 6 (e + 1), bs[l]? = okAsk[l]? := by
    intro l hl
    have h := congrArg (fun xs : List UInt8 => xs[l]?) hcmp
    simpa only [List.getElem?_take_of_lt hl] using h
  have hsign : ∀ (xs : List UInt8) (l : Nat), [36] <+: xs.drop l ↔ xs[l]? = some 36 := by
    intro xs l
    rw [List.prefix_iff_getElem?]
    simp
  have hfive : 5 ≤ e := by
    by_contra hlt
    have h := (hsign bs e).mp hend
    rw [hget e (by omega)] at h
    exact hat e (by omega) ((hsign okAsk e).mpr h)
  have hle : e ≤ 5 := by
    by_contra hlt
    refine hbefore 5 (by omega) ((hsign bs 5).mpr ?_)
    rw [hget 5 (by omega)]
    rfl
  refine ⟨by omega, ?_⟩
  have htake : bs.take 6 = okAsk := by
    rw [show min 6 (e + 1) = 6 by omega] at hcmp
    exact hcmp
  rw [← htake]
  exact List.take_prefix _ _

/-- `find_ask_frm` stays inside the bytes; it finds the first two signs with the first end sign that
comes behind them and before the last byte. -/
theorem findAskFrm_spec (r : Received) :
    (∀ j ∈ (findAskFrm r.bytes.length).places r.mem, j < r.bytes.length)
      ∧ (((findAskFrm r.bytes.length).value r.mem = none
          ∧ ∀ k e, FirstAt [35, 35] r.bytes k → k + e + 1 < r.bytes.length →
            ¬ [36] <+: (r.bytes.drop k).drop e)
        ∨ ∃ k e, (findAskFrm r.bytes.length).value r.mem = some (k, e + 1)
          ∧ FirstAt [35, 35] r.bytes k ∧ k + e + 1 < r.bytes.length
          ∧ [36] <+: (r.bytes.drop k).drop e ∧ ∀ l < e, ¬ [36] <+: (r.bytes.drop k).drop l) := by
  obtain ⟨hplaces, hhdr⟩ := findPair_spec r (show ([35, 35] : List UInt8).length = 2 from rfl)
  rw [findAskFrm, Peek.value_bind, Peek.places_bind, List.forall_mem_append]
  rcases hhdr with ⟨hnone, hno⟩ | ⟨k, hsome, hfirst⟩
  · rw [findAskFrmHdr, hnone]
    exact ⟨⟨hplaces, fun j hj => (nomatch hj)⟩, Or.inl ⟨rfl, fun k e hk _ => absurd hk.1 (hno k)⟩⟩
  · have hlen := hfirst.1.length_le
    rw [List.length_drop] at hlen
    have htwo : ([35, 35] : List UInt8).length = 2 := rfl
    have hholds := r.holds_drop (k := k) (by omega)
    have hn : r.bytes.length - (k + 1) + [(36 : UInt8)].length ≤ (r.bytes.drop k).length + 1 := by
      rw [List.length_drop, List.length_singleton]
      omega
    have hendin : ∀ j ∈ (findAskFrmEnd k (r.bytes.length - (k + 1))).places r.mem,
        j < r.bytes.length := by
      intro j hj
      have := Peek.lt_of_mem_places_findSub hn hj
      rw [List.length_drop] at this
      omega
    rw [findAskFrmHdr, hsome, Peek.value_bind, Peek.places_bind, List.forall_mem_append]
    cases hend : (findAskFrmEnd k (r.bytes.length - (k + 1))).value r.mem with
    | none =>
      refine ⟨⟨hplaces, hendin, fun j hj => (nomatch hj)⟩, Or.inl ⟨rfl, fun k' e hk' he => ?_⟩⟩
      rw [hk'.unique hfirst] at he ⊢
      exact (Peek.value_findSub_eq_none hholds hn).mp hend e (by omega)
    | some p =>
      have hkp : k ≤ p := by
        rw [findAskFrmEnd, Peek.findSub_eq_scan, Peek.value_scan_eq_some] at hend
        exact hend.1
      obtain ⟨e, rfl⟩ := Nat.exists_eq_add_of_le hkp
      obtain ⟨he, hat, hbefore⟩ := (Peek.value_findSub_eq_some hholds hn).mp hend
      refine ⟨⟨hplaces, hendin, fun j hj => (nomatch hj)⟩,
        Or.inr ⟨k, e, ?_, hfirst, by omega, hat, hbefore⟩⟩
      rw [Peek.value_pure, Nat.add_sub_cancel_left]

theorem flyLedChkAsk_spec (r : Received) :
    (∀ j ∈ (flyLedChkAsk r.bytes.length).places r.mem, j < r.bytes.length)
      ∧ ((flyLedChkAsk r.bytes.length).value r.mem = 0 ↔ FlyFirst r.bytes) := by
  obtain ⟨hplaces, hfrm⟩ := findAskFrm_spec r
  have hsigns : ∀ l < 5, ¬ [36] <+: okAsk.drop l := by decide
  rw [flyLedChkAsk, Peek.value_bind, Peek.places_bind, List.forall_mem_append]
  rcases hfrm with ⟨hnone, hno⟩ | ⟨k, e, hsome, hfirst, he, hat, hbefore⟩
  · rw [hnone]
    refine ⟨⟨hplaces, fun j hj => (nomatch hj)⟩, iff_of_false (show ¬ (-1 : Int) = 0 by decide) ?_⟩
    rintro ⟨k, hfirst, ⟨rest, hok⟩, hk⟩
    refine hno k 5 hfirst hk ?_
    rw [← hok]
    exact ⟨rest, rfl⟩
  · have hholds := r.holds_drop (k := k) (by omega)
    have hn : min okAsk.length (e + 1) ≤ (r.bytes.drop k).length := by
      rw [List.length_drop]
      omega
    have hsix : okAsk.length = 6 := rfl
    rw [hsome, Peek.places_bind, Peek.places_pure, List.append_nil, Peek.value_bind, Peek.value_pure,
      Peek.value_contents hholds hn]
    refine ⟨⟨hplaces, fun j hj => ?_⟩, ?_⟩
    · have := Peek.mem_places_contents.mp hj
      omega
    have hif : ∀ xs ys : List UInt8, (if xs ≠ ys then (-1 : Int) else 0) = 0 ↔ xs = ys := by
      intro xs ys
      by_cases heq : xs = ys
      · simp [heq]
      · simp [heq]
    rw [hsix, hif, okAsk_iff hat hbefore]
    constructor
    · rintro ⟨rfl, hok⟩
      exact ⟨k, hfirst, hok, he⟩
    · rintro ⟨k', hfirst', hok, _⟩
      obtain rfl := hfirst'.unique hfirst
      obtain ⟨rest, hrest⟩ := hok
      have hfive : [36] <+: (r.bytes.drop k').drop 5 := ⟨rest, by rw [← hrest]; rfl⟩
      refine ⟨?_, rest, hrest⟩
      by_contra hne
      rcases Nat.lt_or_ge e 5 with hlt | hge
      · have hdrop : r.bytes.drop k' = okAsk ++ rest := hrest.symm
        rw [hdrop, List.drop_append_of_le_length (by rw [hsix]; omega)] at hat
        refine hsigns e hlt (List.prefix_of_prefix_length_le hat (List.prefix_append _ _) ?_)
        rw [List.length_drop, hsix, List.length_singleton]
        omega
      · exact hbefore 5 (by omega) hfive

theorem flyLedChkAsk_faithful (r : Received) :
    Faithful flyLedChkAsk r (okAsk <:+: r.bytes) ↔ (okAsk <:+: r.bytes → FlyFirst r.bytes) := by
  obtain ⟨hinside, hvalue⟩ := flyLedChkAsk_spec r
  rw [Faithful, and_iff_right hinside, hvalue]
  constructor
  · exact fun h => h.mpr
  · intro h
    refine ⟨fun ⟨k, _, hok, _⟩ => ?_, h⟩
    exact hok.isInfix.trans (List.drop_suffix k r.bytes).isInfix

/-! ## The voice of the fly card -/

/-- The length field of a header at `k`. -/
def voiceLen (bytes : List UInt8) (k : Nat) : Nat :=
  256 * ((bytes[k + 2]?).getD 0).toNat + ((bytes[k + 3]?).getD 0).toNat

/-- The check byte is where the length says, and it is the sum of the bytes behind the first. -/
def VoiceCheck (bytes : List UInt8) (k : Nat) : Prop :=
  bytes[k + 1 + voiceLen bytes k]?
    = some (((bytes.drop (k + 1)).take (voiceLen bytes k)).foldl (· ^^^ ·) 0)

/-- A complete answer: the length is over the fields of a header, the data and the check byte. -/
def VoiceFrame (bytes : List UInt8) (k : Nat) : Prop :=
  [0xFE, 0x99] <+: bytes.drop k ∧ 5 ≤ voiceLen bytes k ∧ VoiceCheck bytes k

/-- What `voice_find_ask_frm` looks at behind a header was received. -/
def VoiceReadable (bytes : List UInt8) (k : Nat) : Prop :=
  k + 4 ≤ bytes.length ∧ k + 1 + voiceLen bytes k < bytes.length

/-- `voice_find_ask_frm` from where it has found a header. -/
theorem voiceFindAskFrm_some
    (h : (voiceFindAskHdr r.bytes.length).value r.mem = some k) :
    ((voiceFindAskFrm r.bytes.length).places r.mem = (voiceFindAskHdr r.bytes.length).places r.mem
        ++ ([k + 2, k + 3]
          ++ (List.range' (k + 1) (256 * (r.mem (k + 2)).toNat + (r.mem (k + 3)).toNat)
            ++ [k + 1 + (256 * (r.mem (k + 2)).toNat + (r.mem (k + 3)).toNat)])))
      ∧ (voiceFindAskFrm r.bytes.length).value r.mem =
        if (List.range' (k + 1) (256 * (r.mem (k + 2)).toNat + (r.mem (k + 3)).toNat)).foldl
            (fun c i => c ^^^ r.mem i) 0
          = r.mem (k + 1 + (256 * (r.mem (k + 2)).toNat + (r.mem (k + 3)).toNat))
        then some k else none := by
  constructor
  · simp [voiceFindAskFrm, h, getVoice485FrmCs]
  · simp [voiceFindAskFrm, h, getVoice485FrmCs]

theorem voiceLen_eq (h : k + 4 ≤ r.bytes.length) :
    256 * (r.mem (k + 2)).toNat + (r.mem (k + 3)).toNat = voiceLen r.bytes k := by
  rw [voiceLen, r.getElem? (by omega), r.getElem? (by omega)]
  rfl

theorem voiceFindAskFrm_inside (h : (voiceFindAskHdr r.bytes.length).value r.mem = some k)
    (hplaces : ∀ j ∈ (voiceFindAskHdr r.bytes.length).places r.mem, j < r.bytes.length) :
    (∀ j ∈ (voiceFindAskFrm r.bytes.length).places r.mem, j < r.bytes.length)
      ↔ VoiceReadable r.bytes k := by
  rw [(voiceFindAskFrm_some h).1, List.forall_mem_append, and_iff_right hplaces]
  constructor
  · intro hall
    have hthree := hall (k + 3) (by simp)
    have hlast := hall (k + 1 + (256 * (r.mem (k + 2)).toNat + (r.mem (k + 3)).toNat)) (by simp)
    rw [voiceLen_eq (by omega)] at hlast
    exact ⟨by omega, hlast⟩
  · rintro ⟨hk, hlast⟩ j hj
    rw [voiceLen_eq hk] at hj
    simp only [List.mem_cons, List.mem_append, List.mem_range'_1, List.not_mem_nil, or_false] at hj
    omega

theorem voiceFindAskFrm_value (h : (voiceFindAskHdr r.bytes.length).value r.mem = some k)
    (hread : VoiceReadable r.bytes k) :
    ((voiceFindAskFrm r.bytes.length).value r.mem).isSome = true ↔ VoiceCheck r.bytes k := by
  obtain ⟨hk, hlast⟩ := hread
  have hholds := r.holds_drop (k := k + 1) (by omega)
  have hfold := hholds.foldl_range' (n := voiceLen r.bytes k) (by rw [List.length_drop]; omega)
    (· ^^^ ·) 0
  rw [(voiceFindAskFrm_some h).2, voiceLen_eq hk, hfold, VoiceCheck, r.getElem? hlast,
    Option.some.injEq]
  split
  · next heq => exact iff_of_true rfl heq.symm
  · next hne => exact iff_of_false (by simp) fun heq => hne heq.symm

/-- The bytes that `voice_chk_ask` treats as it should: what is looked at behind the first header was
received; if there is an answer its check byte is right; and if it is right there is an answer. -/
def VoiceClear (bytes : List UInt8) : Prop :=
  ∀ k, FirstAt [0xFE, 0x99] bytes k → VoiceReadable bytes k
    ∧ ((∃ k', VoiceFrame bytes k') → VoiceCheck bytes k)
    ∧ (VoiceCheck bytes k → 5 ≤ voiceLen bytes k ∨ ∃ k', VoiceFrame bytes k')

theorem voiceChkAsk_faithful (r : Received) :
    Faithful voiceChkAsk r (∃ k, VoiceFrame r.bytes k) ↔ VoiceClear r.bytes := by
  obtain ⟨hplaces, hhdr⟩ := findPair_spec r
    (show ([0xFE, 0x99] : List UInt8).length = 2 from rfl)
  have haccept : ∀ b : Bool, (if b = true then (0 : Int) else -1) = 0 ↔ b = true := by decide
  rw [Faithful, voiceChkAsk, Peek.places_bind, Peek.places_pure, List.append_nil, Peek.value_bind,
    Peek.value_pure, haccept]
  rcases hhdr with ⟨hnone, hno⟩ | ⟨k, hsome, hfirst⟩
  · have hfrm : (voiceFindAskFrm r.bytes.length).value r.mem = none
        ∧ (voiceFindAskFrm r.bytes.length).places r.mem
          = (voiceFindAskHdr r.bytes.length).places r.mem := by
      rw [voiceFindAskFrm, Peek.value_bind, Peek.places_bind, voiceFindAskHdr, hnone]
      exact ⟨rfl, List.append_nil _⟩
    rw [hfrm.1, hfrm.2]
    refine iff_of_true ⟨hplaces, iff_of_false (by simp) fun ⟨k, hk⟩ => hno k hk.1⟩ ?_
    exact fun k hk => absurd hk.1 (hno k)
  · rw [voiceFindAskFrm_inside hsome hplaces]
    constructor
    · rintro ⟨hread, hiff⟩ k' hk'
      obtain rfl := hk'.unique hfirst
      rw [voiceFindAskFrm_value hsome hread] at hiff
      exact ⟨hread, hiff.mpr, fun hcheck => Or.inr (hiff.mp hcheck)⟩
    · intro hclear
      obtain ⟨hread, hcheck, hlong⟩ := hclear k hfirst
      refine ⟨hread, ?_⟩
      rw [voiceFindAskFrm_value hsome hread]
      refine ⟨fun h => ?_, hcheck⟩
      rcases hlong h with hfive | hframe
      · exact ⟨k, hfirst.1, hfive, h⟩
      · exact hframe

/-- The three parsers look at received bytes only and recognise an answer wherever it lies, if and only
if: for the A4 card the bytes are clear; an answer of the fly card's LED begins at the first two signs
and does not end with the last byte; and the bytes are clear for its voice. -/
theorem led_answers_recognised (r : Received) (opt : Nat) :
    (Faithful (parseAskFrm opt) r (∃ k, AskFrame opt r.bytes k) ↔ AskClear opt r.bytes)
      ∧ (Faithful flyLedChkAsk r (okAsk <:+: r.bytes) ↔ (okAsk <:+: r.bytes → FlyFirst r.bytes))
      ∧ (Faithful voiceChkAsk r (∃ k, VoiceFrame r.bytes k) ↔ VoiceClear r.bytes) :=
  ⟨parseAskFrm_faithful r opt, flyLedChkAsk_faithful r, voiceChkAsk_faithful r⟩

/-- The answer alone is not recognised: it ends with the last byte. -/
theorem not_led_answers_recognised :
    ¬ Faithful flyLedChkAsk ⟨okAsk, List.cons_ne_nil _ _, fun _ => 0⟩ (okAsk <:+: okAsk) := by
  rintro ⟨_, haccept⟩
  have hvalue : (flyLedChkAsk 6).value (Received.mem ⟨okAsk, List.cons_ne_nil _ _, fun _ => 0⟩) = -1 := by
    decide
  have hzero := haccept.mpr List.infix_rfl
  rw [show okAsk.length = 6 from rfl, hvalue] at hzero
  cases hzero

end VdCamera.Dev
