import VdCamera.H264.Proofs.StampCodec
import VdCamera.H264.PsStream

/-!
# The loop of the timestamp adjustment

An iteration goes to the nearer of the next two headers, but takes one of them from before: the pack
header that is still pending, or the last PES header when there is none ahead. A loop whose iterations
all move forward ends.
-/

namespace VdCamera.H264

open Misc

/-- The next header from the current position on, relative to it. -/
def headerAhead (bufLen : Int) (s : PsState) (str : List UInt8) : Option Nat :=
  findStrInBuf s.buf s.posBuf (bufLen - s.posBuf) str

/-- The last pack header found is behind the last PES header found, and is not searched again. -/
def Stale (s : PsState) : Prop := s.posPESTotal < s.posPackTotal

section Step

variable {bufLen ts : Int} {s s' s₁ : PsState}

theorem psPack_pos (ts : Int) (s : PsState) : (psPack ts s).posBuf = s.posBuf + 4 ∧
    (psPack ts s).posPackTotal = s.posPackTotal ∧ (psPack ts s).posPESTotal = s.posPESTotal := by
  unfold psPack
  dsimp only
  split
  · exact ⟨rfl, rfl, rfl⟩
  · split <;> exact ⟨rfl, rfl, rfl⟩

theorem psPES_pos (ts : Int) (s : PsState) : (psPES ts s).posBuf = s.posBuf + 9 ∧
    (psPES ts s).posPackTotal = s.posPackTotal ∧ (psPES ts s).posPESTotal = s.posPESTotal := by
  unfold psPES
  dsimp only
  split
  · exact ⟨rfl, rfl, rfl⟩
  · split <;> exact ⟨rfl, rfl, rfl⟩

/-- The positions after an iteration, from the state after the two searches. -/
theorem psStep_pos (h : psStep bufLen ts s = some s') :
    ∃ s₁, psFindPES bufLen (psFindPack bufLen s) = some s₁ ∧
      s'.posPackTotal = s₁.posPackTotal ∧ s'.posPESTotal = s₁.posPESTotal ∧
      s'.posBuf = if s₁.posPESTotal > s₁.posPackTotal ∧ s₁.posPackHeader ≠ none then
        s₁.posPackTotal + 4 else s₁.posPESTotal + 9 := by
  obtain ⟨s₁, hs₁, rfl⟩ := Option.map_eq_some_iff.1 h
  refine ⟨s₁, hs₁, ?_⟩
  unfold psChoose
  by_cases hc : s₁.posPESTotal > s₁.posPackTotal ∧ s₁.posPackHeader ≠ none
  · simp only [if_pos hc]
    obtain ⟨h1, h2, h3⟩ := psPack_pos ts { s₁ with posBuf := s₁.posPackTotal }
    exact ⟨h2, h3, h1⟩
  · simp only [if_neg hc]
    obtain ⟨h1, h2, h3⟩ := psPES_pos ts { s₁ with posBuf := s₁.posPESTotal }
    exact ⟨h2, h3, h1⟩

/-- The pack header search touches neither the buffer nor the current position; afterwards the
header is the stale one, one ahead, or none. -/
theorem psFindPack_cases (bufLen : Int) (s : PsState) :
    (psFindPack bufLen s).posPESTotal = s.posPESTotal ∧
    (∀ str, headerAhead bufLen (psFindPack bufLen s) str = headerAhead bufLen s str) ∧
    (psFindPack bufLen s).posBuf = s.posBuf ∧
    ((Stale s ∧ psFindPack bufLen s = s) ∨
      (¬ Stale s ∧ ∃ k, headerAhead bufLen s strPackHeader = some k ∧
        (psFindPack bufLen s).posPackHeader = some k ∧
        (psFindPack bufLen s).posPackTotal = s.posBuf + k) ∨
      (¬ Stale s ∧ headerAhead bufLen s strPackHeader = none ∧
        (psFindPack bufLen s).posPackHeader = none)) := by
  unfold psFindPack Stale
  by_cases hst : s.posPESTotal ≥ s.posPackTotal
  · simp only [if_pos hst]
    cases hf : findStrInBuf s.buf s.posBuf (bufLen - s.posBuf) strPackHeader with
    | none => exact ⟨rfl, fun _ => rfl, rfl, .inr (.inr ⟨Nat.not_lt.2 hst, hf, rfl⟩)⟩
    | some k => exact ⟨rfl, fun _ => rfl, rfl, .inr (.inl ⟨Nat.not_lt.2 hst, k, hf, rfl, rfl⟩)⟩
  · rw [if_neg hst]
    exact ⟨rfl, fun _ => rfl, rfl, .inl ⟨Nat.not_le.1 hst, rfl⟩⟩

theorem psFindPES_some (h : psFindPES bufLen s = some s₁) :
    s₁.posPackHeader = s.posPackHeader ∧ s₁.posPackTotal = s.posPackTotal ∧
    ((∃ e, headerAhead bufLen s strPESHeader = some e ∧ s₁.posPESTotal = s.posBuf + e) ∨
      (headerAhead bufLen s strPESHeader = none ∧ s.posPackHeader ≠ none ∧
        s₁.posPESTotal = s.posPESTotal)) := by
  unfold psFindPES at h
  unfold headerAhead
  cases hf : findStrInBuf s.buf s.posBuf (bufLen - s.posBuf) strPESHeader with
  | none =>
    simp only [hf] at h
    split at h
    · cases h
    · rename_i hne
      cases h
      exact ⟨rfl, rfl, .inr ⟨rfl, hne, rfl⟩⟩
  | some e =>
    simp only [hf] at h
    cases h
    exact ⟨rfl, rfl, .inl ⟨e, rfl, rfl⟩⟩

/-- The header positions stay inside the buffer. -/
def InBuf (bufLen : Int) (s : PsState) : Prop :=
  s.posPackTotal ≤ bufLen.toNat ∧ s.posPESTotal ≤ bufLen.toNat

theorem headerAhead_le {str : List UInt8} {k : Nat} (h : headerAhead bufLen s str = some k) :
    s.posBuf + k ≤ bufLen.toNat := by
  obtain ⟨_, hk, _⟩ := scanUp_some h
  omega

theorem InBuf.step (hi : InBuf bufLen s) (h : psStep bufLen ts s = some s') :
    InBuf bufLen s' ∧ s'.posBuf ≤ bufLen.toNat + 9 := by
  obtain ⟨s₁, hs₁, hK, hE, hpos⟩ := psStep_pos h
  obtain ⟨hE₀, hahead, hP, hpack⟩ := psFindPack_cases bufLen s
  obtain ⟨_, ht, hPES⟩ := psFindPES_some hs₁
  rw [hahead, hE₀, hP] at hPES
  obtain ⟨hiK, hiE⟩ := hi
  have hE₁ : s₁.posPESTotal ≤ bufLen.toNat := by
    rcases hPES with ⟨e, he, hE⟩ | ⟨_, _, hE⟩
    · rw [hE]
      exact headerAhead_le he
    · rwa [hE]
  have hK₁ : s₁.posPackTotal ≤ bufLen.toNat := by
    rw [ht]
    rcases hpack with ⟨_, hsame⟩ | ⟨_, k, hk, _, hk₂⟩ | ⟨_, hk, _⟩
    · rwa [hsame]
    · rw [hk₂]
      exact headerAhead_le hk
    · unfold psFindPack
      unfold headerAhead at hk
      split
      · rw [hk]
        exact hiK
      · exact hiK
  refine ⟨⟨by rwa [hK], by rwa [hE]⟩, ?_⟩
  rw [hpos]
  split <;> omega

end Step

/-- Every iteration of the call moves strictly forward or exits. -/
def MovesForward (bufLen ts : Int) (s : PsState) : Prop :=
  ∀ t, Reaches (psStep bufLen ts) s t → ∀ t', psStep bufLen ts t = some t' → t.posBuf < t'.posBuf

/-- A buffer given by its first bytes. -/
def memOf (bytes : List UInt8) : Mem := fun i => bytes.getD i 0

/-! ## What an iteration does

An iteration of `h264_ps_adjust_timestamp` goes to one header, reads five bytes there, and rewrites the
header or not. Every effect of an iteration is said in these terms.
-/

variable {bufLen start : Int} {s s' s₁ : PsState} {k : Header} {p j b : Nat} {ts : Int}

def Header.code : Header → List UInt8
  | .pack => strPackHeader
  | .PES => strPESHeader

/-- Where the timestamp begins. -/
def Header.off : Header → Nat
  | .pack => 4
  | .PES => 9

/-- The bytes that are rewritten: of a PES header, those of two timestamps. -/
def Header.width : Header → Nat
  | .pack => 5
  | .PES => 10

/-- The timestamp of the header at `p`. -/
def stampAt (buf : Mem) : Header → Nat → Int
  | .pack, p => h264GetTimestampPackheader buf (p + 4)
  | .PES, p => h264GetTimestampPESheader buf (p + 9)

/-- The header at `p` with another timestamp. -/
def rewrite (buf : Mem) : Header → Nat → Int → Mem
  | .pack, p, ts => h264ChangeTimestampPackheader buf (p + 4) ts
  | .PES, p, ts => h264ChangeTimestampPESheader buf (p + 9) ts

/-- The header that an iteration goes to. -/
def visit (bufLen : Int) (s : PsState) : Option (Header × Nat) :=
  (psFindPES bufLen (psFindPack bufLen s)).map fun s => ((psChoose s).1, (psChoose s).2.posBuf)

/-- The timestamp is neither zero nor used as it is. -/
def Rewrites (start : Int) (s : PsState) (k : Header) (p : Nat) : Prop :=
  stampAt s.buf k p ≠ 0 ∧ tsUsable start s (stampAt s.buf k p) = false

instance (start : Int) (s : PsState) (k : Header) (p : Nat) : Decidable (Rewrites start s k p) :=
  inferInstanceAs (Decidable (_ ∧ _))

/-- The timestamp that is set. -/
def stampSet (s : PsState) : Header → Int
  | .pack => s.timestampOld + intervalTimestamp
  | .PES => if s.flagTimestampOld = .pack then s.timestampOld else s.timestampOld + intervalTimestamp

theorem off_eq (k : Header) : k = .pack ∧ k.off = 4 ∨ k = .PES ∧ k.off = 9 := by
  cases k with
  | pack => exact .inl ⟨rfl, rfl⟩
  | PES => exact .inr ⟨rfl, rfl⟩

/-! ## The searches -/

/-- The searches move two positions only. -/
structure SameStamps (s s' : PsState) : Prop where
  buf : s'.buf = s.buf
  posBuf : s'.posBuf = s.posBuf
  timestampOld : s'.timestampOld = s.timestampOld
  flagFirstStamp : s'.flagFirstStamp = s.flagFirstStamp
  flagTimestampOld : s'.flagTimestampOld = s.flagTimestampOld

theorem sameStamps_psFindPack (bufLen : Int) (s : PsState) : SameStamps s (psFindPack bufLen s) := by
  unfold psFindPack
  split
  · split
    · exact ⟨rfl, rfl, rfl, rfl, rfl⟩
    · exact ⟨rfl, rfl, rfl, rfl, rfl⟩
  · exact ⟨rfl, rfl, rfl, rfl, rfl⟩

theorem sameStamps_psFindPES (h : psFindPES bufLen s = some s') : SameStamps s s' := by
  unfold psFindPES at h
  split at h
  · split at h
    · cases h
    · cases h
      exact ⟨rfl, rfl, rfl, rfl, rfl⟩
  · cases h
    exact ⟨rfl, rfl, rfl, rfl, rfl⟩

theorem sameStamps_search (h : psFindPES bufLen (psFindPack bufLen s) = some s₁) : SameStamps s s₁ := by
  have h1 := sameStamps_psFindPack bufLen s
  have h2 := sameStamps_psFindPES h
  exact ⟨h2.buf.trans h1.buf, h2.posBuf.trans h1.posBuf, h2.timestampOld.trans h1.timestampOld,
    h2.flagFirstStamp.trans h1.flagFirstStamp, h2.flagTimestampOld.trans h1.flagTimestampOld⟩

/-! ## The iteration -/

/-- What the branch of a header makes of the timestamps. -/
structure Visits (start : Int) (s : PsState) (k : Header) (p : Nat) (s' : PsState) : Prop where
  posBuf : s'.posBuf = p + k.off
  flagTimestampOld : s'.flagTimestampOld = k
  rewrites : Rewrites start s k p → s'.buf = rewrite s.buf k p (stampSet s k)
    ∧ s'.timestampOld = stampSet s k ∧ s'.flagFirstStamp = s.flagFirstStamp
  keeps : ¬ Rewrites start s k p → s'.buf = s.buf
  zero : stampAt s.buf k p = 0 → s'.timestampOld = s.timestampOld ∧ s'.flagFirstStamp = s.flagFirstStamp
  uses : stampAt s.buf k p ≠ 0 → ¬ Rewrites start s k p →
    s'.timestampOld = stampAt s.buf k p ∧ s'.flagFirstStamp = false

theorem visits_pack (start : Int) (s : PsState) (p : Nat) :
    Visits start s .pack p
      { psPack start { s with posBuf := p } with flagTimestampOld := .pack } := by
  by_cases hz : h264GetTimestampPackheader s.buf (p + 4) = 0
  · have hnot : ¬ Rewrites start s .pack p := fun h => h.1 hz
    have heq : psPack start { s with posBuf := p } = { s with posBuf := p + 4 } := by
      simp [psPack, hz]
    rw [heq]
    exact ⟨rfl, rfl, fun h => absurd h hnot, fun _ => rfl, fun _ => ⟨rfl, rfl⟩, fun h => absurd hz h⟩
  · cases hu : tsUsable start s (h264GetTimestampPackheader s.buf (p + 4)) with
    | true =>
      have hnot : ¬ Rewrites start s .pack p := fun h => by
        have := hu.symm.trans h.2
        cases this
      have heq : psPack start { s with posBuf := p } = { s with
          posBuf := p + 4
          flagFirstStamp := false
          timestampOld := h264GetTimestampPackheader s.buf (p + 4) } := by
        unfold psPack
        rw [if_neg hz]
        exact if_pos hu
      rw [heq]
      exact ⟨rfl, rfl, fun h => absurd h hnot, fun _ => rfl, fun h => absurd h hz,
        fun _ _ => ⟨rfl, rfl⟩⟩
    | false =>
      have hre : Rewrites start s .pack p := ⟨hz, hu⟩
      have heq : psPack start { s with posBuf := p } = { s with
          posBuf := p + 4
          buf := h264ChangeTimestampPackheader s.buf (p + 4) (s.timestampOld + intervalTimestamp)
          timestampOld := s.timestampOld + intervalTimestamp } := by
        unfold psPack
        rw [if_neg hz]
        exact if_neg (by rw [Bool.not_eq_true]; exact hu)
      rw [heq]
      exact ⟨rfl, rfl, fun _ => ⟨rfl, rfl, rfl⟩, fun h => absurd hre h, fun h => absurd h hz,
        fun _ h => absurd hre h⟩

theorem visits_PES (start : Int) (s : PsState) (p : Nat) :
    Visits start s .PES p
      { psPES start { s with posBuf := p } with flagTimestampOld := .PES } := by
  by_cases hz : h264GetTimestampPESheader s.buf (p + 9) = 0
  · have hnot : ¬ Rewrites start s .PES p := fun h => h.1 hz
    have heq : psPES start { s with posBuf := p } = { s with posBuf := p + 9 } := by
      simp [psPES, hz]
    rw [heq]
    exact ⟨rfl, rfl, fun h => absurd h hnot, fun _ => rfl, fun _ => ⟨rfl, rfl⟩, fun h => absurd hz h⟩
  · cases hu : tsUsable start s (h264GetTimestampPESheader s.buf (p + 9)) with
    | true =>
      have hnot : ¬ Rewrites start s .PES p := fun h => by
        have := hu.symm.trans h.2
        cases this
      have heq : psPES start { s with posBuf := p } = { s with
          posBuf := p + 9
          flagFirstStamp := false
          timestampOld := h264GetTimestampPESheader s.buf (p + 9) } := by
        unfold psPES
        rw [if_neg hz]
        exact if_pos hu
      rw [heq]
      exact ⟨rfl, rfl, fun h => absurd h hnot, fun _ => rfl, fun h => absurd h hz,
        fun _ _ => ⟨rfl, rfl⟩⟩
    | false =>
      have hre : Rewrites start s .PES p := ⟨hz, hu⟩
      have heq : psPES start { s with posBuf := p } = { s with
          posBuf := p + 9
          buf := h264ChangeTimestampPESheader s.buf (p + 9) (stampSet s .PES)
          timestampOld := stampSet s .PES } := by
        unfold psPES
        rw [if_neg hz]
        exact if_neg (by rw [Bool.not_eq_true]; exact hu)
      rw [heq]
      exact ⟨rfl, rfl, fun _ => ⟨rfl, rfl, rfl⟩, fun h => absurd hre h, fun h => absurd h hz,
        fun _ h => absurd hre h⟩

theorem Visits.congr {s₂ : PsState} (hsame : SameStamps s s₁) (h : Visits start s₁ k p s₂) :
    Visits start s k p s₂ := by
  have hre : Rewrites start s₁ k p ↔ Rewrites start s k p := by
    unfold Rewrites tsUsable
    rw [hsame.buf, hsame.timestampOld, hsame.flagFirstStamp]
  have hset : stampSet s₁ k = stampSet s k := by
    unfold stampSet
    rw [hsame.timestampOld, hsame.flagTimestampOld]
  obtain ⟨h1, h2, h3, h4, h5, h6⟩ := h
  rw [hre, hset, hsame.buf, hsame.flagFirstStamp] at h3
  rw [hre, hsame.buf] at h4
  rw [hsame.buf, hsame.timestampOld, hsame.flagFirstStamp] at h5
  rw [hre, hsame.buf] at h6
  exact ⟨h1, h2, h3, h4, h5, h6⟩

/-- An iteration visits one header. -/
theorem psStep_visits (h : psStep bufLen start s = some s') :
    ∃ k p, visit bufLen s = some (k, p) ∧ Visits start s k p s' := by
  obtain ⟨s₁, hs₁, rfl⟩ := Option.map_eq_some_iff.mp h
  have hsame := sameStamps_search hs₁
  refine ⟨_, _, Option.map_eq_some_iff.mpr ⟨s₁, hs₁, rfl⟩, ?_⟩
  unfold psChoose
  by_cases hc : s₁.posPESTotal > s₁.posPackTotal ∧ s₁.posPackHeader ≠ none
  · rw [if_pos hc]
    exact (visits_pack start s₁ s₁.posPackTotal).congr hsame
  · rw [if_neg hc]
    exact (visits_PES start s₁ s₁.posPESTotal).congr hsame

theorem psStep_of_visit (start : Int) (h : visit bufLen s = some (k, p)) :
    ∃ s', psStep bufLen start s = some s' := by
  obtain ⟨s₁, hs₁, -⟩ := Option.map_eq_some_iff.mp h
  exact ⟨_, Option.map_eq_some_iff.mpr ⟨s₁, hs₁, rfl⟩⟩

end VdCamera.H264
