import VdCamera.H264.Proofs.PsRun
import VdCamera.H264.Proofs.StampInverse

/-!
# When the timestamp adjustment touches timestamps only

The adjustment stays in the buffer and with the timestamps that are there if and only if every header it
goes to has its timestamp in the buffer, and every PES header that gets another one announces what is
written.
-/

namespace VdCamera.H264

open Misc

variable {m : Mem} {bufLen start ts : Int} {rest : List (Header × Nat)} {k : Header} {p q j b : Nat}
  {s s' : PsState} {x : Header × Nat}

/-- The timestamp of the header is in the buffer. A PES header that gets another one has a PTS, and a DTS
as well unless the five bytes behind the PTS hold the new timestamp already. -/
def Announced (m : Mem) (bufLen : Int) (x : Header × Nat) (ts : Int) : Prop :=
  ((x.2 + x.1.off + 5 : Nat) : Int) ≤ bufLen ∧
    (x.1 = .PES → ts ≠ stampAt m x.1 x.2 → ((x.2 + 19 : Nat) : Int) ≤ bufLen ∧ HasPts m x.2 ∧
      (HasDts m x.2 ∨ HoldsStamp m (x.2 + 14) 5 ts))

/-- Other PES start codes are ten bytes away or more. -/
def Lone (m : Mem) (bufLen : Int) (p : Nat) : Prop :=
  ∀ q, strAt m q strPESHeader = true → ((q + 4 : Nat) : Int) ≤ bufLen → q + 10 ≤ p ∨ q = p ∨ p + 10 ≤ q

/-- Around a PES header that stands alone a bit encodes a timestamp of this header or none. -/
theorem Encodes.own (h : Encodes m bufLen j b) (hcode : strAt m p strPESHeader = true)
    (hclear : Clear m bufLen (.PES, p) ts) (hlone : Lone m bufLen p)
    (hpacks : ∀ q, strAt m q strPackHeader = true → ((q + 4 : Nat) : Int) ≤ bufLen → p < q → p + 6 ≤ q)
    (hlow : p + 9 ≤ j) (hhigh : j < p + 19) :
    (j < p + 14 ∧ HasPts m p) ∨ (p + 14 ≤ j ∧ HasDts m p) := by
  have hout : ∀ k q, strAt m q (Header.code k) = true → ((q + 4 : Nat) : Int) ≤ bufLen →
      q < p + 6 ∨ p + 19 ≤ q := by
    intro k q hq hin
    by_contra hover
    have hfalse := (hclear k q (by simp only [Header.off]; omega)
      (by simp only [Header.off, Header.width]; omega) hin).1
    rw [hq] at hfalse
    cases hfalse
  cases h with
  | scr q hq hin hbit =>
    obtain ⟨i, hi, rfl, -⟩ := hbit
    have hside := hout .pack q hq (by omega)
    have hpack := hpacks q hq (by omega)
    have hq : strAt m q (Header.code .pack) = true := hq
    have hcode : strAt m p (Header.code .PES) = true := hcode
    have hne : q ≠ p := by
      rintro rfl
      cases code_kind hq hcode
    have hbefore : q < p → q + 4 ≤ p := code_apart hq hcode
    omega
  | pts q hq hflag hin hbit =>
    obtain ⟨i, hi, rfl, -⟩ := hbit
    have hside := hout .PES q hq (by omega)
    rcases hlone q hq (by omega) with hq' | rfl | hq'
    · omega
    · exact .inl ⟨by omega, hflag⟩
    · omega
  | dts q hq hflag hin hbit =>
    obtain ⟨i, hi, rfl, -⟩ := hbit
    have hside := hout .PES q hq (by omega)
    rcases hlone q hq (by omega) with hq' | rfl | hq'
    · omega
    · exact .inr ⟨by omega, hflag⟩
    · omega

/-- What is written of an announced header is a timestamp that is there. -/
theorem OnlyStamps.step (honly : OnlyStamps m bufLen s.buf) (h : Follows start bufLen m (x :: rest) s)
    (hvis : Visits start s x.1 x.2 s')
    (hann : Announced m bufLen x (s.clock.stamp start x.1 (stampAt m x.1 x.2))) :
    OnlyStamps m bufLen s'.buf := by
  obtain ⟨hkept, hset⟩ := hvis.buf
  rw [h.stamp] at hkept hset
  by_cases heq : s.clock.stamp start x.1 (stampAt m x.1 x.2) = stampAt m x.1 x.2
  · rw [hkept heq]
    exact honly
  · rw [hset heq]
    have hcode := h.code List.mem_cons_self
    have hsame := h.same x List.mem_cons_self
    obtain ⟨hin, hPES⟩ := hann
    obtain ⟨k, p⟩ := x
    intro j b hne
    by_cases hold : (rewrite s.buf k p (s.clock.stamp start k (stampAt m k p)) j).toNat.testBit b
        = (s.buf j).toNat.testBit b
    · rw [hold] at hne
      exact honly j b hne
    · rcases rewrite_bits hold with ⟨rfl, hbit⟩ | ⟨rfl, hbit | hbit⟩
      · exact .scr p hcode (by simp only [Header.off] at hin; omega) hbit
      · exact .pts p hcode (hPES rfl heq).2.1 (by simp only [Header.off] at hin; omega) hbit
      · obtain ⟨hin', -, hdts | hholds⟩ := hPES rfl heq
        · exact .dts p hcode hdts (by omega) hbit
        · -- these bytes hold what is written
          obtain ⟨i, hi, rfl, -⟩ := hbit
          refine absurd ?_ hold
          rw [rewrite_congr .PES p _ (hsame (p + 14 + i) (by omega)), rewrite_behind (by omega),
            (setTimestampPES_keeps_iff m (p + 14) 5 _).mpr hholds _ (by omega) (by omega),
            hsame (p + 14 + i) (by omega)]

/-! ## Reads and writes of a visit -/

/-- The loop has come to the last PES header and finds the timestamp that it has left there. -/
structure Settled (bufLen : Int) (rest : List (Header × Nat)) (s : PsState) : Prop where
  stands : Stands bufLen rest s
  none : firstOf .PES rest = none
  ne : rest ≠ []
  pos : s.posBuf = s.posPESTotal + 9
  stamp : stampAt s.buf .PES s.posPESTotal = 0 ∨ stampAt s.buf .PES s.posPESTotal = s.timestampOld

theorem Settled.not_rewrites (h : Settled bufLen rest s) : ¬ Rewrites start s .PES s.posPESTotal := by
  rintro ⟨hne, hu⟩
  rcases h.stamp with hzero | hold
  · exact hne hzero
  · have husable : tsUsable start s (stampAt s.buf .PES s.posPESTotal) = true := by
      rw [tsUsable_iff, hold]
      refine .inr ⟨Int.le_refl _, ?_⟩
      rw [PsState.clock, Int.sub_self]
      decide
    rw [husable] at hu
    cases hu

/-- It goes there again and again, and changes nothing. -/
theorem Settled.step (h : Settled bufLen rest s) (hs' : psStep bufLen start s = some s') :
    visit bufLen s = some (.PES, s.posPESTotal) ∧ s'.buf = s.buf ∧ s'.posPESTotal = s.posPESTotal ∧
      Settled bufLen rest s' := by
  have hpos := h.pos
  obtain ⟨s₁, hs₁, hchoose, hE, hsome, hfirst, -⟩ := h.stands.stuck h.none h.ne (by omega)
  obtain ⟨s'', hs'', hvis, hpack', hPES', hheader'⟩ := psStep_of_choose start hs₁ hchoose
  rw [hs', Option.some.injEq] at hs''
  subst hs''
  have hPES' : s'.posPESTotal = s.posPESTotal := hPES'.trans hE
  have hbuf : s'.buf = s.buf := hvis.keeps h.not_rewrites
  have hpos' : s'.posBuf = s.posPESTotal + 9 := hvis.posBuf
  have hq := (firstOf_some h.stands.sorted hfirst).1
  have hlt : s.posPESTotal < s₁.posPackTotal := by
    cases h.stands.place with
    | search _ hahead _ =>
      have hle := hahead _ hq
      omega
    | pending hlt _ hfirst' =>
      rw [hfirst, Option.some.injEq] at hfirst'
      omega
  refine ⟨hvis.visit hs', hbuf, hPES', ⟨⟨h.stands.sorted, ?_, ?_, ?_, ?_⟩, h.none, h.ne, by omega, ?_⟩⟩
  · intro x hx
    rw [hbuf]
    exact h.stands.code x hx
  · intro k q hq hin
    rw [hbuf]
    exact h.stands.first k q (by omega) hin
  · intro p hp
    exact absurd hp (firstOf_none h.none p)
  · exact .pending (by omega) (by rwa [hheader']) (by rwa [hpack'])
  · rw [hbuf, hPES']
    by_cases hzero : stampAt s.buf .PES s.posPESTotal = 0
    · exact .inl hzero
    · exact .inr (hvis.uses hzero h.not_rewrites).1.symm

/-- The last PES header has been gone to. -/
theorem Follows.settled (h : Follows start bufLen m (x :: rest) s)
    (hPES : firstOf .PES (x :: rest) = some p) (hnone : firstOf .PES rest = none) (hne : rest ≠ [])
    (hvis : Visits start s x.1 x.2 s') (hp : s'.posPESTotal = p) (hnext : Follows start bufLen m rest s')
    (hfits : s.clock.stamp start x.1 (stampAt m x.1 x.2) ≠ stampAt m x.1 x.2 →
      0 ≤ s.clock.stamp start x.1 (stampAt m x.1 x.2) ∧
        s.clock.stamp start x.1 (stampAt m x.1 x.2) < 2 ^ 33) :
    x = (.PES, s'.posPESTotal) ∧ Settled bufLen rest s' := by
  obtain ⟨k, q⟩ := x
  cases k with
  | pack =>
    rw [firstOf_cons_ne (by decide : Header.pack ≠ .PES), hnone] at hPES
    cases hPES
  | PES =>
    rw [firstOf_cons_self, Option.some.injEq] at hPES
    subst hPES
    refine ⟨by rw [hp], ⟨hnext.stands, hnone, hne, by rw [hp, hvis.posBuf]; rfl, ?_⟩⟩
    obtain ⟨hkept, hset⟩ := hvis.buf
    have hclock := congrArg Clock.old hvis.clock
    rw [h.stamp] at hkept hset hclock
    rw [hp]
    by_cases heq : s.clock.stamp start .PES (stampAt m .PES q) = stampAt m .PES q
    · rw [hkept heq, h.stamp]
      by_cases hzero : stampAt m .PES q = 0
      · exact .inl hzero
      · right
        show stampAt m .PES q = s'.clock.old
        rw [hclock, Clock.tick, if_neg hzero, heq]
    · right
      have hzero : stampAt m .PES q ≠ 0 := by
        intro hzero
        rw [hzero] at heq
        exact heq Clock.stamp_zero
      show _ = s'.clock.old
      rw [hset heq, stampAt_rewrite _ _ _ (hfits heq).1 (hfits heq).2, hclock, Clock.tick, if_neg hzero]

/-! ## The run -/

/-- The bits that a header gets. -/
theorem Follows.writes (h : Follows start bufLen m (x :: rest) s) (hvis : Visits start s x.1 x.2 s')
    (hne : s.clock.stamp start x.1 (stampAt m x.1 x.2) ≠ stampAt m x.1 x.2) (hj : x.2 ≤ j) :
    s'.buf j = rewrite m x.1 x.2 (s.clock.stamp start x.1 (stampAt m x.1 x.2)) j := by
  have hset := hvis.buf.2
  rw [h.stamp] at hset
  rw [hset hne]
  exact rewrite_congr _ _ _ (h.same x List.mem_cons_self j hj)

end VdCamera.H264
