import VdCamera.H264.Proofs.PsRun

/-!
# When the timestamp adjustment ends

The loop goes back to a pack header that stands too close behind a PES header, and to the last PES
header while there are pack headers behind that. Otherwise every iteration moves forward.
-/

namespace VdCamera.H264

open Misc

variable {m : Mem} {bufLen start : Int} {hs rest : List (Header × Nat)} {q : Nat} {s : PsState}
  {x : Header × Nat}

/-- There is a PES header behind every pack header, and no pack header begins less than six bytes behind a
PES header. -/
structure Ordered (hs : List (Header × Nat)) : Prop where
  followed : ∀ q, (.pack, q) ∈ hs → ∃ p, (.PES, p) ∈ hs ∧ q < p
  apart : PacksApart hs

theorem Ordered.tail (h : Ordered (x :: rest)) (hsorted : (x :: rest).Pairwise fun x y => x.2 < y.2) :
    Ordered rest where
  followed := by
    intro q hq
    obtain ⟨p, hp, hlt⟩ := h.followed q (List.mem_cons_of_mem _ hq)
    have hxq := (List.pairwise_cons.mp hsorted).1 _ hq
    rcases List.mem_cons.mp hp with heq | hp
    · have hxp : x.2 = p := congrArg Prod.snd heq.symm
      exact absurd (hxp ▸ hxq : p < q) (Nat.lt_asymm hlt)
    · exact ⟨p, hp, hlt⟩
  apart := h.apart.tail

theorem MovesForward.next {s' : PsState} (h : MovesForward bufLen start s)
    (hs' : psStep bufLen start s = some s') : MovesForward bufLen start s' := fun t ht =>
  h t (Relation.ReflTransGen.head hs' ht)

end VdCamera.H264
