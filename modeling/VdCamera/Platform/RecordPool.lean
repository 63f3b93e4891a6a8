import VdCamera.Sys.Pool
import Mathlib.Data.Finset.Image

/-!
# The platforms and their records

`ve/platform/platform.c`. A record that arrives is kept in a block of a pool until every platform
that it was handed to has deleted it. A mask is the set of the platforms whose bits are set.
`asserts` says whether `ASSERT`, whose definition is not part of the sources, stops the program when
its argument is false.
-/

namespace VdCamera.Platform

open Sys

/-- `PFM_REC_POOL_ENTRY_NUM`. -/
def PFM_REC_POOL_ENTRY_NUM : Nat := 10

/-- `pfm_t`, and beside it what the platforms have been handed and not deleted: the platform and the
block of the record. -/
structure Pfm where
  ready : List Nat := []
  suspend : List Nat
  recPo : Pool := createPool PFM_REC_POOL_ENTRY_NUM
  readymask : Finset Nat := ∅
  mask : Nat → Finset Nat := fun _ => ∅
  poUsed : List Nat := []
  pending : Finset (Nat × Nat) := ∅

/-- `pfm_start`. -/
def pfmStart (id : Nat) (s : Pfm) : Int × Pfm :=
  if id ∈ s.suspend then
    (0, { s with
      suspend := s.suspend.erase id
      ready := s.ready ++ [id]
      readymask := insert id s.readymask })
  else (-1, s)

/-- `pfm_stop`. -/
def pfmStop (id : Nat) (s : Pfm) : Int × Pfm :=
  if id ∈ s.ready then
    (0, { s with
      ready := s.ready.erase id
      suspend := s.suspend ++ [id]
      readymask := s.readymask.erase id })
  else (-1, s)

/-- The platforms that a record is handed to as it arrives. -/
def Pfm.receivers (s : Pfm) : List Nat := s.ready.filter (· ∈ s.readymask)

/-- `pfm_record_recv`; what a platform's `rec_recv` returns is not looked at. -/
def pfmRecordRecv (s : Pfm) : Int × Pfm :=
  match getFromPool s.recPo with
  | none => (-1, s)
  | some (b, po) =>
    (0, { s with
      recPo := po
      mask := Function.update s.mask b s.readymask
      poUsed := s.poUsed ++ [b]
      pending := s.pending ∪ s.receivers.toFinset.image (·, b) })

/-- `0 == rec->mask`. The mask is an array within the record, so what is compared is its address. -/
def maskIsNull (_mask : Finset Nat) : Bool := false

/-- `pfm_record_del`; `none` when an assertion stops the program. -/
def pfmRecordDel (asserts : Bool) (id b : Nat) (s : Pfm) : Option (Int × Pfm) :=
  if asserts && decide (id ∈ s.mask b) then none
  else
    let mask := (s.mask b).erase id
    let s := { s with
      mask := Function.update s.mask b mask
      pending := s.pending.erase (id, b) }
    if maskIsNull mask then
      some (0, { s with poUsed := s.poUsed.erase b, recPo := putIntoPool s.recPo b })
    else some (0, s)

/-- A call of one of the functions. -/
inductive PfmCall where
  | start (id : Nat)
  | stop (id : Nat)
  | recordRecv
  | recordDel (id b : Nat)
  deriving DecidableEq, Repr

/-- What the call returns and leaves. -/
def pfmCall (asserts : Bool) (s : Pfm) : PfmCall → Option (Int × Pfm)
  | .start id => some (pfmStart id s)
  | .stop id => some (pfmStop id s)
  | .recordRecv => some (pfmRecordRecv s)
  | .recordDel id b => pfmRecordDel asserts id b s

/-- The state after the call. -/
def pfmStep (asserts : Bool) (s : Pfm) (i : PfmCall) : Option Pfm :=
  (pfmCall asserts s i).map Prod.snd

end VdCamera.Platform
