import Mathlib.Algebra.Order.Ring.Int
import Mathlib.Tactic.Common
import VdCamera.Sys.ListHead

/-!
# Pools of blocks

`src/sys/pool.c`. A block is its number in the buffer the pool was created over.
-/

namespace VdCamera.Sys

open Misc Misc.Links

/-- `pool_t`; the counters agree with the list of free blocks. -/
structure Pool where
  free : List Nat
  nrFree : Int
  nrUsed : Int
  nrTotal : Int
  nrFree_eq : nrFree = free.length
  nrTotal_eq : nrUsed + nrFree = nrTotal
  deriving DecidableEq, Repr

/-- `create_pool`. -/
def createPool (nr : Nat) : Pool where
  free := List.range nr
  nrFree := nr
  nrUsed := 0
  nrTotal := nr
  nrFree_eq := by rw [List.length_range]
  nrTotal_eq := zero_add _

/-- `get_from_pool`. -/
def getFromPool (po : Pool) : Option (Nat × Pool) :=
  match h : po.free with
  | [] => none
  | b :: free => some (b, {
      free
      nrFree := po.nrFree - 1
      nrUsed := po.nrUsed + 1
      nrTotal := po.nrTotal
      nrFree_eq := by
        have hfree := po.nrFree_eq
        rw [h, List.length_cons] at hfree
        omega
      nrTotal_eq := by
        have htotal := po.nrTotal_eq
        omega })

/-- `put_into_pool`. -/
def putIntoPool (po : Pool) (b : Nat) : Pool where
  free := po.free ++ [b]
  nrUsed := po.nrUsed - 1
  nrFree := po.nrFree + 1
  nrTotal := po.nrTotal
  nrFree_eq := by
    have hfree := po.nrFree_eq
    rw [List.length_append, List.length_singleton]
    omega
  nrTotal_eq := by
    have htotal := po.nrTotal_eq
    omega

variable {po po' : Pool} {b : Nat}

theorem getFromPool_eq_none : getFromPool po = none ↔ po.free = [] := by
  unfold getFromPool
  split <;> simp_all

theorem getFromPool_some (h : getFromPool po = some (b, po')) :
    po.free = b :: po'.free ∧ po'.nrUsed = po.nrUsed + 1 ∧ po'.nrTotal = po.nrTotal := by
  unfold getFromPool at h
  split at h
  · cases h
  · cases h
    exact ⟨by assumption, rfl, rfl⟩

/-- What is not in use is free. -/
theorem Pool.length_free (po : Pool) : (po.free.length : Int) = po.nrTotal - po.nrUsed := by
  have hfree := po.nrFree_eq
  have htotal := po.nrTotal_eq
  omega

/-! ## Pools in the memory of their blocks

`src/sys/pool.c` over `include/list.h`: the list of free blocks runs through the links of the blocks,
in the memory in which the users of the pool keep their own lists.
-/

variable {α : Type} [DecidableEq α] {nr : Nat}

/-- Where the pool's list head and the link of each block are (`buf + i * sz + offset`). -/
structure PoolLayout (α : Type) (nr : Nat) where
  free : α
  block : Nat → α
  block_inj : ∀ i < nr, ∀ j < nr, block i = block j → i = j
  block_ne_free : ∀ i < nr, block i ≠ free

/-- `pool_t` and the memory. -/
structure LinkPool (α : Type) where
  nrFree : Int
  nrUsed : Int
  nrTotal : Int
  links : Links α

/-- The loop of `create_pool`. -/
def addBlocks (free : α) (block : Nat → α) : List Nat → Links α → Option (Links α)
  | [], m => some m
  | i :: is, m => do addBlocks free block is (← listAddTail (block i) free m)

variable (lay : PoolLayout α nr)

/-- `create_pool`. -/
def createLinkPool (m : Links α) : Option (LinkPool α) := do
  let links ← addBlocks lay.free lay.block (List.range nr) (m.initHead lay.free)
  return { nrFree := nr, nrTotal := nr, nrUsed := 0, links }

/-- `get_from_pool`; a block is returned as the address of its link. -/
def getFromLinkPool (po : LinkPool α) : Option (Option α × LinkPool α) :=
  if listEmpty lay.free po.links then some (none, po)
  else do
    let link ← po.links.next lay.free
    let links ← listDel link po.links
    return (some link, { po with links, nrFree := po.nrFree - 1, nrUsed := po.nrUsed + 1 })

/-- `put_into_pool`. -/
def putIntoLinkPool (b : Nat) (po : LinkPool α) : Option (LinkPool α) := do
  let links ← listAddTail (lay.block b) lay.free po.links
  return { po with links, nrUsed := po.nrUsed - 1, nrFree := po.nrFree + 1 }

/-- A call of the pool, or a call by which a user changes lists of its own. -/
inductive PoolOp (α : Type) where
  | get
  | put (b : Nat)
  | list (op : ListOp α)
  deriving DecidableEq, Repr

/-- `op` on the memory of a pool. -/
def listInPool (op : ListOp α) (po : LinkPool α) : Option (LinkPool α) :=
  (op.run po.links).map fun links => { po with links }

/-- The pool, and what the calls of `get_from_pool` have returned. -/
def linkPoolStep (s : LinkPool α × List (Option α)) :
    PoolOp α → Option (LinkPool α × List (Option α))
  | .get => (getFromLinkPool lay s.1).map fun (link, po) => (po, s.2 ++ [link])
  | .put b => (putIntoLinkPool lay b s.1).map fun po => (po, s.2)
  | .list op => (listInPool op s.1).map fun po => (po, s.2)

end VdCamera.Sys
