import Mathlib.Data.Fintype.Basic
import VdCamera.Misc.LinkRing
import VdCamera.Misc.Run

/-!
# Lists with links in their entries

`include/list.h`. A `list_head` is its address `α`, in one memory of links with all others; a null
pointer, or one that was never set, is `none`, and a function that would follow one is `none`.
-/

namespace VdCamera.Sys

open Misc (Links)

variable {α : Type} [DecidableEq α]

/-- `__list_add`. -/
def listAddBetween (new prev next : α) (m : Links α) : Links α :=
  (((m.setPrev next (some new)).setNext new (some next)).setPrev new (some prev)).setNext prev
    (some new)

/-- `list_add`. -/
def listAdd (new head : α) (m : Links α) : Option (Links α) := do
  return listAddBetween new head (← m.next head) m

/-- `list_add_tail`. -/
def listAddTail (new head : α) (m : Links α) : Option (Links α) := do
  return listAddBetween new (← m.prev head) head m

/-- `__list_del`. -/
def listDelBetween (prev next : α) (m : Links α) : Links α :=
  (m.setPrev next (some prev)).setNext prev (some next)

/-- `list_del`. -/
def listDel (entry : α) (m : Links α) : Option (Links α) := do
  let m := listDelBetween (← m.prev entry) (← m.next entry) m
  return (m.setPrev entry none).setNext entry none

/-- `list_del_init`. -/
def listDelInit (entry : α) (m : Links α) : Option (Links α) := do
  let m := listDelBetween (← m.prev entry) (← m.next entry) m
  return m.initHead entry

/-- `list_empty`. -/
def listEmpty (head : α) (m : Links α) : Bool := m.next head = some head

/-- `list_is_singular`. -/
def listIsSingular (head : α) (m : Links α) : Bool :=
  !listEmpty head m && decide (m.next head = m.prev head)

/-- `list_splice`. -/
def listSplice (list head : α) (m : Links α) : Option (Links α) := do
  let first ← m.next list
  if first ≠ list then
    let last ← m.prev list
    let behind ← m.next head
    return (((m.setPrev first (some head)).setNext head (some first)).setNext last
      (some behind)).setPrev behind (some last)
  else return m

/-- `list_move`. -/
def listMove (list head : α) (m : Links α) : Option (Links α) := do
  listAdd list head (listDelBetween (← m.prev list) (← m.next list) m)

/-- `list_move_tail`. -/
def listMoveTail (list head : α) (m : Links α) : Option (Links α) := do
  listAddTail list head (listDelBetween (← m.prev list) (← m.next list) m)

/-- `list_is_last`. -/
def listIsLast (list head : α) (m : Links α) : Bool := m.next list = some head

/-- `__list_splice`. -/
def listSpliceBetween (list prev next : α) (m : Links α) : Option (Links α) := do
  let first ← m.next list
  let last ← m.prev list
  return (((m.setPrev first (some prev)).setNext prev (some first)).setNext last
    (some next)).setPrev next (some last)

/-- `list_splice_tail`. -/
def listSpliceTail (list head : α) (m : Links α) : Option (Links α) :=
  if listEmpty list m then some m
  else do listSpliceBetween list (← m.prev head) head m

/-- `list_splice_init`. -/
def listSpliceInit (list head : α) (m : Links α) : Option (Links α) :=
  if listEmpty list m then some m
  else do return (← listSpliceBetween list head (← m.next head) m).initHead list

/-- `list_splice_tail_init`. -/
def listSpliceTailInit (list head : α) (m : Links α) : Option (Links α) :=
  if listEmpty list m then some m
  else do return (← listSpliceBetween list (← m.prev head) head m).initHead list

/-- What `pos` is in the rounds of `list_for_each`. -/
def listForEach (head : α) (fuel : Nat) (m : Links α) : Option (List α) := do
  Links.walk m.next head fuel (← m.next head)

/-- What `pos` is in the rounds of `list_for_each_reverse`. -/
def listForEachReverse (head : α) (fuel : Nat) (m : Links α) : Option (List α) := do
  Links.walk m.prev head fuel (← m.prev head)

/-- The calls that write links. -/
inductive ListOp (α : Type) where
  | init (head : α)
  | add (new head : α)
  | addTail (new head : α)
  | del (entry : α)
  | delInit (entry : α)
  | move (list head : α)
  | moveTail (list head : α)
  | splice (list head : α)
  | spliceTail (list head : α)
  | spliceInit (list head : α)
  | spliceTailInit (list head : α)
  deriving DecidableEq, Repr

def ListOp.run (m : Links α) : ListOp α → Option (Links α)
  | .init head => some (m.initHead head)
  | .add new head => listAdd new head m
  | .addTail new head => listAddTail new head m
  | .del entry => listDel entry m
  | .delInit entry => listDelInit entry m
  | .move list head => listMove list head m
  | .moveTail list head => listMoveTail list head m
  | .splice list head => listSplice list head m
  | .spliceTail list head => listSpliceTail list head m
  | .spliceInit list head => listSpliceInit list head m
  | .spliceTailInit list head => listSpliceTailInit list head m

/-! ## What the lists are for -/

/-- The entries of every head that is set up. -/
abbrev ListHeads (α : Type) := α → Option (List α)

namespace ListHeads

def entries (ls : ListHeads α) (head : α) : List α := (ls head).getD []

/-- The node stands in a list. -/
def IsEntry (ls : ListHeads α) (a : α) : Prop := ∃ head, a ∈ ls.entries head

def put (ls : ListHeads α) (head : α) (xs : List α) : ListHeads α :=
  Function.update ls head (some xs)

def forget (ls : ListHeads α) (head : α) : ListHeads α := Function.update ls head none

/-- What a splice makes of the lists; without entries nothing happens. -/
def splice (ls : ListHeads α) (list head : α) (xs : List α) : ListHeads α :=
  if ls.entries list = [] then ls else (ls.forget list).put head xs

end ListHeads

/-- What a caller has to see to: a node that is set up or added stands in no list, and what is removed
or moved stands in one. -/
def ListOp.Rightful (ls : ListHeads α) : ListOp α → Prop
  | .init head => ¬ls.IsEntry head
  | .add new head | .addTail new head =>
    (ls head).isSome ∧ new ≠ head ∧ ¬ls.IsEntry new
  | .del entry | .delInit entry => ls.IsEntry entry
  | .move list head | .moveTail list head => ls.IsEntry list ∧ (ls head).isSome
  | .splice list head | .spliceTail list head | .spliceInit list head | .spliceTailInit list head =>
    (ls list).isSome ∧ (ls head).isSome ∧ list ≠ head

/-- What the call does to the lists. A node that is added is no head any more. -/
def ListOp.effect (ls : ListHeads α) : ListOp α → ListHeads α
  | .init head => ls.put head []
  | .add new head => (ls.forget new).put head (new :: ls.entries head)
  | .addTail new head => (ls.forget new).put head (ls.entries head ++ [new])
  | .del entry => Links.without ls entry
  | .delInit entry => ListHeads.put (Links.without ls entry) entry []
  | .move list head =>
    let ls : ListHeads α := Links.without ls list
    ls.put head (list :: ls.entries head)
  | .moveTail list head =>
    let ls : ListHeads α := Links.without ls list
    ls.put head (ls.entries head ++ [list])
  | .splice list head => ls.splice list head (ls.entries list ++ ls.entries head)
  | .spliceTail list head => ls.splice list head (ls.entries head ++ ls.entries list)
  | .spliceInit list head =>
    (ls.splice list head (ls.entries list ++ ls.entries head)).put list []
  | .spliceTailInit list head =>
    (ls.splice list head (ls.entries head ++ ls.entries list)).put list []

/-- The calls and loops that only read say of the memory what holds of the lists. -/
structure ReadsAs (m : Links α) (ls : ListHeads α) : Prop where
  forEach : ∀ {head xs fuel}, ls head = some xs → xs.length < fuel →
    listForEach head fuel m = some xs
  forEachReverse : ∀ {head xs fuel}, ls head = some xs → xs.length < fuel →
    listForEachReverse head fuel m = some xs.reverse
  empty : ∀ {head xs}, ls head = some xs → (listEmpty head m = true ↔ xs = [])
  singular : ∀ {head xs}, ls head = some xs → (listIsSingular head m = true ↔ xs.length = 1)
  last : ∀ {head xs a}, ls head = some xs → a ∈ xs →
    (listIsLast a head m = true ↔ xs.getLast? = some a)

section

variable [Fintype α] (ls : ListHeads α)

instance (a : α) : Decidable (ls.IsEntry a) :=
  inferInstanceAs (Decidable (∃ head, a ∈ ls.entries head))

instance : ∀ op : ListOp α, Decidable (op.Rightful ls)
  | .init head => inferInstanceAs (Decidable (¬ls.IsEntry head))
  | .add new head | .addTail new head =>
    inferInstanceAs (Decidable ((ls head).isSome ∧ new ≠ head ∧ ¬ls.IsEntry new))
  | .del entry | .delInit entry => inferInstanceAs (Decidable (ls.IsEntry entry))
  | .move list head | .moveTail list head =>
    inferInstanceAs (Decidable (ls.IsEntry list ∧ (ls head).isSome))
  | .splice list head | .spliceTail list head | .spliceInit list head | .spliceTailInit list head =>
    inferInstanceAs (Decidable ((ls list).isSome ∧ (ls head).isSome ∧ list ≠ head))

end

end VdCamera.Sys
