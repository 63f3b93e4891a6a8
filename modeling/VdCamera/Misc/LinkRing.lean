import Mathlib.Data.List.Basic
import Mathlib.Data.List.Chain
import Mathlib.Data.List.Nodup
import Mathlib.Logic.Function.Basic
import Mathlib.Tactic.Common

/-!
# Doubly linked rings

The nodes of a list carry the links; the list's head is a node of the ring. A pointer that is not set
is `none`, and an operation is `none` where it would follow one.
-/

namespace VdCamera.Misc

/-- What the nodes in memory point to. -/
structure Links (α : Type*) where
  next : α → Option α
  prev : α → Option α

namespace Links

variable {α : Type*} [DecidableEq α]

def setNext (m : Links α) (a : α) (b : Option α) : Links α :=
  { m with next := Function.update m.next a b }

def setPrev (m : Links α) (a : α) (b : Option α) : Links α :=
  { m with prev := Function.update m.prev a b }

/-- The head of an empty list. -/
def initHead (m : Links α) (head : α) : Links α :=
  (m.setNext head (some head)).setPrev head (some head)

def isEmpty (m : Links α) (head : α) : Bool := m.next head = some head

def addTail (m : Links α) (new head : α) : Option (Links α) := do
  let last ← m.prev head
  return (((m.setPrev head (some new)).setNext new (some head)).setPrev new (some last)).setNext
    last (some new)

def unlink (m : Links α) (entry : α) : Option (Links α) := do
  let prev ← m.prev entry
  let next ← m.next entry
  return (((m.setPrev next (some prev)).setNext prev (some next)).setNext entry none).setPrev
    entry none

/-- Every node from `pos` on is unlinked, the next one remembered before; and these nodes. -/
def unlinkFrom (head : α) : Nat → α → Links α → Option (Links α × List α)
  | 0, _, _ => none
  | fuel + 1, pos, m =>
    if pos = head then some (m, [])
    else do
      let next ← m.next pos
      let (m, nodes) ← unlinkFrom head fuel next (← m.unlink pos)
      return (m, pos :: nodes)

def unlinkAll (m : Links α) (head : α) (fuel : Nat) : Option (Links α × List α) := do
  unlinkFrom head fuel (← m.next head) m

/-! ## The links that an operation sets -/

variable {m m' : Links α} {a b c head new x : α} {o : Option α} {l xs ys : List α}

@[simp] theorem setNext_next_self : (m.setNext a o).next a = o := Function.update_self ..

@[simp] theorem setNext_next_of_ne (h : b ≠ a) : (m.setNext a o).next b = m.next b :=
  Function.update_of_ne h ..

@[simp] theorem setNext_prev : (m.setNext a o).prev = m.prev := rfl

@[simp] theorem setPrev_prev_self : (m.setPrev a o).prev a = o := Function.update_self ..

@[simp] theorem setPrev_prev_of_ne (h : b ≠ a) : (m.setPrev a o).prev b = m.prev b :=
  Function.update_of_ne h ..

@[simp] theorem setPrev_next : (m.setPrev a o).next = m.next := rfl

/-! ## Rings -/

omit [DecidableEq α]

/-- Two nodes point to each other. -/
def Linked (m : Links α) (a b : α) : Prop := m.next a = some b ∧ m.prev b = some a

/-- The nodes `xs` in order, and the head before and behind them. -/
structure Ring (m : Links α) (head : α) (xs : List α) : Prop where
  chain : (head :: (xs ++ [head])).IsChain m.Linked
  nodup : (head :: xs).Nodup

/-- A chain stays one where the links between its nodes are the same. -/
theorem isChain_congr (h : l.IsChain m.Linked) (hnext : ∀ a ∈ l.dropLast, m'.next a = m.next a)
    (hprev : ∀ a ∈ l.tail, m'.prev a = m.prev a) : l.IsChain m'.Linked := by
  induction h with
  | nil => exact .nil
  | singleton a => exact .singleton a
  | cons_cons hab hl ih =>
    rename_i a b l
    have hhere : m'.Linked a b :=
      ⟨(hnext a (by simp)).trans hab.1, (hprev b (by simp)).trans hab.2⟩
    refine .cons_cons hhere (ih (fun c hc => hnext c ?_) fun c hc => hprev c ?_)
    · rw [List.dropLast_cons_of_ne_nil (List.cons_ne_nil b l)]
      exact List.mem_cons_of_mem a hc
    · exact List.mem_cons_of_mem b hc

theorem next_eq_head? (h : (a :: (xs ++ [b])).IsChain m.Linked) :
    m.next a = (xs ++ [b]).head? := by
  cases xs with
  | nil => exact (List.isChain_cons_cons.mp h).1.1
  | cons x xs => exact (List.isChain_cons_cons.mp h).1.1

theorem Ring.head_not_mem (h : Ring m head xs) : head ∉ xs := (List.nodup_cons.mp h.nodup).1

theorem Ring.next_head (h : Ring m head (x :: xs)) : m.next head = some x :=
  (List.isChain_cons_cons.mp h.chain).1.1

/-- A head is the head of one ring at most. -/
theorem Ring.unique (h : Ring m head xs) (h' : Ring m head ys) : xs = ys := by
  suffices hchain : ∀ {a : α} {xs ys : List α}, (a :: (xs ++ [head])).IsChain m.Linked →
      (a :: (ys ++ [head])).IsChain m.Linked → head ∉ xs → head ∉ ys → xs = ys from
    hchain h.chain h'.chain h.head_not_mem h'.head_not_mem
  intro a xs
  induction xs generalizing a with
  | nil =>
    intro ys hnil hys _ hnot
    cases ys with
    | nil => rfl
    | cons y ys =>
      have heq : some head = some y := (next_eq_head? hnil).symm.trans (next_eq_head? hys)
      exact absurd (Option.some.inj heq ▸ List.mem_cons_self) hnot
  | cons x xs ih =>
    intro ys hxs hys hnot hnot'
    obtain ⟨hax, hxs⟩ := List.isChain_cons_cons.mp hxs
    cases ys with
    | nil =>
      have heq : some head = some x := (next_eq_head? hys).symm.trans hax.1
      exact absurd (Option.some.inj heq ▸ List.mem_cons_self) hnot
    | cons y ys =>
      obtain ⟨hay, hys⟩ := List.isChain_cons_cons.mp hys
      obtain rfl : x = y := Option.some.inj (hax.1.symm.trans hay.1)
      rw [ih hxs hys (fun hmem => hnot (List.mem_cons_of_mem x hmem))
        fun hmem => hnot' (List.mem_cons_of_mem x hmem)]

variable [DecidableEq α]

theorem ring_initHead : Ring (m.initHead head) head [] where
  chain := by
    refine List.isChain_cons_cons.mpr ⟨⟨?_, ?_⟩, .singleton head⟩
    · simp [initHead]
    · simp [initHead]
  nodup := by simp

theorem Ring.isEmpty_iff (h : Ring m head xs) : m.isEmpty head = true ↔ xs = [] := by
  cases xs with
  | nil =>
    have hnext : m.next head = some head := (List.isChain_cons_cons.mp h.chain).1.1
    simp [isEmpty, hnext]
  | cons x xs =>
    have hne : x ≠ head := fun heq => h.head_not_mem (heq ▸ List.mem_cons_self)
    simp [isEmpty, h.next_head, hne]

/-- A new node becomes the last one. -/
theorem Ring.addTail (h : Ring m head xs) (hnew : new ∉ head :: xs) :
    ∃ m', m.addTail new head = some m' ∧ Ring m' head (xs ++ [new]) := by
  obtain ⟨hchain, _, hends⟩ :=
    List.isChain_append.mp (show ((head :: xs) ++ [head]).IsChain m.Linked from h.chain)
  have hne : head :: xs ≠ [] := List.cons_ne_nil head xs
  have hgetLast := List.getLast?_eq_some_getLast hne
  generalize (head :: xs).getLast hne = last at hgetLast
  obtain ⟨_, hlast⟩ := hends last hgetLast head rfl
  have hmem : last ∈ head :: xs := List.mem_of_getLast? hgetLast
  have hnewLast : new ≠ last := fun heq => hnew (heq ▸ hmem)
  have hnewHead : new ≠ head := fun heq => hnew (heq ▸ List.mem_cons_self)
  have hdropLast : last ∉ (head :: xs).dropLast := by
    obtain ⟨init, hinit⟩ := List.getLast?_eq_some_iff.mp hgetLast
    have hnodup := h.nodup
    rw [hinit, List.nodup_append] at hnodup
    rw [hinit, List.dropLast_concat]
    exact fun hin => hnodup.2.2 last hin last (List.mem_singleton_self last) rfl
  refine ⟨_, by rw [Links.addTail, hlast]; rfl, ?_, ?_⟩
  · have hend : (head :: xs) ++ [new, head] = head :: ((xs ++ [new]) ++ [head]) := by simp
    rw [← hend, List.isChain_append]
    refine ⟨isChain_congr hchain (fun a ha => ?_) fun a ha => ?_, ?_, ?_⟩
    · have hin := (List.dropLast_sublist _).mem ha
      have halast : a ≠ last := fun heq => hdropLast (heq ▸ ha)
      have hanew : a ≠ new := fun heq => hnew (heq ▸ hin)
      simp [halast, hanew]
    · have hahead : a ≠ head := fun heq => h.head_not_mem (heq ▸ ha)
      have hanew : a ≠ new := fun heq => hnew (heq ▸ List.mem_cons_of_mem head ha)
      simp [hahead, hanew]
    · refine List.isChain_pair.mpr ⟨?_, ?_⟩
      · simp [hnewLast]
      · simp [hnewHead.symm]
    · intro x hx y hy
      obtain rfl : last = x := by simpa [hgetLast] using hx
      obtain rfl : new = y := by simpa using hy
      exact ⟨by simp, by simp⟩
  · rw [← List.cons_append, List.nodup_append]
    refine ⟨h.nodup, List.nodup_singleton new, fun a ha b hb => ?_⟩
    obtain rfl : b = new := List.mem_singleton.mp hb
    exact fun heq => hnew (heq ▸ ha)

/-- The first node is taken out. -/
theorem Ring.unlink_head (h : Ring m head (x :: xs)) :
    ∃ m', m.unlink x = some m' ∧ Ring m' head xs := by
  obtain ⟨⟨_, hprev⟩, hchain⟩ := List.isChain_cons_cons.mp h.chain
  change (x :: (xs ++ [head])).IsChain m.Linked at hchain
  obtain ⟨next, rest, hrest⟩ := List.exists_cons_of_ne_nil (show xs ++ [head] ≠ [] by simp)
  rw [hrest] at hchain
  obtain ⟨⟨hnext, _⟩, hrestChain⟩ := List.isChain_cons_cons.mp hchain
  obtain ⟨hhead, hnodup⟩ := List.nodup_cons.mp h.nodup
  obtain ⟨hx, hxs⟩ := List.nodup_cons.mp hnodup
  have hheadx : head ≠ x := fun heq => hhead (heq ▸ List.mem_cons_self)
  have hheadxs : head ∉ xs := fun hmem => hhead (List.mem_cons_of_mem x hmem)
  have hall : (next :: rest).Nodup := by
    rw [← hrest, List.nodup_append]
    refine ⟨hxs, List.nodup_singleton head, fun a ha b hb => ?_⟩
    obtain rfl : b = head := List.mem_singleton.mp hb
    exact fun heq => hheadxs (heq ▸ ha)
  have hxall : x ∉ next :: rest := by
    rw [← hrest, List.mem_append, not_or]
    exact ⟨hx, fun hmem => hheadx (List.mem_singleton.mp hmem).symm⟩
  have hnextx : next ≠ x := fun heq => hxall (heq ▸ List.mem_cons_self)
  refine ⟨_, by rw [Links.unlink, hprev, hnext]; rfl, ?_, List.nodup_cons.mpr ⟨hheadxs, hxs⟩⟩
  rw [hrest]
  refine List.isChain_cons_cons.mpr ⟨⟨?_, ?_⟩, isChain_congr hrestChain (fun a ha => ?_) fun a ha => ?_⟩
  · simp [hheadx]
  · simp [hnextx]
  · have hdrop : (next :: rest).dropLast = xs := by
      rw [← hrest, List.dropLast_concat]
    rw [hdrop] at ha
    have hax : a ≠ x := fun heq => hx (heq ▸ ha)
    have hahead : a ≠ head := fun heq => hheadxs (heq ▸ ha)
    simp [hax, hahead]
  · have hax : a ≠ x := fun heq => hxall (heq ▸ List.mem_cons_of_mem next ha)
    have hanext : a ≠ next := fun heq => (List.nodup_cons.mp hall).1 (heq ▸ ha)
    simp [hax, hanext]

end Links

/-! ## Linking two nodes

Whatever is put into a ring or taken out of it: its neighbours are made to point to each other or to
what stands between them now.
-/

namespace Links

section

variable {α : Type*} {m m' : Links α} {a b head head' : α} {xs ys zs l l' : List α}
variable {ls : α → Option (List α)}

/-- Two nodes are made to point to each other. -/
def link [DecidableEq α] (m : Links α) (a b : α) : Links α :=
  (m.setPrev b (some a)).setNext a (some b)

@[simp] theorem link_next [DecidableEq α] : (m.link a b).next = Function.update m.next a (some b) := rfl

@[simp] theorem link_prev [DecidableEq α] : (m.link a b).prev = Function.update m.prev b (some a) := rfl

theorem linked_link [DecidableEq α] : (m.link a b).Linked a b := ⟨by simp, by simp⟩

/-- The node before what follows `ys` in a ring. -/
def lastOf (head : α) (ys : List α) : α := ys.getLast?.getD head

/-- The node behind what `zs` follows in a ring. -/
def firstOf (head : α) (zs : List α) : α := zs.head?.getD head

@[simp] theorem lastOf_nil : lastOf head [] = head := rfl

@[simp] theorem lastOf_concat : lastOf head (ys ++ [a]) = a := by simp [lastOf]

@[simp] theorem firstOf_nil : firstOf head [] = head := rfl

@[simp] theorem firstOf_cons : firstOf head (a :: ys) = a := rfl

theorem lastOf_mem : lastOf head ys ∈ head :: ys := by
  cases ys using List.reverseRecOn with
  | nil => exact List.mem_cons_self
  | append_singleton ys y => simp

theorem firstOf_mem : firstOf head ys ∈ head :: ys := by
  cases ys with
  | nil => exact List.mem_cons_self
  | cons y ys => simp

theorem cons_eq_dropLast_lastOf : head :: ys = (head :: ys).dropLast ++ [lastOf head ys] := by
  cases ys using List.reverseRecOn with
  | nil => rfl
  | append_singleton ys y => rw [lastOf_concat, ← List.cons_append, List.dropLast_concat]

theorem concat_eq_firstOf_tail : zs ++ [head] = firstOf head zs :: (zs ++ [head]).tail := by
  cases zs with
  | nil => rfl
  | cons z zs => rfl

/-- The chain of a ring in three pieces: up to a part of the ring, the part with its neighbours, and
from the part on. -/
theorem isChain_parts : (head :: (ys ++ (l ++ zs) ++ [head])).IsChain m.Linked ↔
    (head :: ys).IsChain m.Linked ∧ (lastOf head ys :: (l ++ [firstOf head zs])).IsChain m.Linked ∧
      (zs ++ [head]).IsChain m.Linked := by
  have hsplit : head :: (ys ++ (l ++ zs) ++ [head])
      = (head :: ys).dropLast ++ lastOf head ys :: (l ++ (zs ++ [head])) := by
    calc head :: (ys ++ (l ++ zs) ++ [head])
      _ = (head :: ys) ++ (l ++ (zs ++ [head])) := by simp
      _ = (head :: ys).dropLast ++ [lastOf head ys] ++ (l ++ (zs ++ [head])) := by
        rw [← cons_eq_dropLast_lastOf]
      _ = (head :: ys).dropLast ++ lastOf head ys :: (l ++ (zs ++ [head])) := by simp
  rw [hsplit, List.isChain_split, ← cons_eq_dropLast_lastOf, concat_eq_firstOf_tail,
    ← List.cons_append, List.isChain_split, List.cons_append]

/-- A part of a ring gives way to other nodes; the links of what is neither in the part nor next to
it stay. -/
theorem Ring.replace (h : Ring m head (ys ++ (l ++ zs)))
    (hpart : (lastOf head ys :: (l' ++ [firstOf head zs])).IsChain m'.Linked)
    (hnext : ∀ a ∈ head :: (ys ++ zs), a ≠ lastOf head ys → m'.next a = m.next a)
    (hprev : ∀ a ∈ head :: (ys ++ zs), a ≠ firstOf head zs → m'.prev a = m.prev a)
    (hnodup : (head :: (ys ++ (l' ++ zs))).Nodup) : Ring m' head (ys ++ (l' ++ zs)) := by
  obtain ⟨hbefore, _, hbehind⟩ := isChain_parts.mp h.chain
  have hkeep : (head :: ys ++ zs).Nodup :=
    hnodup.sublist (((List.sublist_append_right l' zs).append_left ys).cons_cons head)
  obtain ⟨hys, hzs, hyz⟩ := List.nodup_append'.mp hkeep
  have hzsHead : (zs ++ [head]).Nodup :=
    hzs.append (List.nodup_singleton head)
      (List.disjoint_singleton.mpr fun hmem => hyz List.mem_cons_self hmem)
  refine ⟨isChain_parts.mpr ⟨?_, hpart, ?_⟩, hnodup⟩
  · refine isChain_congr hbefore (fun a ha => ?_) fun a ha => ?_
    · refine hnext a (List.mem_append_left zs ((List.dropLast_sublist _).mem ha)) ?_
      rintro rfl
      rw [cons_eq_dropLast_lastOf, List.nodup_append'] at hys
      exact hys.2.2 ha List.mem_cons_self
    · refine hprev a (List.mem_cons_of_mem head (List.mem_append_left zs ha)) ?_
      rintro rfl
      have hfirst : firstOf head zs ∈ head :: zs := firstOf_mem
      rcases List.mem_cons.mp hfirst with heq | hmem
      · exact (List.nodup_cons.mp hys).1 (heq ▸ ha)
      · exact hyz (List.mem_cons_of_mem head ha) hmem
  · refine isChain_congr hbehind (fun a ha => ?_) fun a ha => ?_
    · rw [List.dropLast_concat] at ha
      refine hnext a (List.mem_cons_of_mem head (List.mem_append_right ys ha)) ?_
      rintro rfl
      exact hyz lastOf_mem ha
    · have hmem : a ∈ zs ++ [head] := List.mem_of_mem_tail ha
      refine hprev a ?_ ?_
      · rcases List.mem_append.mp hmem with hz | hz
        · exact List.mem_cons_of_mem head (List.mem_append_right ys hz)
        · exact List.mem_singleton.mp hz ▸ List.mem_cons_self
      · rintro rfl
        rw [concat_eq_firstOf_tail, List.nodup_cons] at hzsHead
        exact hzsHead.1 ha

/-- A ring stays one where the links of its nodes are the same. -/
theorem Ring.congr (h : Ring m head xs) (hnext : ∀ a ∈ head :: xs, m'.next a = m.next a)
    (hprev : ∀ a ∈ head :: xs, m'.prev a = m.prev a) : Ring m' head xs := by
  have hmem : ∀ a ∈ head :: (xs ++ [head]), a ∈ head :: xs := by
    intro a ha
    simpa [or_comm] using ha
  exact ⟨isChain_congr h.chain (fun a ha => hnext a (hmem a ((List.dropLast_sublist _).mem ha)))
    fun a ha => hprev a (hmem a (List.mem_of_mem_tail ha)), h.nodup⟩

/-- The neighbours of a node. -/
theorem Ring.neighbours (h : Ring m head (ys ++ a :: zs)) :
    m.prev a = some (lastOf head ys) ∧ m.next a = some (firstOf head zs) := by
  obtain ⟨_, hpart, _⟩ :=
    isChain_parts.mp (show (head :: (ys ++ ([a] ++ zs) ++ [head])).IsChain m.Linked from h.chain)
  obtain ⟨hfirst, hrest⟩ := List.isChain_cons_cons.mp hpart
  exact ⟨hfirst.2, (List.isChain_cons_cons.mp hrest).1.1⟩

/-- The neighbours of the head. -/
theorem Ring.ends (h : Ring m head xs) :
    m.next head = some (firstOf head xs) ∧ m.prev head = some (lastOf head xs) := by
  obtain ⟨_, hfirst, _⟩ :=
    isChain_parts.mp (show (head :: ([] ++ ([] ++ xs) ++ [head])).IsChain m.Linked from h.chain)
  have hchain : (head :: (xs ++ ([] ++ []) ++ [head])).IsChain m.Linked := by simpa using h.chain
  obtain ⟨_, hlast, _⟩ := isChain_parts.mp hchain
  exact ⟨(List.isChain_pair.mp hfirst).1, (List.isChain_pair.mp hlast).2⟩

/-! ## Several rings in one memory -/

/-- What the heads in use hold; a node is the head of a ring or in one ring at most. -/
structure Rings (m : Links α) (ls : α → Option (List α)) : Prop where
  ring : ∀ {head xs}, ls head = some xs → Ring m head xs
  apart : ∀ {head head' xs ys}, ls head = some xs → ls head' = some ys → head ≠ head' →
    (head :: xs).Disjoint (head' :: ys)

/-- Neither a head nor a node of a ring. -/
def Unused (ls : α → Option (List α)) (a : α) : Prop := ls a = none ∧ ∀ head, a ∉ (ls head).getD []

theorem Unused.not_mem (h : Unused ls a) (hhead : ls head = some xs) :
    a ∉ head :: xs := by
  rw [List.mem_cons, not_or]
  refine ⟨?_, fun hmem => h.2 head (by simpa [hhead] using hmem)⟩
  rintro rfl
  simp [h.1] at hhead

/-- The links of unused nodes do not matter. -/
theorem Rings.congr (h : Rings m ls) (hnext : ∀ a, ¬Unused ls a → m'.next a = m.next a)
    (hprev : ∀ a, ¬Unused ls a → m'.prev a = m.prev a) : Rings m' ls where
  ring hhead := (h.ring hhead).congr (fun a ha => hnext a fun hun => hun.not_mem hhead ha)
    fun a ha => hprev a fun hun => hun.not_mem hhead ha
  apart := h.apart

theorem Rings.eq_none_of_mem (h : Rings m ls) (hhead : ls head = some xs) (ha : a ∈ xs) :
    ls a = none := by
  cases hls : ls a with
  | none => rfl
  | some ws =>
    refine absurd (List.mem_cons_self : a ∈ a :: ws) (h.apart hhead hls ?_ ?_)
    · rintro rfl
      exact (h.ring hhead).head_not_mem ha
    · exact List.mem_cons_of_mem head ha

end

variable {α : Type*} [DecidableEq α] {m m' : Links α} {a head : α} {ys zs l l' : List α}
variable {ls : α → Option (List α)}

/-- A head is given up. -/
theorem Rings.forget (h : Rings m ls) (a : α) : Rings m (Function.update ls a none) := by
  have hsub : ∀ {head xs}, Function.update ls a none head = some xs → ls head = some xs := by
    intro head xs hhead
    by_cases heq : head = a
    · simp [heq] at hhead
    · simpa [heq] using hhead
  exact ⟨fun hhead => h.ring (hsub hhead), fun hhead hhead' => h.apart (hsub hhead) (hsub hhead')⟩

/-- A node that no ring has becomes the head of an empty one. -/
theorem Rings.initHead (h : Rings m ls) (hnew : ∀ head, a ∉ (ls head).getD []) :
    Rings (m.initHead a) (Function.update ls a (some [])) := by
  have hun : ∀ {head xs}, ls head = some xs → head ≠ a → a ∉ head :: xs := by
    intro head xs hhead hne hmem
    rcases List.mem_cons.mp hmem with heq | hmem
    · exact hne heq.symm
    · exact hnew head (by simpa [hhead] using hmem)
  refine ⟨fun {head xs} hhead => ?_, fun {head head' xs ys} hhead hhead' hne => ?_⟩
  · by_cases heq : head = a
    · subst heq
      obtain rfl : [] = xs := by simpa using hhead
      exact ring_initHead
    · have hhead : ls head = some xs := by simpa [heq] using hhead
      refine (h.ring hhead).congr (fun b hb => ?_) fun b hb => ?_
      · have hba : b ≠ a := fun e => hun hhead heq (e ▸ hb)
        simp [Links.initHead, hba]
      · have hba : b ≠ a := fun e => hun hhead heq (e ▸ hb)
        simp [Links.initHead, hba]
  · by_cases heq : head = a
    · subst heq
      obtain rfl : [] = xs := by simpa using hhead
      have hhead' : ls head' = some ys := by simpa [hne.symm] using hhead'
      simpa using hun hhead' hne.symm
    · have hhead : ls head = some xs := by simpa [heq] using hhead
      by_cases heq' : head' = a
      · subst heq'
        obtain rfl : [] = ys := by simpa using hhead'
        simpa using hun (by simpa [hne] using hhead) hne
      · exact h.apart hhead (by simpa [heq'] using hhead') hne

/-- A part of one ring gives way to unused nodes. -/
theorem Rings.replace (h : Rings m ls) (l l' : List α) (hhead : ls head = some (ys ++ (l ++ zs)))
    (hpart : (lastOf head ys :: (l' ++ [firstOf head zs])).IsChain m'.Linked)
    (hnodup : l'.Nodup) (hun : ∀ a ∈ l', Unused ls a)
    (hnext : ∀ a, a ∉ l → a ∉ l' → a ≠ lastOf head ys → m'.next a = m.next a)
    (hprev : ∀ a, a ∉ l → a ∉ l' → a ≠ firstOf head zs → m'.prev a = m.prev a) :
    Rings m' (Function.update ls head (some (ys ++ (l' ++ zs)))) := by
  have hring := h.ring hhead
  have hall : ∀ {a}, a ∈ head :: (ys ++ zs) → a ∉ l ∧ a ∉ l' := by
    intro a ha
    have hperm : (head :: (ys ++ (l ++ zs))).Perm (l ++ head :: (ys ++ zs)) := by
      refine .trans (.cons head ?_) List.perm_middle.symm
      exact List.perm_append_comm_assoc ys l zs
    have hdis := (List.nodup_append'.mp (hperm.nodup_iff.mp hring.nodup)).2.2
    refine ⟨fun hmem => hdis hmem ha, fun hmem => (hun a hmem).not_mem hhead ?_⟩
    exact hperm.symm.mem_iff.mp (List.mem_append_right l ha)
  have hnew : (head :: (ys ++ (l' ++ zs))).Nodup := by
    have hperm : (head :: (ys ++ (l' ++ zs))).Perm (l' ++ head :: (ys ++ zs)) := by
      refine .trans (.cons head ?_) List.perm_middle.symm
      exact List.perm_append_comm_assoc ys l' zs
    refine hperm.nodup_iff.mpr (hnodup.append ?_ fun a ha ha' => (hall ha').2 ha)
    exact hring.nodup.sublist (((List.sublist_append_right l zs).append_left ys).cons_cons head)
  have hmemLast : lastOf head ys ∈ head :: (ys ++ (l ++ zs)) :=
    List.mem_append_left (l ++ zs) lastOf_mem
  have hmemFirst : firstOf head zs ∈ head :: (ys ++ (l ++ zs)) :=
    List.cons_subset_cons head
      (fun a ha => List.mem_append_right ys (List.mem_append_right l ha)) firstOf_mem
  have hmine : ∀ {a}, a ∈ head :: (ys ++ (l' ++ zs)) → a ∈ head :: (ys ++ (l ++ zs)) ∨ a ∈ l' := by
    intro a ha
    simp only [List.mem_cons, List.mem_append] at ha ⊢
    tauto
  refine ⟨fun {head' xs} hhead' => ?_, fun {a b xs ws} ha hb hne => ?_⟩
  · by_cases heq : head' = head
    · subst heq
      obtain rfl : ys ++ (l' ++ zs) = xs := by simpa using hhead'
      exact hring.replace hpart (fun a ha => hnext a (hall ha).1 (hall ha).2)
        (fun a ha => hprev a (hall ha).1 (hall ha).2) hnew
    · have hhead' : ls head' = some xs := by simpa [heq] using hhead'
      have hout : ∀ {a}, a ∈ head' :: xs → a ∉ l ∧ a ∉ l' ∧ a ≠ lastOf head ys
          ∧ a ≠ firstOf head zs := by
        intro a ha
        have hdis := h.apart hhead' hhead heq ha
        refine ⟨fun hmem => hdis ?_, fun hmem => (hun a hmem).not_mem hhead' ha,
          fun e => hdis (e ▸ hmemLast), fun e => hdis (e ▸ hmemFirst)⟩
        exact List.mem_cons_of_mem head (List.mem_append_right ys (List.mem_append_left zs hmem))
      exact (h.ring hhead').congr (fun a ha => hnext a (hout ha).1 (hout ha).2.1 (hout ha).2.2.1)
        fun a ha => hprev a (hout ha).1 (hout ha).2.1 (hout ha).2.2.2
  · have hother : ∀ {b ws}, ls b = some ws → head ≠ b →
        (head :: (ys ++ (l' ++ zs))).Disjoint (b :: ws) := by
      intro b ws hb hne c hc hc'
      rcases hmine hc with hold | hmem
      · exact h.apart hhead hb hne hold hc'
      · exact (hun c hmem).not_mem hb hc'
    by_cases hah : a = head
    · subst hah
      obtain rfl : ys ++ (l' ++ zs) = xs := by simpa using ha
      exact hother (by simpa [hne.symm] using hb) hne
    · have ha : ls a = some xs := by simpa [hah] using ha
      by_cases hbh : b = head
      · subst hbh
        obtain rfl : ys ++ (l' ++ zs) = ws := by simpa using hb
        exact List.disjoint_symm (hother (by simpa [hah] using ha) (Ne.symm hah))
      · exact h.apart ha (by simpa [hbh] using hb) hne

/-- An unused node is put between two neighbours. -/
theorem Rings.insert (h : Rings m ls) (hhead : ls head = some (ys ++ zs)) (hun : Unused ls a) :
    Rings ((m.link a (firstOf head zs)).link (lastOf head ys) a)
      (Function.update ls head (some (ys ++ a :: zs))) := by
  have hout := hun.not_mem hhead
  have hlast : a ≠ lastOf head ys := by
    rintro rfl
    exact hout (List.mem_append_left zs lastOf_mem)
  have hfirst : a ≠ firstOf head zs := by
    rintro rfl
    exact hout (List.cons_subset_cons head (List.subset_append_right ys zs) firstOf_mem)
  refine h.replace [] [a] hhead ?_ (List.nodup_singleton a) ?_ ?_ ?_
  · refine List.isChain_cons_cons.mpr ⟨linked_link, List.isChain_pair.mpr ⟨?_, ?_⟩⟩
    · simp [hlast]
    · simp [hfirst.symm]
  · intro b hb
    exact List.mem_singleton.mp hb ▸ hun
  · intro b _ hb hne
    have hba : b ≠ a := fun e => hb (e ▸ List.mem_singleton_self a)
    simp [hba, hne]
  · intro b _ hb hne
    have hba : b ≠ a := fun e => hb (e ▸ List.mem_singleton_self a)
    simp [hba, hne]

/-- The lists without a node. -/
def without (ls : α → Option (List α)) (a : α) (head : α) : Option (List α) :=
  (ls head).map (·.erase a)

/-- The neighbours of a node are made to point to each other. -/
theorem Rings.unlink (h : Rings m ls) (hhead : ls head = some xs) (ha : a ∈ xs) :
    ∃ prev next, m.prev a = some prev ∧ m.next a = some next ∧
      Rings (m.link prev next) (without ls a) ∧ Unused (without ls a) a := by
  obtain ⟨ys, zs, rfl⟩ := List.append_of_mem ha
  have hring := h.ring hhead
  have hnodup := (List.nodup_cons.mp hring.nodup).2
  obtain ⟨hays, hazs⟩ : a ∉ ys ∧ a ∉ zs := by
    rw [List.nodup_middle, List.nodup_cons, List.mem_append, not_or] at hnodup
    exact hnodup.1
  have herase : (ys ++ a :: zs).erase a = ys ++ zs := by
    rw [List.erase_append_right _ hays, List.erase_cons_head]
  have hothers : ∀ {head' ws}, ls head' = some ws → head' ≠ head → a ∉ ws := by
    intro head' ws hhead' hne hmem
    exact h.apart hhead hhead' hne.symm (List.mem_cons_of_mem head ha)
      (List.mem_cons_of_mem head' hmem)
  have heq : without ls a = Function.update ls head (some (ys ++ zs)) := by
    funext head'
    by_cases hne : head' = head
    · subst hne
      rw [without, hhead, Option.map_some, herase, Function.update_self]
    · rw [without, Function.update_of_ne hne]
      cases hls : ls head' with
      | none => rfl
      | some ws => rw [Option.map_some, List.erase_of_not_mem (hothers hls hne)]
  obtain ⟨hprev, hnext⟩ := hring.neighbours
  refine ⟨_, _, hprev, hnext, ?_, ?_, fun head' => ?_⟩
  · rw [heq]
    refine h.replace [a] [] hhead (List.isChain_pair.mpr linked_link) List.nodup_nil
      (fun b hb => absurd hb List.not_mem_nil) ?_ ?_
    · intro b _ _ hne
      simp [hne]
    · intro b _ _ hne
      simp [hne]
  · rw [without, h.eq_none_of_mem hhead ha, Option.map_none]
  · by_cases hne : head' = head
    · subst hne
      rw [heq, Function.update_self, Option.getD_some, List.mem_append, not_or]
      exact ⟨hays, hazs⟩
    · rw [heq, Function.update_of_ne hne]
      cases hls : ls head' with
      | none => exact List.not_mem_nil
      | some ws => exact hothers hls hne

/-- The nodes of one ring are put between two neighbours of another; the head of the first one is
given up. -/
theorem Rings.splice {src : α} (h : Rings m ls) (hhead : ls head = some (ys ++ zs))
    (hsrc : ls src = some xs) (hxs : xs ≠ []) (hne : src ≠ head) :
    Rings ((m.link (lastOf head ys) (firstOf src xs)).link (lastOf src xs) (firstOf head zs))
      (Function.update (Function.update ls src none) head (some (ys ++ (xs ++ zs)))) := by
  have hdis := h.apart hsrc hhead hne
  have hnodup := (List.nodup_cons.mp (h.ring hsrc).nodup).2
  have hout : ∀ b ∈ xs, b ≠ lastOf head ys ∧ b ≠ firstOf head zs := by
    intro b hb
    refine ⟨?_, ?_⟩
    · rintro rfl
      exact hdis (List.mem_cons_of_mem src hb) (List.mem_append_left zs lastOf_mem)
    · rintro rfl
      exact hdis (List.mem_cons_of_mem src hb)
        (List.cons_subset_cons head (List.subset_append_right ys zs) firstOf_mem)
  obtain ⟨x, xs', rfl⟩ := List.exists_cons_of_ne_nil hxs
  obtain ⟨init, y, hy⟩ := (List.eq_nil_or_concat' _).resolve_left hxs
  have hlastOf : lastOf src (x :: xs') = y := by rw [hy, lastOf_concat]
  have hxmem : x ∈ x :: xs' := List.mem_cons_self
  have hymem : y ∈ x :: xs' := hy ▸ List.mem_append_right init (List.mem_singleton_self y)
  rw [firstOf_cons, hlastOf]
  refine (h.forget src).replace [] (x :: xs') ?_ ?_ hnodup ?_ ?_ ?_
  · simpa [hne.symm] using hhead
  · have hinfix : (x :: xs') <:+: src :: (x :: xs' ++ [src]) := ⟨[src], [src], by simp⟩
    have hchain := List.IsChain.infix (h.ring hsrc).chain hinfix
    have hmine : (x :: xs').IsChain
        ((m.link (lastOf head ys) x).link y (firstOf head zs)).Linked := by
      refine isChain_congr hchain (fun b hb => ?_) fun b hb => ?_
      · have hby : b ≠ y := by
          rintro rfl
          rw [hy, List.dropLast_concat] at hb
          rw [hy] at hnodup
          exact (List.nodup_append'.mp hnodup).2.2 hb (List.mem_singleton_self b)
        have hb := hout b ((List.dropLast_sublist _).mem hb)
        simp [hby, hb.1]
      · have hbx : b ≠ x := by
          rintro rfl
          exact (List.nodup_cons.mp hnodup).1 hb
        have hb := hout b (List.mem_of_mem_tail hb)
        simp [hbx, hb.2]
    rw [List.isChain_cons, List.isChain_append]
    refine ⟨fun b hb => ?_, hmine, .singleton _, fun b hb c hc => ?_⟩
    · obtain rfl : x = b := by simpa using hb
      refine ⟨?_, ?_⟩
      · simp [(hout y hymem).1.symm]
      · simp [(hout x hxmem).2]
    · obtain rfl : y = b := by simpa [hy] using hb
      obtain rfl : firstOf head zs = c := by simpa using hc
      exact linked_link
  · intro b hb
    refine ⟨?_, fun head' => ?_⟩
    · by_cases hbs : b = src
      · simp [hbs]
      · simpa [hbs] using h.eq_none_of_mem hsrc hb
    · by_cases hhs : head' = src
      · simp [hhs]
      · cases hls : ls head' with
        | none => simp [hhs, hls]
        | some ws =>
          have := h.apart hsrc hls (Ne.symm hhs)
          simpa [hhs, hls] using fun hmem =>
            this (List.mem_cons_of_mem src hb) (List.mem_cons_of_mem head' hmem)
  · intro b _ hb hne
    have hby : b ≠ y := fun e => hb (e ▸ hymem)
    simp [hby, hne]
  · intro b _ hb hne
    have hbx : b ≠ x := fun e => hb (e ▸ hxmem)
    simp [hbx, hne]

/-! ## Walking round a ring -/

/-- The nodes from `pos` on, up to the head. -/
def walk (step : α → Option α) (head : α) : Nat → α → Option (List α)
  | 0, _ => none
  | fuel + 1, pos =>
    if pos = head then some []
    else do return pos :: (← walk step head fuel (← step pos))

theorem Ring.walk_next {fuel : Nat} (ys : List α) (h : Ring m head (ys ++ zs))
    (hfuel : zs.length < fuel) :
    walk m.next head fuel (firstOf head zs) = some zs := by
  induction zs generalizing ys fuel with
  | nil =>
    obtain ⟨fuel, rfl⟩ := Nat.exists_eq_succ_of_ne_zero (Nat.ne_of_gt hfuel)
    rw [firstOf_nil, walk, if_pos rfl]
  | cons z zs ih =>
    obtain ⟨fuel, rfl⟩ := Nat.exists_eq_succ_of_ne_zero (Nat.ne_of_gt (Nat.zero_lt_of_lt hfuel))
    have hne : z ≠ head := by
      rintro rfl
      exact h.head_not_mem (List.mem_append_right ys List.mem_cons_self)
    have hring : Ring m head (ys ++ [z] ++ zs) := by simpa using h
    have hrest := ih _ hring (Nat.lt_of_succ_lt_succ hfuel)
    rw [firstOf_cons, walk, if_neg hne, h.neighbours.2]
    simp [hrest]

theorem Ring.walk_prev {fuel : Nat} (zs : List α) (h : Ring m head (ys ++ zs))
    (hfuel : ys.length < fuel) :
    walk m.prev head fuel (lastOf head ys) = some ys.reverse := by
  induction ys using List.reverseRecOn generalizing zs fuel with
  | nil =>
    obtain ⟨fuel, rfl⟩ := Nat.exists_eq_succ_of_ne_zero (Nat.ne_of_gt hfuel)
    rw [lastOf_nil, walk, if_pos rfl, List.reverse_nil]
  | append_singleton ys y ih =>
    obtain ⟨fuel, rfl⟩ := Nat.exists_eq_succ_of_ne_zero (Nat.ne_of_gt (Nat.zero_lt_of_lt hfuel))
    rw [List.length_append, List.length_singleton] at hfuel
    have hring : Ring m head (ys ++ y :: zs) := by simpa using h
    have hne : y ≠ head := by
      rintro rfl
      exact hring.head_not_mem (List.mem_append_right ys List.mem_cons_self)
    have hrest := ih _ hring (Nat.lt_of_succ_lt_succ hfuel)
    rw [lastOf_concat, walk, if_neg hne, hring.neighbours.1]
    simp [hrest]

end Links

end VdCamera.Misc
