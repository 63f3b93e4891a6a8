import VdCamera.Sys.Pool
import VdCamera.Sys.Proofs.ListHead

/-!
# The blocks of a pool

A block is free or out: the list of the free ones lies beside the lists of the users, and the calls do to
the memory what the pool of block numbers does to its list.
-/

namespace VdCamera.Sys

open Misc Misc.Links

variable {α : Type} [DecidableEq α] {nr : Nat} (lay : PoolLayout α nr)

/-! ## The pool by its block numbers -/

/-- The pool, the blocks that are out, the users' lists and the results so far. -/
structure PoolView (α : Type) where
  po : Pool
  used : List Nat := []
  ls : ListHeads α := fun _ => none
  got : List (Option Nat) := []

def poolViewStep (v : PoolView α) : PoolOp α → PoolView α
  | .get =>
    match getFromPool v.po with
    | none => { v with got := v.got ++ [none] }
    | some (b, po) => { v with po, used := b :: v.used, got := v.got ++ [some b] }
  | .put b =>
    { v with po := putIntoPool v.po b, used := v.used.erase b, ls := v.ls.forget (lay.block b) }
  | .list op => { v with ls := op.effect v.ls }

omit [DecidableEq α] in
/-- The nodes that a call names. -/
def ListOp.nodes : ListOp α → List α
  | .init a | .del a | .delInit a => [a]
  | .add a b | .addTail a b | .move a b | .moveTail a b
  | .splice a b | .spliceTail a b | .spliceInit a b | .spliceTailInit a b => [a, b]

/-- A user gives back what it has and has in no list, and changes lists with nodes of its own. -/
def PoolOp.Rightful (v : PoolView α) : PoolOp α → Prop
  | .get => True
  | .put b => b ∈ v.used ∧ ¬v.ls.IsEntry (lay.block b)
  | .list op =>
    op.Rightful v.ls ∧ ∀ a ∈ op.nodes, a ≠ lay.free ∧ ∀ b ∈ v.po.free, a ≠ lay.block b

instance [Fintype α] (v : PoolView α) : ∀ op : PoolOp α, Decidable (op.Rightful lay v)
  | .get => inferInstanceAs (Decidable True)
  | .put b => inferInstanceAs (Decidable (b ∈ v.used ∧ ¬v.ls.IsEntry (lay.block b)))
  | .list op => inferInstanceAs (Decidable
      (op.Rightful v.ls ∧ ∀ a ∈ op.nodes, a ≠ lay.free ∧ ∀ b ∈ v.po.free, a ≠ lay.block b))

/-- All lists: the users' and that of the free blocks. -/
def PoolView.lists (v : PoolView α) : ListHeads α :=
  v.ls.put lay.free (v.po.free.map lay.block)

/-- The memory holds what the block numbers say. -/
structure Pooled (po : LinkPool α) (v : PoolView α) : Prop where
  rings : Rings po.links (v.lists lay)
  unset : v.ls lay.free = none
  nrFree : po.nrFree = v.po.nrFree
  nrUsed : po.nrUsed = v.po.nrUsed
  nrTotal : po.nrTotal = v.po.nrTotal
  /-- A block is free or out, and only once. -/
  blocks : (v.po.free ++ v.used).Perm (List.range nr)

variable {lay} {po po' : LinkPool α} {v : PoolView α} {m m' : Links α} {ls : ListHeads α}
variable {a b head head' : α} {xs ys : List α} {op : ListOp α} {ops : List (PoolOp α)}

/-! ## Lists beside another one -/

theorem put_comm (h : head ≠ head') : (ls.put head xs).put head' ys = (ls.put head' ys).put head xs :=
  Function.update_comm h ..

theorem put_put : (ls.put head xs).put head ys = ls.put head ys := Function.update_idem ..

theorem forget_put (h : a ≠ head) : (ls.put head xs).forget a = (ls.forget a).put head xs :=
  Function.update_comm h.symm ..

theorem without_put (h : a ∉ xs) :
    without (ls.put head xs) a = ListHeads.put (without ls a) head xs := by
  funext head'
  by_cases heq : head' = head
  · subst heq
    rw [without, put_self, put_self, Option.map_some, List.erase_of_not_mem h]
  · rw [without, put_of_ne heq, put_of_ne heq, without]

theorem isEntry_put (hhead : ls head = none) :
    (ls.put head xs).IsEntry a ↔ ls.IsEntry a ∨ a ∈ xs := by
  have hnil : ls.entries head = [] := by rw [ListHeads.entries, hhead, Option.getD_none]
  constructor
  · rintro ⟨head', hmem⟩
    by_cases heq : head' = head
    · subst heq
      rw [entries_put_self] at hmem
      exact .inr hmem
    · rw [entries_put_of_ne heq] at hmem
      exact .inl ⟨head', hmem⟩
  · rintro (⟨head', hmem⟩ | hmem)
    · have hne : head' ≠ head := by
        rintro rfl
        rw [hnil] at hmem
        cases hmem
      exact ⟨head', by rw [entries_put_of_ne hne]; exact hmem⟩
    · exact ⟨head, by rw [entries_put_self]; exact hmem⟩

/-- A call that does not name the nodes of a list is as rightful beside it. -/
theorem rightful_put (hhead : ls head = none) (hnodes : ∀ a ∈ op.nodes, a ≠ head ∧ a ∉ xs)
    (hop : op.Rightful ls) : op.Rightful (ls.put head xs) := by
  have hentry : ∀ a ∈ op.nodes, (ls.put head xs).IsEntry a ↔ ls.IsEntry a := fun a ha => by
    rw [isEntry_put hhead, or_iff_left (hnodes a ha).2]
  have hsome : ∀ a ∈ op.nodes, (ls.put head xs) a = ls a := fun a ha => put_of_ne (hnodes a ha).1
  cases op with
  | init a => exact mt (hentry a (by simp [ListOp.nodes])).mp hop
  | add new a | addTail new a =>
    simp only [ListOp.Rightful] at hop ⊢
    rwa [hsome a (by simp [ListOp.nodes]), hentry new (by simp [ListOp.nodes])]
  | del a | delInit a => exact (hentry a (by simp [ListOp.nodes])).mpr hop
  | move a b | moveTail a b =>
    simp only [ListOp.Rightful] at hop ⊢
    rwa [hsome b (by simp [ListOp.nodes]), hentry a (by simp [ListOp.nodes])]
  | splice a b | spliceTail a b | spliceInit a b | spliceTailInit a b =>
    simp only [ListOp.Rightful] at hop ⊢
    rwa [hsome a (by simp [ListOp.nodes]), hsome b (by simp [ListOp.nodes])]

theorem splice_put {zs : List α} (ha : a ≠ head) (hb : b ≠ head) :
    (ls.put head xs).splice a b zs = (ls.splice a b zs).put head xs := by
  unfold ListHeads.splice
  rw [entries_put_of_ne ha, forget_put ha, put_comm hb.symm]
  split <;> rfl

/-- And it changes nothing of that list. -/
theorem effect_put (hnodes : ∀ a ∈ op.nodes, a ≠ head ∧ a ∉ xs) :
    op.effect (ls.put head xs) = (op.effect ls).put head xs := by
  have hne : ∀ a ∈ op.nodes, a ≠ head := fun a ha => (hnodes a ha).1
  cases op with
  | init a => exact put_comm (hne a (by simp [ListOp.nodes])).symm
  | add new a | addTail new a =>
    simp only [ListOp.effect]
    rw [forget_put (hne new (by simp [ListOp.nodes])), put_comm (hne a (by simp [ListOp.nodes])).symm,
      entries_put_of_ne (hne a (by simp [ListOp.nodes]))]
  | del a => exact without_put (hnodes a (by simp [ListOp.nodes])).2
  | delInit a =>
    simp only [ListOp.effect]
    rw [without_put (hnodes a (by simp [ListOp.nodes])).2,
      put_comm (hne a (by simp [ListOp.nodes])).symm]
  | move a b | moveTail a b =>
    simp only [ListOp.effect]
    rw [without_put (hnodes a (by simp [ListOp.nodes])).2,
      put_comm (hne b (by simp [ListOp.nodes])).symm,
      entries_put_of_ne (hne b (by simp [ListOp.nodes]))]
  | splice a b | spliceTail a b =>
    have ha := hne a (by simp [ListOp.nodes])
    have hb := hne b (by simp [ListOp.nodes])
    simp only [ListOp.effect]
    rw [splice_put ha hb, entries_put_of_ne ha, entries_put_of_ne hb]
  | spliceInit a b | spliceTailInit a b =>
    have ha := hne a (by simp [ListOp.nodes])
    have hb := hne b (by simp [ListOp.nodes])
    simp only [ListOp.effect]
    rw [splice_put ha hb, put_comm ha.symm, entries_put_of_ne ha, entries_put_of_ne hb]

theorem effect_of_ne (hhead : ls head = none) (hnodes : ∀ a ∈ op.nodes, a ≠ head) :
    op.effect ls head = none := by
  have hwithout : ∀ a, without ls a head = none := fun a => by rw [without, hhead, Option.map_none]
  have hsplice : ∀ {a b zs}, b ≠ head → ls.splice a b zs head = none := by
    intro a b zs hb
    unfold ListHeads.splice
    split
    · exact hhead
    · rw [put_of_ne hb.symm]
      by_cases ha : head = a
      · subst ha
        exact forget_self
      · rw [forget_of_ne ha, hhead]
  have hforget : ∀ a, a ≠ head → ls.forget a head = none := fun a ha => by
    rw [forget_of_ne ha.symm, hhead]
  cases op with
  | init a => rw [ListOp.effect, put_of_ne (hnodes a (by simp [ListOp.nodes])).symm, hhead]
  | add new a | addTail new a =>
    simp only [ListOp.effect]
    rw [put_of_ne (hnodes a (by simp [ListOp.nodes])).symm]
    exact hforget new (hnodes new (by simp [ListOp.nodes]))
  | del a => exact hwithout a
  | delInit a =>
    simp only [ListOp.effect]
    rw [put_of_ne (hnodes a (by simp [ListOp.nodes])).symm]
    exact hwithout a
  | move a b | moveTail a b =>
    simp only [ListOp.effect]
    rw [put_of_ne (hnodes b (by simp [ListOp.nodes])).symm]
    exact hwithout a
  | splice a b | spliceTail a b => exact hsplice (hnodes b (by simp [ListOp.nodes]))
  | spliceInit a b | spliceTailInit a b =>
    simp only [ListOp.effect]
    rw [put_of_ne (hnodes a (by simp [ListOp.nodes])).symm]
    exact hsplice (hnodes b (by simp [ListOp.nodes]))

/-! ## Steps -/

theorem rings_addBlocks {free : α} {block : Nat → α} {is : List Nat} (h : Rings m (ls.put free xs))
    (hun : ∀ i ∈ is, Unused (ls.put free xs) (block i)) (hnodup : (is.map block).Nodup) :
    ∃ m', addBlocks free block is m = some m' ∧ Rings m' (ls.put free (xs ++ is.map block)) := by
  induction is generalizing m xs with
  | nil => exact ⟨m, rfl, by rw [List.map_nil, List.append_nil]; exact h⟩
  | cons i is ih =>
    obtain ⟨hi, hnodup⟩ := List.nodup_cons.mp hnodup
    have hfree : (ls.put free xs free).isSome := by rw [put_self]; rfl
    obtain ⟨m₁, hadd, hrings⟩ := rings_listAddTail h hfree (hun i List.mem_cons_self)
    rw [entries_put_self, put_put] at hrings
    have hun' : ∀ j ∈ is, Unused (ls.put free (xs ++ [block i])) (block j) := by
      intro j hj
      obtain ⟨hnone, hnot⟩ := hun j (List.mem_cons_of_mem i hj)
      have hne : block j ≠ free := by
        intro heq
        rw [heq, put_self] at hnone
        cases hnone
      rw [put_of_ne hne] at hnone
      refine ⟨by rw [put_of_ne hne]; exact hnone, fun head hmem => ?_⟩
      by_cases heq : head = free
      · subst heq
        rw [put_self, Option.getD_some, List.mem_append, List.mem_singleton] at hmem
        rcases hmem with hmem | heq
        · exact hnot head (by rw [put_self]; exact hmem)
        · exact hi (heq ▸ List.mem_map_of_mem hj)
      · rw [put_of_ne heq] at hmem
        exact hnot head (by rw [put_of_ne heq]; exact hmem)
    obtain ⟨m', hrest, hrings'⟩ := ih hrings hun' hnodup
    refine ⟨m', by rw [addBlocks, hadd]; exact hrest, ?_⟩
    rwa [List.append_assoc, List.singleton_append] at hrings'

/-- A pool is created beside lists that have nothing of it. -/
theorem pooled_create (h : Rings m ls) (hfree : Unused ls lay.free)
    (hun : ∀ i < nr, Unused ls (lay.block i)) :
    ∃ po, createLinkPool lay m = some po ∧ Pooled lay po { po := createPool nr, ls } := by
  have hinit : Rings (m.initHead lay.free) (ls.put lay.free []) := h.initHead hfree.2
  have hun' : ∀ i ∈ List.range nr, Unused (ls.put lay.free []) (lay.block i) := by
    intro i hi
    have hlt := List.mem_range.mp hi
    refine ⟨by rw [put_of_ne (lay.block_ne_free i hlt)]; exact (hun i hlt).1, fun head hmem => ?_⟩
    by_cases heq : head = lay.free
    · subst heq
      rw [put_self] at hmem
      cases hmem
    · rw [put_of_ne heq] at hmem
      exact (hun i hlt).2 head hmem
  have hnodup : ((List.range nr).map lay.block).Nodup :=
    List.Nodup.map_on (fun i hi j hj =>
      lay.block_inj i (List.mem_range.mp hi) j (List.mem_range.mp hj)) List.nodup_range
  obtain ⟨m', hrun, hrings⟩ := rings_addBlocks hinit hun' hnodup
  refine ⟨_, by rw [createLinkPool, hrun]; rfl, ?_⟩
  exact ⟨hrings, hfree.1, rfl, rfl, rfl, by rw [List.append_nil]; rfl⟩

variable (h : Pooled lay po v)
include h

theorem Pooled.lt_of_free {b : Nat} (hb : b ∈ v.po.free) : b < nr :=
  List.mem_range.mp (h.blocks.mem_iff.mp (List.mem_append_left v.used hb))

theorem Pooled.lt_of_used {b : Nat} (hb : b ∈ v.used) : b < nr :=
  List.mem_range.mp (h.blocks.mem_iff.mp (List.mem_append_right v.po.free hb))

omit h in
theorem lists_free : v.lists lay lay.free = some (v.po.free.map lay.block) := put_self

theorem Pooled.listEmpty_iff_free : listEmpty lay.free po.links = true ↔ v.po.free = [] := by
  rw [listEmpty_iff h.rings (by rw [lists_free]; rfl), PoolView.lists, entries_put_self,
    List.map_eq_nil_iff]

theorem Pooled.get_none (hget : getFromPool v.po = none) :
    getFromLinkPool lay po = some (none, po) :=
  if_pos (h.listEmpty_iff_free.mpr (getFromPool_eq_none.mp hget))

theorem Pooled.get_some {b : Nat} {po' : Pool} (hget : getFromPool v.po = some (b, po')) :
    ∃ links, getFromLinkPool lay po = some (some (lay.block b),
        { po with links, nrFree := po.nrFree - 1, nrUsed := po.nrUsed + 1 }) ∧
      Pooled lay { po with links, nrFree := po.nrFree - 1, nrUsed := po.nrUsed + 1 }
        { v with po := po', used := b :: v.used } := by
  obtain ⟨hfree, hused, htotal⟩ := getFromPool_some hget
  have hlists : v.lists lay lay.free = _ := lists_free
  rw [hfree, List.map_cons] at hlists
  have hring := h.rings.ring hlists
  have hentry : (v.lists lay).IsEntry (lay.block b) :=
    ⟨lay.free, by rw [entries_of_eq hlists]; exact List.mem_cons_self⟩
  obtain ⟨m', hdel, hrings⟩ := refines_del h.rings hentry
  have hrest : without (v.lists lay) (lay.block b) = v.ls.put lay.free (po'.free.map lay.block) := by
    funext head
    by_cases heq : head = lay.free
    · subst heq
      rw [without, hlists, put_self, Option.map_some, List.erase_cons_head]
    · rw [without, put_of_ne heq, PoolView.lists, put_of_ne heq]
      cases hls : v.ls head with
      | none => rfl
      | some ws =>
        have hws : v.lists lay head = some ws := by rw [PoolView.lists, put_of_ne heq, hls]
        have hnot : lay.block b ∉ ws := fun hmem =>
          h.rings.apart hlists hws (Ne.symm heq)
            (List.mem_cons_of_mem lay.free List.mem_cons_self) (List.mem_cons_of_mem head hmem)
        rw [Option.map_some, List.erase_of_not_mem hnot]
  refine ⟨m', ?_, ?_, h.unset, ?_, ?_, ?_, ?_⟩
  · have hne : ¬listEmpty lay.free po.links = true := by
      rw [h.listEmpty_iff_free, hfree]
      exact List.cons_ne_nil b po'.free
    have hnext := hring.ends.1
    rw [firstOf_cons] at hnext
    rw [getFromLinkPool, if_neg hne, hnext]
    have hdel : listDel (lay.block b) po.links = some m' := hdel
    simp [hdel]
  · show Rings m' (v.ls.put lay.free (po'.free.map lay.block))
    rw [← hrest]
    exact hrings
  · have hlen := po'.nrFree_eq
    have hlen' := v.po.nrFree_eq
    rw [hfree, List.length_cons] at hlen'
    show po.nrFree - 1 = po'.nrFree
    rw [h.nrFree]
    omega
  · show po.nrUsed + 1 = po'.nrUsed
    rw [h.nrUsed, hused]
  · show po.nrTotal = po'.nrTotal
    rw [h.nrTotal, htotal]
  · refine List.Perm.trans ?_ h.blocks
    rw [hfree]
    exact List.perm_middle

theorem Pooled.put {b : Nat} (hop : (PoolOp.put b).Rightful lay v) :
    ∃ po', putIntoLinkPool lay b po = some po' ∧ Pooled lay po' (poolViewStep lay v (.put b)) := by
  obtain ⟨hused, hnot⟩ := hop
  have hlt := h.lt_of_used hused
  have hne := lay.block_ne_free b hlt
  have hnodup : (v.po.free ++ v.used).Nodup := h.blocks.nodup_iff.mpr List.nodup_range
  have hfree : lay.block b ∉ v.po.free.map lay.block := by
    intro hmem
    obtain ⟨c, hc, heq⟩ := List.mem_map.mp hmem
    obtain rfl := lay.block_inj c (h.lt_of_free hc) b hlt heq
    exact (List.nodup_append'.mp hnodup).2.2 hc hused
  have hun : Unused ((v.lists lay).forget (lay.block b)) (lay.block b) := by
    refine unused_forget ?_
    rw [PoolView.lists, isEntry_put h.unset, not_or]
    exact ⟨hnot, hfree⟩
  have hlists : (v.lists lay).forget (lay.block b)
      = (v.ls.forget (lay.block b)).put lay.free (v.po.free.map lay.block) := forget_put hne
  have hhead : ((v.lists lay).forget (lay.block b) lay.free).isSome := by
    rw [hlists, put_self]
    rfl
  obtain ⟨m', hadd, hrings⟩ := rings_listAddTail (h.rings.forget (lay.block b)) hhead hun
  refine ⟨_, by rw [putIntoLinkPool, hadd]; rfl, ?_⟩
  refine ⟨?_, ?_, ?_, ?_, h.nrTotal, ?_⟩
  · rw [← ListHeads.forget, hlists, entries_put_self, put_put] at hrings
    simpa [poolViewStep, PoolView.lists, putIntoPool] using hrings
  · show v.ls.forget (lay.block b) lay.free = none
    rw [forget_of_ne hne.symm, h.unset]
  · show po.nrFree + 1 = v.po.nrFree + 1
    rw [h.nrFree]
  · show po.nrUsed - 1 = v.po.nrUsed - 1
    rw [h.nrUsed]
  · refine List.Perm.trans ?_ h.blocks
    show (v.po.free ++ [b] ++ v.used.erase b).Perm (v.po.free ++ v.used)
    rw [List.append_assoc, List.singleton_append]
    exact (List.perm_cons_erase hused).symm.append_left v.po.free

theorem Pooled.list (hop : (PoolOp.list op).Rightful lay v) :
    ∃ po', listInPool op po = some po' ∧ Pooled lay po' { v with ls := op.effect v.ls } := by
  obtain ⟨hright, hnodes⟩ := hop
  have hapart : ∀ a ∈ op.nodes, a ≠ lay.free ∧ a ∉ v.po.free.map lay.block := by
    intro a ha
    refine ⟨(hnodes a ha).1, fun hmem => ?_⟩
    obtain ⟨b, hb, heq⟩ := List.mem_map.mp hmem
    exact (hnodes a ha).2 b hb heq.symm
  obtain ⟨m', hrun, hrings⟩ := refines h.rings (rightful_put h.unset hapart hright)
  rw [PoolView.lists, effect_put hapart] at hrings
  refine ⟨{ po with links := m' }, by rw [listInPool, hrun]; rfl, ?_⟩
  exact { h with rings := hrings, unset := effect_of_ne h.unset fun a ha => (hapart a ha).1 }

omit h

/-- Memory and results are what the block numbers say. -/
def Follows (lay : PoolLayout α nr) (s : LinkPool α × List (Option α)) (v : PoolView α) : Prop :=
  Pooled lay s.1 v ∧ s.2 = v.got.map (Option.map lay.block)

theorem follows_step (s : LinkPool α × List (Option α)) (v : PoolView α) (op : PoolOp α)
    (v' : PoolView α) (h : Follows lay s v) (hop : op.Rightful lay v)
    (hv : some (poolViewStep lay v op) = some v') :
    ∃ s', linkPoolStep lay s op = some s' ∧ Follows lay s' v' := by
  obtain rfl := Option.some.inj hv
  obtain ⟨h, hgot⟩ := h
  cases op with
  | get =>
    rw [poolViewStep]
    cases hget : getFromPool v.po with
    | none =>
      refine ⟨(s.1, s.2 ++ [none]), by rw [linkPoolStep, h.get_none hget]; rfl, ?_, ?_⟩
      · exact { h with }
      · simp [hgot]
    | some got =>
      obtain ⟨links, hrun, hpooled⟩ := h.get_some hget
      refine ⟨(_, s.2 ++ [some (lay.block got.1)]), by rw [linkPoolStep, hrun]; rfl, ?_, ?_⟩
      · exact { hpooled with }
      · simp [hgot]
  | put b =>
    obtain ⟨po', hrun, hpooled⟩ := h.put hop
    exact ⟨(po', s.2), by rw [linkPoolStep, hrun]; rfl, hpooled, hgot⟩
  | list op =>
    obtain ⟨po', hrun, hpooled⟩ := h.list hop
    exact ⟨(po', s.2), by rw [linkPoolStep, hrun]; rfl, hpooled, hgot⟩

/-- Blocks go out of the pool and back, and their users keep them in lists of their own, in one memory:
no pointer is followed that is not set, each call returns what the pool of block numbers says, and
every block is free or out, and once. -/
theorem linkPool_refines (lay : PoolLayout α nr) (m : Links α)
    (h : Along (fun v op => some (poolViewStep lay v op)) (fun v op => op.Rightful lay v)
      { po := createPool nr } ops) :
    let v := ops.foldl (poolViewStep lay) { po := createPool nr }
    ∃ po got, (createLinkPool lay m).bind (fun po => runFrom (linkPoolStep lay) (po, []) ops)
        = some (po, got) ∧
      got = v.got.map (Option.map lay.block) ∧ Pooled lay po v ∧ ReadsAs po.links (v.lists lay) := by
  intro v
  have hnone : ∀ a : α, Unused (fun _ => none) a := fun a => ⟨rfl, fun _ => List.not_mem_nil⟩
  obtain ⟨po, hcreate, hpooled⟩ :=
    pooled_create (rings_none (m := m)) (hnone lay.free) fun i _ => hnone (lay.block i)
  obtain ⟨⟨po', got⟩, hrun, hpooled', hgot⟩ := runFrom_simulate (R := Follows lay) follows_step
    (s := (po, [])) ⟨hpooled, rfl⟩ h (runFrom_total (poolViewStep lay) _ ops)
  exact ⟨po', got, by rw [hcreate, Option.bind_some, hrun], hgot, hpooled', readsAs hpooled'.rings⟩

/-- A pool of two blocks, its head, a user's list head and a node of its own. -/
def twoBlocks : PoolLayout (Fin 5) 2 where
  free := 4
  block i := Fin.ofNat 5 i
  block_inj := by decide
  block_ne_free := by decide

/-- The blocks go into the user's list, come back in the other order, and one goes out again. -/
def twoBlocksRun : List (PoolOp (Fin 5)) :=
  [.list (.init 2), .get, .list (.addTail 0 2), .get, .list (.add 1 2), .get, .list (.del 1), .put 1,
    .list (.delInit 0), .put 0, .get]

theorem linkPool_refines_two :
    let v := twoBlocksRun.foldl (poolViewStep twoBlocks) { po := createPool 2 }
    ∃ po got, (createLinkPool twoBlocks ⟨fun _ => none, fun _ => none⟩).bind
        (fun po => runFrom (linkPoolStep twoBlocks) (po, []) twoBlocksRun) = some (po, got) ∧
      got = v.got.map (Option.map twoBlocks.block) ∧ Pooled twoBlocks po v ∧
      ReadsAs po.links (v.lists twoBlocks) :=
  linkPool_refines twoBlocks _ (by decide)

example : (twoBlocksRun.foldl (poolViewStep twoBlocks) { po := createPool 2 }).got
    = [some 0, some 1, none, some 1] := by decide

end VdCamera.Sys
