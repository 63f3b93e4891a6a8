import VdCamera.Sys.ListHead

/-!
# What a run of calls makes of the lists

A memory holds lists when every head that is set up is the head of a ring of its entries and no two
rings meet. A call that its caller is entitled to keeps that.
-/

namespace VdCamera.Sys

open Misc Misc.Links

variable {α : Type} {m m' : Links α} {ls : ListHeads α} {a head head' list new entry : α}
variable {xs ys : List α} {op : ListOp α} {ops : List (ListOp α)}

/-! ## Entries -/

theorem entries_of_eq (h : ls head = some xs) : ls.entries head = xs := by
  rw [ListHeads.entries, h, Option.getD_some]

variable [DecidableEq α]

theorem put_self : ls.put head xs head = some xs := Function.update_self ..

theorem put_of_ne (h : head' ≠ head) : ls.put head xs head' = ls head' := Function.update_of_ne h ..

theorem forget_self : ls.forget head head = none := Function.update_self ..

theorem forget_of_ne (h : head' ≠ head) : ls.forget head head' = ls head' :=
  Function.update_of_ne h ..

@[simp] theorem entries_put_self : (ls.put head xs).entries head = xs := entries_of_eq put_self

theorem entries_put_of_ne (h : head' ≠ head) : (ls.put head xs).entries head' = ls.entries head' := by
  rw [ListHeads.entries, put_of_ne h, ListHeads.entries]

@[simp] theorem entries_forget_self : (ls.forget head).entries head = [] := by
  rw [ListHeads.entries, forget_self, Option.getD_none]

theorem entries_forget_of_ne (h : head' ≠ head) :
    (ls.forget head).entries head' = ls.entries head' := by
  rw [ListHeads.entries, forget_of_ne h, ListHeads.entries]

/-! ## The calls on lists -/

/-- An added node is in use. -/
theorem rings_add (h : Rings m ls) (ys xs : List α) (hhead : ls head = some (ys ++ xs))
    (hun : Unused ls new) :
    Rings (listAddBetween new (lastOf head ys) (firstOf head xs) m)
      (ls.put head (ys ++ new :: xs)) :=
  h.insert hhead hun

theorem rings_listAdd (h : Rings m ls) (hhead : (ls head).isSome) (hun : Unused ls new) :
    ∃ m', listAdd new head m = some m' ∧ Rings m' (ls.put head (new :: ls.entries head)) := by
  obtain ⟨xs, hxs⟩ := Option.isSome_iff_exists.mp hhead
  rw [entries_of_eq hxs]
  refine ⟨_, by rw [listAdd, (h.ring hxs).ends.1]; rfl, ?_⟩
  exact rings_add h [] xs hxs hun

theorem rings_listAddTail (h : Rings m ls) (hhead : (ls head).isSome) (hun : Unused ls new) :
    ∃ m', listAddTail new head m = some m' ∧
      Rings m' (ls.put head (ls.entries head ++ [new])) := by
  obtain ⟨xs, hxs⟩ := Option.isSome_iff_exists.mp hhead
  rw [entries_of_eq hxs]
  refine ⟨_, by rw [listAddTail, (h.ring hxs).ends.2]; rfl, ?_⟩
  exact rings_add h xs [] (by rw [List.append_nil]; exact hxs) hun

/-- A node that stands in no list is not in use once its head is given up. -/
theorem unused_forget (hnot : ¬ls.IsEntry new) : Unused (ls.forget new) new := by
  refine ⟨forget_self, fun head hmem => ?_⟩
  by_cases heq : head = new
  · subst heq
    exact absurd hmem (by rw [forget_self]; exact List.not_mem_nil)
  · rw [forget_of_ne heq] at hmem
    exact hnot ⟨head, hmem⟩

/-- What removing a node comes to before its own links are written. -/
theorem rings_unlink (h : Rings m ls) (hentry : ls.IsEntry entry) :
    ∃ prev next, m.prev entry = some prev ∧ m.next entry = some next ∧
      Rings (listDelBetween prev next m) (without ls entry) ∧
      Unused (without ls entry) entry := by
  obtain ⟨head, hmem⟩ := hentry
  cases hls : ls head with
  | none => simp [ListHeads.entries, hls] at hmem
  | some xs =>
    rw [entries_of_eq hls] at hmem
    exact h.unlink hls hmem

theorem isSome_without : (without ls entry head).isSome = (ls head).isSome := by
  rw [without, Option.isSome_map]

/-- The entries of one list are put between two neighbours of another. -/
theorem rings_spliceBetween (h : Rings m ls) (ys xs : List α) (hhead : ls head = some (ys ++ xs))
    (hlist : (ls list).isSome) (hne : list ≠ head) (hentries : ls.entries list ≠ []) :
    ∃ m', listSpliceBetween list (lastOf head ys) (firstOf head xs) m = some m' ∧
      Rings m' (ls.splice list head (ys ++ (ls.entries list ++ xs))) := by
  obtain ⟨zs, hzs⟩ := Option.isSome_iff_exists.mp hlist
  rw [ListHeads.splice, if_neg hentries]
  rw [entries_of_eq hzs] at hentries ⊢
  obtain ⟨hfirst, hlast⟩ := (h.ring hzs).ends
  exact ⟨_, by rw [listSpliceBetween, hfirst, hlast]; rfl, h.splice hhead hzs hentries hne⟩

theorem listEmpty_iff (h : Rings m ls) (hhead : (ls head).isSome) :
    listEmpty head m = true ↔ ls.entries head = [] := by
  obtain ⟨xs, hxs⟩ := Option.isSome_iff_exists.mp hhead
  rw [entries_of_eq hxs]
  exact (h.ring hxs).isEmpty_iff

omit [DecidableEq α] in
theorem eq_of_isSome (hhead : (ls head).isSome) : ls head = some (ls.entries head) := by
  obtain ⟨xs, hxs⟩ := Option.isSome_iff_exists.mp hhead
  rw [entries_of_eq hxs, hxs]

theorem rings_spliceHead (h : Rings m ls) (hhead : (ls head).isSome) (hlist : (ls list).isSome)
    (hne : list ≠ head) (hentries : ls.entries list ≠ []) :
    ∃ next m', m.next head = some next ∧ listSpliceBetween list head next m = some m' ∧
      Rings m' (ls.splice list head (ls.entries list ++ ls.entries head)) := by
  have hls := eq_of_isSome hhead
  obtain ⟨m', hrun, hrings⟩ := rings_spliceBetween h [] _ hls hlist hne hentries
  exact ⟨_, m', (h.ring hls).ends.1, hrun, hrings⟩

theorem rings_spliceTail (h : Rings m ls) (hhead : (ls head).isSome) (hlist : (ls list).isSome)
    (hne : list ≠ head) (hentries : ls.entries list ≠ []) :
    ∃ prev m', m.prev head = some prev ∧ listSpliceBetween list prev head m = some m' ∧
      Rings m' (ls.splice list head (ls.entries head ++ ls.entries list)) := by
  have hls := eq_of_isSome hhead
  have hls' : ls head = some (ls.entries head ++ []) := by rw [List.append_nil]; exact hls
  obtain ⟨m', hrun, hrings⟩ := rings_spliceBetween h _ [] hls' hlist hne hentries
  rw [List.append_nil] at hrings
  exact ⟨_, m', (h.ring hls).ends.2, hrun, hrings⟩

/-- `list_splice` of a list with entries. -/
theorem listSplice_eq (h : listEmpty list m = false) :
    listSplice list head m
      = (m.next head).bind fun next => listSpliceBetween list head next m := by
  unfold listSplice listSpliceBetween
  cases hfirst : m.next list with
  | none => cases m.next head <;> rfl
  | some first =>
    have hne : first ≠ list := by simpa [listEmpty, hfirst] using h
    cases m.prev list <;> cases m.next head <;> simp [hne]

theorem listSplice_of_empty (h : listEmpty list m = true) : listSplice list head m = some m := by
  have hfirst : m.next list = some list := by simpa [listEmpty] using h
  simp [listSplice, hfirst]

/-- Nothing is spliced from an empty list. -/
theorem splice_of_nil (h : ls.entries list = []) : ls.splice list head xs = ls := if_pos h

theorem put_nil_of_nil (hlist : (ls list).isSome) (h : ls.entries list = []) :
    ls.put list [] = ls := by
  obtain ⟨xs, hxs⟩ := Option.isSome_iff_exists.mp hlist
  rw [entries_of_eq hxs] at h
  exact Function.update_eq_self_iff.mpr (hxs.trans (congrArg some h)).symm

omit [DecidableEq α] in
/-- A head in use stands in no list. -/
theorem not_isEntry_of_isSome (h : Rings m ls) (hlist : (ls list).isSome) : ¬ls.IsEntry list := by
  rintro ⟨head, hmem⟩
  cases hls : ls head with
  | none => simp [ListHeads.entries, hls] at hmem
  | some xs =>
    rw [entries_of_eq hls] at hmem
    rw [h.eq_none_of_mem hls hmem] at hlist
    cases hlist

/-- A splice makes no entry. -/
theorem isEntry_of_splice (hxs : ∀ x ∈ xs, x ∈ ls.entries list ∨ x ∈ ls.entries head)
    (h : (ls.splice list head xs).IsEntry a) : ls.IsEntry a := by
  obtain ⟨head', hmem⟩ := h
  unfold ListHeads.splice at hmem
  split at hmem
  · exact ⟨head', hmem⟩
  · by_cases heq : head' = head
    · subst heq
      rw [entries_put_self] at hmem
      exact (hxs a hmem).elim (⟨_, ·⟩) (⟨_, ·⟩)
    · rw [entries_put_of_ne heq] at hmem
      by_cases hl : head' = list
      · subst hl
        rw [entries_forget_self] at hmem
        exact absurd hmem List.not_mem_nil
      · rw [entries_forget_of_ne hl] at hmem
        exact ⟨head', hmem⟩

/-- The call does to the memory what it does to the lists. -/
def Refines (m : Links α) (ls : ListHeads α) (op : ListOp α) : Prop :=
  ∃ m', op.run m = some m' ∧ Rings m' (op.effect ls)

theorem refines_init (h : Rings m ls) (hop : (ListOp.init head).Rightful ls) :
    Refines m ls (.init head) :=
  ⟨_, rfl, h.initHead fun head' hmem => hop ⟨head', hmem⟩⟩

theorem refines_add (h : Rings m ls) (hop : (ListOp.add new head).Rightful ls) :
    Refines m ls (.add new head) := by
  obtain ⟨hhead, hne, hnot⟩ := hop
  have hhead' : (ls.forget new head).isSome := by
    rw [forget_of_ne hne.symm]
    exact hhead
  have hrest := rings_listAdd (h.forget new) hhead' (unused_forget hnot)
  rwa [← ListHeads.forget, entries_forget_of_ne hne.symm] at hrest

theorem refines_addTail (h : Rings m ls) (hop : (ListOp.addTail new head).Rightful ls) :
    Refines m ls (.addTail new head) := by
  obtain ⟨hhead, hne, hnot⟩ := hop
  have hhead' : (ls.forget new head).isSome := by
    rw [forget_of_ne hne.symm]
    exact hhead
  have hrest := rings_listAddTail (h.forget new) hhead' (unused_forget hnot)
  rwa [← ListHeads.forget, entries_forget_of_ne hne.symm] at hrest

theorem refines_del (h : Rings m ls) (hop : (ListOp.del entry).Rightful ls) :
    Refines m ls (.del entry) := by
  obtain ⟨prev, next, hprev, hnext, hrings, hun⟩ := rings_unlink h hop
  refine ⟨_, by rw [ListOp.run, listDel, hprev, hnext]; rfl, hrings.congr ?_ ?_⟩
  · intro b hb
    have hne : b ≠ entry := fun heq => hb (heq ▸ hun)
    simp [hne]
  · intro b hb
    have hne : b ≠ entry := fun heq => hb (heq ▸ hun)
    simp [hne]

theorem refines_delInit (h : Rings m ls) (hop : (ListOp.delInit entry).Rightful ls) :
    Refines m ls (.delInit entry) := by
  obtain ⟨prev, next, hprev, hnext, hrings, hun⟩ := rings_unlink h hop
  exact ⟨_, by rw [ListOp.run, listDelInit, hprev, hnext]; rfl, hrings.initHead hun.2⟩

theorem refines_move (h : Rings m ls) (hop : (ListOp.move list head).Rightful ls) :
    Refines m ls (.move list head) := by
  obtain ⟨hentry, hhead⟩ := hop
  obtain ⟨prev, next, hprev, hnext, hrings, hun⟩ := rings_unlink h hentry
  obtain ⟨m', hadd, hrings'⟩ := rings_listAdd hrings (isSome_without.trans hhead) hun
  exact ⟨m', by rw [ListOp.run, listMove, hprev, hnext]; exact hadd, hrings'⟩

theorem refines_moveTail (h : Rings m ls) (hop : (ListOp.moveTail list head).Rightful ls) :
    Refines m ls (.moveTail list head) := by
  obtain ⟨hentry, hhead⟩ := hop
  obtain ⟨prev, next, hprev, hnext, hrings, hun⟩ := rings_unlink h hentry
  obtain ⟨m', hadd, hrings'⟩ := rings_listAddTail hrings (isSome_without.trans hhead) hun
  exact ⟨m', by rw [ListOp.run, listMoveTail, hprev, hnext]; exact hadd, hrings'⟩

theorem refines_splice (h : Rings m ls) (hop : (ListOp.splice list head).Rightful ls) :
    Refines m ls (.splice list head) := by
  obtain ⟨hlist, hhead, hne⟩ := hop
  by_cases hentries : ls.entries list = []
  · refine ⟨m, listSplice_of_empty ((listEmpty_iff h hlist).mpr hentries), ?_⟩
    rwa [ListOp.effect, splice_of_nil hentries]
  · have hempty : listEmpty list m = false :=
      Bool.eq_false_iff.mpr (mt (listEmpty_iff h hlist).mp hentries)
    obtain ⟨next, m', hnext, hrun, hrings⟩ := rings_spliceHead h hhead hlist hne hentries
    exact ⟨m', by rw [ListOp.run, listSplice_eq hempty, hnext, Option.bind_some, hrun], hrings⟩

theorem refines_spliceTail (h : Rings m ls) (hop : (ListOp.spliceTail list head).Rightful ls) :
    Refines m ls (.spliceTail list head) := by
  obtain ⟨hlist, hhead, hne⟩ := hop
  by_cases hentries : ls.entries list = []
  · refine ⟨m, if_pos ((listEmpty_iff h hlist).mpr hentries), ?_⟩
    rwa [ListOp.effect, splice_of_nil hentries]
  · obtain ⟨prev, m', hprev, hrun, hrings⟩ := rings_spliceTail h hhead hlist hne hentries
    refine ⟨m', ?_, hrings⟩
    rw [ListOp.run, listSpliceTail, if_neg (mt (listEmpty_iff h hlist).mp hentries), hprev]
    exact hrun

/-- The head of the spliced list can be set up again. -/
theorem rings_initHead_splice (h : Rings m ls) (hlist : (ls list).isSome)
    (hxs : ∀ x ∈ xs, x ∈ ls.entries list ∨ x ∈ ls.entries head)
    (hrings : Rings m' (ls.splice list head xs)) :
    Rings (m'.initHead list) ((ls.splice list head xs).put list []) :=
  hrings.initHead fun head' hmem =>
    not_isEntry_of_isSome h hlist (isEntry_of_splice hxs ⟨head', hmem⟩)

theorem refines_spliceInit (h : Rings m ls) (hop : (ListOp.spliceInit list head).Rightful ls) :
    Refines m ls (.spliceInit list head) := by
  obtain ⟨hlist, hhead, hne⟩ := hop
  by_cases hentries : ls.entries list = []
  · refine ⟨m, if_pos ((listEmpty_iff h hlist).mpr hentries), ?_⟩
    rwa [ListOp.effect, splice_of_nil hentries, put_nil_of_nil hlist hentries]
  · obtain ⟨next, m', hnext, hrun, hrings⟩ := rings_spliceHead h hhead hlist hne hentries
    refine ⟨m'.initHead list, ?_, rings_initHead_splice h hlist (fun x hx => ?_) hrings⟩
    · rw [ListOp.run, listSpliceInit, if_neg (mt (listEmpty_iff h hlist).mp hentries), hnext]
      simp [hrun]
    · exact List.mem_append.mp hx

theorem refines_spliceTailInit (h : Rings m ls)
    (hop : (ListOp.spliceTailInit list head).Rightful ls) :
    Refines m ls (.spliceTailInit list head) := by
  obtain ⟨hlist, hhead, hne⟩ := hop
  by_cases hentries : ls.entries list = []
  · refine ⟨m, if_pos ((listEmpty_iff h hlist).mpr hentries), ?_⟩
    rwa [ListOp.effect, splice_of_nil hentries, put_nil_of_nil hlist hentries]
  · obtain ⟨prev, m', hprev, hrun, hrings⟩ := rings_spliceTail h hhead hlist hne hentries
    refine ⟨m'.initHead list, ?_, rings_initHead_splice h hlist (fun x hx => ?_) hrings⟩
    · rw [ListOp.run, listSpliceTailInit, if_neg (mt (listEmpty_iff h hlist).mp hentries), hprev]
      simp [hrun]
    · exact (List.mem_append.mp hx).symm

theorem refines (h : Rings m ls) (hop : op.Rightful ls) : Refines m ls op := by
  cases op with
  | init head => exact refines_init h hop
  | add new head => exact refines_add h hop
  | addTail new head => exact refines_addTail h hop
  | del entry => exact refines_del h hop
  | delInit entry => exact refines_delInit h hop
  | move list head => exact refines_move h hop
  | moveTail list head => exact refines_moveTail h hop
  | splice list head => exact refines_splice h hop
  | spliceTail list head => exact refines_spliceTail h hop
  | spliceInit list head => exact refines_spliceInit h hop
  | spliceTailInit list head => exact refines_spliceTailInit h hop

theorem refines_step (m : Links α) (ls : ListHeads α) (op : ListOp α) (ls' : ListHeads α)
    (h : Rings m ls) (hop : op.Rightful ls) (hls' : some (op.effect ls) = some ls') :
    ∃ m', op.run m = some m' ∧ Rings m' ls' :=
  Option.some.inj hls' ▸ refines h hop

omit [DecidableEq α] in
theorem rings_none : Rings m (fun _ : α => none) := ⟨nofun, nofun⟩

/-! ## What is read -/

theorem listIsSingular_iff (h : Ring m head xs) :
    listIsSingular head m = true ↔ xs.length = 1 := by
  obtain ⟨hnext, hprev⟩ := h.ends
  have hempty : listEmpty head m = true ↔ xs = [] := h.isEmpty_iff
  rw [listIsSingular, hnext, hprev]
  match xs with
  | [] => simp [hempty.mpr rfl]
  | [x] =>
    rw [Bool.eq_false_iff.mpr (mt hempty.mp (List.cons_ne_nil x []))]
    simp [lastOf]
  | x :: y :: xs =>
    have hne : x ≠ lastOf head (x :: y :: xs) := by
      have hnodup := (List.nodup_cons.mp h.nodup).2
      have hlast : lastOf head (x :: y :: xs) = lastOf y xs := by
        rw [lastOf, List.getLast?_cons_cons, List.getLast?_cons, Option.getD_some, lastOf]
      rintro heq
      exact (List.nodup_cons.mp hnodup).1 (heq ▸ hlast ▸ lastOf_mem)
    simp [hne]

theorem listIsLast_iff (h : Ring m head xs) (ha : a ∈ xs) :
    listIsLast a head m = true ↔ xs.getLast? = some a := by
  obtain ⟨ys, zs, rfl⟩ := List.append_of_mem ha
  rw [listIsLast, h.neighbours.2]
  have hnodup := (List.nodup_cons.mp h.nodup).2
  cases zs with
  | nil => simp
  | cons z zs =>
    have hz : z ≠ head := by
      rintro rfl
      exact h.head_not_mem (by simp)
    have hlast : (z :: zs).getLast? ≠ some a := by
      intro heq
      rw [List.nodup_middle, List.nodup_cons] at hnodup
      exact hnodup.1 (List.mem_append_right ys (List.mem_of_getLast? heq))
    simpa [hz] using hlast

theorem readsAs (h : Rings m ls) : ReadsAs m ls where
  forEach hhead hfuel := by
    rw [listForEach, (h.ring hhead).ends.1]
    exact Ring.walk_next [] (h.ring hhead) hfuel
  forEachReverse {head xs fuel} hhead hfuel := by
    rw [listForEachReverse, (h.ring hhead).ends.2]
    exact Ring.walk_prev [] (by rw [List.append_nil]; exact h.ring hhead) hfuel
  empty hhead := (h.ring hhead).isEmpty_iff
  singular hhead := listIsSingular_iff (h.ring hhead)
  last hhead ha := listIsLast_iff (h.ring hhead) ha

/-! ## Runs -/

/-- Whatever was in the memory before the first list is set up, a run of calls that their callers are
entitled to follows no pointer that is not set, and every list reads forwards and backwards as the
calls make it. -/
theorem listOps_refine (m : Links α)
    (h : Along (fun ls op => some (ListOp.effect ls op)) ListOp.Rightful (fun _ => none) ops) :
    ∃ m', runFrom ListOp.run m ops = some m' ∧
      ReadsAs m' (ops.foldl ListOp.effect fun _ => none) := by
  obtain ⟨m', hrun, hrings⟩ := runFrom_simulate (R := Rings) refines_step rings_none h
    (runFrom_total ListOp.effect _ ops)
  exact ⟨m', hrun, readsAs hrings⟩

/-- Two lists: nodes are added, one is moved to the other list, one is removed, and what is left of
the first list goes behind the entries of the second. -/
def twoListsRun : List (ListOp (Fin 6)) :=
  [.init 0, .init 1, .addTail 2 0, .add 3 0, .addTail 4 0, .move 3 1, .delInit 2, .addTail 5 0,
    .spliceTailInit 0 1, .add 2 0]

theorem listOps_refine_two :
    ∃ m', runFrom ListOp.run (⟨fun _ => none, fun _ => none⟩ : Links (Fin 6)) twoListsRun = some m' ∧
      ReadsAs m' (twoListsRun.foldl ListOp.effect fun _ => none) :=
  listOps_refine _ (by decide)

example : List.map (twoListsRun.foldl ListOp.effect fun _ => none) [0, 1]
    = [some [2], some [3, 4, 5]] := by decide

end VdCamera.Sys
