import VdCamera.Platform.RecordPool
import VdCamera.Misc.Run
import Mathlib.Data.Finset.Card

/-!
# When the record pool does not leak

A block is in use from the arrival of its record on, and no deletion gives it back. So the blocks in
use are those of the records still to be deleted as long as no record arrives that nobody is handed
and no record is deleted for the last time.
-/

namespace VdCamera.Platform

open Misc Sys

/-- The blocks whose record some platform has still to delete. -/
def Pfm.recordsPending (s : Pfm) : Finset Nat := s.pending.image Prod.snd

/-- A platform deletes only a record that it was handed and has not deleted. -/
def Pfm.Rightful (s : Pfm) : PfmCall → Prop
  | .recordDel id b => (id, b) ∈ s.pending
  | _ => True

/-- The call returns; after it as many blocks are in use as there are records still to be deleted;
the arrival of a record fails only while `PFM_REC_POOL_ENTRY_NUM` are; and when there is none the
pool is full. -/
def Pfm.NoLeak (asserts : Bool) (s : Pfm) (i : PfmCall) : Prop :=
  ∃ ret s', pfmCall asserts s i = some (ret, s') ∧
    s'.recPo.nrUsed = s'.recordsPending.card ∧
    (i = .recordRecv → ret ≠ 0 → s.recordsPending.card = PFM_REC_POOL_ENTRY_NUM) ∧
    (s'.recordsPending = ∅ → s'.recPo.free.length = PFM_REC_POOL_ENTRY_NUM)

/-- A record that gets a block is handed to some platform; a platform that deletes a record is not
the last one to do so, and the assertions do not stop it. -/
def Pfm.Kept (asserts : Bool) (s : Pfm) : PfmCall → Prop
  | .recordRecv => s.recPo.free = [] ∨ s.receivers ≠ []
  | .recordDel id b => asserts = false ∧ ∃ p ∈ s.pending, p.1 ≠ id ∧ p.2 = b
  | _ => True

instance (s : Pfm) : ∀ i, Decidable (s.Rightful i)
  | .start _ | .stop _ | .recordRecv => isTrue trivial
  | .recordDel id b => inferInstanceAs (Decidable ((id, b) ∈ s.pending))

instance (asserts : Bool) (s : Pfm) : ∀ i, Decidable (s.Kept asserts i)
  | .start _ | .stop _ => isTrue trivial
  | .recordRecv => inferInstanceAs (Decidable (s.recPo.free = [] ∨ s.receivers ≠ []))
  | .recordDel id b =>
    inferInstanceAs (Decidable (asserts = false ∧ ∃ p ∈ s.pending, p.1 ≠ id ∧ p.2 = b))

/-- What holds between the masks, the pool and the records still to be deleted while nothing leaks.
-/
structure Pfm.Inv (s : Pfm) : Prop where
  total : s.recPo.nrTotal = PFM_REC_POOL_ENTRY_NUM
  used : s.recPo.nrUsed = s.recordsPending.card
  nodup : s.recPo.free.Nodup
  fresh : ∀ b ∈ s.recPo.free, b ∉ s.recordsPending
  bits : ∀ id b, (id, b) ∈ s.pending → id ∈ s.mask b

variable {asserts : Bool} {s s' : Pfm} {i : PfmCall} {id b : Nat} {ret : Int}

theorem mem_recordsPending : b ∈ s.recordsPending ↔ ∃ id, (id, b) ∈ s.pending := by
  simp [Pfm.recordsPending]

theorem Pfm.Inv.length_free (h : s.Inv) :
    (s.recPo.free.length : Int) = PFM_REC_POOL_ENTRY_NUM - s.recordsPending.card := by
  rw [s.recPo.length_free, h.total, h.used]

/-- What is left of a call's result once the invariant holds after it. -/
theorem noLeak_of_inv (hcall : pfmCall asserts s i = some (ret, s')) (h : s'.Inv)
    (hfail : i = .recordRecv → ret ≠ 0 → s.recordsPending.card = PFM_REC_POOL_ENTRY_NUM) :
    s.NoLeak asserts i := by
  refine ⟨ret, s', hcall, h.used, hfail, ?_⟩
  intro hnone
  have hlen := h.length_free
  rw [hnone, Finset.card_empty] at hlen
  omega

/-! ## Starting and stopping -/

theorem Pfm.Inv.start (h : s.Inv) (id : Nat) : (pfmStart id s).2.Inv := by
  unfold pfmStart
  split_ifs
  · exact ⟨h.total, h.used, h.nodup, h.fresh, h.bits⟩
  · exact h

theorem Pfm.Inv.stop (h : s.Inv) (id : Nat) : (pfmStop id s).2.Inv := by
  unfold pfmStop
  split_ifs
  · exact ⟨h.total, h.used, h.nodup, h.fresh, h.bits⟩
  · exact h

/-! ## A record arrives -/

theorem pfmRecordRecv_full (h : s.recPo.free = []) : pfmRecordRecv s = (-1, s) := by
  unfold pfmRecordRecv
  rw [getFromPool_eq_none.mpr h]

/-- The records pending after an arrival. -/
theorem recordsPending_recv {po : Pool} (hget : getFromPool s.recPo = some (b, po)) :
    (pfmRecordRecv s).2.recordsPending =
      if s.receivers = [] then s.recordsPending else insert b s.recordsPending := by
  ext b'
  simp only [pfmRecordRecv, hget, Pfm.recordsPending, Finset.image_union, Finset.mem_union]
  by_cases hrecv : s.receivers = []
  · simp [hrecv]
  · obtain ⟨id, hid⟩ := List.exists_mem_of_ne_nil _ hrecv
    simp only [hrecv, if_false, Finset.mem_insert, Finset.mem_image, List.mem_toFinset]
    constructor
    · rintro (hb | ⟨-, ⟨⟨-, -, rfl⟩, rfl⟩⟩)
      · exact Or.inr hb
      · exact Or.inl rfl
    · rintro (rfl | hb)
      · exact Or.inr ⟨(id, b'), ⟨id, hid, rfl⟩, rfl⟩
      · exact Or.inl hb

theorem Pfm.Inv.recv {po : Pool} (h : s.Inv) (hget : getFromPool s.recPo = some (b, po))
    (hrecv : s.receivers ≠ []) : (pfmRecordRecv s).2.Inv := by
  obtain ⟨hfree, hused, htotal⟩ := getFromPool_some hget
  have hpending := recordsPending_recv hget
  rw [if_neg hrecv] at hpending
  have hb : b ∉ s.recordsPending := h.fresh b (by rw [hfree]; exact List.mem_cons_self)
  have hnodup := h.nodup
  rw [hfree, List.nodup_cons] at hnodup
  have hpo : (pfmRecordRecv s).2.recPo = po := by rw [pfmRecordRecv, hget]
  refine ⟨?_, ?_, ?_, ?_, ?_⟩
  · rw [hpo, htotal, h.total]
  · rw [hpo, hpending, Finset.card_insert_of_notMem hb, hused, h.used]
    rfl
  · rw [hpo]
    exact hnodup.2
  · intro b' hb'
    rw [hpo] at hb'
    rw [hpending, Finset.mem_insert]
    rintro (rfl | hmem)
    · exact hnodup.1 hb'
    · exact h.fresh b' (by rw [hfree]; exact List.mem_cons_of_mem _ hb') hmem
  · intro id b' hmem
    simp only [pfmRecordRecv, hget, Finset.mem_union, Finset.mem_image, List.mem_toFinset,
      Prod.mk.injEq] at hmem ⊢
    rcases hmem with hmem | ⟨id', hid', rfl, rfl⟩
    · have hne : b' ≠ b := by
        rintro rfl
        exact hb (mem_recordsPending.mpr ⟨id, hmem⟩)
      rw [Function.update_of_ne hne]
      exact h.bits id b' hmem
    · rw [Function.update_self]
      exact of_decide_eq_true (List.mem_filter.mp hid').2

/-- Nothing leaks when a record arrives if and only if it finds no block or somebody is handed it.
-/
theorem noLeak_recv_iff (h : s.Inv) :
    s.NoLeak asserts .recordRecv ↔ s.recPo.free = [] ∨ s.receivers ≠ [] := by
  constructor
  · rintro ⟨ret, s', hcall, hused, -⟩
    by_contra hnot
    obtain ⟨hfree, hrecv⟩ := not_or.mp hnot
    rw [not_not] at hrecv
    cases hget : getFromPool s.recPo with
    | none => exact hfree (getFromPool_eq_none.mp hget)
    | some p =>
      obtain ⟨b, po⟩ := p
      obtain ⟨-, hpo, -⟩ := getFromPool_some hget
      have hpending := recordsPending_recv hget
      rw [if_pos hrecv] at hpending
      have hs' : s' = (pfmRecordRecv s).2 := by
        simp only [pfmCall, Option.some.injEq] at hcall
        rw [hcall]
      have hpo' : s'.recPo = po := by rw [hs', pfmRecordRecv, hget]
      rw [hpo', hpo, hs', hpending, h.used] at hused
      omega
  · intro hkept
    by_cases hfree : s.recPo.free = []
    · refine noLeak_of_inv (congrArg some (pfmRecordRecv_full hfree)) h ?_
      intro _ _
      have hlen := h.length_free
      rw [hfree, List.length_nil] at hlen
      omega
    · cases hget : getFromPool s.recPo with
      | none => exact absurd (getFromPool_eq_none.mp hget) hfree
      | some p =>
        refine noLeak_of_inv rfl (h.recv hget (hkept.resolve_left hfree)) ?_
        intro _ hret
        have hzero : (pfmRecordRecv s).1 = 0 := by simp only [pfmRecordRecv, hget]
        exact absurd hzero hret

/-! ## A record is deleted -/

/-- The records pending after a deletion that is not the last one of its record. -/
theorem recordsPending_erase_of_other (hother : ∃ p ∈ s.pending, p.1 ≠ id ∧ p.2 = b) :
    (s.pending.erase (id, b)).image Prod.snd = s.recordsPending := by
  refine Finset.Subset.antisymm (Finset.image_subset_image (Finset.erase_subset _ _)) ?_
  intro b' hb'
  obtain ⟨id', hmem⟩ := mem_recordsPending.mp hb'
  by_cases hb : b' = b
  · obtain ⟨⟨id'', b''⟩, hmem'', hne, rfl⟩ := hother
    subst hb
    exact Finset.mem_image.mpr ⟨(id'', b'), Finset.mem_erase.mpr
      ⟨fun heq => hne (congrArg Prod.fst heq), hmem''⟩, rfl⟩
  · exact Finset.mem_image.mpr ⟨(id', b'), Finset.mem_erase.mpr
      ⟨fun heq => hb (congrArg Prod.snd heq), hmem⟩, rfl⟩

/-- The records pending after the last deletion of a record. -/
theorem recordsPending_erase_of_last (hlast : ¬ ∃ p ∈ s.pending, p.1 ≠ id ∧ p.2 = b) :
    (s.pending.erase (id, b)).image Prod.snd = s.recordsPending.erase b := by
  ext b'
  rw [Finset.mem_erase, mem_recordsPending, Finset.mem_image]
  constructor
  · rintro ⟨⟨id', b''⟩, herase, rfl⟩
    obtain ⟨hne, hmem⟩ := Finset.mem_erase.mp herase
    refine ⟨?_, id', hmem⟩
    rintro rfl
    by_cases hid : id' = id
    · exact hne (by rw [hid])
    · exact hlast ⟨_, hmem, hid, rfl⟩
  · rintro ⟨hb, id', hmem⟩
    exact ⟨(id', b'), Finset.mem_erase.mpr ⟨fun heq => hb (congrArg Prod.snd heq), hmem⟩, rfl⟩

/-- The state after a deletion, when no assertion stops it. -/
def Pfm.deleted (s : Pfm) (id b : Nat) : Pfm :=
  { s with
    mask := Function.update s.mask b ((s.mask b).erase id)
    pending := s.pending.erase (id, b) }

theorem pfmRecordDel_eq (asserts : Bool) (h : s.Inv) (hmem : (id, b) ∈ s.pending) :
    pfmRecordDel asserts id b s = if asserts = true then none else some (0, s.deleted id b) := by
  have hbit := h.bits id b hmem
  cases asserts with
  | true => simp [pfmRecordDel, hbit]
  | false => simp [pfmRecordDel, maskIsNull, Pfm.deleted]

theorem Pfm.Inv.del (h : s.Inv) (hother : ∃ p ∈ s.pending, p.1 ≠ id ∧ p.2 = b) :
    (s.deleted id b).Inv := by
  have hpending : (s.deleted id b).recordsPending = s.recordsPending :=
    recordsPending_erase_of_other hother
  refine ⟨h.total, ?_, h.nodup, ?_, ?_⟩
  · rw [hpending]
    exact h.used
  · rw [hpending]
    exact h.fresh
  · intro id' b' hmem
    obtain ⟨hne, hmem⟩ := Finset.mem_erase.mp hmem
    have hbit := h.bits id' b' hmem
    simp only [Pfm.deleted]
    by_cases hb : b' = b
    · subst hb
      rw [Function.update_self, Finset.mem_erase]
      exact ⟨fun hid => hne (by rw [hid]), hbit⟩
    · rw [Function.update_of_ne hb]
      exact hbit

/-- Nothing leaks when a record is deleted if and only if it was not for the last time. -/
theorem noLeak_del_iff (h : s.Inv) (hmem : (id, b) ∈ s.pending) :
    s.NoLeak asserts (.recordDel id b) ↔
      asserts = false ∧ ∃ p ∈ s.pending, p.1 ≠ id ∧ p.2 = b := by
  have hdel := pfmRecordDel_eq asserts h hmem
  constructor
  · rintro ⟨ret, s', hcall, hused, -⟩
    simp only [pfmCall, hdel] at hcall
    split_ifs at hcall with hasserts
    refine ⟨by simpa using hasserts, ?_⟩
    by_contra hother
    cases hcall
    have hb : b ∈ s.recordsPending := mem_recordsPending.mpr ⟨id, hmem⟩
    have hpending : (s.deleted id b).recordsPending = s.recordsPending.erase b :=
      recordsPending_erase_of_last hother
    have hpos : 0 < s.recordsPending.card := Finset.card_pos.mpr ⟨b, hb⟩
    have hused' : s.recPo.nrUsed = (s.recordsPending.erase b).card := hpending ▸ hused
    rw [h.used, Finset.card_erase_of_mem hb] at hused'
    omega
  · rintro ⟨rfl, hother⟩
    rw [if_neg Bool.false_ne_true] at hdel
    exact noLeak_of_inv hdel (h.del hother) nofun

/-! ## All calls -/

/-- One call leaks nothing if and only if it keeps its record. -/
theorem noLeak_iff_kept (h : s.Inv) (hright : s.Rightful i) :
    s.NoLeak asserts i ↔ s.Kept asserts i := by
  cases i with
  | start id => exact iff_of_true (noLeak_of_inv rfl (h.start id) nofun) trivial
  | stop id => exact iff_of_true (noLeak_of_inv rfl (h.stop id) nofun) trivial
  | recordRecv => exact noLeak_recv_iff h
  | recordDel id b => exact noLeak_del_iff h hright

theorem Pfm.Inv.step (h : s.Inv) (hright : s.Rightful i) (hkept : s.Kept asserts i)
    (hstep : pfmStep asserts s i = some s') : s'.Inv := by
  cases i with
  | start id =>
    cases hstep
    exact h.start id
  | stop id =>
    cases hstep
    exact h.stop id
  | recordRecv =>
    cases hstep
    by_cases hfree : s.recPo.free = []
    · rw [pfmRecordRecv_full hfree]
      exact h
    · cases hget : getFromPool s.recPo with
      | none => exact absurd (getFromPool_eq_none.mp hget) hfree
      | some p => exact h.recv hget (hkept.resolve_left hfree)
  | recordDel id b =>
    obtain ⟨rfl, hother⟩ := hkept
    have hdel := pfmRecordDel_eq false h hright
    rw [if_neg Bool.false_ne_true] at hdel
    simp only [pfmStep, pfmCall, hdel, Option.map_some, Option.some.injEq] at hstep
    rw [← hstep]
    exact h.del hother

theorem inv_init (ids : List Nat) : Pfm.Inv { suspend := ids } where
  total := rfl
  used := rfl
  nodup := List.nodup_range
  fresh := fun b _ => Finset.notMem_empty b
  bits := fun id b hmem => absurd hmem (Finset.notMem_empty (id, b))

/-- In a run whose deletions are rightful no call leaks if and only if each one keeps its record. -/
theorem pfm_noLeak_iff (asserts : Bool) (ids : List Nat) {is : List PfmCall}
    (hright : Along (pfmStep asserts) Pfm.Rightful { suspend := ids } is) :
    Along (pfmStep asserts) (Pfm.NoLeak asserts) { suspend := ids } is ↔
      Along (pfmStep asserts) (Pfm.Kept asserts) { suspend := ids } is := by
  refine hright.congr (inv_init ids) ?_ fun s i h hr => noLeak_iff_kept h hr
  intro s i s' h hr hno hstep
  exact h.step hr ((noLeak_iff_kept h hr).mp hno) hstep

/-- Two platforms; a record that one of them deletes. -/
theorem pfm_noLeak_two : Along (pfmStep false) (Pfm.NoLeak false) { suspend := [0, 1] }
    [.start 0, .start 1, .recordRecv, .recordDel 0 0, .stop 1] :=
  (pfm_noLeak_iff false [0, 1] (by decide)).mpr (by decide)

/-- The only platform deletes the record that it was handed, and its block stays in use. -/
theorem pfm_leaks : ∃ s,
    Along (pfmStep false) Pfm.Rightful { suspend := [0] } [.start 0, .recordRecv, .recordDel 0 0] ∧
      runFrom (pfmStep false) { suspend := [0] } [.start 0, .recordRecv, .recordDel 0 0] = some s ∧
      s.recordsPending = ∅ ∧ s.recPo.nrUsed = 1 :=
  ⟨_, by decide, rfl, by decide, rfl⟩

end VdCamera.Platform
