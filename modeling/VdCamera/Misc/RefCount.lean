import Mathlib.Logic.Function.Basic
import Mathlib.Tactic.Common

/-!
# Objects with reference counts

An object is made with one reference, and is freed when the last one is given back. What is done to
an object that is not there is a fault. Who holds the references is up to the program: the counts
agree with `refs` when every object has as many as `refs` says, and the rules below say which counts
a step leads to, as long as it is taken by somebody who holds a reference.
-/

namespace VdCamera.Misc

/-- The objects that were made are numbered from `0`; how often each one was freed is counted. -/
structure RefHeap where
  made : Nat := 0
  count : Nat → Nat := fun _ => 0
  frees : Nat → Nat := fun _ => 0
  fault : Bool := false

namespace RefHeap

/-- The object has been made and not freed. -/
def Live (h : RefHeap) (o : Nat) : Prop := o < h.made ∧ h.frees o = 0

instance (h : RefHeap) (o : Nat) : Decidable (h.Live o) :=
  inferInstanceAs (Decidable (o < h.made ∧ h.frees o = 0))

def create (h : RefHeap) : RefHeap :=
  { h with made := h.made + 1, count := Function.update h.count h.made 1 }

/-- A read or a write of the object. -/
def touch (h : RefHeap) (o : Nat) : RefHeap := if h.Live o then h else { h with fault := true }

def retain (h : RefHeap) (o : Nat) : RefHeap :=
  if h.Live o then { h with count := Function.update h.count o (h.count o + 1) }
  else { h with fault := true }

def release (h : RefHeap) (o : Nat) : RefHeap :=
  if h.Live o then
    let count := Function.update h.count o (h.count o - 1)
    if h.count o - 1 = 0 then { h with count, frees := Function.update h.frees o (h.frees o + 1) }
    else { h with count }
  else { h with fault := true }

/-- Every object has as many references as `refs` says, and has been freed once if that is none. -/
structure Agrees (h : RefHeap) (refs : Nat → Nat) : Prop where
  fault : h.fault = false
  count : ∀ o, h.count o = refs o
  frees : ∀ o, o < h.made → h.frees o = if refs o = 0 then 1 else 0
  fresh : ∀ o, h.made ≤ o → refs o = 0 ∧ h.frees o = 0

variable {h : RefHeap} {refs refs' : Nat → Nat} {o : Nat}

/-! A fault is not undone. -/

theorem fault_touch (hfault : h.fault = true) (o : Nat) : (h.touch o).fault = true := by
  unfold touch
  split_ifs
  · exact hfault
  · rfl

theorem fault_retain (hfault : h.fault = true) (o : Nat) : (h.retain o).fault = true := by
  unfold retain
  split_ifs
  · exact hfault
  · rfl

theorem fault_release (hfault : h.fault = true) (o : Nat) : (h.release o).fault = true := by
  unfold release
  split_ifs
  · exact hfault
  · exact hfault
  · rfl

theorem agrees_empty : Agrees {} fun _ => 0 :=
  ⟨rfl, fun _ => rfl, fun _ ho => absurd ho (Nat.not_lt_zero _), fun _ _ => ⟨rfl, rfl⟩⟩

theorem Agrees.congr (ha : h.Agrees refs) (heq : ∀ o, refs' o = refs o) : h.Agrees refs' := by
  have hrefs : refs' = refs := funext heq
  rwa [hrefs]

/-- Somebody holds a reference of the object. -/
theorem Agrees.live (ha : h.Agrees refs) (ho : 0 < refs o) : h.Live o := by
  have hmade : o < h.made := by
    by_contra hnot
    have hfresh := (ha.fresh o (Nat.le_of_not_lt hnot)).1
    omega
  refine ⟨hmade, ?_⟩
  rw [ha.frees o hmade, if_neg (Nat.ne_of_gt ho)]

theorem Agrees.create (ha : h.Agrees refs)
    (hrefs : ∀ o, refs' o = refs o + if o = h.made then 1 else 0) : h.create.Agrees refs' := by
  have hzero := ha.fresh h.made (Nat.le_refl _)
  refine ⟨ha.fault, fun o => ?_, fun o ho => ?_, fun o ho => ?_⟩
  · by_cases heq : o = h.made
    · subst heq
      simp [RefHeap.create, hrefs, hzero.1]
    · simp [RefHeap.create, hrefs, heq, ha.count]
  · change o < h.made + 1 at ho
    change h.frees o = _
    by_cases heq : o = h.made
    · subst heq
      simp [hrefs, hzero]
    · rw [ha.frees o (by omega), hrefs, if_neg heq, Nat.add_zero]
  · change h.made + 1 ≤ o at ho
    have hfresh := ha.fresh o (by omega)
    rw [hrefs, if_neg (by omega)]
    exact ⟨hfresh.1, hfresh.2⟩

theorem Agrees.touch (ha : h.Agrees refs) (ho : 0 < refs o) : h.touch o = h := if_pos (ha.live ho)

theorem Agrees.retain (ha : h.Agrees refs) (ho : 0 < refs o)
    (hrefs : ∀ o', refs' o' = refs o' + if o' = o then 1 else 0) : (h.retain o).Agrees refs' := by
  have hlive := ha.live ho
  rw [RefHeap.retain, if_pos hlive]
  refine ⟨ha.fault, fun o' => ?_, fun o' hlt => ?_, fun o' hle => ?_⟩
  · by_cases heq : o' = o
    · subst heq
      simp [hrefs, ha.count]
    · simp [hrefs, heq, ha.count]
  · change h.frees o' = _
    by_cases heq : o' = o
    · subst heq
      rw [hlive.2, hrefs, if_pos rfl, if_neg (Nat.succ_ne_zero _)]
    · rw [ha.frees o' hlt, hrefs, if_neg heq, Nat.add_zero]
  · have hne : o' ≠ o := by
      rintro rfl
      exact absurd hlive.1 (Nat.not_lt_of_le hle)
    rw [hrefs, if_neg hne]
    exact ha.fresh o' hle

theorem Agrees.release (ha : h.Agrees refs)
    (hrefs : ∀ o', refs o' = refs' o' + if o' = o then 1 else 0) : (h.release o).Agrees refs' := by
  have hself := hrefs o
  rw [if_pos rfl] at hself
  have hlive := ha.live (o := o) (by omega)
  have hother : ∀ o', o' ≠ o → refs o' = refs' o' := fun o' hne => by rw [hrefs, if_neg hne]; rfl
  have hcount : ∀ o', Function.update h.count o (h.count o - 1) o' = refs' o' := by
    intro o'
    by_cases heq : o' = o
    · subst heq
      rw [Function.update_self, ha.count]
      omega
    · rw [Function.update_of_ne heq, ha.count, hother o' heq]
  have hfresh : ∀ o', h.made ≤ o' → o' ≠ o := by
    rintro o' hle rfl
    exact absurd hlive.1 (Nat.not_lt_of_le hle)
  rw [RefHeap.release, if_pos hlive]
  have hzero : h.count o - 1 = 0 ↔ refs' o = 0 := by
    rw [ha.count]
    omega
  split_ifs with hlast
  · refine ⟨ha.fault, hcount, fun o' hlt => ?_, fun o' hle => ?_⟩
    · by_cases heq : o' = o
      · subst heq
        simp [hlive.2, hzero.mp hlast]
      · simp only [Function.update_of_ne heq]
        rw [ha.frees o' hlt, hother o' heq]
    · have hne := hfresh o' hle
      simp only [Function.update_of_ne hne]
      rw [← hother o' hne]
      exact ha.fresh o' hle
  · refine ⟨ha.fault, hcount, fun o' hlt => ?_, fun o' hle => ?_⟩
    · change h.frees o' = _
      by_cases heq : o' = o
      · subst heq
        rw [hlive.2, if_neg (fun hnot => hlast (hzero.mpr hnot))]
      · rw [ha.frees o' hlt, hother o' heq]
    · rw [← hother o' (hfresh o' hle)]
      exact ha.fresh o' hle

end RefHeap

/-! ## Threads of a list -/

/-- The thread that takes a step, and the list after the step. -/
theorem exists_split_of_getElem? {α : Type*} {l : List α} {k : Nat} {a : α} (h : l[k]? = some a) :
    ∃ pre post, l = pre ++ a :: post ∧ (∀ b, l.set k b = pre ++ b :: post) ∧
      l.eraseIdx k = pre ++ post := by
  induction l generalizing k with
  | nil => simp at h
  | cons b l ih =>
    cases k with
    | zero =>
      obtain rfl : b = a := by simpa using h
      exact ⟨[], l, rfl, fun _ => rfl, rfl⟩
    | succ k =>
      obtain ⟨pre, post, rfl, hset, herase⟩ := ih (by simpa using h)
      exact ⟨b :: pre, post, rfl, fun c => by simp [hset c], by simp [herase]⟩

end VdCamera.Misc
