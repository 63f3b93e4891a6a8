import Mathlib.Data.List.Nodup
import Mathlib.Data.List.Perm.Basic
import Mathlib.Logic.Function.Basic
import Mathlib.Tactic.Common

/-!
# Rows with a file each

The rows of a table have names and a store holds a file under some of the names. `Attached` says
that what is filed under the name of a row is good for the row; `Paired` says that exactly the names
of rows have a file. The rules say what removing rows with their files and adding a row with its
file keep.
-/

namespace VdCamera.Misc

variable {α ν β : Type*}

/-- A file under the name of a row is good for that row. -/
def Attached (name : α → ν) (good : α → β → Prop) (rows : List α) (files : ν → Option β) : Prop :=
  ∀ r ∈ rows, ∀ b, files (name r) = some b → good r b

/-- Exactly the names of rows have a file. -/
def Paired (name : α → ν) (rows : List α) (files : ν → Option β) : Prop :=
  ∀ n, (files n).isSome = true ↔ n ∈ rows.map name

/-- What is left of the files without those under some names. -/
def removeFiles [DecidableEq ν] (names : List ν) (files : ν → Option β) : ν → Option β :=
  fun n => if n ∈ names then none else files n

section Files

variable [DecidableEq ν] {files : ν → Option β} {names : List ν} {n : ν} {b : β}

@[simp] theorem removeFiles_nil : removeFiles [] files = files := by
  funext n
  simp [removeFiles]

/-- Removing the files one by one. -/
theorem foldl_update_none :
    names.foldl (fun files n => Function.update files n none) files = removeFiles names files := by
  induction names generalizing files with
  | nil => exact removeFiles_nil.symm
  | cons m names ih =>
    rw [List.foldl_cons, ih]
    funext n
    by_cases hn : n = m
    · simp [removeFiles, hn]
    · simp [removeFiles, hn]

theorem removeFiles_some (h : removeFiles names files n = some b) :
    n ∉ names ∧ files n = some b := by
  unfold removeFiles at h
  split at h
  · cases h
  · exact ⟨‹_›, h⟩

end Files

variable {name : α → ν} {good : α → β → Prop} {rows rows' gone kept : List α}
  {files files' : ν → Option β} {r : α} {b : β}

namespace Attached

/-- Rows and files may be removed in any way. -/
theorem mono (h : Attached name good rows files) (hrows : rows' ⊆ rows)
    (hfiles : ∀ n b, files' n = some b → files n = some b) : Attached name good rows' files' :=
  fun r hr b hb => h r (hrows hr) b (hfiles _ b hb)

/-- A row may be added with a file that is good for all rows of its name. -/
theorem append (h : Attached name good rows files) (hother : ∀ n, n ≠ name r → files' n = files n)
    (hgood : ∀ b, files' (name r) = some b →
      good r b ∧ ∀ r' ∈ rows, name r' = name r → good r' b) :
    Attached name good (rows ++ [r]) files' := by
  intro r' hr' b hb
  rcases List.mem_append.mp hr' with hr' | hr'
  · by_cases hname : name r' = name r
    · rw [hname] at hb
      exact (hgood b hb).2 r' hr' hname
    · rw [hother _ hname] at hb
      exact h r' hr' b hb
  · rw [List.mem_singleton.mp hr'] at hb ⊢
    exact (hgood b hb).1

end Attached

theorem nodup_names_append (h : (rows.map name).Nodup) (hnew : name r ∉ rows.map name) :
    ((rows ++ [r]).map name).Nodup := by
  rw [List.map_append]
  apply h.append (List.nodup_singleton _)
  intro n hn hr
  have heq : n = name r := List.mem_singleton.mp hr
  exact hnew (heq ▸ hn)

namespace Paired

theorem empty : Paired name [] (fun _ => (none : Option β)) := by
  intro n
  simp

/-- Rows that go with their files leave the others paired. -/
theorem remove [DecidableEq ν] (h : Paired name rows files) (hnodup : (rows.map name).Nodup)
    (hrows : rows.Perm (gone ++ kept)) : Paired name kept (removeFiles (gone.map name) files) := by
  have hperm : (rows.map name).Perm (gone.map name ++ kept.map name) := by
    rw [← List.map_append]
    exact hrows.map name
  have hdisjoint := List.disjoint_of_nodup_append (hperm.nodup_iff.mp hnodup)
  intro n
  have hn : n ∈ rows.map name ↔ n ∈ gone.map name ∨ n ∈ kept.map name := by
    rw [hperm.mem_iff, List.mem_append]
  by_cases hgone : n ∈ gone.map name
  · have hkept : n ∉ kept.map name := fun hkept => hdisjoint hgone hkept
    simp [removeFiles, hgone, hkept]
  · rw [removeFiles, if_neg hgone, h n, hn]
    exact or_iff_right hgone

/-- A row that comes with its file. -/
theorem append [DecidableEq ν] (h : Paired name rows files) :
    Paired name (rows ++ [r]) (Function.update files (name r) (some b)) := by
  intro n
  rw [List.map_append, List.mem_append, List.map_singleton, List.mem_singleton]
  by_cases hn : n = name r
  · subst hn
    simp
  · rw [Function.update_of_ne hn, h n]
    simp [hn]

end Paired

end VdCamera.Misc
