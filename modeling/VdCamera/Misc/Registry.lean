import Mathlib.Data.List.Basic
import Mathlib.Data.List.Nodup

/-!
# A list of entries with distinct keys

An entry is looked for by its key; it is changed in place where it is found and put at the end where
it is not.
-/

namespace VdCamera.Misc

variable {α β κ : Type}

/-- The first entry that is found is changed; `none` where the change fails. -/
def updateFirst (found : α → Bool) (update : α → Option α) : List α → Option (List α)
  | [] => some []
  | x :: xs =>
    if found x then (update x).map (· :: xs)
    else (updateFirst found update xs).map (x :: ·)

/-- Where the change of an entry is none, the list stays as it is. -/
theorem updateFirst_self {found : α → Bool} {update : α → Option α} {xs : List α}
    (h : ∀ x ∈ xs, found x = true → update x = some x) : updateFirst found update xs = some xs := by
  induction xs with
  | nil => rfl
  | cons x xs ih =>
    have hx := h x (List.mem_cons_self ..)
    have hxs := ih fun y hy => h y (List.mem_cons_of_mem _ hy)
    unfold updateFirst
    by_cases hfound : found x = true
    · rw [if_pos hfound, hx hfound]
      rfl
    · rw [if_neg hfound, hxs]
      rfl

/-- A list is written where every entry is. -/
theorem mapM_eq_some_iff {f : α → Option β} (d : β) {xs : List α} {ys : List β} :
    xs.mapM f = some ys ↔ (∀ x ∈ xs, (f x).isSome = true) ∧ xs.map (fun x => (f x).getD d) = ys := by
  induction xs generalizing ys with
  | nil => simp
  | cons x xs ih =>
    rw [List.mapM_cons, List.forall_mem_cons, List.map_cons]
    simp only [Option.bind_eq_bind, Option.bind_eq_some_iff, ih, Option.pure_def, Option.some.injEq]
    constructor
    · rintro ⟨y, hy, zs, ⟨hall, rfl⟩, rfl⟩
      exact ⟨⟨by rw [hy]; rfl, hall⟩, by rw [hy]; rfl⟩
    · rintro ⟨⟨hx, hall⟩, rfl⟩
      obtain ⟨y, hy⟩ := Option.isSome_iff_exists.mp hx
      exact ⟨y, hy, _, ⟨hall, rfl⟩, by rw [hy]; rfl⟩

variable {key : α → κ} {xs : List α}

theorem eq_of_key_eq (hnodup : (xs.map key).Nodup) {x y : α} (hx : x ∈ xs) (hy : y ∈ xs)
    (h : key x = key y) : x = y :=
  List.inj_on_of_nodup_map hnodup hx hy h

/-- The records of a list, each put to the end as the entry that is made of it, give the list of
these entries. -/
theorem foldlM_rebuild {step : List α → β → Option (List α)} {write : α → β} {back : α → α}
    (hstep : ∀ x ∈ xs, ∀ ys : List α, key x ∉ ys.map key → step ys (write x) = some (ys ++ [back x]))
    (hkey : ∀ x ∈ xs, key (back x) = key x) (hnodup : (xs.map key).Nodup) :
    (xs.map write).foldlM step [] = some (xs.map back) := by
  have hgen : ∀ (zs ys : List α), (∀ x ∈ zs, x ∈ xs) → (zs.map key).Nodup →
      (∀ x ∈ zs, key x ∉ ys.map key) →
      (zs.map write).foldlM step ys = some (ys ++ zs.map back) := by
    intro zs
    induction zs with
    | nil =>
      intro ys _ _ _
      simp
    | cons x zs ih =>
      intro ys hsub hnodup hfresh
      have hx := hsub x (List.mem_cons_self ..)
      obtain ⟨hxzs, hzs⟩ := List.nodup_cons.mp hnodup
      rw [List.map_cons, List.foldlM_cons, hstep x hx ys (hfresh x (List.mem_cons_self ..))]
      show (zs.map write).foldlM step (ys ++ [back x]) = _
      rw [ih (ys ++ [back x]) (fun y hy => hsub y (List.mem_cons_of_mem _ hy)) hzs, List.append_assoc]
      · rfl
      · intro y hy hmem
        rw [List.map_append, List.mem_append] at hmem
        rcases hmem with hmem | hmem
        · exact hfresh y (List.mem_cons_of_mem _ hy) hmem
        · rw [List.map_singleton, List.mem_singleton, hkey x hx] at hmem
          exact hxzs (List.mem_map.mpr ⟨y, hy, hmem⟩)
  simpa using hgen xs [] (fun _ h => h) hnodup (by simp)

/-- Where no record makes an entry, none is there. -/
theorem foldlM_nothing {step : List α → β → Option (List α)} {rs : List β}
    (h : ∀ r ∈ rs, step [] r = some []) : rs.foldlM step [] = some [] := by
  induction rs with
  | nil => rfl
  | cons r rs ih =>
    rw [List.foldlM_cons, h r (List.mem_cons_self ..)]
    exact ih fun r' hr => h r' (List.mem_cons_of_mem _ hr)

end VdCamera.Misc
