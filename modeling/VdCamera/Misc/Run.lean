import Mathlib.Tactic.Common

/-!
# Runs of a step function

A system is a partial step function `σ → ι → Option σ`; a run is the list of inputs it is given.
`runFrom` is the state a run ends in and `Along` says that a condition on (state before the step,
input) holds at every step of a run. The rules below are the ones proofs about runs are made of: an
invariant of the steps is an invariant of the run, and two conditions that agree wherever the
invariant holds agree along every run.
-/

namespace VdCamera.Misc

section Run

variable {σ ι : Type*} (step : σ → ι → Option σ)

/-- The state after the inputs; `none` when some step on the way has no result. -/
def runFrom : σ → List ι → Option σ
  | s, [] => some s
  | s, i :: is => (step s i).bind fun s' => runFrom s' is

/-- Every step that the inputs take from `s` satisfies `P`. -/
def Along (P : σ → ι → Prop) : σ → List ι → Prop
  | _, [] => True
  | s, i :: is => P s i ∧ ∀ s', step s i = some s' → Along P s' is

/-- Whatever state the step leads to satisfies `Q`. -/
def After (Q : σ → Prop) (s : σ) (i : ι) : Prop := ∀ s', step s i = some s' → Q s'

variable {step}
variable {P Q : σ → ι → Prop} {J : σ → Prop} {s s' : σ} {i : ι} {is : List ι}

@[simp] theorem runFrom_nil : runFrom step s [] = some s := rfl

@[simp] theorem runFrom_cons :
    runFrom step s (i :: is) = (step s i).bind fun s' => runFrom step s' is := rfl

theorem runFrom_append (is' : List ι) :
    runFrom step s (is ++ is') = (runFrom step s is).bind fun s' => runFrom step s' is' := by
  induction is generalizing s with
  | nil => rfl
  | cons i is ih =>
    rw [List.cons_append, runFrom_cons, runFrom_cons, Option.bind_assoc]
    exact Option.bind_congr fun s' _ => ih

@[simp] theorem along_nil : Along step P s [] := trivial

@[simp] theorem along_cons :
    Along step P s (i :: is) ↔ P s i ∧ ∀ s', step s i = some s' → Along step P s' is := Iff.rfl

instance decidableAfter [DecidablePred J] (s : σ) (i : ι) : Decidable (After step J s i) :=
  match hs : step s i with
  | none => isTrue fun s' h => by simp [hs] at h
  | some s₁ => decidable_of_iff (J s₁) (by simp [After, hs])

theorem after_of_eq (hs : step s i = some s') : After step J s i ↔ J s' := by
  simp [After, hs]

instance decidableAlong [∀ s i, Decidable (P s i)] : ∀ s is, Decidable (Along step P s is)
  | _, [] => isTrue trivial
  | s, i :: is =>
    have (s₁ : σ) := decidableAlong s₁ is
    inferInstanceAs (Decidable (P s i ∧ After step (fun s' => Along step P s' is) s i))

theorem Along.mono (h : Along step P s is) (hPQ : ∀ s i, P s i → Q s i) : Along step Q s is := by
  induction is generalizing s with
  | nil => trivial
  | cons i is ih => exact ⟨hPQ _ _ h.1, fun s' hs => ih (h.2 s' hs)⟩

/-- An invariant that every allowed step keeps holds in the state in which the run ends. -/
theorem Along.invariant_end (hJ : J s) (h : Along step P s is)
    (hstep : ∀ s i s', J s → P s i → step s i = some s' → J s') (hrun : runFrom step s is = some s') :
    J s' := by
  induction is generalizing s with
  | nil => cases hrun; exact hJ
  | cons i is ih =>
    cases hs : step s i with
    | none => simp [hs] at hrun
    | some s₁ => exact ih (hstep s i s₁ hJ h.1 hs) (h.2 s₁ hs) (by simpa [hs] using hrun)

/-- Where the invariant makes a step satisfy `Q`, the whole run does. -/
theorem Along.of_invariant (hJ : J s) (h : Along step P s is)
    (hstep : ∀ s i s', J s → P s i → step s i = some s' → J s')
    (hQ : ∀ s i, J s → P s i → Q s i) : Along step Q s is := by
  induction is generalizing s with
  | nil => trivial
  | cons i is ih =>
    exact ⟨hQ s i hJ h.1, fun s' hs => ih (hstep s i s' hJ h.1 hs) (h.2 s' hs)⟩

/-- Along a run whose steps satisfy `U`, two conditions that agree wherever the invariant holds
agree, if the steps keep the invariant as long as the first one holds. -/
theorem Along.congr {U : σ → ι → Prop} (hU : Along step U s is) (hJ : J s)
    (hstep : ∀ s i s', J s → U s i → P s i → step s i = some s' → J s')
    (hPQ : ∀ s i, J s → U s i → (P s i ↔ Q s i)) : Along step P s is ↔ Along step Q s is := by
  induction is generalizing s with
  | nil => simp
  | cons i is ih =>
    obtain ⟨hu, hU⟩ := hU
    simp only [along_cons, hPQ s i hJ hu]
    refine and_congr_right fun hq => forall₂_congr fun s' hs => ih (hU s' hs) ?_
    exact hstep s i s' hJ hu ((hPQ s i hJ hu).2 hq) hs

theorem along_true : Along step (fun _ _ => True) s is := by
  induction is generalizing s with
  | nil => trivial
  | cons i is ih => exact ⟨trivial, fun s' _ => ih⟩

/-- A condition on the inputs alone. -/
theorem along_of_forall {U : ι → Prop} (h : ∀ i ∈ is, U i) : Along step (fun _ i => U i) s is := by
  induction is generalizing s with
  | nil => trivial
  | cons i is ih =>
    exact ⟨h i (List.mem_cons_self ..), fun s' _ => ih fun j hj => h j (List.mem_cons_of_mem _ hj)⟩

theorem along_congr (hJ : J s) (hstep : ∀ s i s', J s → P s i → step s i = some s' → J s')
    (hPQ : ∀ s i, J s → (P s i ↔ Q s i)) : Along step P s is ↔ Along step Q s is :=
  along_true.congr hJ (fun s i s' hJ _ => hstep s i s' hJ) fun s i hJ _ => hPQ s i hJ

/-- A run that carries more in its state satisfies what its projection does. -/
theorem along_proj {τ : Type*} {step' : τ → ι → Option τ} {f : τ → σ}
    (hf : ∀ t i, (step' t i).map f = step (f t) i) {t : τ} :
    Along step' (fun t i => P (f t) i) t is ↔ Along step P (f t) is := by
  induction is generalizing t with
  | nil => simp
  | cons i is ih =>
    rw [along_cons, along_cons, ← hf t i]
    refine and_congr_right fun _ => ⟨fun h s' hs => ?_, fun h t' ht => ?_⟩
    · obtain ⟨t', ht', rfl⟩ := Option.map_eq_some_iff.1 hs
      exact ih.1 (h t' ht')
    · exact ih.2 (h (f t') (by rw [ht, Option.map_some]))

/-- A system whose steps are simulated is simulated along every run. -/
theorem runFrom_simulate {τ : Type*} {step' : τ → ι → Option τ} {R : σ → τ → Prop} {P : τ → ι → Prop}
    {t t' : τ}
    (hstep : ∀ s t i t', R s t → P t i → step' t i = some t' → ∃ s', step s i = some s' ∧ R s' t')
    (hR : R s t) (h : Along step' P t is) (hrun : runFrom step' t is = some t') :
    ∃ s', runFrom step s is = some s' ∧ R s' t' := by
  induction is generalizing s t with
  | nil =>
    cases hrun
    exact ⟨s, rfl, hR⟩
  | cons i is ih =>
    cases ht : step' t i with
    | none => simp [ht] at hrun
    | some t₁ =>
      obtain ⟨s₁, hs, hR₁⟩ := hstep s t i t₁ hR h.1 ht
      obtain ⟨s', hrun', hR'⟩ := ih hR₁ (h.2 t₁ ht) (by simpa [ht] using hrun)
      exact ⟨s', by simp [hs, hrun'], hR'⟩

/-- A run of steps that always have a result. -/
theorem runFrom_total (f : σ → ι → σ) (s : σ) (is : List ι) :
    runFrom (fun s i => some (f s i)) s is = some (is.foldl f s) := by
  induction is generalizing s with
  | nil => rfl
  | cons i is ih => exact ih (f s i)

end Run

end VdCamera.Misc
