import VdCamera.Roadgate.Proofs.Machines
import VdCamera.Roadgate.Proofs.Effects

/-!
# Dispatch through the handler tables

The status is shared by machines whose tables have different gaps. A run never calls through a NULL
entry if a change of the machine finds a handler for the current status, and a control that resumes
the previous status finds one for that.
-/

namespace VdCamera.Roadgate

open Misc

/-- The gate with the machine that handled it last. -/
structure Hist where
  gate : Gate
  last : Option Mode
  deriving DecidableEq

def histStep (h : Hist) (t : Tick) : Option Hist :=
  (roadgateDaemon h.gate t).map fun g => ⟨g, t.cfg.mode.or h.last⟩

/-- The machine selected at the tick knows the current status if it is a new one, and the previous
status if the first pending control makes it resume that. -/
def Compatible (h : Hist) (t : Tick) : Prop :=
  ∀ m, t.cfg.mode = some m →
    (∀ l, h.last = some l → l ≠ m → Handled m h.gate.rg.status) ∧
    (Misses m (h.gate.arrive t.env) → Handled m h.gate.rg.prevStatus)

/-- The call of the tick is through a real entry. -/
def Dispatches (g : Gate) (t : Tick) : Prop :=
  ∀ m, t.cfg.mode = some m → Handled m g.rg.status

instance : ∀ g, DecidablePred (Dispatches g) := fun g t =>
  match hm : t.cfg.mode with
  | none => isTrue fun m h => by simp [hm] at h
  | some m => decidable_of_iff (Handled m g.rg.status) (by simp [Dispatches, hm])

instance (m : Mode) (g : Gate) : Decidable (Misses m g) :=
  match hq : g.rg.ctrlLs with
  | [] => isFalse (by simp [Misses, hq])
  | c :: _ => decidable_of_iff
      (g.rg.status = .idle ∧ ctrlEntry (idleTabs m).1 (idleTabs m).2 c = none ∧
          idleMiss g c ≠ .idle ∨
        g.rg.status = .centerNc ∧ ctrlEntry (ncTabs m).1 (ncTabs m).2 c = none)
      (by simp [Misses, hq])

instance : ∀ h, DecidablePred (Compatible h) := fun h t =>
  match hm : t.cfg.mode with
  | none => isTrue fun m h => by simp [hm] at h
  | some m => decidable_of_iff
      ((∀ l ∈ h.last.toList, l ≠ m → Handled m h.gate.rg.status) ∧
        (Misses m (h.gate.arrive t.env) → Handled m h.gate.rg.prevStatus))
      (by simp [Compatible, hm])

section Step

variable {g g' : Gate} {t : Tick} {h h' : Hist}

theorem roadgateDaemon_eq_none :
    roadgateDaemon g t = none ↔ ∃ m, t.cfg.mode = some m ∧ ¬ Handled m g.rg.status := by
  unfold roadgateDaemon
  cases hm : t.cfg.mode with
  | none => simp
  | some m => simp [runMachine_eq_none, Handled]

theorem dispatches_iff : Dispatches g t ↔ roadgateDaemon g t ≠ none := by
  rw [ne_eq, roadgateDaemon_eq_none, Dispatches]
  push Not
  rfl

/-- The last machine knows the status; before any machine has run the gate is idle. -/
def Settled (h : Hist) : Prop :=
  match h.last with
  | none => h.gate.rg.status = .idle
  | some l => Handled l h.gate.rg.status

theorem handled_idle (m : Mode) : Handled m .idle := handled_of_common m ⟨by decide, by decide⟩

theorem Settled.dispatches (hs : Settled h) (hc : Compatible h t) : Dispatches h.gate t := by
  intro m hm
  unfold Settled at hs
  cases hl : h.last with
  | none =>
    rw [hl] at hs
    rw [hs]
    exact handled_idle m
  | some l =>
    rw [hl] at hs
    by_cases he : l = m
    · exact he ▸ hs
    · exact (hc m hm).1 l hl he

/-- A tick of a machine on a compatible gate leads to a status the machine knows. -/
theorem Compatible.handled {m : Mode} (hc : Compatible h t) (hm : t.cfg.mode = some m)
    (ht : roadgateDaemon h.gate t = some g') : Handled m g'.rg.status := by
  unfold roadgateDaemon at ht
  rw [hm] at ht
  obtain ⟨f, hf, rfl⟩ := runMachine_cases ht
  have hcall : Call t.env (h.gate.arrive t.env) (Handled m) (f t.env (h.gate.arrive t.env)) :=
    rgSmTab_call m (fun _ hst => hst) (hc m hm).2 hf
  simpa using hcall.target

theorem Settled.step (hs : Settled h) (hc : Compatible h t) (ht : histStep h t = some h') :
    Settled h' := by
  obtain ⟨g', hg', rfl⟩ := Option.map_eq_some_iff.1 ht
  cases hm : t.cfg.mode with
  | some m =>
    unfold Settled
    simpa [hm] using hc.handled hm hg'
  | none =>
    have : g' = h.gate.arrive t.env := by
      unfold roadgateDaemon at hg'
      rw [hm] at hg'
      exact (Option.some.inj hg').symm
    subst this
    simpa [Settled, hm] using hs

end Step

/-- No run from idle whose ticks are compatible calls through a missing handler. -/
theorem roadgateDaemon_dispatches (g : Gate) (hg : g.rg.status = .idle) (ts : List Tick)
    (hts : Along histStep Compatible ⟨g, none⟩ ts) : Along roadgateDaemon Dispatches g ts := by
  have hproj : ∀ h t, (histStep h t).map Hist.gate = roadgateDaemon h.gate t := by
    intro h t
    unfold histStep
    cases roadgateDaemon h.gate t <;> rfl
  refine (along_proj (f := Hist.gate) hproj (t := ⟨g, none⟩)).1 ?_
  exact hts.of_invariant (J := Settled) hg (fun h t h' hs hc ht => hs.step hc ht)
    fun h t hs hc => hs.dispatches hc

/-- The gate is opened for a car, closes, and is then configured for the control by the center. -/
theorem roadgateDaemon_dispatches_background :
    Along roadgateDaemon Dispatches gateInit
      [⟨envAt .vehicle .none [loUp], ⟨some .coil, some .inward, some .front⟩⟩,
        ⟨envAt .none .none [], ⟨some .coil, some .inward, some .front⟩⟩,
        ⟨envAt .none .none [manual .up], ⟨some .coil, some .inward, some .background⟩⟩] := by
  refine roadgateDaemon_dispatches gateInit rfl _ ?_
  decide

/-- The same while the gate is still open for the car: `coil_center_entrance` has no handler for
`LO_OPEN`. -/
theorem roadgateDaemon_not_dispatches_loOpen :
    ¬ Along roadgateDaemon Dispatches gateInit
      [⟨envAt .vehicle .none [loUp], ⟨some .coil, some .inward, some .front⟩⟩,
        ⟨envAt .vehicle .none [], ⟨some .coil, some .inward, some .background⟩⟩] := by
  decide

/-- A gate that resumes a status its machine does not know calls through a NULL entry on the next
tick of that machine. -/
theorem roadgateDaemon_null_of_misses {g g' : Gate} {t t' : Tick} {m : Mode}
    (hm : t.cfg.mode = some m) (hmiss : Misses m (g.arrive t.env))
    (hprev : ¬ Handled m g.rg.prevStatus) (ht : roadgateDaemon g t = some g')
    (hm' : t'.cfg.mode = some m) : roadgateDaemon g' t' = none := by
  refine roadgateDaemon_eq_none.2 ⟨m, hm', ?_⟩
  suffices g'.rg.status = g.rg.prevStatus by rwa [this]
  unfold roadgateDaemon at ht
  rw [hm] at ht
  obtain ⟨f, hf, rfl⟩ := runMachine_cases ht
  obtain ⟨c, cs, hq, ⟨hs, he, hr⟩ | ⟨hs, he⟩⟩ := hmiss
  · rw [hs, rgSmTab_idle, Option.some.injEq] at hf
    subst hf
    rw [idleHandle, tableHandle_miss hq he]
    simp only [rgRefreshStatus_status]
    unfold idleMiss at hr ⊢
    split at hr
    · exact absurd hs hr
    · rename_i hclr
      rw [if_neg hclr]
      rfl
  · rw [hs, rgSmTab_centerNc, Option.some.injEq] at hf
    subst hf
    rw [centerNcHandle, tableHandle_miss hq he]
    simp

end VdCamera.Roadgate
