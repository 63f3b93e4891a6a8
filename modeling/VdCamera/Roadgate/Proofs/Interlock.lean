import VdCamera.Roadgate.Proofs.Machines
import VdCamera.Roadgate.Proofs.Effects

/-!
# The interlock of the down relay

Whatever the machine, the configuration and the state, the down relay is pulsed only after the safe
coil was read as free in the same tick and the up signal was released, so the two relays are never
asserted together.
-/

namespace VdCamera.Roadgate

open Misc

/-- The port after the operations of a log. -/
def portAfter (p : Pcf8574) (log : List PortOp) : Pcf8574 := log.foldl Pcf8574.apply p

/-- Before every down pulse of the tick the safe coil was read as free and the up signal was
released, and it is still released. -/
def DownGuarded (p : Pcf8574) (log : List PortOp) : Prop :=
  ∀ pre post, log = pre ++ .setBit .dn false :: post →
    .readSafeCoil .none ∈ pre ∧ .setBit .up true ∈ pre ∧ (portAfter p pre).upOn = false

/-- The relays are not asserted together at any point of the tick. -/
def NeverBoth (p : Pcf8574) (log : List PortOp) : Prop :=
  ∀ pre post, log = pre ++ post → ¬ ((portAfter p pre).upOn = true ∧ (portAfter p pre).dnOn = true)

theorem append_singleton_eq {α : Type*} {l pre post : List α} {a : α} (h : l ++ [a] = pre ++ post) :
    (post = [] ∧ pre = l ++ [a]) ∨ ∃ post', post = post' ++ [a] ∧ l = pre ++ post' := by
  rcases List.eq_nil_or_concat post with rfl | ⟨post', b, rfl⟩
  · exact .inl ⟨rfl, by simpa using h.symm⟩
  · rw [List.concat_eq_append, ← List.append_assoc] at h
    obtain ⟨hl, hb⟩ := List.append_inj' h rfl
    exact .inr ⟨post', by simpa using hb.symm, hl⟩

section Log

variable {p : Pcf8574} {log : List PortOp} {op : PortOp}

@[simp] theorem portAfter_append : portAfter p (log ++ [op]) = (portAfter p log).apply op := by
  simp [portAfter]

theorem DownGuarded.append (h : DownGuarded p log)
    (hop : op = .setBit .dn false → .readSafeCoil .none ∈ log ∧ .setBit .up true ∈ log ∧
      (portAfter p log).upOn = false) : DownGuarded p (log ++ [op]) := by
  intro pre post hlog
  rcases append_singleton_eq hlog with ⟨hnil, _⟩ | ⟨post', hpost, hpre⟩
  · cases hnil
  · cases post' with
    | nil =>
      simp only [List.nil_append, List.cons.injEq] at hpost
      rw [List.append_nil] at hpre
      subst hpre
      exact hop hpost.1.symm
    | cons o post' =>
      rw [List.cons_append, List.cons.injEq] at hpost
      exact h pre post' (by rw [hpre, hpost.1])

theorem NeverBoth.append (h : NeverBoth p log)
    (hop : ¬ (((portAfter p log).apply op).upOn = true ∧ ((portAfter p log).apply op).dnOn = true)) :
    NeverBoth p (log ++ [op]) := by
  intro pre post hlog
  rcases append_singleton_eq hlog with ⟨_, rfl⟩ | ⟨post', _, hpre⟩
  · rwa [portAfter_append]
  · exact h pre post' hpre

end Log

/-- The state of a tick that started with the port `p`. -/
structure Interlocked (p : Pcf8574) (g : Gate) : Prop where
  port_eq : g.port = portAfter p g.log
  guarded : DownGuarded p g.log
  released : p.dnOn = false → g.port.dnOn = false ∧ NeverBoth p g.log

section Ops

variable {p : Pcf8574} {g : Gate} {op : PortOp}

theorem Interlocked.emit (h : Interlocked p g) (hop : op ≠ .setBit .dn false) :
    Interlocked p (g.emit op) where
  port_eq := by simp [h.port_eq]
  guarded := h.guarded.append fun ho => absurd ho hop
  released := by
    intro hp
    obtain ⟨hdn, hboth⟩ := h.released hp
    have hdn' : (g.port.apply op).dnOn = false := by
      rw [Pcf8574.dnOn_apply]
      split
      · rename_i v
        cases v
        · exact absurd rfl hop
        · rfl
      · exact hdn
    refine ⟨hdn', hboth.append ?_⟩
    rw [← h.port_eq, hdn']
    simp

/-- A down pulse keeps the interlock where the two readings have been taken. -/
theorem Interlocked.down (h : Interlocked p g) (hsafe : .readSafeCoil .none ∈ g.log)
    (hclr : .setBit .up true ∈ g.log) (hup : g.port.upOn = false) : Interlocked p (rgDown g) := by
  have hpulse : DownGuarded p (g.log ++ [.setBit .dn false]) :=
    h.guarded.append fun _ => ⟨hsafe, hclr, h.port_eq ▸ hup⟩
  refine ⟨by simp [rgDown, h.port_eq, portAfter], hpulse.append (by simp), fun hp => ⟨rfl, ?_⟩⟩
  refine ((h.released hp).2.append ?_).append ?_
  · rw [← h.port_eq]
    simp [hup]
  · simp

theorem Interlocked.downS (h : Interlocked p g) (env : Env) : Interlocked p (rgDownS env g) := by
  have hread : Interlocked p (g.emit (.readSafeCoil env.safeCoil)) := h.emit (by simp)
  unfold rgDownS
  dsimp only
  split
  · rename_i hsafe
    have hclr : Interlocked p (rgClrUpSignal (g.emit (.readSafeCoil env.safeCoil))) :=
      hread.emit (by simp)
    exact hclr.down (by simp [rgClrUpSignal, hsafe]) (by simp [rgClrUpSignal]) rfl
  · exact hread

theorem Interlocked.portFn (h : Interlocked p g) (env : Env) {f : Env → Gate → Gate}
    (hf : PortFn f) : Interlocked p (f env g) := by
  cases hf with
  | dummy => exact h
  | setUp => exact h.emit (by simp)
  | clrUp => exact h.emit (by simp)
  | stop => exact (h.emit (by simp)).emit (by simp)
  | downS => exact h.downS env
  | frontSetUp =>
    unfold frontSetUpSignal
    split
    · exact h.emit (by simp)
    · exact h
  | centerSetUp => exact (h.emit (by simp)).emit (by simp)

/-- The gate's own data play no part. -/
theorem Interlocked.withRg (h : Interlocked p g) (rg : Rg) : Interlocked p { g with rg := rg } :=
  ⟨h.port_eq, h.guarded, h.released⟩

theorem Interlocked.del (h : Interlocked p g) (c : RgCtrl) : Interlocked p (rgDelNewCtrl g c) :=
  (h.emit (by simp)).withRg _

theorem Interlocked.call {env : Env} {T : Status → Prop} {r : Gate × Status} (h : Interlocked p g)
    (hc : Call env g T r) : Interlocked p r.1 := by
  cases hc with
  | keep _ => exact h
  | clr _ => exact h.emit (by simp)
  | del c _ => exact h.del c
  | delClr c _ => exact (h.del c).emit (by simp)
  | take c hf _ => exact ((h.portFn env hf).withRg _).del c

theorem interlocked_arrive (g : Gate) (env : Env) : Interlocked g.port (g.arrive env) where
  port_eq := rfl
  guarded := by simp [DownGuarded]
  released := by
    intro hp
    refine ⟨hp, ?_⟩
    intro pre post hlog
    obtain ⟨rfl, rfl⟩ := List.append_eq_nil_iff.1 hlog.symm
    simp [portAfter, hp]

theorem roadgateDaemon_interlocked {g g' : Gate} {t : Tick} (ht : roadgateDaemon g t = some g') :
    Interlocked g.port g' := by
  unfold roadgateDaemon at ht
  cases hm : t.cfg.mode with
  | none =>
    rw [hm] at ht
    cases ht
    exact interlocked_arrive g t.env
  | some m =>
    rw [hm] at ht
    obtain ⟨h, hh, rfl⟩ := runMachine_cases ht
    have hcall : Call t.env (g.arrive t.env) (fun _ => True) (h t.env (g.arrive t.env)) :=
      rgSmTab_call m (fun _ _ => trivial) (fun _ => trivial) hh
    exact ((interlocked_arrive g t.env).call hcall).withRg _

end Ops

/-- In every tick of every run, whatever the configurations, the controls and the readings: a down
pulse comes after a free reading of the safe coil and after the release of the up signal; and if the
down relay is released at the start, the two relays are never asserted together. -/
theorem roadgate_interlock (g : Gate) (ts : List Tick) :
    Along roadgateDaemon (fun g t => After roadgateDaemon
      (fun g' => g'.port = portAfter g.port g'.log ∧ DownGuarded g.port g'.log) g t) g ts ∧
    (g.port.dnOn = false → Along roadgateDaemon (fun g t => After roadgateDaemon
      (fun g' => NeverBoth g.port g'.log) g t) g ts) := by
  constructor
  · apply (along_true (s := g)).mono
    intro g t _ g' ht
    have hi := roadgateDaemon_interlocked ht
    exact ⟨hi.port_eq, hi.guarded⟩
  · intro hdn
    refine along_true.of_invariant (J := fun g => g.port.dnOn = false) hdn ?_ ?_
    · intro g t g' hdn _ ht
      exact ((roadgateDaemon_interlocked ht).released hdn).1
    · intro g t hdn _ g' ht
      exact ((roadgateDaemon_interlocked ht).released hdn).2

/-- A manual close on a free and on an occupied safe coil. -/
theorem roadgate_interlock_close :
    Along roadgateDaemon (fun g t => After roadgateDaemon
      (fun g' => NeverBoth g.port g'.log) g t) gateInit
      [⟨envAt .none .none [manual .dn], ⟨some .coil, some .inward, some .front⟩⟩,
        ⟨envAt .none .vehicle [manual .dn], ⟨some .coil, some .outward, some .mix⟩⟩] :=
  (roadgate_interlock gateInit _).2 rfl

end VdCamera.Roadgate
