import VdCamera.Roadgate.Handlers

/-!
# Effects of the handlers

What the proofs about a machine need of a handler call: the next status, the up signal, whether the
up relay was asserted during the call, and the control that was deleted. `Realizes` says that a call
has an effect; the lemmas give it for the generic handlers, so that no later proof unfolds them.
-/

namespace VdCamera.Roadgate

structure Effect where
  next : Status
  upOn : Bool
  raised : Bool
  taken : Option RgCtrl

/-- The call of a port function on `g`: the gate's data are untouched, and the up signal is `up`. -/
structure PortEffect (g g' : Gate) (up raised : Bool) : Prop where
  rg : g'.rg = g.rg
  upOn : g'.port.upOn = up
  raised : .setBit .up false ∈ g'.log ↔ .setBit .up false ∈ g.log ∨ raised = true
  taken : ∀ c, .delCtrl c ∈ g'.log ↔ .delCtrl c ∈ g.log

structure Realizes (g : Gate) (r : Gate × Status) (e : Effect) : Prop where
  status : r.1.rg.status = g.rg.status
  prevStatus : r.1.rg.prevStatus = g.rg.prevStatus
  ctrlLs : r.1.rg.ctrlLs = if e.taken.isSome then g.rg.ctrlLs.tail else g.rg.ctrlLs
  next : r.2 = e.next
  upOn : r.1.port.upOn = e.upOn
  raised : .setBit .up false ∈ r.1.log ↔ .setBit .up false ∈ g.log ∨ e.raised = true
  taken : ∀ c, .delCtrl c ∈ r.1.log ↔ .delCtrl c ∈ g.log ∨ e.taken = some c

section PortFunctions

variable (env : Env) (g : Gate)

theorem doDummy_effect : PortEffect g (doDummy env g) g.port.upOn false := by
  constructor <;> simp [doDummy]

theorem rgSetUpSignal_effect : PortEffect g (port rgSetUpSignal env g) true true := by
  constructor <;> simp [port, rgSetUpSignal]

theorem rgClrUpSignal_effect : PortEffect g (port rgClrUpSignal env g) false false := by
  constructor <;> simp [port, rgClrUpSignal]

theorem rgStop_effect : PortEffect g (port rgStop env g) g.port.upOn false := by
  constructor <;> simp [port, rgStop]

theorem rgDownS_effect :
    PortEffect g (rgDownS env g) (if env.safeCoil = .none then false else g.port.upOn) false := by
  by_cases h : env.safeCoil = .none <;> constructor <;>
    simp [rgDownS, rgDown, rgClrUpSignal, h]

theorem frontSetUpSignal_effect :
    PortEffect g (frontSetUpSignal env g) (g.port.upOn || env.inCoil == .vehicle)
      (env.inCoil == .vehicle) := by
  by_cases h : env.inCoil = .vehicle <;> constructor <;>
    simp [frontSetUpSignal, rgSetUpSignal, h]

end PortFunctions

section Calls

variable {env : Env} {g g' : Gate} {c : RgCtrl} {cs : List RgCtrl} {up raised : Bool} {st : Status}

/-- A call that deletes nothing. -/
theorem PortEffect.realizes (h : PortEffect g g' up raised) :
    Realizes g (g', st) ⟨st, up, raised, none⟩ where
  status := by rw [h.rg]
  prevStatus := by rw [h.rg]
  ctrlLs := by simp [h.rg]
  next := rfl
  upOn := h.upOn
  raised := h.raised
  taken := by simp [h.taken]

/-- A call that also deletes the first control. -/
theorem PortEffect.realizes_del (h : PortEffect g g' up raised) :
    Realizes g (rgDelNewCtrl g' c, st) ⟨st, up, raised, some c⟩ where
  status := by simp [h.rg]
  prevStatus := by simp [h.rg]
  ctrlLs := by simp [h.rg]
  next := rfl
  upOn := h.upOn
  raised := by simp [h.raised]
  taken := by simp [h.taken, eq_comm]

/-- A call that takes the first control over. -/
theorem PortEffect.realizes_take (h : PortEffect g g' up raised) :
    Realizes g (rgDelNewCtrl (takeCtrl env g' c) c, st) ⟨st, up, raised, some c⟩ where
  status := by simp [h.rg]
  prevStatus := by simp [h.rg]
  ctrlLs := by simp [h.rg]
  next := rfl
  upOn := h.upOn
  raised := by simp [h.raised]
  taken := by simp [h.taken, eq_comm]

theorem keep_effect : PortEffect g g g.port.upOn false := by constructor <;> simp

end Calls

section TableHandle

variable {wait : Env → Gate → Status} {miss : Gate → RgCtrl → Status} {lo : LoTab}
  {center : CenterTab} {env : Env} {g : Gate} {c : RgCtrl} {cs : List RgCtrl} {e : CtrlHandle}

theorem tableHandle_nil (h : g.rg.ctrlLs = []) :
    tableHandle wait miss lo center env g = (g, wait env g) := by
  simp [tableHandle, rgGetNewCtrl, h]

theorem tableHandle_entry (h : g.rg.ctrlLs = c :: cs) (he : ctrlEntry lo center c = some e) :
    tableHandle wait miss lo center env g =
      (rgDelNewCtrl (takeCtrl env (e.handle env g) c) c, e.status) := by
  simp [tableHandle, rgGetNewCtrl, h, he]

theorem tableHandle_miss (h : g.rg.ctrlLs = c :: cs) (he : ctrlEntry lo center c = none) :
    tableHandle wait miss lo center env g = (rgDelNewCtrl g c, miss g c) := by
  simp [tableHandle, rgGetNewCtrl, h, he]

end TableHandle

section RunMachine

variable {m : StatusHandle} {env : Env} {g g' : Gate} {h : Handler} {e : Effect}

theorem runMachine_some (hm : m g.rg.status = some h) :
    runMachine m env g =
      some { (h env g).1 with rg := rgRefreshStatus (h env g).1.rg (h env g).2 } := by
  simp [runMachine, hm]

theorem runMachine_eq_none : runMachine m env g = none ↔ m g.rg.status = none := by
  simp [runMachine]

theorem runMachine_cases (hr : runMachine m env g = some g') :
    ∃ h, m g.rg.status = some h ∧
      g' = { (h env g).1 with rg := rgRefreshStatus (h env g).1.rg (h env g).2 } := by
  simp only [runMachine, Option.map_eq_some_iff] at hr
  obtain ⟨h, hm, rfl⟩ := hr
  exact ⟨h, hm, rfl⟩

end RunMachine

end VdCamera.Roadgate
