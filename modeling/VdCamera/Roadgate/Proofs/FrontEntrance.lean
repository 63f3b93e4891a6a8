import VdCamera.Roadgate.Proofs.FrontStep

/-!
# Runs of the coil front entrance

What the up relay says of the status and the status of the relay, and normal close as a lock: each holds
in every state of a run whose ticks do not break it.
-/

namespace VdCamera.Roadgate

open Misc

/-! ## The up relay

When no control is pending, the up signal is asserted in the open states only, unless the last
pending control was one that ends an open state without releasing the relay (`strandsUp`).
-/

def openStates : List Status := [.loOpen, .centerOpen, .centerNcCenterOpen, .centerNo]

def UpHeld (g : Gate) : Prop :=
  g.port.upOn = true → g.rg.ctrlLs = [] → g.rg.status ∈ openStates

instance : DecidablePred UpHeld := fun g =>
  inferInstanceAs (Decidable (g.port.upOn = true → g.rg.ctrlLs = [] → g.rg.status ∈ openStates))

/-- Handling `c` as the last pending control leads to a closed status and leaves the up signal as it
is. From idle these are a stop (`rg_stop` does not touch the up relay), a close on an occupied safe
coil, and a control that resumes a closed status; during normal close a local control and the end of
the normal close as well. -/
def strandsUp (safe : Coil) (prev : Status) (c : RgCtrl) : Status → Prop
  | .idle =>
    c.isManual .stop ∨ (c.isManual .dn ∧ safe ≠ .none) ∨
      (idleKnows c = false ∧ resumeStatus prev c ∉ openStates)
  | .centerNc =>
    (c.ctrler = .lo ∧ c.action = .up) ∨ c.isManual .ncClr ∨ (c.isManual .dn ∧ safe ≠ .none) ∨
      (ncKnows c = false ∧ prev ∉ openStates)
  | .centerNcLoWait => (c.isManual .dn ∧ safe ≠ .none) ∨ loWaitKnows c = false
  | .centerNo => c.isManual .dn ∧ safe ≠ .none
  | _ => False

/-- The tick strands the up signal: it is asserted, and the only pending control is one of
`strandsUp`. -/
def StrandsUp (g : Gate) (env : Env) : Prop :=
  g.port.upOn = true ∧
    ∃ c, g.queue env = [c] ∧ strandsUp env.safeCoil g.rg.prevStatus c g.rg.status

section Step

variable {safe : Coil} {prev s : Status} {up : Bool} {q : List RgCtrl} {e : Effect} {g g' : Gate}
  {env : Env}

theorem FrontStep.up_iff (h : FrontStep safe prev up s q e)
    (hup : up = true → q = [] → s ∈ openStates) :
    (e.upOn = true → (if e.taken.isSome then q.tail else q) = [] → e.next ∈ openStates) ↔
      ¬ (up = true ∧ ∃ c, q = [c] ∧ strandsUp safe prev c s) := by
  have hi (c : RgCtrl) := idleKnows_iff c
  have hn (c : RgCtrl) := ncKnows_iff c
  have hw (c : RgCtrl) := loWaitKnows_iff c
  cases h <;> simp only [strandsUp, openStates, upAfterDown, RgCtrl.isManual] at * <;> grind

/-- One tick: the property is kept unless the tick strands the up signal. -/
theorem UpHeld.tick_iff (hg : UpHeld g) (ht : frontTick g env = some g') :
    UpHeld g' ↔ ¬ StrandsUp g env := by
  obtain ⟨e, he⟩ := frontTick_step ht
  have hup : g.port.upOn = true → g.queue env = [] → g.rg.status ∈ openStates := by
    intro hon hq
    exact hg hon (List.append_eq_nil_iff.1 hq).1
  unfold UpHeld StrandsUp
  rw [he.upOn, he.ctrlLs, he.status]
  exact he.step.up_iff hup

end Step

/-- After every tick of the run, an asserted up signal with no control pending means an open status,
if and only if no tick of the run strands the up signal. -/
theorem front_upHeld_iff (g : Gate) (hp : g.port = rgDevInit) (envs : List Env) :
    Along frontTick (After frontTick UpHeld) g envs ↔
      Along frontTick (fun g env => ¬ StrandsUp g env) g envs := by
  have hg : UpHeld g := by
    intro hon
    simp [hp, rgDevInit, Pcf8574.upOn] at hon
  refine along_congr hg (fun g env g' _ hP ht => hP g' ht) ?_
  intro g env hg
  obtain ⟨g', ht⟩ := frontTick_isSome g env
  rw [after_of_eq ht]
  exact hg.tick_iff ht

/-- A car is let in and leaves again. -/
theorem front_upHeld_iff_car :
    Along frontTick (After frontTick UpHeld) gateInit
        [envAt .vehicle .none [loUp], envAt .vehicle .vehicle [], envAt .none .none []] ↔
      Along frontTick (fun g env => ¬ StrandsUp g env) gateInit
        [envAt .vehicle .none [loUp], envAt .vehicle .vehicle [], envAt .none .none []] :=
  front_upHeld_iff gateInit rfl _

/-- While the barrier is open for a car on the in-coil the center stops it: the machine goes to idle
with the stop pending, and handles it there without releasing the up relay. -/
theorem front_not_upHeld_stop :
    ¬ Along frontTick (After frontTick UpHeld) gateInit
      [envAt .vehicle .none [loUp], envAt .vehicle .none [manual .stop], envAt .vehicle .none []] := by
  decide

/-! ## Normal close, normal open and the relay

In `CENTER_NC` and `CENTER_NC_LO_WAIT` the up signal is released and in `CENTER_NO` it is asserted,
except after two transitions: the return from `CENTER_NC_CENTER_OPEN` on a pending control, and a
resumed `CENTER_NO` whose barrier has been put down in between.
-/

def RelayAgrees (g : Gate) : Prop :=
  (g.rg.status = .centerNc ∨ g.rg.status = .centerNcLoWait → g.port.upOn = false) ∧
    (g.rg.status = .centerNo → g.port.upOn = true)

instance : DecidablePred RelayAgrees := fun g =>
  inferInstanceAs (Decidable ((g.rg.status = .centerNc ∨ g.rg.status = .centerNcLoWait →
    g.port.upOn = false) ∧ (g.rg.status = .centerNo → g.port.upOn = true)))

/-- The tick leaves `CENTER_NC_CENTER_OPEN` for a pending control with the up signal asserted, or
resumes `CENTER_NO` for a control without an entry with the up signal released. -/
def Disagrees (g : Gate) (env : Env) : Prop :=
  (g.rg.status = .centerNcCenterOpen ∧ g.queue env ≠ [] ∧ g.port.upOn = true) ∨
    (g.rg.status = .idle ∧ g.rg.prevStatus = .centerNo ∧ g.port.upOn = false ∧
      ∃ c cs, g.queue env = c :: cs ∧ idleKnows c = false ∧ ¬ c.isManual .ncClr)

/-- The relay in every status, and the previous statuses that idle and `CENTER_NC` can resume. -/
structure RelayInv (s prev : Status) (up : Bool) : Prop where
  released : s ∈ [.centerNc, .centerNcLoWait, .centerNcCenterClose, .centerNcCenterStop] →
    up = false
  asserted : s = .centerNo → up = true
  idlePrev : s = .idle → prev ∉ [.centerNcLoWait, .centerNcCenterOpen, .centerNcCenterClose,
    .centerNcCenterStop] ∧ (prev = .centerNc → up = false)
  ncPrev : s = .centerNc → prev ∈ [.idle, .centerNcLoWait, .centerNcCenterOpen,
    .centerNcCenterClose, .centerNcCenterStop]

section Step

variable {safe : Coil} {prev s : Status} {up : Bool} {q : List RgCtrl} {e : Effect} {g g' : Gate}
  {env : Env}

theorem resumeStatus_cases (prev : Status) (c : RgCtrl) :
    resumeStatus prev c = .idle ∨ resumeStatus prev c = prev := by
  unfold resumeStatus
  split
  · exact .inl rfl
  · exact .inr rfl

/-- `CENTER_NC` resumes one of the five statuses of the invariant. -/
theorem RelayInv.resume_centerNc (hi : RelayInv .centerNc prev up) :
    (prev = .centerNc ∨ prev = .centerNcLoWait → up = false) ∧ prev ≠ .centerNo ∧
      RelayInv prev (if .centerNc = prev then prev else .centerNc) up := by
  have hup : up = false := hi.released (by decide)
  have hprev := hi.ncPrev rfl
  refine ⟨fun _ => hup, fun hno => by simp [hno] at hprev, fun _ => hup, fun hno => ?_, fun hidle => ?_,
    fun hnc => ?_⟩
  · simp [hno] at hprev
  · rw [if_neg (by simp [hidle])]
    exact ⟨by decide, fun _ => hup⟩
  · simp [hnc] at hprev

/-- Idle resumes a status that is not one of its exits. -/
theorem RelayInv.resume_idle (hi : RelayInv .idle prev up) (ha : prev = .centerNo → up = true) :
    RelayInv prev (if .idle = prev then prev else .idle) up := by
  obtain ⟨hprev, hnc⟩ := hi.idlePrev rfl
  refine ⟨fun hrel => ?_, ha, fun hidle => ?_, fun hnc => ?_⟩
  · simp only [List.mem_cons, List.not_mem_nil, or_false] at hrel
    rcases hrel with h | h | h | h
    · exact hnc h
    all_goals exact absurd (by simp [h]) hprev
  · rw [if_pos hidle.symm, hidle]
    exact ⟨by decide, by simp⟩
  · rw [if_neg (by simp [hnc])]
    decide

theorem FrontStep.agrees_iff (h : FrontStep safe prev up s q e) (hi : RelayInv s prev up) :
    ((e.next = .centerNc ∨ e.next = .centerNcLoWait → e.upOn = false) ∧
      (e.next = .centerNo → e.upOn = true)) ↔
      ¬ ((s = .centerNcCenterOpen ∧ q ≠ [] ∧ up = true) ∨
        (s = .idle ∧ prev = .centerNo ∧ up = false ∧
          ∃ c cs, q = c :: cs ∧ idleKnows c = false ∧ ¬ c.isManual .ncClr)) := by
  have hk (c : RgCtrl) := idleKnows_iff c
  cases h
  case ncMiss =>
    obtain ⟨hrel, hno, -⟩ := hi.resume_centerNc
    exact iff_of_true ⟨hrel, fun h => absurd h hno⟩ (by simp)
  all_goals
    obtain ⟨hrel, hass, hidle, hnc⟩ := hi
    simp only [backStatus, resumeStatus, upAfterDown, RgCtrl.isManual] at *
    grind

theorem FrontStep.relayInv (h : FrontStep safe prev up s q e) (hi : RelayInv s prev up)
    (ha : (e.next = .centerNc ∨ e.next = .centerNcLoWait → e.upOn = false) ∧
      (e.next = .centerNo → e.upOn = true)) :
    RelayInv e.next (if s = e.next then prev else s) e.upOn := by
  cases h
  case ncMiss => exact hi.resume_centerNc.2.2
  case idleMiss c cs hc =>
    rcases resumeStatus_cases prev c with hres | hres
    · simpa only [hres, if_true] using hi
    · simp only [hres] at ha ⊢
      exact hi.resume_idle ha.2
  all_goals
    obtain ⟨hrel, hass, hidle, hnc⟩ := hi
    constructor <;> (simp only [backStatus, upAfterDown, RgCtrl.isManual] at *; grind)

theorem RelayInv.tick_iff (hi : RelayInv g.rg.status g.rg.prevStatus g.port.upOn)
    (ht : frontTick g env = some g') : RelayAgrees g' ↔ ¬ Disagrees g env := by
  obtain ⟨e, he⟩ := frontTick_step ht
  unfold RelayAgrees Disagrees
  rw [he.status, he.upOn]
  exact he.step.agrees_iff hi

theorem RelayInv.tick (hi : RelayInv g.rg.status g.rg.prevStatus g.port.upOn)
    (ht : frontTick g env = some g') (ha : RelayAgrees g') :
    RelayInv g'.rg.status g'.rg.prevStatus g'.port.upOn := by
  obtain ⟨e, he⟩ := frontTick_step ht
  unfold RelayAgrees at ha
  rw [he.status, he.upOn] at ha
  rw [he.status, he.prevStatus, he.upOn]
  exact he.step.relayInv hi ha

end Step

/-- After every tick of the run the status agrees with the relay, if and only if no tick of the run
is one of the two transitions of `Disagrees`. -/
theorem front_relayAgrees_iff (g : Gate) (hs : g.rg.status = .idle)
    (hprev : g.rg.prevStatus = .idle) (hp : g.port = rgDevInit) (envs : List Env) :
    Along frontTick (After frontTick RelayAgrees) g envs ↔
      Along frontTick (fun g env => ¬ Disagrees g env) g envs := by
  have hi : RelayInv g.rg.status g.rg.prevStatus g.port.upOn := by
    rw [hs, hprev, hp]
    constructor <;> decide
  refine along_congr (J := fun g => RelayInv g.rg.status g.rg.prevStatus g.port.upOn) hi
    (fun g env g' hi hP ht => hi.tick ht (hP g' ht)) ?_
  intro g env hi
  obtain ⟨g', ht⟩ := frontTick_isSome g env
  rw [after_of_eq ht]
  exact hi.tick_iff ht

theorem front_relayAgrees_iff_init :
    Along frontTick (After frontTick RelayAgrees) gateInit
        [envAt .none .none [manual .noSet], envAt .vehicle .vehicle [manual .dn]] ↔
      Along frontTick (fun g env => ¬ Disagrees g env) gateInit
        [envAt .none .none [manual .noSet], envAt .vehicle .vehicle [manual .dn]] :=
  front_relayAgrees_iff gateInit rfl rfl rfl _

/-- An opening during normal close that is cut short by the next control leaves the up relay on. -/
theorem front_not_relayAgrees_ncOpen :
    ¬ Along frontTick (After frontTick RelayAgrees) gateInit
      [envAt .none .none [manual .ncSet], envAt .none .none [manual .up],
        envAt .none .none [manual .ncSet]] := by
  decide

/-! ## Normal close as a lock

From the tick that handles a manual `NC_SET` until one that consumes a manual `NC_CLR` or `UP`, the
coil front entrance stays in the normal close states and does not assert the up relay, unless a
control without an entry is handled in `CENTER_NC` while the previous status is still idle.
-/

def lockStates : List Status :=
  [.centerNc, .centerNcLoWait, .centerNcCenterClose, .centerNcCenterStop]

/-- What the lock promises of the state a tick ends in. -/
def Locked (g : Gate) : Prop := g.rg.status ∈ lockStates ∧ .setBit .up false ∉ g.log

instance : DecidablePred Locked := fun g =>
  inferInstanceAs (Decidable (g.rg.status ∈ lockStates ∧ PortOp.setBit .up false ∉ g.log))

/-- A control that unlocks is consumed. -/
def PortOp.unlocks : PortOp → Prop
  | .delCtrl c => c.isManual .ncClr ∨ c.isManual .up
  | _ => False

instance : DecidablePred PortOp.unlocks
  | .delCtrl c => inferInstanceAs (Decidable (c.isManual .ncClr ∨ c.isManual .up))
  | .setBit _ _ | .readSafeCoil _ | .rgStatusSendtoDspUp => inferInstanceAs (Decidable False)

/-- The tick that ended in `g` consumed no control that unlocks. -/
def NotUnlocked (g : Gate) : Prop := ∀ op ∈ g.log, ¬ op.unlocks

instance : DecidablePred NotUnlocked := fun g =>
  inferInstanceAs (Decidable (∀ op ∈ g.log, ¬ op.unlocks))

/-- `front_center_nc` is about to return to idle for a control it does not know. -/
def SlipsBack (g : Gate) (env : Env) : Prop :=
  g.rg.status = .centerNc ∧ g.rg.prevStatus = .idle ∧
    ∃ c cs, g.queue env = c :: cs ∧ ncKnows c = false

/-- Where the lock can be: the previous status is idle only before the first control is handled in
`CENTER_NC`. -/
def InLock (s prev : Status) : Prop :=
  s ∈ lockStates ∧ (s = .centerNc ∧ prev = .idle ∨ prev ∈ lockStates)

section Step

variable {safe : Coil} {prev s : Status} {up : Bool} {q : List RgCtrl} {e : Effect} {g g' : Gate}
  {env : Env}

theorem FrontStep.locked_iff (h : FrontStep safe prev up s q e) (hl : InLock s prev)
    (hu : ∀ c, e.taken = some c → ¬ (c.isManual .ncClr ∨ c.isManual .up)) :
    (e.next ∈ lockStates ∧ e.raised = false) ↔
      ¬ (s = .centerNc ∧ prev = .idle ∧ ∃ c cs, q = c :: cs ∧ ncKnows c = false) := by
  have hn (c : RgCtrl) := ncKnows_iff c
  cases h <;> simp only [InLock, lockStates, backStatus, RgCtrl.isManual] at * <;> grind

/-- A tick that stays in the lock states stays in the lock. -/
theorem InLock.next {n : Status} (hl : InLock s prev) (hn : n ∈ lockStates) :
    InLock n (if s = n then prev else s) := by
  by_cases h : s = n
  · rw [if_pos h, ← h]
    exact hl
  · rw [if_neg h]
    exact ⟨hn, .inr hl.1⟩

theorem InLock.tick_iff (hl : InLock g.rg.status g.rg.prevStatus)
    (hu : After frontTick NotUnlocked g env) (ht : frontTick g env = some g') :
    Locked g' ↔ ¬ SlipsBack g env := by
  obtain ⟨e, he⟩ := frontTick_step ht
  have hu' : ∀ c, e.taken = some c → ¬ (c.isManual .ncClr ∨ c.isManual .up) :=
    fun c hc => hu g' ht (.delCtrl c) ((he.taken c).2 hc)
  unfold Locked SlipsBack
  rw [he.status, he.raised, Bool.not_eq_true]
  exact he.step.locked_iff hl hu'

theorem InLock.tick (hl : InLock g.rg.status g.rg.prevStatus) (ht : frontTick g env = some g')
    (hg' : Locked g') : InLock g'.rg.status g'.rg.prevStatus := by
  obtain ⟨e, he⟩ := frontTick_step ht
  rw [he.prevStatus, ← he.status]
  exact hl.next hg'.1

/-- The tick that handles an `NC_SET` and moves the machine into `CENTER_NC` comes from idle. -/
theorem inLock_of_ncSet (ht : frontTick g env = some g') (hs : g.rg.status ≠ .centerNc)
    (hs' : g'.rg.status = .centerNc) {c : RgCtrl} (hc : .delCtrl c ∈ g'.log)
    (hset : c.isManual .ncSet) : InLock g'.rg.status g'.rg.prevStatus := by
  obtain ⟨e, he⟩ := frontTick_step ht
  have htaken : e.taken = some c := (he.taken c).1 hc
  have hnext : e.next = .centerNc := he.status.symm.trans hs'
  have hidle : g.rg.status = .idle := by
    have hstep := he.step
    obtain ⟨hctrler, htype, haction⟩ := hset
    generalize g.rg.status = s at *
    generalize g.queue env = q at *
    cases hstep <;> simp_all [RgCtrl.isManual]
  refine ⟨by simp [hs', lockStates], .inl ⟨hs', ?_⟩⟩
  rw [he.prevStatus, hnext, if_neg hs, hidle]

end Step

/-- Once a tick has moved the machine into `CENTER_NC` by handling a manual `NC_SET`, a run in which
no manual `NC_CLR` or `UP` is consumed stays locked if and only if no tick slips back to idle. -/
theorem front_locked_iff (g₀ g : Gate) (env₀ : Env) (ht : frontTick g₀ env₀ = some g)
    (hs₀ : g₀.rg.status ≠ .centerNc) (hs : g.rg.status = .centerNc)
    (hset : ∃ c, .delCtrl c ∈ g.log ∧ c.isManual .ncSet) (envs : List Env)
    (hrun : Along frontTick (After frontTick NotUnlocked) g envs) :
    Along frontTick (After frontTick Locked) g envs ↔
      Along frontTick (fun g env => ¬ SlipsBack g env) g envs := by
  obtain ⟨c, hc, hset⟩ := hset
  have hl : InLock g.rg.status g.rg.prevStatus := inLock_of_ncSet ht hs₀ hs hc hset
  refine hrun.congr (J := fun g => InLock g.rg.status g.rg.prevStatus) hl
    (fun g env g' hl _ hP ht => hl.tick ht (hP g' ht)) ?_
  intro g env hl hu
  obtain ⟨g', ht⟩ := frontTick_isSome g env
  rw [after_of_eq ht]
  exact hl.tick_iff hu ht

/-- A stop and a repeated `NC_SET` do not unlock. -/
theorem front_locked_iff_stop :
    Along frontTick (After frontTick Locked) ((frontTick gateInit
        (envAt .none .none [manual .ncSet])).getD gateInit)
        [envAt .vehicle .none [manual .stop, manual .ncSet], envAt .vehicle .none []] ↔
      Along frontTick (fun g env => ¬ SlipsBack g env) ((frontTick gateInit
        (envAt .none .none [manual .ncSet])).getD gateInit)
        [envAt .vehicle .none [manual .stop, manual .ncSet], envAt .vehicle .none []] :=
  front_locked_iff gateInit _ (envAt .none .none [manual .ncSet]) rfl (by decide) (by decide)
    ⟨manual .ncSet, by decide, by decide⟩ _ (by decide)

/-- An automatic `UP` right after the `NC_SET` returns the machine to idle, where the next car opens
the barrier. -/
theorem front_not_locked_autoUp :
    ∃ g, frontTick gateInit (envAt .none .none [manual .ncSet]) = some g ∧
      g.rg.status = .centerNc ∧ .delCtrl (manual .ncSet) ∈ g.log ∧
      Along frontTick (After frontTick NotUnlocked) g
        [envAt .none .none [⟨.center, .auto, .up, 0⟩], envAt .vehicle .none [loUp]] ∧
      ¬ Along frontTick (After frontTick Locked) g
        [envAt .none .none [⟨.center, .auto, .up, 0⟩], envAt .vehicle .none [loUp]] :=
  ⟨_, rfl, by decide, by decide, by decide, by decide⟩

end VdCamera.Roadgate
