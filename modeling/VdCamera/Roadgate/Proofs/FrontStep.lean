import VdCamera.Roadgate.Daemon
import VdCamera.Roadgate.Proofs.Effects
import VdCamera.Sys.Proofs.TimeUtil

/-!
# The transitions of the coil front entrance

`FrontStep` is the transition table of `coil_front_entrance`, read off the handlers once: for the
status, the previous status, the up signal and the pending controls before a tick, the effects the
tick can have. `frontTick_step` says that it is complete; the invariants of the machine are proved
over it, a case for each row.
-/

namespace VdCamera.Roadgate

open Sys

/-- The status to return to during normal close (`backToNcOrWait`). -/
def backStatus (prev : Status) : Status :=
  if prev = .centerNcLoWait then .centerNcLoWait else .centerNc

/-- `idleMiss` as a function of the previous status. -/
def resumeStatus (prev : Status) (c : RgCtrl) : Status :=
  if c.ctrler = .center ∧ c.type = .manual ∧ c.action = .ncClr ∧
      (prev = .centerNc ∨ prev = .centerNo) then .idle
  else prev

/-- A manual control of the center. -/
def RgCtrl.isManual (c : RgCtrl) (a : Action) : Prop :=
  c.ctrler = .center ∧ c.type = .manual ∧ c.action = a

instance (c : RgCtrl) (a : Action) : Decidable (c.isManual a) :=
  inferInstanceAs (Decidable (_ ∧ _ ∧ _))

/-- `front_idle` has an entry for the control. -/
def idleKnows (c : RgCtrl) : Bool := (ctrlEntry (idleLoTab frontSetUpSignal) frontIdleTab c).isSome

/-- `front_center_nc` has an entry for the control. -/
def ncKnows (c : RgCtrl) : Bool := (ctrlEntry ncLoTab frontNcTab c).isSome

/-- `front_center_nc_lo_wait` has an entry for the control. -/
def loWaitKnows (c : RgCtrl) : Bool :=
  (ctrlEntry noLo (loWaitTab frontSetUpSignal) c).isSome

theorem idleKnows_iff (c : RgCtrl) :
    idleKnows c = true ↔
      (c.ctrler = .lo ∧ c.action = .up) ∨
        (c.ctrler = .center ∧ c.type = .manual ∧ c.action ≠ .ncClr) ∨
        (c.ctrler = .center ∧ c.type = .other ∧ c.action = .up) := by
  obtain ⟨ctrler, type, action, timeout⟩ := c
  cases ctrler <;> cases type <;> cases action <;>
    simp [idleKnows, ctrlEntry, idleLoTab, frontIdleTab, idleManual]

theorem ncKnows_iff (c : RgCtrl) :
    ncKnows c = true ↔
      (c.ctrler = .lo ∧ c.action = .up) ∨
        (c.ctrler = .center ∧ c.type = .manual ∧ c.action ≠ .ncSet ∧ c.action ≠ .noSet) := by
  obtain ⟨ctrler, type, action, timeout⟩ := c
  cases ctrler <;> cases type <;> cases action <;>
    simp [ncKnows, ctrlEntry, ncLoTab, frontNcTab, ncManual]

theorem loWaitKnows_iff (c : RgCtrl) :
    loWaitKnows c = true ↔
      c.ctrler = .center ∧ c.type = .manual ∧ c.action ≠ .ncSet ∧ c.action ≠ .noSet := by
  obtain ⟨ctrler, type, action, timeout⟩ := c
  cases ctrler <;> cases type <;> cases action <;>
    simp [loWaitKnows, ctrlEntry, noLo, loWaitTab]

/-- The up signal after `rg_down_s`. -/
def upAfterDown (safe : Coil) (up : Bool) : Bool := if safe = .none then false else up

inductive FrontStep (safe : Coil) (prev : Status) (up : Bool) :
    Status → List RgCtrl → Effect → Prop
  | idleQuiet : FrontStep safe prev up .idle [] ⟨.idle, up, false, none⟩
  | idleLo (c cs seen) (hc : c.ctrler = .lo ∧ c.action = .up) :
    FrontStep safe prev up .idle (c :: cs) ⟨.loOpen, up || seen, seen, some c⟩
  | idleUp (c cs) (hc : c.ctrler = .center ∧ (c.type = .manual ∨ c.type = .other) ∧ c.action = .up) :
    FrontStep safe prev up .idle (c :: cs) ⟨.centerOpen, true, true, some c⟩
  | idleDn (c cs) (hc : c.isManual .dn) :
    FrontStep safe prev up .idle (c :: cs) ⟨.centerClose, upAfterDown safe up, false, some c⟩
  | idleStop (c cs) (hc : c.isManual .stop) :
    FrontStep safe prev up .idle (c :: cs) ⟨.centerStop, up, false, some c⟩
  | idleNcSet (c cs) (hc : c.isManual .ncSet) :
    FrontStep safe prev up .idle (c :: cs) ⟨.centerNc, false, false, some c⟩
  | idleNoSet (c cs) (hc : c.isManual .noSet) :
    FrontStep safe prev up .idle (c :: cs) ⟨.centerNo, true, true, some c⟩
  | idleMiss (c cs) (hc : idleKnows c = false) :
    FrontStep safe prev up .idle (c :: cs) ⟨resumeStatus prev c, up, false, some c⟩
  | loLeft (q taken) (hc : ∀ c, taken = some c → ∃ cs, q = c :: cs ∧ keeps [.dn, .stop] c = false) :
    FrontStep safe prev up .loOpen q ⟨.idle, false, false, taken⟩
  | loJump (c cs) (hc : jumps [.dn, .stop] c = true) :
    FrontStep safe prev up .loOpen (c :: cs) ⟨.idle, up, false, none⟩
  | loStay (q) (hq : ∀ c cs, q = c :: cs → keeps [.dn, .stop] c = true) :
    FrontStep safe prev up .loOpen q ⟨.loOpen, up, false, none⟩
  | loDrop (c cs) (hc : keeps [.dn, .stop] c = false) :
    FrontStep safe prev up .loOpen (c :: cs) ⟨.loOpen, up, false, some c⟩
  | openTimeout (q) : FrontStep safe prev up .centerOpen q ⟨.idle, false, false, none⟩
  | openStay (q) : FrontStep safe prev up .centerOpen q ⟨.centerOpen, up, false, none⟩
  | closeDone (q) : FrontStep safe prev up .centerClose q ⟨.idle, up, false, none⟩
  | stopDone (q) : FrontStep safe prev up .centerStop q ⟨.idle, up, false, none⟩
  | ncQuiet : FrontStep safe prev up .centerNc [] ⟨.centerNc, up, false, none⟩
  | ncLo (c cs) (hc : c.ctrler = .lo ∧ c.action = .up) :
    FrontStep safe prev up .centerNc (c :: cs) ⟨.centerNcLoWait, up, false, some c⟩
  | ncClr (c cs) (hc : c.isManual .ncClr) :
    FrontStep safe prev up .centerNc (c :: cs) ⟨.idle, up, false, some c⟩
  | ncUp (c cs) (hc : c.isManual .up) :
    FrontStep safe prev up .centerNc (c :: cs) ⟨.centerNcCenterOpen, true, true, some c⟩
  | ncDn (c cs) (hc : c.isManual .dn) :
    FrontStep safe prev up .centerNc (c :: cs)
      ⟨.centerNcCenterClose, upAfterDown safe up, false, some c⟩
  | ncStop (c cs) (hc : c.isManual .stop) :
    FrontStep safe prev up .centerNc (c :: cs) ⟨.centerNcCenterStop, false, false, some c⟩
  | ncMiss (c cs) (hc : ncKnows c = false) :
    FrontStep safe prev up .centerNc (c :: cs) ⟨prev, up, false, some c⟩
  | waitQuiet : FrontStep safe prev up .centerNcLoWait [] ⟨.centerNcLoWait, up, false, none⟩
  | waitLeft : FrontStep safe prev up .centerNcLoWait [] ⟨.centerNc, up, false, none⟩
  | waitClr (c cs seen) (hc : c.isManual .ncClr) :
    FrontStep safe prev up .centerNcLoWait (c :: cs) ⟨.loOpen, up || seen, seen, some c⟩
  | waitUp (c cs) (hc : c.isManual .up) :
    FrontStep safe prev up .centerNcLoWait (c :: cs) ⟨.centerNcCenterOpen, true, true, some c⟩
  | waitDn (c cs) (hc : c.isManual .dn) :
    FrontStep safe prev up .centerNcLoWait (c :: cs)
      ⟨.centerNcCenterClose, upAfterDown safe up, false, some c⟩
  | waitStop (c cs) (hc : c.isManual .stop) :
    FrontStep safe prev up .centerNcLoWait (c :: cs) ⟨.centerNcCenterStop, false, false, some c⟩
  | waitMiss (c cs) (hc : loWaitKnows c = false) :
    FrontStep safe prev up .centerNcLoWait (c :: cs) ⟨.centerNcLoWait, up, false, some c⟩
  | ncOpenTimeout :
    FrontStep safe prev up .centerNcCenterOpen [] ⟨backStatus prev, false, false, none⟩
  | ncOpenStay :
    FrontStep safe prev up .centerNcCenterOpen [] ⟨.centerNcCenterOpen, up, false, none⟩
  | ncOpenCtrl (c cs) :
    FrontStep safe prev up .centerNcCenterOpen (c :: cs) ⟨backStatus prev, up, false, none⟩
  | ncCloseDone (q) :
    FrontStep safe prev up .centerNcCenterClose q ⟨backStatus prev, up, false, none⟩
  | ncStopDone (q) :
    FrontStep safe prev up .centerNcCenterStop q ⟨backStatus prev, up, false, none⟩
  | noQuiet : FrontStep safe prev up .centerNo [] ⟨.centerNo, up, false, none⟩
  | noDn (c cs) (hc : c.isManual .dn) :
    FrontStep safe prev up .centerNo (c :: cs) ⟨.idle, upAfterDown safe up, false, some c⟩
  | noMiss (c cs) (hc : ¬ c.isManual .dn) :
    FrontStep safe prev up .centerNo (c :: cs) ⟨.centerNo, up, false, some c⟩

section Entries

variable {c : RgCtrl} {e : CtrlHandle}

theorem frontIdle_entry (he : ctrlEntry (idleLoTab frontSetUpSignal) frontIdleTab c = some e) :
    (c.ctrler = .lo ∧ c.action = .up) ∧ e = ⟨frontSetUpSignal, .loOpen⟩ ∨
    (c.ctrler = .center ∧ (c.type = .manual ∨ c.type = .other) ∧ c.action = .up) ∧
      e = ⟨port rgSetUpSignal, .centerOpen⟩ ∨
    c.isManual .dn ∧ e = ⟨rgDownS, .centerClose⟩ ∨
    c.isManual .stop ∧ e = ⟨port rgStop, .centerStop⟩ ∨
    c.isManual .ncSet ∧ e = ⟨port rgClrUpSignal, .centerNc⟩ ∨
    c.isManual .noSet ∧ e = ⟨port rgSetUpSignal, .centerNo⟩ := by
  obtain ⟨ctrler, type, action, timeout⟩ := c
  cases ctrler <;> cases type <;> cases action <;>
    simp_all [ctrlEntry, idleLoTab, frontIdleTab, idleManual, RgCtrl.isManual, eq_comm]

theorem frontCenterNc_entry (he : ctrlEntry ncLoTab frontNcTab c = some e) :
    (c.ctrler = .lo ∧ c.action = .up) ∧ e = ⟨doDummy, .centerNcLoWait⟩ ∨
    c.isManual .ncClr ∧ e = ⟨doDummy, .idle⟩ ∨
    c.isManual .up ∧ e = ⟨port rgSetUpSignal, .centerNcCenterOpen⟩ ∨
    c.isManual .dn ∧ e = ⟨rgDownS, .centerNcCenterClose⟩ ∨
    c.isManual .stop ∧ e = ⟨port rgClrUpSignal, .centerNcCenterStop⟩ := by
  obtain ⟨ctrler, type, action, timeout⟩ := c
  cases ctrler <;> cases type <;> cases action <;>
    simp_all [ctrlEntry, ncLoTab, frontNcTab, ncManual, RgCtrl.isManual, eq_comm]

theorem frontCenterNcLoWait_entry (he : ctrlEntry noLo (loWaitTab frontSetUpSignal) c = some e) :
    c.isManual .ncClr ∧ e = ⟨frontSetUpSignal, .loOpen⟩ ∨
    c.isManual .up ∧ e = ⟨port rgSetUpSignal, .centerNcCenterOpen⟩ ∨
    c.isManual .dn ∧ e = ⟨rgDownS, .centerNcCenterClose⟩ ∨
    c.isManual .stop ∧ e = ⟨port rgClrUpSignal, .centerNcCenterStop⟩ := by
  obtain ⟨ctrler, type, action, timeout⟩ := c
  cases ctrler <;> cases type <;> cases action <;>
    simp_all [ctrlEntry, noLo, loWaitTab, RgCtrl.isManual, eq_comm]

end Entries

section Step

variable {env : Env} {g g' : Gate}

/-- The call of `h` on `g` is a row of the table. -/
def HasStep (env : Env) (g : Gate) (r : Gate × Status) : Prop :=
  ∃ e, FrontStep env.safeCoil g.rg.prevStatus g.port.upOn g.rg.status g.rg.ctrlLs e ∧
    Realizes g r e

theorem frontIdle_step (hs : g.rg.status = .idle) : HasStep env g (frontIdle env g) := by
  unfold HasStep frontIdle idleHandle
  rw [hs]
  cases hq : g.rg.ctrlLs with
  | nil =>
    rw [tableHandle_nil hq, stay, hs]
    exact ⟨_, .idleQuiet, keep_effect.realizes⟩
  | cons c cs =>
    cases he : ctrlEntry (idleLoTab frontSetUpSignal) frontIdleTab c with
    | none =>
      rw [tableHandle_miss hq he, show idleMiss g c = resumeStatus g.rg.prevStatus c by
        simp [idleMiss, resumeStatus, hs]]
      exact ⟨_, .idleMiss c cs (by simp [idleKnows, he]), keep_effect.realizes_del⟩
    | some e =>
      rw [tableHandle_entry hq he]
      rcases frontIdle_entry he with ⟨hc, rfl⟩ | ⟨hc, rfl⟩ | ⟨hc, rfl⟩ | ⟨hc, rfl⟩ | ⟨hc, rfl⟩ |
        ⟨hc, rfl⟩
      · exact ⟨_, .idleLo c cs _ hc, (frontSetUpSignal_effect env g).realizes_take⟩
      · exact ⟨_, .idleUp c cs hc, (rgSetUpSignal_effect env g).realizes_take⟩
      · exact ⟨_, .idleDn c cs hc, (rgDownS_effect env g).realizes_take⟩
      · exact ⟨_, .idleStop c cs hc, (rgStop_effect env g).realizes_take⟩
      · exact ⟨_, .idleNcSet c cs hc, (rgClrUpSignal_effect env g).realizes_take⟩
      · exact ⟨_, .idleNoSet c cs hc, (rgSetUpSignal_effect env g).realizes_take⟩

/-- Closing by a rule after a call that leaves the relays alone. -/
theorem closeBy_cases (env : Env) (r : CloseRule) (next other : Status) (g₁ : Gate) :
    closeBy r next other env g₁ = (rgClrUpSignal g₁, next) ∨
      closeBy r next other env g₁ = (g₁, other) := by
  unfold closeBy
  split
  · exact .inl rfl
  · exact .inr rfl

theorem clr_realizes (st : Status) : Realizes g (rgClrUpSignal g, st) ⟨st, false, false, none⟩ := by
  constructor <;> simp [rgClrUpSignal]

theorem clr_del_realizes (c : RgCtrl) (st : Status) :
    Realizes g (rgClrUpSignal (rgDelNewCtrl g c), st) ⟨st, false, false, some c⟩ := by
  constructor <;> simp [rgClrUpSignal, eq_comm]

theorem frontLoOpen_step (hs : g.rg.status = .loOpen) : HasStep env g (frontLoOpen env g) := by
  unfold HasStep frontLoOpen loOpenEntrance rgGetNewCtrl
  simp only [stay, hs]
  cases hq : g.rg.ctrlLs with
  | nil =>
    simp only [List.head?_nil]
    rcases closeBy_cases env .coilFree .idle .loOpen g with h | h <;> rw [h]
    · exact ⟨_, .loLeft [] none (by simp), clr_realizes .idle⟩
    · exact ⟨_, .loStay [] (by simp), keep_effect.realizes⟩
  | cons c cs =>
    simp only [List.head?_cons]
    by_cases hk : keeps [.dn, .stop] c = true
    · rw [if_pos hk]
      by_cases hj : jumps [.dn, .stop] c = true
      · rw [if_pos hj]
        rcases closeBy_cases env .coilFree .idle .idle g with h | h <;> rw [h]
        · exact ⟨_, .loLeft (c :: cs) none (by simp), clr_realizes .idle⟩
        · exact ⟨_, .loJump c cs hj, keep_effect.realizes⟩
      · rw [if_neg hj]
        rcases closeBy_cases env .coilFree .idle .loOpen g with h | h <;> rw [h]
        · exact ⟨_, .loLeft (c :: cs) none (by simp), clr_realizes .idle⟩
        · exact ⟨_, .loStay (c :: cs) (by rintro _ _ ⟨⟩; exact hk), keep_effect.realizes⟩
    · have hj : jumps [.dn, .stop] c ≠ true := fun hj => hk (by simp [keeps, hj])
      rw [if_neg hk, if_neg hj]
      rcases closeBy_cases env .coilFree .idle .loOpen (rgDelNewCtrl g c) with h | h <;>
        rw [h]
      · exact ⟨_, .loLeft (c :: cs) (some c) (by simp_all), clr_del_realizes c .idle⟩
      · exact ⟨_, .loDrop c cs (by simpa using hk), keep_effect.realizes_del⟩

theorem frontCenterOpen_step (hs : g.rg.status = .centerOpen) :
    HasStep env g (frontCenterOpen env g) := by
  unfold HasStep frontCenterOpen openUntilClosed
  simp only [stay, hs]
  rcases closeBy_cases env .overtime .idle .centerOpen g with h | h <;> rw [h]
  · exact ⟨_, .openTimeout _, clr_realizes .idle⟩
  · exact ⟨_, .openStay _, keep_effect.realizes⟩

/-- A timeout of 24 days at most is over when it is due, for as many days. -/
theorem overtime_iff (hnow : env.now.Normalised) (hlast : g.rg.lastTime.Normalised)
    (ht : g.rg.ctrl.timeout < 2 ^ 31) (hin : InRange env.now g.rg.lastTime) :
    overtime env g = true ↔ Due env.now g.rg.lastTime g.rg.ctrl.timeout :=
  hin.overtime_iff hnow hlast ht

/-- The barrier that the center has opened is let down when the timeout of the control is due. -/
theorem frontCenterOpen_due (hs : g.rg.status = .centerOpen) (hnow : env.now.Normalised)
    (hlast : g.rg.lastTime.Normalised) (ht : g.rg.ctrl.timeout < 2 ^ 31)
    (hin : InRange env.now g.rg.lastTime) :
    frontCenterOpen env g = (rgClrUpSignal g, .idle) ∧ Due env.now g.rg.lastTime g.rg.ctrl.timeout ∨
      frontCenterOpen env g = (g, .centerOpen) ∧
        ¬ Due env.now g.rg.lastTime g.rg.ctrl.timeout := by
  have hdue := overtime_iff hnow hlast ht hin
  unfold frontCenterOpen openUntilClosed closeBy CloseRule.eval
  by_cases hover : overtime env g = true
  · rw [if_pos hover]
    exact .inl ⟨rfl, hdue.mp hover⟩
  · rw [if_neg hover, stay, hs]
    exact .inr ⟨rfl, mt hdue.mpr hover⟩

theorem frontCenterNc_step (hs : g.rg.status = .centerNc) :
    HasStep env g (frontCenterNc env g) := by
  unfold HasStep frontCenterNc centerNcHandle
  rw [hs]
  cases hq : g.rg.ctrlLs with
  | nil =>
    rw [tableHandle_nil hq, stay, hs]
    exact ⟨_, .ncQuiet, keep_effect.realizes⟩
  | cons c cs =>
    cases he : ctrlEntry ncLoTab frontNcTab c with
    | none =>
      rw [tableHandle_miss hq he]
      exact ⟨_, .ncMiss c cs (by simp [ncKnows, he]), keep_effect.realizes_del⟩
    | some e =>
      rw [tableHandle_entry hq he]
      rcases frontCenterNc_entry he with ⟨hc, rfl⟩ | ⟨hc, rfl⟩ | ⟨hc, rfl⟩ | ⟨hc, rfl⟩ | ⟨hc, rfl⟩
      · exact ⟨_, .ncLo c cs hc, (doDummy_effect env g).realizes_take⟩
      · exact ⟨_, .ncClr c cs hc, (doDummy_effect env g).realizes_take⟩
      · exact ⟨_, .ncUp c cs hc, (rgSetUpSignal_effect env g).realizes_take⟩
      · exact ⟨_, .ncDn c cs hc, (rgDownS_effect env g).realizes_take⟩
      · exact ⟨_, .ncStop c cs hc, (rgClrUpSignal_effect env g).realizes_take⟩

theorem frontCenterNcLoWait_step (hs : g.rg.status = .centerNcLoWait) :
    HasStep env g (frontCenterNcLoWait env g) := by
  unfold HasStep frontCenterNcLoWait centerNcLoWaitHandle
  rw [hs]
  cases hq : g.rg.ctrlLs with
  | nil =>
    rw [tableHandle_nil hq]
    by_cases hv : env.inCoil = .none
    · rw [if_pos hv]
      exact ⟨_, .waitLeft, keep_effect.realizes⟩
    · rw [if_neg hv, stay, hs]
      exact ⟨_, .waitQuiet, keep_effect.realizes⟩
  | cons c cs =>
    cases he : ctrlEntry noLo (loWaitTab frontSetUpSignal) c with
    | none =>
      rw [tableHandle_miss hq he, stay, hs]
      exact ⟨_, .waitMiss c cs (by simp [loWaitKnows, he]), keep_effect.realizes_del⟩
    | some e =>
      rw [tableHandle_entry hq he]
      rcases frontCenterNcLoWait_entry he with ⟨hc, rfl⟩ | ⟨hc, rfl⟩ | ⟨hc, rfl⟩ | ⟨hc, rfl⟩
      · exact ⟨_, .waitClr c cs _ hc, (frontSetUpSignal_effect env g).realizes_take⟩
      · exact ⟨_, .waitUp c cs hc, (rgSetUpSignal_effect env g).realizes_take⟩
      · exact ⟨_, .waitDn c cs hc, (rgDownS_effect env g).realizes_take⟩
      · exact ⟨_, .waitStop c cs hc, (rgClrUpSignal_effect env g).realizes_take⟩

theorem centerNcCenterOpen_step (hs : g.rg.status = .centerNcCenterOpen) :
    HasStep env g (centerNcCenterOpenHandle backToNcOrWait env g) := by
  unfold HasStep centerNcCenterOpenHandle rgGetNewCtrl
  simp only [stay, hs, show backToNcOrWait g = backStatus g.rg.prevStatus from rfl]
  cases hq : g.rg.ctrlLs with
  | nil =>
    simp only [List.head?_nil]
    rcases closeBy_cases env .overtime (backStatus g.rg.prevStatus) .centerNcCenterOpen g
      with h | h <;> rw [h]
    · exact ⟨_, .ncOpenTimeout, clr_realizes _⟩
    · exact ⟨_, .ncOpenStay, keep_effect.realizes⟩
  | cons c cs => exact ⟨_, .ncOpenCtrl c cs, keep_effect.realizes⟩

theorem centerNo_step (hs : g.rg.status = .centerNo) : HasStep env g (centerNoHandle env g) := by
  unfold HasStep centerNoHandle
  rw [hs]
  cases hq : g.rg.ctrlLs with
  | nil =>
    rw [tableHandle_nil hq, stay, hs]
    exact ⟨_, .noQuiet, keep_effect.realizes⟩
  | cons c cs =>
    by_cases hc : c.isManual .dn
    · rw [tableHandle_entry hq (e := ⟨rgDownS, .idle⟩) (by simp [ctrlEntry, hc.1, hc.2.1, hc.2.2])]
      exact ⟨_, .noDn c cs hc, (rgDownS_effect env g).realizes_take⟩
    · rw [tableHandle_miss hq, stay, hs]
      · exact ⟨_, .noMiss c cs hc, keep_effect.realizes_del⟩
      · obtain ⟨ctrler, type, action, timeout⟩ := c
        cases ctrler <;> cases type <;> cases action <;>
          simp_all [ctrlEntry, noLo, RgCtrl.isManual]

theorem coilFrontEntrance_step (env : Env) {h : Handler}
    (hm : coilFrontEntrance g.rg.status = some h) :
    HasStep env g (h env g) := by
  cases hs : g.rg.status <;> rw [hs] at hm <;> cases hm
  case idle => exact frontIdle_step hs
  case centerOpen => exact frontCenterOpen_step hs
  case centerClose =>
    exact ⟨_, by rw [hs]; exact .closeDone _, keep_effect.realizes⟩
  case centerStop => exact ⟨_, by rw [hs]; exact .stopDone _, keep_effect.realizes⟩
  case centerNc => exact frontCenterNc_step hs
  case centerNcLoWait => exact frontCenterNcLoWait_step hs
  case centerNcCenterOpen => exact centerNcCenterOpen_step hs
  case centerNcCenterClose => exact ⟨_, by rw [hs]; exact .ncCloseDone _, keep_effect.realizes⟩
  case centerNcCenterStop => exact ⟨_, by rw [hs]; exact .ncStopDone _, keep_effect.realizes⟩
  case centerNo => exact centerNo_step hs
  case loOpen => exact frontLoOpen_step hs

/-- The pending controls a tick sees. -/
def Gate.queue (g : Gate) (env : Env) : List RgCtrl := g.rg.ctrlLs ++ env.newCtrls

/-- The tick that takes `g` to `g'` has the effect `e`. -/
structure TickEffect (g : Gate) (env : Env) (g' : Gate) (e : Effect) : Prop where
  step : FrontStep env.safeCoil g.rg.prevStatus g.port.upOn g.rg.status (g.queue env) e
  status : g'.rg.status = e.next
  prevStatus : g'.rg.prevStatus = if g.rg.status = e.next then g.rg.prevStatus else g.rg.status
  ctrlLs : g'.rg.ctrlLs = if e.taken.isSome then (g.queue env).tail else g.queue env
  upOn : g'.port.upOn = e.upOn
  raised : .setBit .up false ∈ g'.log ↔ e.raised = true
  taken : ∀ c, .delCtrl c ∈ g'.log ↔ e.taken = some c

/-- Every tick of the machine is a row of the table. -/
theorem frontTick_step (ht : frontTick g env = some g') : ∃ e, TickEffect g env g' e := by
  obtain ⟨h, hm, rfl⟩ := runMachine_cases ht
  obtain ⟨e, hstep, hr⟩ := coilFrontEntrance_step env hm
  refine ⟨e, hstep, ?_, ?_, ?_, hr.upOn, ?_, ?_⟩
  · simp [hr.next]
  · simp [hr.next, hr.status, hr.prevStatus]
  · simpa [Gate.queue] using hr.ctrlLs
  · simpa using hr.raised
  · simpa using hr.taken

/-- The machine has a handler for every status. -/
theorem frontTick_isSome (g : Gate) (env : Env) : ∃ g', frontTick g env = some g' := by
  cases hm : coilFrontEntrance g.rg.status with
  | none => cases hs : g.rg.status <;> rw [hs] at hm <;> cases hm
  | some h => exact ⟨_, runMachine_some hm⟩

end Step

end VdCamera.Roadgate
