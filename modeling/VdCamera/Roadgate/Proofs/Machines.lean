import VdCamera.Roadgate.Daemon

/-!
# What a handler of any machine can do

`Call` lists the five things a handler call can be, whatever the machine: it leaves the gate alone,
clears the up signal, deletes the first control, does both, or carries out a table entry and takes
the control over. `rgSmTab_call` says so of the 24 machines; what a table entry may do (`PortFn`)
and where a call may lead (`T`) is all that the results about every machine need.
-/

namespace VdCamera.Roadgate

/-- The functions that stand in the tables. `rg_down` is not one of them. -/
inductive PortFn : (Env → Gate → Gate) → Prop
  | dummy : PortFn doDummy
  | setUp : PortFn (port rgSetUpSignal)
  | clrUp : PortFn (port rgClrUpSignal)
  | stop : PortFn (port rgStop)
  | downS : PortFn rgDownS
  | frontSetUp : PortFn frontSetUpSignal
  | centerSetUp : PortFn centerCenterSetUpSignal

inductive Call (env : Env) (g : Gate) (T : Status → Prop) : Gate × Status → Prop
  | keep {st} (ht : T st) : Call env g T (g, st)
  | clr {st} (ht : T st) : Call env g T (rgClrUpSignal g, st)
  | del (c) {st} (ht : T st) : Call env g T (rgDelNewCtrl g c, st)
  | delClr (c) {st} (ht : T st) : Call env g T (rgClrUpSignal (rgDelNewCtrl g c), st)
  | take (c) {f st} (hf : PortFn f) (ht : T st) :
    Call env g T (rgDelNewCtrl (takeCtrl env (f env g) c) c, st)

theorem Call.target {env : Env} {g : Gate} {T : Status → Prop} {r : Gate × Status}
    (h : Call env g T r) : T r.2 := by
  cases h <;> assumption

/-- The entries of the tables are port functions and lead to statuses of `T`. -/
def TabOk (T : Status → Prop) (lo : LoTab) (center : CenterTab) : Prop :=
  ∀ c e, ctrlEntry lo center c = some e → PortFn e.handle ∧ T e.status

section Handlers

variable {T : Status → Prop} {env : Env} {g : Gate}

theorem tableHandle_call {wait : Env → Gate → Status} {miss : Gate → RgCtrl → Status} {lo : LoTab}
    {center : CenterTab} (htab : TabOk T lo center) (hwait : T (wait env g))
    (hmiss : ∀ c cs, g.rg.ctrlLs = c :: cs → ctrlEntry lo center c = none → T (miss g c)) :
    Call env g T (tableHandle wait miss lo center env g) := by
  unfold tableHandle rgGetNewCtrl
  cases hq : g.rg.ctrlLs with
  | nil => exact .keep hwait
  | cons c cs =>
    cases he : ctrlEntry lo center c with
    | none => simpa [he] using .del c (hmiss c cs hq he)
    | some e =>
      obtain ⟨hf, ht⟩ := htab c e he
      simpa [he] using .take c hf ht

theorem closeBy_call {r : CloseRule} {next other : Status} (hn : T next) (ho : T other) :
    Call env g T (closeBy r next other env g) := by
  unfold closeBy
  split
  · exact .clr hn
  · exact .keep ho

theorem closeBy_del_call {r : CloseRule} {next other : Status} (c : RgCtrl) (hn : T next)
    (ho : T other) : Call env g T (closeBy r next other env (rgDelNewCtrl g c)) := by
  unfold closeBy
  split
  · exact .delClr c hn
  · exact .del c ho

/-- A handler of an open status: it stays or goes to idle. -/
def OpenHandler (h : Handler) : Prop :=
  ∀ (T : Status → Prop) (env : Env) (g : Gate), T .idle → T g.rg.status → Call env g T (h env g)

theorem loOpenEntrance_open (jump : List Action) (r : CloseRule) :
    OpenHandler (loOpenEntrance jump r) := by
  intro T env g hi hs
  unfold loOpenEntrance
  cases hq : rgGetNewCtrl g.rg with
  | none => exact closeBy_call hi hs
  | some c =>
    have hother : T (if jumps jump c then .idle else stay g) := by split <;> assumption
    by_cases hk : keeps jump c = true
    · simp only [if_pos hk]
      exact closeBy_call hi hother
    · simp only [if_neg hk]
      exact closeBy_del_call c hi hother

theorem openUntilCtrl_open (r : CloseRule) : OpenHandler (openUntilCtrl r) := by
  intro T env g hi hs
  unfold openUntilCtrl
  cases hq : rgGetNewCtrl g.rg with
  | none => exact closeBy_call hi hs
  | some c => exact .keep hi

theorem openUntilClosed_open (r : CloseRule) : OpenHandler (openUntilClosed r) :=
  fun _ _ _ hi hs => closeBy_call hi hs

theorem centerCenterOpen_open : OpenHandler centerCenterOpen := by
  intro T env g hi hs
  unfold centerCenterOpen
  cases hq : rgGetNewCtrl g.rg with
  | none => exact closeBy_call hi hs
  | some c =>
    refine .keep ?_
    split <;> assumption

theorem idleHandle_call {lo : LoTab} {center : CenterTab} (htab : TabOk T lo center)
    (hs : T g.rg.status)
    (hmiss : ∀ c cs, g.rg.ctrlLs = c :: cs → ctrlEntry lo center c = none → T (idleMiss g c)) :
    Call env g T (idleHandle lo center env g) :=
  tableHandle_call htab hs hmiss

theorem centerNcHandle_call {lo : LoTab} {center : CenterTab} (htab : TabOk T lo center)
    (hs : T g.rg.status)
    (hmiss : ∀ c cs, g.rg.ctrlLs = c :: cs → ctrlEntry lo center c = none → T g.rg.prevStatus) :
    Call env g T (centerNcHandle lo center env g) :=
  tableHandle_call htab hs hmiss

theorem centerNoHandle_call (hi : T .idle) (hs : T g.rg.status) :
    Call env g T (centerNoHandle env g) := by
  refine tableHandle_call ?_ hs fun _ _ _ _ => hs
  rintro ⟨ctrler, type, action, timeout⟩ e he
  cases ctrler <;> cases type <;> cases action <;> simp [ctrlEntry, noLo] at he
  subst he
  exact ⟨.downS, hi⟩

theorem centerNcCenterOpenHandle_call {back : Gate → Status} (hb : T (back g))
    (hs : T g.rg.status) :
    Call env g T (centerNcCenterOpenHandle back env g) := by
  unfold centerNcCenterOpenHandle
  cases hq : rgGetNewCtrl g.rg with
  | none => exact closeBy_call hb hs
  | some c => exact .keep hb

end Handlers

section Tables

variable {T T' : Status → Prop} {lo : LoTab} {center : CenterTab}

theorem TabOk.mono (h : TabOk T lo center) (hT : ∀ st, T st → T' st) : TabOk T' lo center :=
  fun c e he => ⟨(h c e he).1, hT _ (h c e he).2⟩

/-- The statuses every machine knows. -/
def Common (st : Status) : Prop := st ≠ .centerNcLoWait ∧ st ≠ .loOpen

theorem noLo_tab (h : ∀ t a e, center t a = some e → PortFn e.handle ∧ T e.status) :
    TabOk T noLo center := by
  rintro ⟨ctrler, type, action, timeout⟩ e he
  cases ctrler with
  | lo => cases he
  | center => exact h type action e he

theorem idleManual_ok (a : Action) (e : CtrlHandle) (he : idleManual a = some e) :
    PortFn e.handle ∧ Common e.status := by
  cases a <;> simp only [idleManual, Option.some.injEq, reduceCtorEq] at he <;> subst he <;>
    exact ⟨by constructor, by decide, by decide⟩

theorem ncManual_ok (a : Action) (e : CtrlHandle) (he : ncManual a = some e) :
    PortFn e.handle ∧ Common e.status := by
  cases a <;> simp only [ncManual, Option.some.injEq, reduceCtorEq] at he <;> subst he <;>
    exact ⟨by constructor, by decide, by decide⟩

theorem idle_tab {setUp : Env → Gate → Gate} (hf : PortFn setUp)
    (h : ∀ t a e, center t a = some e → PortFn e.handle ∧ Common e.status) :
    TabOk (· ≠ .centerNcLoWait) (idleLoTab setUp) center := by
  rintro ⟨ctrler, type, action, timeout⟩ e he
  cases ctrler with
  | lo =>
    cases action <;> simp only [ctrlEntry, idleLoTab, Option.some.injEq, reduceCtorEq] at he
    subst he
    exact ⟨hf, by simp⟩
  | center => exact ⟨(h type action e he).1, (h type action e he).2.1⟩

theorem frontIdleTab_ok (t : CtrlType) (a : Action) (e : CtrlHandle)
    (he : frontIdleTab t a = some e) : PortFn e.handle ∧ Common e.status := by
  cases t with
  | manual => exact idleManual_ok a e he
  | auto => cases he
  | other =>
    cases a <;> simp only [frontIdleTab, Option.some.injEq, reduceCtorEq] at he
    subst he
    exact ⟨.setUp, by decide, by decide⟩

theorem mixIdleTab_ok (t : CtrlType) (a : Action) (e : CtrlHandle)
    (he : mixIdleTab t a = some e) : PortFn e.handle ∧ Common e.status := by
  cases t with
  | manual => exact idleManual_ok a e he
  | auto | other =>
    cases a <;> simp only [mixIdleTab, Option.some.injEq, reduceCtorEq] at he
    subst he
    exact ⟨.setUp, by decide, by decide⟩

theorem centerIdleTab_ok (t : CtrlType) (a : Action) (e : CtrlHandle)
    (he : centerIdleTab t a = some e) : PortFn e.handle ∧ Common e.status := by
  cases t with
  | manual => exact idleManual_ok a e he
  | auto | other =>
    cases a <;> simp only [centerIdleTab, Option.some.injEq, reduceCtorEq] at he
    subst he
    exact ⟨.centerSetUp, by decide, by decide⟩

theorem frontNcTab_ok (t : CtrlType) (a : Action) (e : CtrlHandle)
    (he : frontNcTab t a = some e) : PortFn e.handle ∧ Common e.status := by
  cases t with
  | manual => exact ncManual_ok a e he
  | auto | other => cases he

theorem centerNcTab_ok (t : CtrlType) (a : Action) (e : CtrlHandle)
    (he : centerNcTab t a = some e) : PortFn e.handle ∧ Common e.status := by
  cases t with
  | manual => exact ncManual_ok a e he
  | other => cases he
  | auto =>
    cases a <;> simp only [centerNcTab, Option.some.injEq, reduceCtorEq] at he
    subst he
    exact ⟨.centerSetUp, by decide, by decide⟩

theorem centerNcExportTab_ok (t : CtrlType) (a : Action) (e : CtrlHandle)
    (he : centerNcExportTab t a = some e) : PortFn e.handle ∧ Common e.status := by
  cases t with
  | manual => exact ncManual_ok a e he
  | auto | other =>
    cases a <;> simp only [centerNcExportTab, Option.some.injEq, reduceCtorEq] at he
    subst he
    exact ⟨.centerSetUp, by decide, by decide⟩

theorem videoMixNcTab_ok (t : CtrlType) (a : Action) (e : CtrlHandle)
    (he : videoMixNcTab t a = some e) : PortFn e.handle ∧ Common e.status := by
  cases t with
  | manual => exact ncManual_ok a e he
  | auto => cases he
  | other =>
    cases a <;> simp only [videoMixNcTab, Option.some.injEq, reduceCtorEq] at he
    subst he
    exact ⟨.setUp, by decide, by decide⟩

theorem ncLoTab_ok : TabOk (fun _ => True) ncLoTab frontNcTab := by
  rintro ⟨ctrler, type, action, timeout⟩ e he
  cases ctrler with
  | lo =>
    cases action <;> simp only [ctrlEntry, ncLoTab, Option.some.injEq, reduceCtorEq] at he
    subst he
    exact ⟨.dummy, trivial⟩
  | center => exact ⟨(frontNcTab_ok type action e he).1, trivial⟩

theorem loWaitTab_ok {setUp : Env → Gate → Gate} (hf : PortFn setUp) :
    TabOk (fun _ => True) noLo (loWaitTab setUp) := by
  refine noLo_tab fun t a e he => ⟨?_, trivial⟩
  cases t <;> cases a <;> simp only [loWaitTab, Option.some.injEq, reduceCtorEq] at he <;>
    subst he
  · exact .downS
  · exact .setUp
  · exact .clrUp
  · exact hf

end Tables

/-! ## The handler calls of the 24 machines

Every call a machine makes is a `Call`, and leads to a status the machine has a handler for, unless
it resumes a previous status that the machine does not know.
-/

/-- The tables of the machine's idle handler. -/
def idleTabs (m : Mode) : LoTab × CenterTab :=
  match m.detectMode, m.veMode, m.rgMode with
  | _, _, .background => (noLo, centerIdleTab)
  | .coil, .inward, .mix | .mix, .inward, .mix => (idleLoTab frontSetUpSignal, mixIdleTab)
  | _, _, .mix => (idleLoTab (port rgSetUpSignal), mixIdleTab)
  | .coil, .inward, _ => (idleLoTab frontSetUpSignal, frontIdleTab)
  | _, _, _ => (idleLoTab (port rgSetUpSignal), frontIdleTab)

/-- The tables of the machine's `CENTER_NC` handler. -/
def ncTabs (m : Mode) : LoTab × CenterTab :=
  match m.detectMode, m.veMode, m.rgMode with
  | _, .inward, .background => (noLo, centerNcTab)
  | _, .outward, .background => (noLo, centerNcExportTab)
  | .video, .inward, .mix => (noLo, videoMixNcTab)
  | _, .inward, _ => (ncLoTab, frontNcTab)
  | _, .outward, _ => (noLo, frontNcTab)

theorem rgSmTab_idle (m : Mode) :
    rgSmTab m .idle = some (idleHandle (idleTabs m).1 (idleTabs m).2) := by
  obtain ⟨d, v, r⟩ := m
  cases d <;> cases v <;> cases r <;> rfl

theorem rgSmTab_centerNc (m : Mode) :
    rgSmTab m .centerNc = some (centerNcHandle (ncTabs m).1 (ncTabs m).2) := by
  obtain ⟨d, v, r⟩ := m
  cases d <;> cases v <;> cases r <;> rfl

/-- The control makes the machine resume the previous status: it has no entry in the handler that is
about to be called. -/
def Misses (m : Mode) (g : Gate) : Prop :=
  ∃ c cs, g.rg.ctrlLs = c :: cs ∧
    (g.rg.status = .idle ∧ ctrlEntry (idleTabs m).1 (idleTabs m).2 c = none ∧
        idleMiss g c ≠ .idle ∨
      g.rg.status = .centerNc ∧ ctrlEntry (ncTabs m).1 (ncTabs m).2 c = none)

section Rest

variable {T : Status → Prop} {env : Env} {g : Gate} {h : Handler}
  {loOpen centerOpen ncOpen idle nc loWait : Handler}

/-- The calls of an entrance machine other than in idle and `CENTER_NC`. -/
theorem entranceTable_call {setUp : Env → Gate → Gate} (hf : PortFn setUp) (hT : ∀ st, T st)
    (hlo : OpenHandler loOpen) (hco : OpenHandler centerOpen)
    (hm : entranceTable idle loOpen centerOpen nc (centerNcLoWaitHandle (loWaitTab setUp)) g.rg.status =
      some h)
    (hi : g.rg.status ≠ .idle) (hn : g.rg.status ≠ .centerNc) : Call env g T (h env g) := by
  cases hs : g.rg.status <;> rw [hs] at hm hi hn <;> cases hm
  case idle => exact absurd rfl hi
  case centerNc => exact absurd rfl hn
  case centerOpen => exact hco T env g (hT _) (hT _)
  case loOpen => exact hlo T env g (hT _) (hT _)
  case centerClose => exact .keep (hT _)
  case centerStop => exact .keep (hT _)
  case centerNcLoWait =>
    exact tableHandle_call ((loWaitTab_ok hf).mono fun st _ => hT st) (hT _) fun _ _ _ _ => hT _
  case centerNcCenterOpen => exact centerNcCenterOpenHandle_call (hT _) (hT _)
  case centerNcCenterClose => exact .keep (hT _)
  case centerNcCenterStop => exact .keep (hT _)
  case centerNo => exact centerNoHandle_call (hT _) (hT _)

/-- The calls of a machine without the wait state other than in idle and `CENTER_NC`. -/
theorem exportTable_call (hT : ∀ st, st ≠ .centerNcLoWait → T st) (hlo : OpenHandler loOpen)
    (hco : OpenHandler centerOpen)
    (hno : T .centerNc → T g.rg.status → Call env g T (ncOpen env g))
    (hm : exportTable idle loOpen centerOpen nc ncOpen g.rg.status = some h)
    (hi : g.rg.status ≠ .idle) (hn : g.rg.status ≠ .centerNc) : Call env g T (h env g) := by
  have hs' : T g.rg.status := by
    refine hT _ ?_
    intro hs
    rw [hs] at hm
    cases hm
  have hidle : T .idle := hT _ (by decide)
  have hnc : T .centerNc := hT _ (by decide)
  cases hs : g.rg.status <;> rw [hs] at hm hi hn <;> cases hm
  case idle => exact absurd rfl hi
  case centerNc => exact absurd rfl hn
  case centerOpen => exact hco T env g hidle hs'
  case loOpen => exact hlo T env g hidle hs'
  case centerClose => exact .keep hidle
  case centerStop => exact .keep hidle
  case centerNcCenterOpen => exact hno hnc hs'
  case centerNcCenterClose => exact .keep hnc
  case centerNcCenterStop => exact .keep hnc
  case centerNo => exact centerNoHandle_call hidle hs'

/-- The calls of a machine that only the center controls, other than in idle and `CENTER_NC`. -/
theorem centerTable_call (hT : ∀ st, Common st → T st) (hco : OpenHandler centerOpen)
    (hm : centerTable idle centerOpen nc g.rg.status = some h)
    (hi : g.rg.status ≠ .idle) (hn : g.rg.status ≠ .centerNc) : Call env g T (h env g) := by
  have hs' : T g.rg.status := by
    refine hT _ ⟨fun hs => ?_, fun hs => ?_⟩ <;>
    · rw [hs] at hm
      cases hm
  have hidle : T .idle := hT _ ⟨by decide, by decide⟩
  have hnc : T .centerNc := hT _ ⟨by decide, by decide⟩
  cases hs : g.rg.status <;> rw [hs] at hm hi hn <;> cases hm
  case idle => exact absurd rfl hi
  case centerNc => exact absurd rfl hn
  case centerOpen => exact hco T env g hidle hs'
  case centerClose => exact .keep hidle
  case centerStop => exact .keep hidle
  case centerNcCenterOpen => exact centerNcCenterOpenHandle_call hnc hs'
  case centerNcCenterClose => exact .keep hnc
  case centerNcCenterStop => exact .keep hnc
  case centerNo => exact centerNoHandle_call hidle hs'

end Rest

/-- The machine has a handler for the status. -/
def Handled (m : Mode) (st : Status) : Prop := (rgSmTab m st).isSome = true

instance (m : Mode) : DecidablePred (Handled m) := fun st =>
  inferInstanceAs (Decidable ((rgSmTab m st).isSome = true))

theorem handled_of_common (m : Mode) {st : Status} (hst : Common st) : Handled m st := by
  obtain ⟨d, v, r⟩ := m
  obtain ⟨hw, hl⟩ := hst
  cases st <;> first | contradiction | (cases d <;> cases v <;> cases r <;> rfl)

theorem handled_of_ne_loWait (m : Mode) (hm : m.rgMode ≠ .background) {st : Status}
    (hst : st ≠ .centerNcLoWait) : Handled m st := by
  obtain ⟨d, v, r⟩ := m
  cases st <;> first | contradiction |
    (cases d <;> cases v <;> cases r <;> first | rfl | exact absurd rfl hm)

theorem idleTabs_ok (m : Mode) : TabOk (Handled m) (idleTabs m).1 (idleTabs m).2 := by
  by_cases hm : m.rgMode = .background
  · obtain ⟨d, v, r⟩ := m
    subst hm
    have : idleTabs ⟨d, v, .background⟩ = (noLo, centerIdleTab) := by cases d <;> cases v <;> rfl
    rw [this]
    exact (noLo_tab centerIdleTab_ok).mono fun st hst => handled_of_common _ hst
  · refine TabOk.mono ?_ fun st hst => handled_of_ne_loWait m hm hst
    obtain ⟨d, v, r⟩ := m
    cases r with
    | background => exact absurd rfl hm
    | mix =>
      cases d <;> cases v <;>
        first | exact idle_tab .frontSetUp mixIdleTab_ok | exact idle_tab .setUp mixIdleTab_ok
    | front | frontRecord =>
      cases d <;> cases v <;>
        first | exact idle_tab .frontSetUp frontIdleTab_ok | exact idle_tab .setUp frontIdleTab_ok

theorem ncTabs_ok (m : Mode) : TabOk (Handled m) (ncTabs m).1 (ncTabs m).2 := by
  have hc : ∀ st, Common st → Handled m st := fun st hst => handled_of_common m hst
  obtain ⟨d, v, r⟩ := m
  cases d <;> cases v <;> cases r <;>
    first
    | exact (noLo_tab centerNcTab_ok).mono hc
    | exact (noLo_tab centerNcExportTab_ok).mono hc
    | exact (noLo_tab videoMixNcTab_ok).mono hc
    | exact (noLo_tab frontNcTab_ok).mono hc
    | exact ncLoTab_ok.mono fun st _ => by cases st <;> rfl

section All

variable {T : Status → Prop} {env : Env} {g : Gate} {h : Handler}

/-- The calls of the coil machines other than in idle and `CENTER_NC`. -/
theorem coilTab_call (v : VeMode) (r : RgMode) (hT : ∀ st, Handled ⟨.coil, v, r⟩ st → T st)
    (hm : coilTab v r g.rg.status = some h) (hi : g.rg.status ≠ .idle)
    (hn : g.rg.status ≠ .centerNc) : Call env g T (h env g) := by
  have hc : ∀ st, Common st → T st := fun st hst => hT st (handled_of_common _ hst)
  cases v <;> cases r
  case inward.front =>
    exact entranceTable_call .frontSetUp (fun st => hT st (by cases st <;> rfl))
      (loOpenEntrance_open _ _) (openUntilClosed_open _) hm hi hn
  case inward.frontRecord =>
    exact entranceTable_call .frontSetUp (fun st => hT st (by cases st <;> rfl))
      (loOpenEntrance_open _ _) (openUntilClosed_open _) hm hi hn
  case inward.mix =>
    exact entranceTable_call .frontSetUp (fun st => hT st (by cases st <;> rfl))
      (loOpenEntrance_open _ _) (openUntilClosed_open _) hm hi hn
  case inward.background => exact centerTable_call hc centerCenterOpen_open hm hi hn
  case outward.background => exact centerTable_call hc (openUntilClosed_open _) hm hi hn
  all_goals
    exact exportTable_call (fun st hst => hT st (handled_of_ne_loWait _ (by decide) hst))
      (openUntilCtrl_open _) (openUntilClosed_open _)
      (fun hb hs => centerNcCenterOpenHandle_call hb hs) hm hi hn

theorem videoTab_call (v : VeMode) (r : RgMode) (hT : ∀ st, Handled ⟨.video, v, r⟩ st → T st)
    (hm : videoTab v r g.rg.status = some h) (hi : g.rg.status ≠ .idle)
    (hn : g.rg.status ≠ .centerNc) : Call env g T (h env g) := by
  have hc : ∀ st, Common st → T st := fun st hst => hT st (handled_of_common _ hst)
  cases v <;> cases r
  case inward.front =>
    exact entranceTable_call .setUp (fun st => hT st (by cases st <;> rfl))
      (openUntilCtrl_open _) (openUntilClosed_open _) hm hi hn
  case inward.frontRecord =>
    exact entranceTable_call .setUp (fun st => hT st (by cases st <;> rfl))
      (openUntilCtrl_open _) (openUntilClosed_open _) hm hi hn
  case inward.background => exact centerTable_call hc (openUntilCtrl_open _) hm hi hn
  case outward.background => exact centerTable_call hc (openUntilClosed_open _) hm hi hn
  case inward.mix =>
    exact exportTable_call (fun st hst => hT st (handled_of_ne_loWait _ (by decide) hst))
      (openUntilClosed_open _) (openUntilClosed_open _)
      (fun hb hs => show Call env g T (centerNcCenterOpenUntilClosed env g) from closeBy_call hb hs)
      hm hi hn
  all_goals
    exact exportTable_call (fun st hst => hT st (handled_of_ne_loWait _ (by decide) hst))
      (openUntilCtrl_open _) (openUntilClosed_open _)
      (fun hb hs => centerNcCenterOpenHandle_call hb hs) hm hi hn

theorem mixTab_call (v : VeMode) (r : RgMode) (hT : ∀ st, Handled ⟨.mix, v, r⟩ st → T st)
    (hm : mixTab v r g.rg.status = some h) (hi : g.rg.status ≠ .idle)
    (hn : g.rg.status ≠ .centerNc) : Call env g T (h env g) := by
  have hc : ∀ st, Common st → T st := fun st hst => hT st (handled_of_common _ hst)
  cases v <;> cases r
  case inward.front =>
    exact entranceTable_call .setUp (fun st => hT st (by cases st <;> rfl))
      (loOpenEntrance_open _ _) (openUntilClosed_open _) hm hi hn
  case inward.frontRecord =>
    exact entranceTable_call .setUp (fun st => hT st (by cases st <;> rfl))
      (loOpenEntrance_open _ _) (openUntilClosed_open _) hm hi hn
  case inward.mix =>
    exact entranceTable_call .frontSetUp (fun st => hT st (by cases st <;> rfl))
      (loOpenEntrance_open _ _) (openUntilClosed_open _) hm hi hn
  case inward.background => exact centerTable_call hc centerCenterOpen_open hm hi hn
  case outward.background => exact centerTable_call hc (openUntilClosed_open _) hm hi hn
  all_goals
    exact exportTable_call (fun st hst => hT st (handled_of_ne_loWait _ (by decide) hst))
      (openUntilCtrl_open _) (openUntilClosed_open _)
      (fun hb hs => centerNcCenterOpenHandle_call hb hs) hm hi hn

/-- Every handler call of every machine. -/
theorem rgSmTab_call (m : Mode) (hT : ∀ st, Handled m st → T st)
    (hmiss : Misses m g → T g.rg.prevStatus) (hm : rgSmTab m g.rg.status = some h) :
    Call env g T (h env g) := by
  have hs : T g.rg.status := hT _ (by simp [Handled, hm])
  by_cases hi : g.rg.status = .idle
  · rw [hi, rgSmTab_idle, Option.some.injEq] at hm
    subst hm
    refine idleHandle_call ((idleTabs_ok m).mono hT) hs ?_
    intro c cs hq he
    by_cases hr : idleMiss g c = .idle
    · rwa [hr, ← hi]
    · have hprev := hmiss ⟨c, cs, hq, .inl ⟨hi, he, hr⟩⟩
      unfold idleMiss
      split <;> assumption
  by_cases hn : g.rg.status = .centerNc
  · rw [hn, rgSmTab_centerNc, Option.some.injEq] at hm
    subst hm
    exact centerNcHandle_call ((ncTabs_ok m).mono hT) hs fun c cs hq he =>
      hmiss ⟨c, cs, hq, .inr ⟨hn, he⟩⟩
  obtain ⟨d, v, r⟩ := m
  cases d with
  | coil => exact coilTab_call v r hT hm hi hn
  | video => exact videoTab_call v r hT hm hi hn
  | mix => exact mixTab_call v r hT hm hi hn

end All

end VdCamera.Roadgate
