import VdCamera.Dev.Led
import VdCamera.Misc.Run

/-!
# The lock of the LED screen

While the screen is locked every line of it counts as free, so a tick shows whatever waits. A locked
screen is silent exactly when nothing waits.
-/

namespace VdCamera.Dev

open Misc

variable {s s' : LedSys} {op : LedOp}

/-- While the screen is locked no line of it is in use. -/
def LockedFree (s : LedSys) : Prop :=
  s.led.lock = true → ∀ i, (s.led.lines i).delay = 0 ∨ (s.led.lines i).delay = -1

theorem delayNext_free {delay : Int} (h : delay = 0 ∨ delay = -1) : delayNext delay = -1 := by
  rcases h with rfl | rfl
  · rfl
  · rfl

theorem findCurrLine_eq_none {ls : List LedLine} : findCurrLine ls = none ↔ ls = [] :=
  List.getLast?_eq_none_iff

/-- Of a line that is free the last one that waits is shown. -/
theorem refreshLine_free {info : LineInfo} (h : info.delay = 0 ∨ info.delay = -1) :
    (refreshLine info).1 = findCurrLine info.ls := by
  unfold refreshLine
  rw [delayNext_free h]
  cases findCurrLine info.ls with
  | none => rfl
  | some line => simp

theorem refreshLine_delay {info : LineInfo} (h : info.delay = 0 ∨ info.delay = -1)
    (hnone : (refreshLine info).1 = none) : (refreshLine info).2.delay = -1 := by
  rw [refreshLine_free h] at hnone
  unfold refreshLine
  rw [hnone]
  exact delayNext_free h

theorem screen_eq_nil {led : VeLed} : led.screen = [] ↔ ∀ i, (refreshLine (led.lines i)).1 = none := by
  simp [VeLed.screen]

theorem silent_iff_screen :
    Silent s op ↔ (op = .refresh → s.led.lock = true → s.led.screen = []) := by
  have hlines : ∀ lines, .refresh lines ∉
      (List.finRange LED_MAX_LINES_NUM).flatMap (lineEvents s.led) := by
    intro lines hmem
    obtain ⟨i, -, hi⟩ := List.mem_flatMap.mp hmem
    rcases List.mem_append.mp hi with hi | hi
    · split at hi
      · simp at hi
      · cases hi
    · split at hi
      · split at hi
        · simp at hi
        · cases hi
      · cases hi
  unfold Silent
  refine forall₂_congr fun _ _ => ?_
  rw [ledRefreshDaemon]
  simp only [List.append_assoc, List.drop_left, List.mem_append, not_or]
  constructor
  · intro h
    by_contra hne
    apply (h s.led.screen).2
    rw [if_neg (by simpa using hne)]
    exact List.mem_singleton_self _
  · intro h lines
    refine ⟨hlines lines, ?_⟩
    simp [h]

/-- While every line is free, a tick is silent exactly when nothing waits. -/
theorem silent_iff_noneWaits (h : LockedFree s) : Silent s op ↔ NoneWaits s op := by
  rw [silent_iff_screen]
  unfold NoneWaits
  refine forall₂_congr fun _ hlock => ?_
  rw [screen_eq_nil]
  refine forall_congr' fun i => ?_
  rw [refreshLine_free (h hlock i), findCurrLine_eq_none]

theorem queueLines_kept (lines : List LedLine) (cnt : Int) {led : VeLed} {r : Int × VeLed}
    (h : queueLines lines cnt led = some r) :
    r.2.lock = led.lock ∧ ∀ i, (r.2.lines i).delay = (led.lines i).delay := by
  induction lines generalizing cnt led with
  | nil =>
    cases h
    exact ⟨rfl, fun _ => rfl⟩
  | cons line lines ih =>
    rw [queueLines] at h
    split at h
    · split at h
      · obtain ⟨hlock, hdelay⟩ := ih _ h
        refine ⟨hlock, fun i => (hdelay i).trans ?_⟩
        simp only [Function.update_apply]
        split
        · rename_i heq
          rw [heq]
        · rfl
      · cases h
    · exact ih _ h

/-- As long as the ticks are silent, the lines of a locked screen stay free. -/
theorem LockedFree.step (h : LockedFree s) (hsilent : Silent s op)
    (hstep : ledStep s op = some s') : LockedFree s' := by
  cases op with
  | check t lines =>
    rw [ledStep] at hstep
    split at hstep
    · cases hstep
    · split at hstep
      · cases hstep
        exact h
      · cases hstep
        exact h
  | queue t locked =>
    rw [ledStep] at hstep
    split at hstep
    · cases hstep
    · simp only at hstep
      split at hstep
      · obtain ⟨r, hr, rfl⟩ := Option.map_eq_some_iff.mp hstep
        obtain ⟨hlock, hdelay⟩ := queueLines_kept _ _ hr
        intro hl i
        have hl₁ : s.led.lock = true := hlock.symm.trans hl
        show (r.2.lines i).delay = 0 ∨ (r.2.lines i).delay = -1
        rw [hdelay i]
        exact h hl₁ i
      · cases hstep
        exact h
  | setLock lock =>
    cases hstep
    intro hl i
    cases lock with
    | true => exact .inl rfl
    | false => exact absurd hl (by simp [veLedSetLock])
  | refresh =>
    cases hstep
    intro hl i
    have hscreen := screen_eq_nil.mp (silent_iff_screen.mp hsilent rfl hl) i
    exact .inr (refreshLine_delay (h hl i) hscreen)

theorem along_silent_iff (h : LockedFree s) (ops : List LedOp) :
    Along ledStep Silent s ops ↔ Along ledStep NoneWaits s ops :=
  along_congr h (fun _ _ _ h hsilent hstep => h.step hsilent hstep)
    fun _ _ h => silent_iff_noneWaits h

theorem lockedFree_init : LockedFree {} := by
  intro hlock
  cases hlock

/-- A locked screen is silent in a run exactly when no tick finds it locked with a line that
waits. -/
theorem led_silent_iff (ops : List LedOp) :
    Along ledStep Silent {} ops ↔ Along ledStep NoneWaits {} ops :=
  along_silent_iff lockedFree_init ops

/-- A line that waits as the screen is locked is shown. -/
theorem led_not_silent_queued :
    ¬ Along ledStep Silent {}
      [.check 0 [⟨0, 0, LED_ACTION_DISP, 0, 0, 0, false, [65], []⟩], .queue 0 true, .setLock true,
        .refresh] := by
  rw [along_silent_iff lockedFree_init]
  rintro ⟨-, h⟩
  obtain ⟨-, h⟩ := h _ rfl
  obtain ⟨-, h⟩ := h _ rfl
  obtain ⟨hwaits, -⟩ := h _ rfl
  exact absurd (hwaits rfl rfl ⟨0, by decide⟩) (by decide)

/-! ## Locking a screen at rest -/

/-- Nothing waits and no call is about to queue. -/
def AtRest (s : LedSys) : Prop := (∀ i, (s.led.lines i).ls = []) ∧ ∀ t, s.adding t = none

/-- The screen is locked only while it is at rest. -/
def LocksAtRest (s : LedSys) (op : LedOp) : Prop := op = .setLock true → AtRest s

theorem ledStep_atRest (h : s.led.lock = true → AtRest s) (hop : LocksAtRest s op)
    (hstep : ledStep s op = some s') : s'.led.lock = true → AtRest s' := by
  cases op with
  | check t lines =>
    rw [ledStep] at hstep
    split at hstep
    · cases hstep
    · split at hstep
      · cases hstep
        exact h
      · rename_i hlock
        cases hstep
        intro hl
        exact absurd hl hlock
  | queue t locked =>
    intro hl
    rw [ledStep] at hstep
    split at hstep
    · cases hstep
    · rename_i lines hadd
      have hl₁ : s.led.lock = true := by
        simp only at hstep
        split at hstep
        · obtain ⟨r, hr, rfl⟩ := Option.map_eq_some_iff.mp hstep
          exact (queueLines_kept _ _ hr).1.symm.trans hl
        · cases hstep
          exact hl
      rw [(h hl₁).2 t] at hadd
      cases hadd
  | setLock lock =>
    cases hstep
    intro hl
    cases lock with
    | true => exact hop rfl
    | false => exact absurd hl (by simp [veLedSetLock])
  | refresh =>
    cases hstep
    intro hl
    refine ⟨fun i => ?_, (h hl).2⟩
    show (refreshLine (s.led.lines i)).2.ls = []
    unfold refreshLine
    rw [findCurrLine_eq_none.mpr ((h hl).1 i)]

/-- Locking a screen at rest silences it. -/
theorem led_silent_of_locksAtRest {ops : List LedOp} (h : Along ledStep LocksAtRest {} ops) :
    Along ledStep Silent {} ops := by
  have hinit : ({} : LedSys).led.lock = true → AtRest {} := by
    intro hlock
    cases hlock
  rw [along_silent_iff lockedFree_init]
  exact h.of_invariant hinit (fun _ _ _ hrest hop hstep => ledStep_atRest hrest hop hstep)
    fun s op hrest _ _ hlock => (hrest hlock).1

end VdCamera.Dev
