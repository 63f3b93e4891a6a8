import VdCamera.Misc.Run

/-!
# Handing an argument over to a new thread

A creator sets the words of a shared argument, creates a worker under a mutex and waits on a
condition for the worker to have copied them; then it writes the argument anew. The worker copies
word by word and signals, without the mutex. Nothing but the condition says that the worker has
signalled: a signal that finds nobody waiting is lost, and a wake-up may come from anywhere. The
hand-offs of such a pair go well in every run in which no wait begins after the signal and no other
wake-up comes before the copy is complete.
-/

namespace VdCamera.Misc

/-- Where the creator is in a call. -/
inductive CreatorPlace where
  | idle
  | lock
  | create
  | wait
  | waiting
  | relock
  | reuse (k : Nat)
  | unlock
  deriving DecidableEq, Repr

/-- A worker: the argument it was created for, what it has copied so far, and whether it has
signalled. -/
structure Worker (α : Type*) where
  arg : List α
  copied : List α := []
  signalled : Bool := false
  deriving DecidableEq, Repr

/-- The creator, the mutex, the shared argument, the worker of the call under way and those of the
calls that are past their wait. -/
structure HandOff (α : Type*) where
  place : CreatorPlace := .idle
  locked : Bool := false
  shared : List α
  current : Option (Worker α) := none
  served : List (Worker α) := []
  deriving DecidableEq, Repr

/-- Who takes the next step. -/
inductive HandOffStep (α : Type*) where
  | call (arg : List α)
  | creator (createOk : Bool)
  | current
  | served (k : Nat)
  | wakeUp
  deriving DecidableEq, Repr

variable {α : Type*}

/-- The worker's next step, and whether it is its signal. -/
def Worker.step (shared : List α) (w : Worker α) : Option (Worker α × Bool) :=
  match shared[w.copied.length]? with
  | some v => some ({ w with copied := w.copied ++ [v] }, false)
  | none => if w.signalled then none else some ({ w with signalled := true }, true)

/-- A waiting creator is woken; it has to take the mutex again. -/
def HandOff.wake (s : HandOff α) : HandOff α :=
  if s.place = .waiting then { s with place := .relock } else s

/-- The creator's next step; `after` is what it writes over the argument. -/
def HandOff.creatorStep (after : List α) (createOk : Bool) (s : HandOff α) : Option (HandOff α) :=
  match s.place with
  | .idle | .waiting => none
  | .lock => if s.locked then none else some { s with locked := true, place := .create }
  | .create =>
    if createOk then some { s with current := some { arg := s.shared }, place := .wait }
    else some { s with place := .unlock }
  | .wait => some { s with locked := false, place := .waiting }
  | .relock =>
    if s.locked then none
    else some { s with
      locked := true, place := .reuse 0, current := none, served := s.served ++ s.current.toList }
  | .reuse k =>
    match after[k]? with
    | some v => some { s with shared := s.shared.set k v, place := .reuse (k + 1) }
    | none => some { s with place := .unlock }
  | .unlock => some { s with locked := false, place := .idle }

/-- One step of the threads. -/
def handOffStep (after : List α) (s : HandOff α) : HandOffStep α → Option (HandOff α)
  | .call arg =>
    if s.place = .idle ∧ arg.length = after.length then
      some { s with shared := arg, place := .lock }
    else none
  | .creator createOk => s.creatorStep after createOk
  | .current => do
    let w ← s.current
    let (w', signal) ← w.step s.shared
    let s' := { s with current := some w' }
    some (if signal then s'.wake else s')
  | .served k => do
    let w ← s.served[k]?
    let (w', signal) ← w.step s.shared
    let s' := { s with served := s.served.set k w' }
    some (if signal then s'.wake else s')
  | .wakeUp => if s.place = .waiting then some s.wake else none

/-- The creator does not wait for a signal that has been given. -/
def HandOff.NoneLost (s : HandOff α) : Prop :=
  s.place = .waiting → ∀ w ∈ s.current, w.signalled = false

/-- Every worker whose call is past its wait has the argument it was created for. -/
def HandOff.Intact (s : HandOff α) : Prop := ∀ w ∈ s.served, w.copied = w.arg

/-- The worker of the call under way has not signalled when the creator begins to wait, and whatever
else wakes the creator comes when that worker has copied every word. -/
def HandOff.InTime (s : HandOff α) : HandOffStep α → Prop
  | .creator _ => s.place = .wait → ∀ w ∈ s.current, w.signalled = false
  | .served _ | .wakeUp => s.place = .waiting → ∀ w ∈ s.current, w.copied.length = w.arg.length
  | _ => True

instance (s : HandOff α) : Decidable s.NoneLost :=
  inferInstanceAs (Decidable (s.place = .waiting → ∀ w ∈ s.current, w.signalled = false))

instance [DecidableEq α] (s : HandOff α) : Decidable s.Intact :=
  inferInstanceAs (Decidable (∀ w ∈ s.served, w.copied = w.arg))

instance (s : HandOff α) : ∀ i, Decidable (s.InTime i)
  | .call _ | .current => isTrue trivial
  | .creator _ =>
    inferInstanceAs (Decidable (s.place = .wait → ∀ w ∈ s.current, w.signalled = false))
  | .served _ | .wakeUp => inferInstanceAs
      (Decidable (s.place = .waiting → ∀ w ∈ s.current, w.copied.length = w.arg.length))

/-- What holds of the worker of the call under way: it has copied a beginning of the shared words,
all of them when it has signalled or the creator has been woken. -/
structure Worker.Copying (place : CreatorPlace) (shared : List α) (w : Worker α) : Prop where
  place_eq : place = .wait ∨ place = .waiting ∨ place = .relock
  arg_eq : w.arg = shared
  prefix_shared : w.copied <+: shared
  complete : w.signalled = true ∨ place = .relock → w.copied = shared
  silent : place = .waiting → w.signalled = false

/-- The invariant of the runs whose steps are in time. -/
structure HandOff.Inv (n : Nat) (s : HandOff α) : Prop where
  length_shared : s.shared.length = n
  served : ∀ w ∈ s.served, w.copied = w.arg ∧ w.arg.length = n
  current : ∀ w ∈ s.current, w.Copying s.place s.shared

variable {after : List α} {s s' : HandOff α} {i : HandOffStep α} {w w' : Worker α} {n : Nat}

theorem HandOff.Inv.noneLost (h : s.Inv n) : s.NoneLost :=
  fun hplace w hw => (h.current w hw).silent hplace

theorem HandOff.Inv.intact (h : s.Inv n) : s.Intact := fun w hw => (h.served w hw).1

/-- A worker that has copied everything can only signal. -/
theorem Worker.step_complete {shared : List α} (hlen : w.copied.length = shared.length) :
    w.step shared = if w.signalled then none else some ({ w with signalled := true }, true) := by
  simp [Worker.step, hlen]

theorem Worker.step_cases {shared : List α} {signal : Bool}
    (hpre : w.copied <+: shared) (h : w.step shared = some (w', signal)) :
    (signal = false ∧ w'.copied <+: shared ∧ w'.arg = w.arg ∧ w'.signalled = w.signalled ∧
      w.copied ≠ shared) ∨
    (signal = true ∧ w.copied = shared ∧ w' = { w with signalled := true }) := by
  obtain ⟨rest, rfl⟩ := hpre
  unfold Worker.step at h
  cases rest with
  | nil =>
    rw [List.append_nil, List.getElem?_eq_none (Nat.le_refl _)] at h
    dsimp only at h
    split_ifs at h
    cases h
    exact Or.inr ⟨rfl, by simp, rfl⟩
  | cons v rest =>
    simp only [List.getElem?_append_right (Nat.le_refl _), Nat.sub_self,
      List.getElem?_cons_zero, Option.some.injEq, Prod.mk.injEq] at h
    obtain ⟨rfl, rfl⟩ := h
    exact Or.inl ⟨rfl, ⟨rest, by simp⟩, rfl, rfl, by simp⟩

theorem HandOff.wake_of_ne (h : s.place ≠ .waiting) : s.wake = s := if_neg h

theorem HandOff.wake_of_waiting (h : s.place = .waiting) : s.wake = { s with place := .relock } :=
  if_pos h

/-- Waking the creator when the worker under way has copied everything. -/
theorem HandOff.Inv.wake (h : s.Inv n)
    (hw : s.place = .waiting → ∀ w ∈ s.current, w.copied = s.shared) :
    s.wake.Inv n := by
  by_cases hplace : s.place = .waiting
  · rw [wake_of_waiting hplace]
    refine ⟨h.length_shared, h.served, ?_⟩
    intro w hmem
    have hc := h.current w hmem
    exact ⟨Or.inr (Or.inr rfl), hc.arg_eq, hc.prefix_shared, fun _ => hw hplace w hmem, nofun⟩
  · rwa [wake_of_ne hplace]

/-- The creator's steps. -/
theorem HandOff.Inv.creator {createOk : Bool} (h : s.Inv after.length)
    (htime : s.InTime (.creator createOk)) (hstep : s.creatorStep after createOk = some s') :
    s'.Inv after.length := by
  have hnone : s.place ≠ .wait → s.place ≠ .waiting → s.place ≠ .relock → ∀ w, w ∉ s.current := by
    intro h1 h2 h3 w hw
    rcases (h.current w hw).place_eq with hp | hp | hp
    · exact h1 hp
    · exact h2 hp
    · exact h3 hp
  unfold creatorStep at hstep
  split at hstep
  · cases hstep
  · cases hstep
  · next hp =>
    split_ifs at hstep
    cases hstep
    exact ⟨h.length_shared, h.served, fun w hw => absurd hw (hnone (by simp [hp]) (by simp [hp])
      (by simp [hp]) w)⟩
  · next hp =>
    split_ifs at hstep
    · cases hstep
      refine ⟨h.length_shared, h.served, ?_⟩
      intro w hw
      cases hw
      exact ⟨Or.inl rfl, rfl, List.nil_prefix, by simp, nofun⟩
    · cases hstep
      exact ⟨h.length_shared, h.served, fun w hw => absurd hw (hnone (by simp [hp]) (by simp [hp])
        (by simp [hp]) w)⟩
  · next hp =>
    cases hstep
    refine ⟨h.length_shared, h.served, ?_⟩
    intro w hw
    have hc := h.current w hw
    exact ⟨Or.inr (Or.inl rfl), hc.arg_eq, hc.prefix_shared, fun hs => hc.complete (hs.imp_right nofun),
      fun _ => htime hp w hw⟩
  · next hp =>
    split_ifs at hstep
    cases hstep
    refine ⟨h.length_shared, ?_, nofun⟩
    intro w hw
    rcases List.mem_append.mp hw with hw | hw
    · exact h.served w hw
    · have hc := h.current w (by simpa using hw)
      have hcopied := hc.complete (Or.inr hp)
      exact ⟨hcopied.trans hc.arg_eq.symm, hc.arg_eq ▸ h.length_shared⟩
  · next k hp =>
    have hcur := hnone (by simp [hp]) (by simp [hp]) (by simp [hp])
    split at hstep
    · cases hstep
      exact ⟨by simp [h.length_shared], h.served, fun w hw => absurd hw (hcur w)⟩
    · cases hstep
      exact ⟨h.length_shared, h.served, fun w hw => absurd hw (hcur w)⟩
  · next hp =>
    cases hstep
    exact ⟨h.length_shared, h.served, fun w hw => absurd hw (hnone (by simp [hp]) (by simp [hp])
      (by simp [hp]) w)⟩

/-- A step of the worker of the call under way. -/
theorem HandOff.Inv.worker {signal : Bool} (h : s.Inv n) (hw : s.current = some w)
    (hstep : w.step s.shared = some (w', signal)) :
    (if signal then { s with current := some w' }.wake else { s with current := some w' }).Inv n := by
  have hc := h.current w hw
  rcases Worker.step_cases hc.prefix_shared hstep with
    ⟨rfl, hpre, harg, hsig, hne⟩ | ⟨rfl, hcopied, rfl⟩
  · rw [if_neg Bool.false_ne_true]
    refine ⟨h.length_shared, h.served, ?_⟩
    intro w'' hw''
    cases hw''
    refine ⟨hc.place_eq, harg.trans hc.arg_eq, hpre, ?_, fun hp => hsig.trans (hc.silent hp)⟩
    rw [hsig]
    exact fun hs => absurd (hc.complete hs) hne
  · rw [if_pos rfl]
    by_cases hplace : s.place = .waiting
    · rw [wake_of_waiting (by exact hplace)]
      refine ⟨h.length_shared, h.served, ?_⟩
      intro w'' hw''
      cases hw''
      exact ⟨Or.inr (Or.inr rfl), hc.arg_eq, hc.prefix_shared, fun _ => hcopied, nofun⟩
    · rw [wake_of_ne (by exact hplace)]
      refine ⟨h.length_shared, h.served, ?_⟩
      intro w'' hw''
      cases hw''
      exact ⟨hc.place_eq, hc.arg_eq, hc.prefix_shared, fun _ => hcopied, fun hp => absurd hp hplace⟩

/-- A step of a worker whose call is past its wait: a signal to whoever waits. -/
theorem HandOff.Inv.stale {signal : Bool} {k : Nat} (h : s.Inv n)
    (htime : s.InTime (.served k)) (hw : s.served[k]? = some w)
    (hstep : w.step s.shared = some (w', signal)) :
    (if signal then { s with served := s.served.set k w' }.wake
      else { s with served := s.served.set k w' }).Inv n := by
  obtain ⟨hcopied, hlen⟩ := h.served w (List.mem_of_getElem? hw)
  rw [Worker.step_complete (by rw [hcopied, hlen, h.length_shared])] at hstep
  split_ifs at hstep
  cases hstep
  rw [if_pos rfl]
  refine HandOff.Inv.wake (s := { s with served := _ }) ⟨h.length_shared, ?_, h.current⟩ ?_
  · intro w'' hw''
    rcases List.mem_or_eq_of_mem_set hw'' with hw'' | rfl
    · exact h.served w'' hw''
    · exact ⟨hcopied, hlen⟩
  · intro hplace w'' hw''
    have hc := h.current w'' hw''
    exact hc.prefix_shared.eq_of_length ((htime hplace w'' hw'').trans (by rw [hc.arg_eq]))

/-- A step in time keeps the invariant. -/
theorem HandOff.Inv.step (h : s.Inv after.length) (htime : s.InTime i)
    (hstep : handOffStep after s i = some s') : s'.Inv after.length := by
  cases i with
  | call arg =>
    simp only [handOffStep] at hstep
    split_ifs at hstep with hcall
    cases hstep
    refine ⟨hcall.2, h.served, ?_⟩
    intro w hw
    have hplace := (h.current w hw).place_eq
    simp [hcall.1] at hplace
  | creator createOk => exact h.creator htime hstep
  | current =>
    simp only [handOffStep, Option.bind_eq_bind, Option.bind_eq_some_iff, Prod.exists] at hstep
    obtain ⟨w, hw, w', signal, hworker, heq⟩ := hstep
    cases heq
    exact h.worker hw hworker
  | served k =>
    simp only [handOffStep, Option.bind_eq_bind, Option.bind_eq_some_iff, Prod.exists] at hstep
    obtain ⟨w, hw, w', signal, hworker, heq⟩ := hstep
    cases heq
    exact h.stale htime hw hworker
  | wakeUp =>
    simp only [handOffStep] at hstep
    split_ifs at hstep with hplace
    cases hstep
    refine h.wake ?_
    intro _ w hw
    have hc := h.current w hw
    exact hc.prefix_shared.eq_of_length ((htime hplace w hw).trans (by rw [hc.arg_eq]))

theorem HandOff.inv_init (hshared : s.shared.length = n) (hserved : s.served = [])
    (hcurrent : s.current = none) : s.Inv n :=
  ⟨hshared, by simp [hserved], by simp [hcurrent]⟩

/-- In a run whose steps are in time no wake-up is lost and no argument is written anew too early.
-/
theorem HandOff.run_inv {is : List (HandOffStep α)} (h : s.Inv after.length)
    (htime : Along (handOffStep after) HandOff.InTime s is)
    (hrun : runFrom (handOffStep after) s is = some s') : s'.Inv after.length :=
  htime.invariant_end h (fun _ _ _ hinv ht hstep => hinv.step ht hstep) hrun

end VdCamera.Misc
