import VdCamera.Sys.Event

/-!
# No event is lost on the way to the file

The files are cut between records: what was given up, the old file and the file are the records of
the events that were put in, in their order, up to those that are still in the list. An event stays
in the list only as long as a permit for it is on its way to the event thread, or an opening of the
file has failed.
-/

namespace VdCamera.Sys

open Misc

variable {localtime : Int → Tm} {s s' : EventLog} {i : EventStep} {is : List EventStep}
  {o : EventFiles} {olds curs : List EventItem}

/-- The records of the events. -/
def eventRecords (localtime : Int → Tm) (items : List EventItem) : List UInt8 :=
  items.flatMap (eventRecord localtime)

/-- The log over the files that an earlier run has left. -/
def EventLog.start (localtime : Int → Tm) (olds curs : List EventItem) : EventLog where
  old := eventRecords localtime olds
  file := eventRecords localtime curs

/-- The events that were ever written or put in are, in this order, those whose records were given
up, those in the old file, those in the file and those in the list. -/
def EventLog.Whole (localtime : Int → Tm) (olds curs : List EventItem) (s : EventLog) : Prop :=
  ∃ xs ys zs, olds ++ curs ++ s.puts = xs ++ ys ++ zs ++ s.ls ∧
    s.lost = eventRecords localtime xs ∧ s.old = eventRecords localtime ys ∧
    s.file = eventRecords localtime zs

/-- Whether the event thread has taken a permit and not yet looked through the list. -/
def EventLog.busy (s : EventLog) : Bool :=
  s.place = .lock ∨ s.place = .check ∨ s.place = .write

/-- Permits that have been posted, will be posted or have been taken for the list as it is. -/
def EventLog.permits (s : EventLog) : Nat :=
  s.sem + s.posting + (if s.holder = .added then 1 else 0) + if s.busy then 1 else 0

/-- Nobody who is in `event_put` or in the event thread can go on. -/
def EventLog.AtRest (localtime : Int → Tm) (s : EventLog) : Prop :=
  ∀ i, (∀ item, i ≠ .put item) → eventStep localtime s i = none

theorem eventRecords_append (items items' : List EventItem) :
    eventRecords localtime (items ++ items') =
      eventRecords localtime items ++ eventRecords localtime items' :=
  List.flatMap_append

theorem whole_start : (EventLog.start localtime olds curs).Whole localtime olds curs :=
  ⟨[], olds, curs, by simp [EventLog.start], rfl, rfl, rfl⟩

/-! ## The files -/

/-- A rotation that cannot rename the file gives up the old one all the same. -/
theorem EventLog.Whole.fileRotate (h : s.Whole localtime olds curs) (o : EventFiles) :
    (fileRotate o s).Whole localtime olds curs := by
  obtain ⟨xs, ys, zs, hputs, hlost, hold, hfile⟩ := h
  obtain ⟨removed, renamed, opened⟩ := o
  unfold Sys.fileRotate
  split
  · exact ⟨xs, ys, zs, hputs, hlost, hold, hfile⟩
  · have hgiven : s.lost ++ s.old = eventRecords localtime (xs ++ ys) := by
      rw [hlost, hold, eventRecords_append]
    cases removed <;> cases renamed
    · exact ⟨xs, ys, zs, hputs, hlost, hold, hfile⟩
    · exact ⟨xs ++ ys, zs, [], by simpa using hputs, hgiven, hfile, rfl⟩
    · exact ⟨xs ++ ys, [], zs, by simpa using hputs, hgiven, rfl, hfile⟩
    · exact ⟨xs ++ ys, zs, [], by simpa using hputs, by simpa using hgiven, hfile, rfl⟩

/-- The event thread moves the first event of the list to the end of the file. -/
theorem EventLog.Whole.write {item : EventItem} {ls : List EventItem}
    (h : s.Whole localtime olds curs) (hls : s.ls = item :: ls) :
    { s with ls, file := s.file ++ eventRecord localtime item }.Whole localtime olds curs := by
  obtain ⟨xs, ys, zs, hputs, hlost, hold, hfile⟩ := h
  refine ⟨xs, ys, zs ++ [item], ?_, hlost, hold, ?_⟩
  · rw [hputs, hls]
    simp
  · rw [hfile, eventRecords_append]
    simp [eventRecords]

theorem EventLog.Whole.add (h : s.Whole localtime olds curs) (item : EventItem) :
    { s with holder := .added, ls := s.ls ++ [item], puts := s.puts ++ [item] }.Whole
      localtime olds curs := by
  obtain ⟨xs, ys, zs, hputs, hfiles⟩ := h
  refine ⟨xs, ys, zs, ?_, hfiles⟩
  rw [← List.append_assoc, hputs, List.append_assoc]

theorem EventLog.Whole.daemon (h : s.Whole localtime olds curs)
    (hstep : eventDaemon localtime o s = some s') : s'.Whole localtime olds curs := by
  unfold eventDaemon at hstep
  cases hplace : s.place <;> simp only [hplace] at hstep
  case rotate =>
    cases hstep
    exact h.fileRotate o
  case wait =>
    split at hstep
    · cases hstep
    · cases hstep
      exact h
  case lock =>
    split at hstep
    · cases hstep
      exact h
    · cases hstep
  case check => split_ifs at hstep <;> cases hstep <;> exact h
  case write =>
    split at hstep
    · cases hstep
      exact h
    · rename_i hls
      cases hstep
      exact h.write hls
  case unlock =>
    cases hstep
    exact h

theorem EventLog.Whole.step (h : s.Whole localtime olds curs)
    (hstep : eventStep localtime s i = some s') : s'.Whole localtime olds curs := by
  cases i with
  | put item =>
    cases hstep
    exact h
  | lock k =>
    simp only [eventStep] at hstep
    split at hstep
    · cases hstep
      exact h
    · cases hstep
  | add =>
    simp only [eventStep] at hstep
    split at hstep
    · cases hstep
      exact h.add _
    · cases hstep
  | unlock =>
    simp only [eventStep] at hstep
    split at hstep
    · cases hstep
      exact h
    · cases hstep
  | post =>
    simp only [eventStep] at hstep
    split at hstep
    · cases hstep
    · cases hstep
      exact h
  | daemon o => exact h.daemon hstep

/-! ## The permits -/

/-- What the mutex and the permits say. -/
structure EventLog.Inv (s : EventLog) : Prop where
  holder : s.holder = .daemon ↔ s.place = .check ∨ s.place = .write ∨ s.place = .unlock
  waiting : s.ls.length ≤ s.permits + s.failed

theorem inv_start : (EventLog.start localtime olds curs).Inv :=
  ⟨by simp [EventLog.start], Nat.zero_le _⟩

theorem fileRotate_frame (o : EventFiles) (s : EventLog) :
    ∃ file old lost, fileRotate o s = { s with file, old, lost } := by
  unfold fileRotate
  split_ifs
  · exact ⟨_, _, _, rfl⟩
  · exact ⟨_, _, _, rfl⟩
  · exact ⟨_, _, _, rfl⟩
  · exact ⟨_, _, _, rfl⟩
  · exact ⟨_, _, _, rfl⟩

theorem EventLog.Inv.daemon (h : s.Inv) (hstep : eventDaemon localtime o s = some s') : s'.Inv := by
  obtain ⟨hholder, hwaiting⟩ := h
  unfold eventDaemon at hstep
  simp only [EventLog.permits, EventLog.busy] at hwaiting
  cases hplace : s.place <;> simp only [hplace] at hstep hholder hwaiting
  case rotate =>
    obtain ⟨file, old, lost, hrotate⟩ := fileRotate_frame o s
    rw [hrotate] at hstep
    cases hstep
    exact ⟨by simpa using hholder, by simpa [EventLog.permits, EventLog.busy] using hwaiting⟩
  case wait =>
    split at hstep
    · cases hstep
    · cases hstep
      refine ⟨by simpa using hholder, ?_⟩
      simp [EventLog.permits, EventLog.busy] at hwaiting ⊢
      omega
  case lock =>
    split at hstep
    · cases hstep
      refine ⟨by simp, ?_⟩
      simp_all [EventLog.permits, EventLog.busy]
    · cases hstep
  case check =>
    split_ifs at hstep with hls
    · cases hstep
      exact ⟨by simpa using hholder, by simp [hls]⟩
    · cases hstep
      exact ⟨by simpa using hholder, by simpa [EventLog.permits, EventLog.busy] using hwaiting⟩
    · cases hstep
      refine ⟨by simpa using hholder, ?_⟩
      simp [EventLog.permits, EventLog.busy] at hwaiting ⊢
      omega
  case write =>
    split at hstep
    · rename_i hls
      cases hstep
      exact ⟨by simpa using hholder, by simp [hls]⟩
    · rename_i hls
      cases hstep
      refine ⟨by simpa [hplace] using hholder, ?_⟩
      simp [EventLog.permits, EventLog.busy, hls] at hwaiting ⊢
      omega
  case unlock =>
    cases hstep
    refine ⟨by simp, ?_⟩
    simp_all [EventLog.permits, EventLog.busy]

theorem EventLog.Inv.step (h : s.Inv) (hstep : eventStep localtime s i = some s') : s'.Inv := by
  have hholder := h.holder
  have hwaiting := h.waiting
  cases i with
  | put item =>
    cases hstep
    exact ⟨hholder, hwaiting⟩
  | lock k =>
    simp only [eventStep] at hstep
    split at hstep
    · rename_i hfree _
      cases hstep
      refine ⟨?_, ?_⟩
      · simpa [hfree] using hholder
      · simpa [EventLog.permits, EventLog.busy, hfree] using hwaiting
    · cases hstep
  | add =>
    simp only [eventStep] at hstep
    split at hstep
    · rename_i hadding
      cases hstep
      refine ⟨by simpa [hadding] using hholder, ?_⟩
      simp [EventLog.permits, EventLog.busy, hadding] at hwaiting ⊢
      omega
    · cases hstep
  | unlock =>
    simp only [eventStep] at hstep
    split at hstep
    · rename_i hadded
      cases hstep
      refine ⟨by simpa [hadded] using hholder, ?_⟩
      simp [EventLog.permits, EventLog.busy, hadded] at hwaiting ⊢
      omega
    · cases hstep
  | post =>
    simp only [eventStep] at hstep
    split at hstep
    · cases hstep
    · cases hstep
      refine ⟨hholder, ?_⟩
      simp [EventLog.permits, EventLog.busy] at hwaiting ⊢
      omega
  | daemon o => exact h.daemon hstep

/-! ## At rest -/

/-- What the event thread can wait for: a permit, or the mutex. -/
theorem eventDaemon_eq_none_iff : eventDaemon localtime o s = none ↔
    s.place = .wait ∧ s.sem = 0 ∨ s.place = .lock ∧ s.holder ≠ .free := by
  unfold eventDaemon
  cases hplace : s.place with
  | rotate | unlock => simp
  | wait | lock => simp
  | check =>
    simp only [reduceCtorEq, false_and, or_self, iff_false]
    split_ifs <;> simp
  | write => cases s.ls <;> simp

/-- Where nobody can go on, nobody is in `event_put`, and the event thread waits without a permit. -/
theorem EventLog.AtRest.idle (h : s.AtRest localtime) (hinv : s.Inv) :
    s.calls = [] ∧ s.permits = 0 := by
  have hadd := h .add nofun
  have hunlock := h .unlock nofun
  have hpost : s.posting = 0 := by simpa [eventStep] using h .post nofun
  have hdaemon := eventDaemon_eq_none_iff.mp (h (.daemon {}) nofun)
  have hfree : s.holder = .free := by
    cases hholder : s.holder with
    | free => rfl
    | adding item => simp [eventStep, hholder] at hadd
    | added => simp [eventStep, hholder] at hunlock
    | daemon =>
      have hplace := hinv.holder.mp hholder
      rcases hdaemon with hdaemon | hdaemon <;> simp [hdaemon] at hplace
  have hwait : s.place = .wait ∧ s.sem = 0 := by
    refine hdaemon.resolve_right ?_
    rintro ⟨_, hnot⟩
    exact hnot hfree
  constructor
  · cases hcalls : s.calls with
    | nil => rfl
    | cons item calls =>
      have hlock := h (.lock 0) nofun
      simp [eventStep, hfree, hcalls] at hlock
  · simp [EventLog.permits, EventLog.busy, hwait, hpost, hfree]

/-! ## Whole runs -/

theorem inv_run (hrun : runFrom (eventStep localtime) (.start localtime olds curs) is = some s) :
    s.Whole localtime olds curs ∧ s.Inv := by
  refine Along.invariant_end (P := fun _ _ => True) (J := fun s => s.Whole localtime olds curs ∧ s.Inv)
    ⟨whole_start, inv_start⟩ along_true ?_ hrun
  rintro s i s' ⟨hwhole, hinv⟩ _ hstep
  exact ⟨hwhole.step hstep, hinv.step hstep⟩

/-- In every run the files hold whole records, in the order in which the events were put in, with
none left out and none twice; and an event waits in the list only where a permit is on its way or the
file could not be opened, so that where nobody can go on the list is no longer than the openings that
failed. -/
theorem event_log_whole
    (hrun : runFrom (eventStep localtime) (.start localtime olds curs) is = some s) :
    s.Whole localtime olds curs ∧ s.ls.length ≤ s.permits + s.failed ∧
      (s.AtRest localtime → s.calls = [] ∧ s.ls.length ≤ s.failed) := by
  obtain ⟨hwhole, hinv⟩ := inv_run hrun
  refine ⟨hwhole, hinv.waiting, fun hrest => ?_⟩
  obtain ⟨hcalls, hpermits⟩ := hrest.idle hinv
  have hwaiting := hinv.waiting
  exact ⟨hcalls, by omega⟩

/-- A clock that stands still. -/
def epoch : Int → Tm := fun _ => ⟨70, 0, 1, 0, 0, 0⟩

/-- Two events of two threads, the second of which comes first to the mutex; the event thread writes
both for one permit, and finds nothing for the other. -/
theorem event_log_whole_two : ∃ s, runFrom (eventStep epoch) (.start epoch [] [])
      ([.put ⟨⟨0, 0⟩, [97], []⟩, .put ⟨⟨0, 0⟩, [98], []⟩, .lock 1, .add, .unlock, .lock 0, .add, .post]
        ++ [.unlock] ++ List.replicate 7 (.daemon {}) ++ [.post] ++ List.replicate 6 (.daemon {})) =
      some s ∧ s.ls = [] ∧ s.puts = [⟨⟨0, 0⟩, [98], []⟩, ⟨⟨0, 0⟩, [97], []⟩] ∧
      s.Whole epoch [] [] := by
  obtain ⟨s, hrun, hs⟩ := Option.map_eq_some_iff.mp (show (runFrom (eventStep epoch) (.start epoch [] [])
    ([.put ⟨⟨0, 0⟩, [97], []⟩, .put ⟨⟨0, 0⟩, [98], []⟩, .lock 1, .add, .unlock, .lock 0, .add, .post]
      ++ [.unlock] ++ List.replicate 7 (.daemon {}) ++ [.post] ++ List.replicate 6 (.daemon {}))).map
      (fun s => (s.ls, s.puts)) = some ([], [⟨⟨0, 0⟩, [98], []⟩, ⟨⟨0, 0⟩, [97], []⟩]) by decide +kernel)
  obtain ⟨hls, hputs⟩ := Prod.mk.inj hs
  exact ⟨s, hrun, hls, hputs, (event_log_whole hrun).1⟩

/-! ## What the rotation leaves -/

/-- What holds while the file can be renamed: nothing is given up before the old file has half of the
maximal size, and the file is smaller than that whenever the event thread waits. -/
structure EventLog.Recent (s : EventLog) : Prop where
  small : s.place = .wait → s.file.length < EVENT_FILE_MAX_SIZE / 2
  enough : s.lost = [] ∨ EVENT_FILE_MAX_SIZE / 2 ≤ s.old.length

/-- The rotation, if it takes place in this step, can rename the file. -/
def EventStep.Renames : EventStep → Prop
  | .daemon o => o.renamed = true
  | _ => True

instance : DecidablePred EventStep.Renames
  | .daemon o => inferInstanceAs (Decidable (o.renamed = true))
  | .put _ | .lock _ | .add | .unlock | .post => isTrue trivial

theorem recent_fileRotate (h : s.lost = [] ∨ EVENT_FILE_MAX_SIZE / 2 ≤ s.old.length)
    (ho : o.renamed = true) :
    (fileRotate o s).file.length < EVENT_FILE_MAX_SIZE / 2 ∧
      ((fileRotate o s).lost = [] ∨ EVENT_FILE_MAX_SIZE / 2 ≤ (fileRotate o s).old.length) := by
  unfold fileRotate
  split_ifs with hsmall
  · exact ⟨hsmall, h⟩
  · exact ⟨by simp [EVENT_FILE_MAX_SIZE], .inr (Nat.le_of_not_lt hsmall)⟩
  · exact ⟨by simp [EVENT_FILE_MAX_SIZE], .inr (Nat.le_of_not_lt hsmall)⟩

theorem EventLog.Recent.daemon (h : s.Recent) (ho : o.renamed = true)
    (hstep : eventDaemon localtime o s = some s') : s'.Recent := by
  unfold eventDaemon at hstep
  cases hplace : s.place <;> simp only [hplace] at hstep
  case rotate =>
    obtain ⟨hsmall, henough⟩ := recent_fileRotate h.enough ho
    cases hstep
    exact ⟨fun _ => hsmall, henough⟩
  case wait | lock | check => split_ifs at hstep <;> cases hstep <;> exact ⟨nofun, h.enough⟩
  case write =>
    split at hstep
    · cases hstep
      exact ⟨nofun, h.enough⟩
    · cases hstep
      exact ⟨nofun, h.enough⟩
  case unlock =>
    cases hstep
    exact ⟨nofun, h.enough⟩

/-- The callers of `event_put` do not touch the files. -/
theorem eventStep_frame (hi : ∀ o, i ≠ .daemon o) (hstep : eventStep localtime s i = some s') :
    s'.place = s.place ∧ s'.file = s.file ∧ s'.old = s.old ∧ s'.lost = s.lost := by
  cases i with
  | daemon o => exact absurd rfl (hi o)
  | put item =>
    cases hstep
    exact ⟨rfl, rfl, rfl, rfl⟩
  | lock k | add | unlock | post =>
    simp only [eventStep] at hstep
    split at hstep <;> cases hstep
    exact ⟨rfl, rfl, rfl, rfl⟩

theorem EventLog.Recent.step (h : s.Recent) (hi : i.Renames)
    (hstep : eventStep localtime s i = some s') : s'.Recent := by
  by_cases hdaemon : ∃ o, i = .daemon o
  · obtain ⟨o, rfl⟩ := hdaemon
    exact h.daemon hi hstep
  · obtain ⟨hplace, hfile, hold, hlost⟩ := eventStep_frame (fun o ho => hdaemon ⟨o, ho⟩) hstep
    exact ⟨by simpa only [hplace, hfile] using h.small, by simpa only [hold, hlost] using h.enough⟩

theorem eventRecords_eq_nil {items : List EventItem} :
    eventRecords localtime items = [] ↔ items = [] := by
  cases items <;> simp [eventRecords, eventRecord]

/-- As long as the file can be renamed, the two files hold the newest records, at least
`EVENT_FILE_MAX_SIZE / 2` bytes of them before one is given up, and the file is smaller than that
whenever the event thread waits. -/
theorem event_log_recent
    (hrun : runFrom (eventStep localtime) (.start localtime olds curs) is = some s)
    (hrename : Along (eventStep localtime) (fun _ i => i.Renames) (.start localtime olds curs) is) :
    (∃ xs items, olds ++ curs ++ s.puts = xs ++ items ++ s.ls ∧
      s.old ++ s.file = eventRecords localtime items ∧
      (xs ≠ [] → EVENT_FILE_MAX_SIZE / 2 ≤ (s.old ++ s.file).length)) ∧
    (s.place = .wait → s.file.length < EVENT_FILE_MAX_SIZE / 2) := by
  obtain ⟨xs, ys, zs, hputs, hlost, hold, hfile⟩ := (inv_run hrun).1
  have hrecent : s.Recent := by
    refine Along.invariant_end ⟨?_, .inl rfl⟩ hrename (fun s i s' h hi hstep => h.step hi hstep) hrun
    simp [EventLog.start]
  refine ⟨⟨xs, ys ++ zs, by rw [hputs, List.append_assoc xs], ?_, fun hxs => ?_⟩, hrecent.small⟩
  · rw [eventRecords_append, hold, hfile]
  · have hne : s.lost ≠ [] := by rwa [hlost, ne_eq, eventRecords_eq_nil]
    have hlen := hrecent.enough.resolve_left hne
    rw [List.length_append]
    omega

theorem length_eventRecords_replicate (n : Nat) (item : EventItem) :
    (eventRecords localtime (List.replicate n item)).length
      = n * (eventRecord localtime item).length := by
  rw [eventRecords, List.length_flatMap, List.map_replicate, List.sum_replicate_nat]

/-- A file of half of the maximal size becomes the old one before the event thread waits. -/
theorem eventStep_rotate
    (h : EVENT_FILE_MAX_SIZE / 2 ≤ (eventRecords localtime curs).length) :
    eventStep localtime (.start localtime olds curs) (.daemon {}) = some
      { lost := eventRecords localtime olds, old := eventRecords localtime curs, place := .wait } := by
  have hfull : ¬ (EventLog.start localtime olds curs).file.length < EVENT_FILE_MAX_SIZE / 2 :=
    Nat.not_lt.mpr h
  show some { fileRotate {} (EventLog.start localtime olds curs) with place := EventPlace.wait } = _
  rw [fileRotate, if_neg hfull]
  simp [EventLog.start]

/-- An event named by one letter. -/
def letterEvent : EventItem := ⟨⟨0, 0⟩, [97], []⟩

theorem length_letterEvent : (eventRecord epoch letterEvent).length = 250 := by decide +kernel

/-- The event is put in, and written; the file is still to be rotated. -/
def writeLetter : List EventStep :=
  [.put letterEvent, .lock 0, .add, .unlock, .post] ++ List.replicate 6 (.daemon {})

/-- A file of 205 records is renamed and the record before them given up; then an event is written,
and the event thread waits again. -/
theorem event_log_recent_one : ∃ s, runFrom (eventStep epoch)
      (.start epoch [letterEvent] (List.replicate 205 letterEvent))
      (.daemon {} :: (writeLetter ++ [.daemon {}])) = some s ∧
    s.lost ≠ [] ∧ s.ls = [] ∧
    (∃ xs items, [letterEvent] ++ List.replicate 205 letterEvent ++ s.puts = xs ++ items ++ s.ls ∧
      s.old ++ s.file = eventRecords epoch items ∧
      (xs ≠ [] → EVENT_FILE_MAX_SIZE / 2 ≤ (s.old ++ s.file).length)) ∧
    s.file.length < EVENT_FILE_MAX_SIZE / 2 := by
  have hfull : EVENT_FILE_MAX_SIZE / 2
      ≤ (eventRecords epoch (List.replicate 205 letterEvent)).length := by
    rw [length_eventRecords_replicate, length_letterEvent]
    decide
  have hwritten (old lost : List UInt8) : runFrom (eventStep epoch) { lost, old, place := .wait }
      writeLetter = some
        { lost, old, puts := [letterEvent], file := [] ++ eventRecord epoch letterEvent } := rfl
  have hsmall (s : EventLog) (h : s.file = [] ++ eventRecord epoch letterEvent) :
      fileRotate {} s = s := by
    rw [fileRotate, h, List.nil_append, length_letterEvent]
    rfl
  have hrun : runFrom (eventStep epoch)
      (.start epoch [letterEvent] (List.replicate 205 letterEvent))
      (.daemon {} :: (writeLetter ++ [.daemon {}])) = some
        { lost := eventRecords epoch [letterEvent]
          old := eventRecords epoch (List.replicate 205 letterEvent)
          puts := [letterEvent], file := [] ++ eventRecord epoch letterEvent, place := .wait } := by
    rw [runFrom_cons, eventStep_rotate hfull, Option.bind_some, runFrom_append, hwritten,
      Option.bind_some, runFrom_cons]
    show (some { fileRotate {} _ with place := EventPlace.wait }).bind _ = _
    rw [hsmall _ rfl]
    rfl
  have hrename : Along (eventStep epoch) (fun _ i => i.Renames)
      (.start epoch [letterEvent] (List.replicate 205 letterEvent))
      (.daemon {} :: (writeLetter ++ [.daemon {}])) := along_of_forall (by decide)
  have hrecent := event_log_recent hrun hrename
  refine ⟨_, hrun, ?_, rfl, hrecent.1, hrecent.2 rfl⟩
  rw [ne_eq, eventRecords_eq_nil]
  simp

end VdCamera.Sys
