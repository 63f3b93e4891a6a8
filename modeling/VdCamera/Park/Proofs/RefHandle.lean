import Mathlib.Algebra.BigOperators.Group.List.Basic
import Mathlib.Algebra.Ring.Int.Defs
import Mathlib.Algebra.Ring.Nat
import VdCamera.Park.RefHandle

/-!
# Which objects are freed exactly once

A thread touches, retains and hands on an object only while it holds a reference of it, so the counts
are those of the references that are held, queued or lost. How many more references a thread holds
than it will give away grows by one in each step in which something goes wrong, and in no other.
-/

namespace VdCamera.Park.RefHandle

open Misc

/-- The references that the act gives away if all goes well. -/
def RefAct.drops : RefAct → Int
  | .release | .send _ true => 1
  | .retain => -1
  | _ => 0

def drops (acts : List RefAct) : Int := (acts.map RefAct.drops).sum

/-- With `n` references, the acts are those of a thread that has one whenever it uses the object, and
that gives one away where it returns early. -/
def Safe : Nat → List RefAct → Prop
  | _, [] => True
  | n, .touch :: acts | n, .notify _ :: acts | n, .provisioned :: acts => 0 < n ∧ Safe n acts
  | n, .analyze :: acts => drops acts = 1 ∧ Safe n acts
  | n, .retain :: acts => 0 < n ∧ Safe (n + 1) acts
  | n, .release :: acts | n, .send _ true :: acts => 0 < n ∧ Safe (n - 1) acts
  | n, .send _ false :: acts | n, .releaseStray :: acts => Safe n acts

/-- The messages that carry an object. -/
def Carried (p : ParkPlatform) (type : ParkMsgType) : Prop :=
  .send p true ∈ platformNotify p type ∨ p = .zehin ∧ type = .snap

/-- What the acts hand on is carried by messages that are. -/
structure Sends (type : ParkMsgType) (acts : List RefAct) : Prop where
  carried : ∀ p, .send p true ∈ acts → Carried p type
  snap : .provisioned ∈ acts → type = .snap

/-- The act goes well. -/
def RefAct.Goes (ok : Bool) : RefAct → Prop
  | .send _ true | .analyze => ok = true
  | .releaseStray => False
  | _ => True

/-- The handler of the message releases the object: the light is one that the songli platform is
told of, a status does not wait, and it is no picture for the zehin platform. -/
def Released (o : StatusAnswers) : ParkPlatform → ParkMsgType → Prop
  | .songli, .light info => lightFlag info ∈ mapLight
  | .zehin, .status => o.spaceStatusEnable = true → o.held = false
  | .zehin, .snap => False
  | _, _ => True

/-- No reference is lost in the step. -/
def RefState.Keeps (s : RefState) : RefStep → Prop
  | .event type created => type = .snap → created = true
  | .thread k ok => ∀ t ∈ s.threads[k]?, ∀ a ∈ t.acts.head?, a.Goes ok
  | .receive p o => ∀ m ∈ s.queue.find? (·.dst = p), m.data ≠ none → Released o p m.type
  | .zehinCb => True

/-- The step releases something that is no object, or fills one that it did not get. -/
def RefState.Faults (s : RefState) : RefStep → Prop
  | .event type created => type = .snap ∧ created = false
  | .thread k _ => ∃ t ∈ s.threads[k]?, t.acts.head? = some .releaseStray
  | .receive _ _ | .zehinCb => False

/-- The references of the object that the thread holds. -/
def RefThread.heldOf (o : Nat) (t : RefThread) : Nat := if t.obj = o then t.held else 0

/-- The messages that carry the object. -/
def queuedOf (o : Nat) (queue : List RefMsg) : Nat := queue.countP (·.data = some o)

/-- The references of the object that are held, queued or lost. -/
def RefState.refs (s : RefState) (o : Nat) : Nat :=
  (s.threads.map (RefThread.heldOf o)).sum + queuedOf o s.queue + s.lost.count o

/-- How many more references the thread has than it will give away if all goes well. -/
def RefThread.surplus (t : RefThread) : Int := t.held - drops t.acts

def RefState.surplus (s : RefState) : Int :=
  (s.threads.map RefThread.surplus).sum + s.lost.length

structure RefState.Good (s : RefState) : Prop where
  agrees : s.heap.Agrees s.refs
  safe : ∀ t ∈ s.threads, Safe t.held t.acts
  sends : ∀ t ∈ s.threads, Sends t.type t.acts
  queued : ∀ m ∈ s.queue, m.data ≠ none → Carried m.dst m.type

variable {platforms : List ParkPlatform} {s s' : RefState} {i : RefStep} {is : List RefStep}
  {t : RefThread} {a : RefAct} {acts acts' : List RefAct} {n m : Nat} {p : ParkPlatform}
  {type : ParkMsgType} {ok : Bool} {heap : RefHeap} {queue : List RefMsg} {refs refs' : Nat → Nat}
  {o : StatusAnswers} {cap : CapState}

theorem RefState.Faults.not_keeps (h : s.Faults i) : ¬ s.Keeps i := by
  cases i with
  | event type created =>
    obtain ⟨rfl, rfl⟩ := h
    exact fun hkeeps => nomatch hkeeps rfl
  | thread k ok =>
    obtain ⟨t, ht, hhead⟩ := h
    exact fun hkeeps => hkeeps t ht .releaseStray hhead
  | receive p o => exact h.elim
  | zehinCb => exact h.elim

/-! ## What the threads have to do -/

@[simp] theorem drops_nil : drops [] = 0 := rfl

@[simp] theorem drops_cons (a : RefAct) (acts : List RefAct) :
    drops (a :: acts) = a.drops + drops acts := by
  simp [drops]

@[simp] theorem drops_append (acts acts' : List RefAct) : drops (acts ++ acts') = drops acts + drops acts' := by
  simp [drops]

theorem Safe.mono (h : Safe n acts) (hle : n ≤ m) : Safe m acts := by
  induction acts generalizing n m with
  | nil => trivial
  | cons a acts ih =>
    cases a with
    | touch | notify | provisioned => exact ⟨by have := h.1; omega, ih h.2 hle⟩
    | analyze => exact ⟨h.1, ih h.2 hle⟩
    | retain => exact ⟨by have := h.1; omega, ih h.2 (by omega)⟩
    | release => exact ⟨by have := h.1; omega, ih h.2 (by omega)⟩
    | releaseStray => exact ih (show Safe n acts from h) hle
    | send dst data =>
      cases data with
      | true => exact ⟨by have := h.1; omega, ih h.2 (by omega)⟩
      | false => exact ih (show Safe n acts from h) hle

/-- All that a notice can be: nothing, the object itself handed on, or a copy of it. -/
theorem platformNotify_cases (p : ParkPlatform) (type : ParkMsgType) :
    platformNotify p type = [] ∨ platformNotify p type = [.retain, .send p true] ∨
      platformNotify p type = [.retain, .touch, .release, .send p false] ∨
      platformNotify p type = [.retain, .touch, .send p false, .release] := by
  cases p <;> cases type <;>
    simp [platformNotify, zehinNotify, bitcomNotify, songliNotify, httpNotify, ktetcNotify]

/-- A notice leaves its caller as many references as before. -/
theorem safe_platformNotify (hn : 0 < n) (h : Safe n acts) : Safe n (platformNotify p type ++ acts) := by
  rcases platformNotify_cases p type with heq | heq | heq | heq <;> simp [heq, Safe, hn, h]

@[simp] theorem drops_platformNotify (p : ParkPlatform) (type : ParkMsgType) :
    drops (platformNotify p type) = 0 := by
  rcases platformNotify_cases p type with heq | heq | heq | heq <;> simp [heq, RefAct.drops]

theorem carried_of_mem {q : ParkPlatform} (h : .send q true ∈ platformNotify p type) :
    Carried q type := by
  have hq : q = p := by
    rcases platformNotify_cases p type with heq | heq | heq | heq
    · simp [heq] at h
    · simpa [heq] using h
    · simp [heq] at h
    · simp [heq] at h
  exact .inl (hq ▸ h)

theorem Sends.tail (h : Sends type (a :: acts)) : Sends type acts :=
  ⟨fun p hp => h.carried p (List.mem_cons_of_mem a hp), fun hp => h.snap (List.mem_cons_of_mem a hp)⟩

theorem Sends.platformNotify (h : Sends type acts) (p : ParkPlatform) :
    Sends type (platformNotify p type ++ acts) where
  carried := fun q hq => (List.mem_append.mp hq).elim carried_of_mem (h.carried q)
  snap := fun hmem => (List.mem_append.mp hmem).elim (fun hp => by
    rcases platformNotify_cases p type with heq | heq | heq | heq <;> simp [heq] at hp) h.snap

theorem safe_notifyAll (hn : 0 < n) (h : Safe n acts) : Safe n (notifyAll platforms ++ acts) := by
  induction platforms with
  | nil => exact h
  | cons p platforms ih => exact ⟨hn, ih⟩

@[simp] theorem drops_notifyAll (platforms : List ParkPlatform) : drops (notifyAll platforms) = 0 := by
  induction platforms with
  | nil => rfl
  | cons p platforms ih => simpa [notifyAll, drops, RefAct.drops] using ih

theorem safe_processEvent (platforms : List ParkPlatform) (type : ParkMsgType) :
    Safe 1 (processEvent platforms type) := by
  have hone : (0 : Nat) < 1 := Nat.one_pos
  cases type with
  | alarm | status | light => exact ⟨hone, safe_notifyAll hone (by simp [Safe])⟩
  | info => exact ⟨hone, safe_notifyAll hone (by simp [Safe])⟩
  | record => exact ⟨hone, by simp [RefAct.drops], hone, safe_notifyAll hone (by simp [Safe])⟩
  | snap => simp [processEvent, processSnapReturnInfo, Safe]
  | zehinCb => trivial

theorem drops_processEvent (hcb : type ≠ .zehinCb) : drops (processEvent platforms type) = 1 := by
  cases type with
  | alarm | status | light | info | record => simp [processEvent, processParkAlarm,
      processParkLeaveInfo, processParkRecords, RefAct.drops]
  | snap => rfl
  | zehinCb => exact absurd rfl hcb

/-- All that a main thread can do for a message: it looks at the object and may release it. Only the
picture that the zehin platform waits for makes it release something that is no object. -/
theorem handler_cases (o : StatusAnswers) (cap : CapState) (type : ParkMsgType) (p : ParkPlatform) :
    (∃ looks ∈ [[], [.touch], [.touch, .touch]], (handler o cap type p).1 = looks ∨
      (handler o cap type p).1 = looks ++ [.release]) ∨
    p = .zehin ∧ type = .snap ∧ cap = .SEND2DSP ∧ (handler o cap type p).1 = [.releaseStray] := by
  cases p with
  | zehin =>
    cases type with
    | status =>
      obtain ⟨restore, enable, held⟩ := o
      cases restore <;> cases enable <;> cases held <;>
        simp [handler, zehinHandler, tpzehinStatusHandler]
    | snap | zehinCb => cases cap <;> simp [handler, zehinHandler, capturePicUpload]
    | alarm | record | info | light => simp [handler, zehinHandler]
  | bitcom => simp [handler]
  | songli =>
    cases type with
    | light info =>
      simp only [handler, songliHandler]
      split_ifs <;> simp
    | alarm | record | info | status | snap | zehinCb => simp [handler, songliHandler]
  | http => cases type <;> simp [handler, httpHandler]
  | ktetc => cases type <;> simp [handler, ktetcHandler]

/-- What a main thread does for a message is safe, and releases the object where it can. -/
theorem safe_handler (o : StatusAnswers) (cap : CapState) (type : ParkMsgType) (p : ParkPlatform) :
    Safe 1 (handler o cap type p).1 := by
  rcases handler_cases o cap type p with ⟨looks, hlooks, heq⟩ | ⟨-, -, -, heq⟩
  · simp only [List.mem_cons, List.not_mem_nil, or_false] at hlooks
    rcases hlooks with rfl | rfl | rfl <;> rcases heq with heq | heq <;> simp [heq, Safe]
  · rw [heq]
    trivial

theorem drops_handler (o : StatusAnswers) (cap : CapState) (hc : Carried p type) :
    Released o p type ∧ drops (handler o cap type p).1 = 1 ∨
      ¬ Released o p type ∧ drops (handler o cap type p).1 = 0 := by
  cases p with
  | zehin =>
    cases type with
    | status =>
      obtain ⟨restore, enable, held⟩ := o
      cases restore <;> cases enable <;> cases held <;>
        simp [handler, zehinHandler, tpzehinStatusHandler, Released, RefAct.drops]
    | snap => cases cap <;> simp [handler, zehinHandler, capturePicUpload, Released, RefAct.drops]
    | alarm | record | info | light | zehinCb =>
      simp [Carried, platformNotify, zehinNotify] at hc
  | bitcom => cases type <;> simp [Carried, platformNotify, bitcomNotify] at hc
  | songli =>
    cases type with
    | light info =>
      simp only [handler, songliHandler, Released]
      split_ifs with hmap <;> simp [hmap, RefAct.drops]
    | alarm | record | info => simp [handler, songliHandler, Released, RefAct.drops]
    | status | snap | zehinCb => simp [Carried, platformNotify, songliNotify] at hc
  | http =>
    cases type with
    | alarm | record | info => simp [handler, httpHandler, Released, RefAct.drops]
    | status | snap | zehinCb | light => simp [Carried, platformNotify, httpNotify] at hc
  | ktetc =>
    cases type with
    | alarm | record | info => simp [handler, ktetcHandler, Released, RefAct.drops]
    | status | snap | zehinCb | light => simp [Carried, platformNotify, ktetcNotify] at hc

/-- Each act of a main thread is to look at the object, to release it, or, with the picture that the
zehin platform waits for, to release something that is no object. -/
theorem mem_handler (h : a ∈ (handler o cap type p).1) :
    a = .touch ∨ a = .release ∨
      a = .releaseStray ∧ p = .zehin ∧ type = .snap ∧ cap = .SEND2DSP := by
  rcases handler_cases o cap type p with ⟨looks, hlooks, heq⟩ | ⟨hp, htype, hcap, heq⟩
  · have htouch : ∀ a ∈ looks, a = .touch := by
      simp only [List.mem_cons, List.not_mem_nil, or_false] at hlooks
      rcases hlooks with rfl | rfl | rfl <;> simp
    rcases heq with heq | heq
    · exact .inl (htouch a (heq ▸ h))
    · rw [heq] at h
      rcases List.mem_append.mp h with h | h
      · exact .inl (htouch a h)
      · exact .inr (.inl (List.mem_singleton.mp h))
  · rw [heq] at h
    exact .inr (.inr ⟨List.mem_singleton.mp h, hp, htype, hcap⟩)

/-- The main threads hand nothing on. -/
theorem sends_handler (o : StatusAnswers) (cap : CapState) (type : ParkMsgType) (p : ParkPlatform) :
    Sends type (handler o cap type p).1 := by
  constructor
  · intro q hq
    rcases mem_handler hq with heq | heq | ⟨heq, -⟩ <;> cases heq
  · intro hq
    rcases mem_handler hq with heq | heq | ⟨heq, -⟩ <;> cases heq

/-- Only a picture for the zehin platform that was asked for makes its main thread release something
that is no object. -/
theorem stray_handler (h : p = .zehin → type = .snap → cap ≠ .SEND2DSP) :
    .releaseStray ∉ (handler o cap type p).1 := by
  intro hmem
  rcases mem_handler hmem with heq | heq | ⟨-, hp, htype, hcap⟩
  · cases heq
  · cases heq
  · exact h hp htype hcap

theorem stray_processEvent (platforms : List ParkPlatform) (type : ParkMsgType) :
    .releaseStray ∉ processEvent platforms type := by
  cases type <;>
    simp [processEvent, processParkAlarm, processParkLeaveInfo, processParkRecords,
      processSnapReturnInfo, notifyAll]

theorem stray_platformNotify (p : ParkPlatform) (type : ParkMsgType) :
    .releaseStray ∉ platformNotify p type := by
  rcases platformNotify_cases p type with heq | heq | heq | heq <;> simp [heq]

theorem sends_processEvent (platforms : List ParkPlatform) (type : ParkMsgType) :
    Sends type (processEvent platforms type) := by
  constructor
  · intro q
    cases type <;> simp [processEvent, processParkAlarm, processParkLeaveInfo, processParkRecords,
      processSnapReturnInfo, notifyAll]
  · cases type <;> simp [processEvent, processParkAlarm, processParkLeaveInfo, processParkRecords,
      processSnapReturnInfo, notifyAll]

/-! ## One act -/

/-- What an act of a thread leads to: the counts follow what the thread holds and what is queued,
and its surplus grows by one unless the act goes well. -/
structure ActSpec (t : RefThread) (a : RefAct) (ok : Bool) (heap : RefHeap) (queue : List RefMsg)
    (refs : Nat → Nat) (t' : RefThread) (heap' : RefHeap) (queue' : List RefMsg) : Prop where
  agrees : ∃ refs' : Nat → Nat, heap'.Agrees refs' ∧
    ∀ o, refs' o + t.heldOf o + queuedOf o queue = refs o + t'.heldOf o + queuedOf o queue'
  safe : Safe t'.held t'.acts
  sends : Sends t'.type t'.acts
  queued : ∀ m ∈ queue', m.data ≠ none → Carried m.dst m.type
  surplus : a.Goes ok ∧ t'.surplus = t.surplus ∨ ¬ a.Goes ok ∧ t'.surplus = t.surplus + 1

theorem heldOf_obj (t : RefThread) : t.heldOf t.obj = t.held := if_pos rfl

theorem heldOf_succ (t t' : RefThread) (hobj : t'.obj = t.obj) (hheld : t'.held = t.held + 1)
    (o : Nat) : t'.heldOf o = t.heldOf o + if o = t.obj then 1 else 0 := by
  unfold RefThread.heldOf
  rw [hobj, hheld]
  by_cases heq : t.obj = o
  · simp [heq]
  · simp [heq, Ne.symm heq]

/-- The thread has given a reference away. -/
theorem heldOf_pred (hheld : 0 < t.held) (acts : List RefAct) (o : Nat) :
    t.heldOf o =
      RefThread.heldOf o { t with acts, held := t.held - 1 } + if o = t.obj then 1 else 0 :=
  heldOf_succ { t with acts, held := t.held - 1 } t rfl (Nat.sub_add_cancel hheld).symm o

theorem act_spec (ok : Bool) (hacts : t.acts = a :: acts) (hstray : a ≠ .releaseStray)
    (ha : heap.Agrees refs) (hrefs : t.held ≤ refs t.obj) (hsafe : Safe t.held t.acts)
    (hsends : Sends t.type t.acts)
    (hqueued : ∀ m ∈ queue, m.data ≠ none → Carried m.dst m.type) :
    let r := t.act ok heap queue a acts
    ActSpec t a ok heap queue refs r.1 r.2.1 r.2.2 := by
  rw [hacts] at hsafe hsends
  have hrest := hsends.tail
  cases a with
  | touch =>
    obtain ⟨hheld, hsafe⟩ := hsafe
    refine ⟨⟨refs, ?_, fun o => rfl⟩, hsafe, hrest, hqueued, .inl ⟨trivial, ?_⟩⟩
    · rw [RefThread.act, ha.touch (by omega)]
      exact ha
    · simp [RefThread.surplus, RefThread.act, hacts, RefAct.drops]
  | retain =>
    obtain ⟨hheld, hsafe⟩ := hsafe
    refine ⟨⟨fun o => refs o + if o = t.obj then 1 else 0, ha.retain (by omega) fun o => rfl,
      fun o => ?_⟩, hsafe, hrest, hqueued, .inl ⟨trivial, ?_⟩⟩
    · have hsucc : RefThread.heldOf o { t with acts, held := t.held + 1 } =
          t.heldOf o + if o = t.obj then 1 else 0 := heldOf_succ t { t with acts, held := t.held + 1 } rfl rfl o
      simp only [RefThread.act]
      omega
    · simp [RefThread.surplus, RefThread.act, hacts, RefAct.drops]
      omega
  | release =>
    obtain ⟨hheld, hsafe⟩ := hsafe
    refine ⟨⟨fun o => refs o - if o = t.obj then 1 else 0, ha.release fun o => ?_, fun o => ?_⟩,
      hsafe, hrest, hqueued, .inl ⟨trivial, ?_⟩⟩
    · split_ifs with heq
      · subst heq
        omega
      · omega
    · rw [heldOf_pred hheld acts o]
      simp only [RefThread.act]
      split_ifs with heq
      · subst heq
        omega
      · omega
    · simp [RefThread.surplus, RefThread.act, hacts, RefAct.drops]
      omega
  | releaseStray => exact absurd rfl hstray
  | notify p =>
    obtain ⟨hheld, hsafe⟩ := hsafe
    cases ok with
    | true =>
      refine ⟨⟨refs, ha, fun o => rfl⟩, safe_platformNotify hheld hsafe, hrest.platformNotify p,
        hqueued, .inl ⟨trivial, ?_⟩⟩
      simp [RefThread.surplus, RefThread.act, hacts, RefAct.drops]
    | false =>
      refine ⟨⟨refs, ha, fun o => rfl⟩, hsafe, hrest, hqueued, .inl ⟨trivial, ?_⟩⟩
      simp [RefThread.surplus, RefThread.act, hacts, RefAct.drops]
  | analyze =>
    obtain ⟨hdrops, hsafe⟩ := hsafe
    cases ok with
    | true =>
      refine ⟨⟨refs, ha, fun o => rfl⟩, hsafe, hrest, hqueued, .inl ⟨rfl, ?_⟩⟩
      simp [RefThread.surplus, RefThread.act, hacts, RefAct.drops]
    | false =>
      refine ⟨⟨refs, ha, fun o => rfl⟩, trivial, ⟨nofun, nofun⟩, hqueued,
        .inr ⟨by simp [RefAct.Goes], ?_⟩⟩
      simp [RefThread.surplus, RefThread.act, hacts, RefAct.drops, hdrops]
  | provisioned =>
    obtain ⟨hheld, hsafe⟩ := hsafe
    cases ok with
    | true =>
      have hsnap : t.type = .snap := hsends.snap List.mem_cons_self
      refine ⟨⟨refs, ha, fun o => rfl⟩, ⟨hheld, Nat.succ_pos _, hsafe⟩, ⟨fun q hq => ?_, fun hq => ?_⟩,
        hqueued, .inl ⟨trivial, ?_⟩⟩
      · rcases List.mem_cons.mp hq with hq | hq
        · cases hq
        · rcases List.mem_cons.mp hq with hq | hq
          · cases hq
            exact .inr ⟨rfl, hsnap⟩
          · exact hrest.carried q hq
      · exact hsnap
      · simp [RefThread.surplus, RefThread.act, hacts, RefAct.drops]
    | false =>
      refine ⟨⟨refs, ha, fun o => rfl⟩, hsafe, hrest, hqueued, .inl ⟨trivial, ?_⟩⟩
      simp [RefThread.surplus, RefThread.act, hacts, RefAct.drops]
  | send dst data =>
    cases data with
    | false =>
      cases ok with
      | true =>
        refine ⟨⟨refs, ha, fun o => ?_⟩, hsafe, hrest, fun m hm => ?_, .inl ⟨trivial, ?_⟩⟩
        · simp [RefThread.act, RefThread.heldOf, queuedOf]
        · rcases List.mem_append.mp hm with hm | hm
          · exact hqueued m hm
          · rw [List.mem_singleton.mp hm]
            exact fun hnot => absurd rfl hnot
        · simp [RefThread.surplus, RefThread.act, hacts, RefAct.drops]
      | false =>
        refine ⟨⟨refs, ha, fun o => rfl⟩, hsafe, hrest, hqueued, .inl ⟨trivial, ?_⟩⟩
        simp [RefThread.surplus, RefThread.act, hacts, RefAct.drops]
    | true =>
      obtain ⟨hheld, hsafe⟩ := hsafe
      have hcarried := hsends.carried dst List.mem_cons_self
      cases ok with
      | true =>
        refine ⟨⟨refs, ha, fun o => ?_⟩, hsafe, hrest, fun m hm => ?_, .inl ⟨rfl, ?_⟩⟩
        · rw [heldOf_pred hheld acts o]
          by_cases heq : o = t.obj
          · subst heq
            simp [RefThread.act, queuedOf]
            omega
          · simp [RefThread.act, queuedOf, heq, Ne.symm heq]
        · rcases List.mem_append.mp hm with hm | hm
          · exact hqueued m hm
          · rw [List.mem_singleton.mp hm]
            exact fun _ => hcarried
        · simp [RefThread.surplus, RefThread.act, hacts, RefAct.drops]
          omega
      | false =>
        refine ⟨⟨refs, ha, fun o => rfl⟩, hsafe.mono (Nat.sub_le _ _), hrest, hqueued,
          .inr ⟨by simp [RefAct.Goes], ?_⟩⟩
        simp [RefThread.surplus, RefThread.act, hacts, RefAct.drops]
        omega

theorem stray_act (h : .releaseStray ∉ a :: acts) (t : RefThread) (ok : Bool) :
    .releaseStray ∉ (t.act ok heap queue a acts).1.acts := by
  have hacts : .releaseStray ∉ acts := fun hmem => h (List.mem_cons_of_mem a hmem)
  cases a with
  | touch | retain | release | releaseStray => exact hacts
  | send dst data => cases ok <;> cases data <;> exact hacts
  | notify p =>
    cases ok with
    | true => exact fun hmem => (List.mem_append.mp hmem).elim (stray_platformNotify p t.type) hacts
    | false => exact hacts
  | analyze =>
    cases ok with
    | true => exact hacts
    | false => exact List.not_mem_nil
  | provisioned =>
    cases ok with
    | true => simpa [RefThread.act] using hacts
    | false => exact hacts

/-! ## One step -/

theorem refStep_event {created : Bool}
    (hstep : refStep platforms s (.event type created) = some s') :
    created = false ∧ type = .snap ∧ s' = { s with heap := { s.heap with fault := true } } ∨
    created = false ∧ type ≠ .snap ∧ s' = s ∨
    created = true ∧ type ≠ .zehinCb ∧ s' = { s with
      heap := s.heap.create
      threads := s.threads ++ [⟨none, type, s.heap.made, 1, processEvent platforms type⟩] } := by
  cases created <;> cases type <;> simp_all [refStep]

theorem refStep_thread {k : Nat} (hstep : refStep platforms s (.thread k ok) = some s') :
    ∃ t pre post, s.threads[k]? = some t ∧ s.threads = pre ++ t :: post ∧
      (t.acts = [] ∧ s' = { s with
        threads := pre ++ post
        lost := s.lost ++ List.replicate t.held t.obj } ∨
      ∃ a acts, t.acts = a :: acts ∧ s' = { s with
        heap := (t.act ok s.heap s.queue a acts).2.1
        queue := (t.act ok s.heap s.queue a acts).2.2
        threads := pre ++ (t.act ok s.heap s.queue a acts).1 :: post }) := by
  cases ht : s.threads[k]? with
  | none => simp [refStep, ht] at hstep
  | some t =>
    obtain ⟨pre, post, hsplit, hset, herase⟩ := exists_split_of_getElem? ht
    refine ⟨t, pre, post, rfl, hsplit, ?_⟩
    cases hacts : t.acts with
    | nil =>
      simp only [refStep, ht, hacts, Option.bind_eq_bind, Option.bind_some, herase] at hstep
      cases hstep
      exact .inl ⟨rfl, rfl⟩
    | cons a acts =>
      simp only [refStep, ht, hacts, Option.bind_eq_bind, Option.bind_some, hset] at hstep
      cases hstep
      exact .inr ⟨a, acts, rfl, rfl⟩

theorem refStep_receive (hstep : refStep platforms s (.receive p o) = some s') :
    ∃ m qs qs', s.queue.find? (·.dst = p) = some m ∧ s.queue = qs ++ m :: qs' ∧ m.dst = p ∧
      (m.data = none ∧
        s' = { s with queue := qs ++ qs', cap := (handler o s.cap m.type p).2 } ∨
      ∃ obj, m.data = some obj ∧ s' = { s with
        queue := qs ++ qs'
        cap := (handler o s.cap m.type p).2
        threads := s.threads ++ [⟨some p, m.type, obj, 1, (handler o s.cap m.type p).1⟩] }) := by
  cases hfind : s.queue.find? (·.dst = p) with
  | none => simp [refStep, hfind] at hstep
  | some m =>
    obtain ⟨hdst, qs, qs', hqueue, hqs⟩ := List.find?_eq_some_iff_append.mp hfind
    have herase : s.queue.eraseP (·.dst = p) = qs ++ qs' := by
      rw [hqueue, List.eraseP_append_right _ (fun b hb => by simpa using hqs b hb),
        List.eraseP_cons_of_pos (p := fun x : RefMsg => decide (x.dst = p)) hdst]
    simp only [refStep, hfind, Option.bind_eq_bind, Option.bind_some, herase] at hstep
    refine ⟨m, qs, qs', rfl, hqueue, by simpa using hdst, ?_⟩
    split_ifs at hstep
    cases hdata : m.data with
    | none =>
      simp only [hdata] at hstep
      cases hstep
      exact .inl ⟨rfl, rfl⟩
    | some obj =>
      simp only [hdata] at hstep
      cases hstep
      exact .inr ⟨obj, rfl, rfl⟩

/-- What a step leaves of the references, and whether one more will be lost; or it is a fault. -/
def Accounts (s : RefState) (i : RefStep) (s' : RefState) : Prop :=
  s'.heap.fault = true ∧ s.Faults i ∨
    s'.Good ∧ (s.Keeps i ∧ s'.surplus = s.surplus ∨ ¬ s.Keeps i ∧ s'.surplus = s.surplus + 1)

theorem held_le (ht : t ∈ s.threads) : t.held ≤ s.refs t.obj := by
  obtain ⟨pre, post, hsplit⟩ := List.append_of_mem ht
  simp only [RefState.refs, hsplit, List.map_append, List.map_cons, List.sum_append, List.sum_cons,
    heldOf_obj]
  omega

/-- What holds of all threads holds of them when one is replaced. -/
theorem forall_mem_replaced {P : RefThread → Prop} {pre post : List RefThread} {t₁ : RefThread}
    (h : ∀ t' ∈ pre ++ t :: post, P t') (h₁ : P t₁) : ∀ t' ∈ pre ++ t₁ :: post, P t' := by
  intro t' ht'
  rcases List.mem_append.mp ht' with ht' | ht'
  · exact h t' (List.mem_append_left _ ht')
  · rcases List.mem_cons.mp ht' with rfl | ht'
    · exact h₁
    · exact h t' (List.mem_append_right _ (List.mem_cons_of_mem _ ht'))

theorem forall_mem_snoc {α : Type*} {P : α → Prop} {l : List α} {x : α} (h : ∀ y ∈ l, P y)
    (hx : P x) : ∀ y ∈ l ++ [x], P y := by
  intro y hy
  rcases List.mem_append.mp hy with hy | hy
  · exact h y hy
  · rw [List.mem_singleton.mp hy]
    exact hx

theorem forall_mem_without {α : Type*} {P : α → Prop} {pre post : List α} {x : α}
    (h : ∀ y ∈ pre ++ x :: post, P y) : ∀ y ∈ pre ++ post, P y := by
  intro y hy
  rcases List.mem_append.mp hy with hy | hy
  · exact h y (List.mem_append_left _ hy)
  · exact h y (List.mem_append_right _ (List.mem_cons_of_mem _ hy))

theorem accounts_event (hs : s.Good) {created : Bool}
    (hstep : refStep platforms s (.event type created) = some s') :
    Accounts s (.event type created) s' := by
  rcases refStep_event hstep with ⟨rfl, rfl, rfl⟩ | ⟨rfl, hsnap, rfl⟩ | ⟨rfl, hcb, rfl⟩
  · exact .inl ⟨rfl, rfl, rfl⟩
  · exact .inr ⟨hs, .inl ⟨fun h => absurd h hsnap, rfl⟩⟩
  · refine .inr ⟨⟨?_, ?_, ?_, hs.queued⟩, .inl ⟨fun _ => rfl, ?_⟩⟩
    · refine hs.agrees.create fun o => ?_
      by_cases ho : s.heap.made = o
      · subst ho
        simp [RefState.refs, RefThread.heldOf]
        omega
      · simp [RefState.refs, RefThread.heldOf, ho, Ne.symm ho]
    · exact forall_mem_snoc hs.safe (safe_processEvent platforms type)
    · exact forall_mem_snoc hs.sends (sends_processEvent platforms type)
    · simp [RefState.surplus, RefThread.surplus, drops_processEvent hcb]

theorem accounts_thread (hs : s.Good) {k : Nat}
    (hstep : refStep platforms s (.thread k ok) = some s') : Accounts s (.thread k ok) s' := by
  obtain ⟨t, pre, post, ht, hsplit, ⟨hacts, rfl⟩ | ⟨a, acts, hacts, rfl⟩⟩ := refStep_thread hstep
  · have hsafe := hs.safe
    have hsends := hs.sends
    rw [hsplit] at hsafe hsends
    refine .inr ⟨⟨hs.agrees.congr fun o => ?_, forall_mem_without hsafe, forall_mem_without hsends,
      hs.queued⟩, .inl ⟨by simp [RefState.Keeps, ht, hacts], ?_⟩⟩
    · simp only [RefState.refs, hsplit, List.map_append, List.map_cons, List.sum_append, List.sum_cons,
        List.count_append, List.count_replicate, RefThread.heldOf, beq_iff_eq]
      omega
    · simp only [RefState.surplus, hsplit, List.map_append, List.map_cons, List.sum_append,
        List.sum_cons, RefThread.surplus, hacts, drops_nil, List.length_append, List.length_replicate]
      omega
  · by_cases hstray : a = .releaseStray
    · subst hstray
      exact .inl ⟨rfl, t, ht, by rw [hacts, List.head?_cons]⟩
    have hmem : t ∈ s.threads := List.mem_of_getElem? ht
    have hkeeps : s.Keeps (.thread k ok) ↔ a.Goes ok := by simp [RefState.Keeps, ht, hacts]
    obtain ⟨⟨refs, hagrees, hrefs⟩, hsafe, hsends, hqueued, hsurplus⟩ :=
      act_spec ok hacts hstray hs.agrees (held_le hmem) (hs.safe t hmem) (hs.sends t hmem) hs.queued
    refine .inr ⟨⟨hagrees.congr fun o => ?_, forall_mem_replaced (hsplit ▸ hs.safe) hsafe,
      forall_mem_replaced (hsplit ▸ hs.sends) hsends, hqueued⟩, ?_⟩
    · have ho := hrefs o
      simp only [RefState.refs, hsplit, List.map_append, List.map_cons, List.sum_append,
        List.sum_cons] at ho ⊢
      omega
    · rw [hkeeps]
      simp only [RefState.surplus, hsplit, List.map_append, List.map_cons, List.sum_append,
        List.sum_cons]
      rcases hsurplus with ⟨hgoes, hsurplus⟩ | ⟨hnot, hsurplus⟩
      · exact .inl ⟨hgoes, by omega⟩
      · exact .inr ⟨hnot, by omega⟩

theorem accounts_receive (hs : s.Good)
    (hstep : refStep platforms s (.receive p o) = some s') : Accounts s (.receive p o) s' := by
  obtain ⟨m, qs, qs', hfind, hqueue, rfl, ⟨hdata, rfl⟩ | ⟨obj, hdata, rfl⟩⟩ := refStep_receive hstep
  · have hqueued := hs.queued
    rw [hqueue] at hqueued
    refine .inr ⟨⟨hs.agrees.congr fun o => ?_, hs.safe, hs.sends, forall_mem_without hqueued⟩,
      .inl ⟨by simp [RefState.Keeps, hfind, hdata], rfl⟩⟩
    simp [RefState.refs, hqueue, queuedOf, hdata]
  · have hqueued := hs.queued
    rw [hqueue] at hqueued
    have hcarried : Carried m.dst m.type := hqueued m (by simp) (by simp [hdata])
    have hkeeps : s.Keeps (.receive m.dst o) ↔ Released o m.dst m.type := by
      simp [RefState.Keeps, hfind, hdata]
    refine .inr ⟨⟨hs.agrees.congr fun o => ?_,
      forall_mem_snoc hs.safe (safe_handler o s.cap m.type m.dst),
      forall_mem_snoc hs.sends (sends_handler o s.cap m.type m.dst), forall_mem_without hqueued⟩, ?_⟩
    · by_cases ho : obj = o
      · subst ho
        simp [RefState.refs, hqueue, queuedOf, hdata, RefThread.heldOf]
        omega
      · simp [RefState.refs, hqueue, queuedOf, hdata, RefThread.heldOf, ho]
    · rw [hkeeps]
      simp only [RefState.surplus, List.map_append, List.map_singleton, List.sum_append,
        List.sum_singleton, RefThread.surplus]
      rcases drops_handler o s.cap hcarried with ⟨hreleased, hdrops⟩ | ⟨hnot, hdrops⟩
      · exact .inl ⟨hreleased, by rw [hdrops]; omega⟩
      · exact .inr ⟨hnot, by rw [hdrops]; omega⟩

theorem accounts_step (hs : s.Good) (hstep : refStep platforms s i = some s') :
    Accounts s i s' := by
  cases i with
  | event type created => exact accounts_event hs hstep
  | thread k ok => exact accounts_thread hs hstep
  | receive p o => exact accounts_receive hs hstep
  | zehinCb =>
    cases hstep
    refine .inr ⟨⟨hs.agrees.congr fun o => ?_, hs.safe, hs.sends,
      forall_mem_snoc hs.queued fun hnot => absurd rfl hnot⟩, .inl ⟨trivial, rfl⟩⟩
    simp [RefState.refs, queuedOf]

theorem fault_act (hfault : heap.fault = true) (t : RefThread) (ok : Bool) (a : RefAct)
    (acts : List RefAct) : (t.act ok heap queue a acts).2.1.fault = true := by
  cases a with
  | touch => exact RefHeap.fault_touch hfault t.obj
  | retain => exact RefHeap.fault_retain hfault t.obj
  | release => exact RefHeap.fault_release hfault t.obj
  | releaseStray => rfl
  | send dst data => cases ok <;> cases data <;> exact hfault
  | notify p => exact hfault
  | analyze => exact hfault
  | provisioned => exact hfault

theorem fault_step (hstep : refStep platforms s i = some s') (hfault : s.heap.fault = true) :
    s'.heap.fault = true := by
  cases i with
  | event type created =>
    rcases refStep_event hstep with ⟨-, -, rfl⟩ | ⟨-, -, rfl⟩ | ⟨-, -, rfl⟩
    · rfl
    · exact hfault
    · exact hfault
  | thread k ok =>
    obtain ⟨t, pre, post, -, -, ⟨-, rfl⟩ | ⟨a, acts, -, rfl⟩⟩ := refStep_thread hstep
    · exact hfault
    · exact fault_act hfault t ok a acts
  | receive p o =>
    obtain ⟨m, qs, qs', -, -, -, ⟨-, rfl⟩ | ⟨obj, -, rfl⟩⟩ := refStep_receive hstep <;> exact hfault
  | zehinCb =>
    cases hstep
    exact hfault

/-! ## Whole runs -/

theorem fault_run (hfault : s.heap.fault = true) (hrun : runFrom (refStep platforms) s is = some s') :
    s'.heap.fault = true :=
  Along.invariant_end (P := fun _ _ => True) (J := fun s => s.heap.fault = true) hfault along_true
    (fun _ _ _ h _ hstep => fault_step hstep h) hrun

theorem good_start : RefState.Good {} :=
  ⟨RefHeap.agrees_empty.congr fun _ => rfl, nofun, nofun, nofun⟩

/-- In a run without a fault the references that will be lost are as many as the steps that do not go
well. -/
theorem accounts_run (hs : s.Good) (hrun : runFrom (refStep platforms) s is = some s')
    (hfault : s'.heap.fault = false) :
    s'.Good ∧ s.surplus ≤ s'.surplus ∧
      (s'.surplus = s.surplus ↔ Along (refStep platforms) RefState.Keeps s is) := by
  induction is generalizing s with
  | nil =>
    cases hrun
    exact ⟨hs, Int.le_refl _, by simp⟩
  | cons i is ih =>
    obtain ⟨s₁, hstep, hrun⟩ := Option.bind_eq_some_iff.mp hrun
    have hfault₁ : s₁.heap.fault = false := by
      by_contra hnot
      rw [fault_run (by simpa using hnot) hrun] at hfault
      cases hfault
    rcases accounts_step hs hstep with ⟨hbad, -⟩ | ⟨hgood, hsurplus⟩
    · rw [hfault₁] at hbad
      cases hbad
    · obtain ⟨hgood', hle, hiff⟩ := ih hgood hrun
      refine ⟨hgood', ?_⟩
      rw [along_cons]
      rcases hsurplus with ⟨hkeeps, hsurplus⟩ | ⟨hnot, hsurplus⟩
      · refine ⟨by omega, ?_⟩
        rw [← hsurplus, hiff]
        exact ⟨fun h => ⟨hkeeps, fun s₂ hs₂ => by rw [hstep] at hs₂; cases hs₂; exact h⟩,
          fun h => h.2 s₁ hstep⟩
      · exact ⟨by omega, fun h => by omega, fun h => absurd h.1 hnot⟩

/-- Every event and every message has been gone through. -/
def RefState.AtRest (s : RefState) : Prop := s.threads = [] ∧ ∀ m ∈ s.queue, m.data = none

theorem refs_atRest (h : s.AtRest) (o : Nat) : s.refs o = s.lost.count o := by
  have hqueue : queuedOf o s.queue = 0 := by
    rw [queuedOf, List.countP_eq_zero]
    intro m hm
    simp [h.2 m hm]
  rw [RefState.refs, hqueue, h.1]
  simp

/-- When every event and every message has been gone through, every object has been freed exactly
once, without a fault, if and only if every step of the run went well. -/
theorem refHandles_freed_iff (hrun : runFrom (refStep platforms) {} is = some s) (hrest : s.AtRest) :
    (s.heap.fault = false ∧ ∀ o < s.heap.made, s.heap.frees o = 1) ↔
      Along (refStep platforms) RefState.Keeps {} is := by
  have hsurplus : s.surplus = 0 ↔ s.lost = [] := by
    rw [RefState.surplus, hrest.1]
    simp
  have hzero : RefState.surplus {} = 0 := rfl
  constructor
  · rintro ⟨hfault, hfrees⟩
    obtain ⟨hgood, -, hiff⟩ := accounts_run good_start hrun hfault
    rw [← hiff, hzero, hsurplus]
    refine List.eq_nil_iff_forall_not_mem.mpr fun o ho => ?_
    have hcount : 0 < s.refs o := by
      rw [refs_atRest hrest]
      exact List.count_pos_iff.mpr ho
    have hlive := hgood.agrees.live hcount
    have hone := hfrees o hlive.1
    rw [hlive.2] at hone
    cases hone
  · intro hkeeps
    have hgood : s.Good := by
      refine Along.invariant_end good_start hkeeps (fun s i s' hs hi hstep => ?_) hrun
      rcases accounts_step hs hstep with ⟨-, hfaults⟩ | ⟨hgood, -⟩
      · exact absurd hi hfaults.not_keeps
      · exact hgood
    obtain ⟨-, -, hiff⟩ := accounts_run good_start hrun hgood.agrees.fault
    have hlost : s.lost = [] := hsurplus.mp ((hiff.mpr hkeeps).trans hzero)
    refine ⟨hgood.agrees.fault, fun o ho => ?_⟩
    rw [hgood.agrees.frees o ho, refs_atRest hrest, hlost]
    rfl

/-- A car comes, and the songli and the ktetc platform are told of it; the ktetc platform is done
before the event is. -/
def carComes : List RefStep :=
  .event .record true :: List.replicate 9 (.thread 0 true) ++ .receive .ktetc {} ::
    List.replicate 3 (.thread 1 true) ++ List.replicate 3 (.thread 0 true) ++ .receive .songli {} ::
    List.replicate 3 (.thread 0 true)

theorem refHandles_freed_iff_car : ∃ s, runFrom (refStep [.songli, .ktetc]) {} carComes = some s ∧
    s.heap.made = 1 ∧ Along (refStep [.songli, .ktetc]) RefState.Keeps {} carComes := by
  obtain ⟨s, hrun, hs⟩ := Option.map_eq_some_iff.mp (show
    (runFrom (refStep [.songli, .ktetc]) {} carComes).map (fun s => (s.heap.made, s.heap.frees 0,
      s.heap.fault, s.threads.length, s.queue.length)) = some (1, 1, false, 0, 0) by decide +kernel)
  simp only [Prod.mk.injEq, List.length_eq_zero_iff] at hs
  obtain ⟨hmade, hfrees, hfault, hthreads, hqueue⟩ := hs
  refine ⟨s, hrun, hmade, (refHandles_freed_iff hrun ⟨hthreads, by simp [hqueue]⟩).mp
    ⟨hfault, fun o ho => ?_⟩⟩
  obtain rfl : o = 0 := by omega
  exact hfrees

/-! ## Runs in which anything may fail -/

/-- An object of a picture is made, and no picture comes while the zehin platform waits for one. -/
def RefState.Calm (s : RefState) : RefStep → Prop
  | .event type created => type = .snap → created = true
  | .receive p _ =>
    ∀ m ∈ s.queue.find? (·.dst = p), p = .zehin → m.type = .snap → s.cap ≠ .SEND2DSP
  | .thread _ _ | .zehinCb => True

/-- No thread is about to release something that is no object. -/
def RefState.NoStray (s : RefState) : Prop := ∀ t ∈ s.threads, .releaseStray ∉ t.acts

theorem noStray_step (hs : s.NoStray) (hi : s.Calm i) (hstep : refStep platforms s i = some s') :
    s'.NoStray := by
  cases i with
  | event type created =>
    rcases refStep_event hstep with ⟨-, -, rfl⟩ | ⟨-, -, rfl⟩ | ⟨-, -, rfl⟩
    · exact hs
    · exact hs
    · exact forall_mem_snoc hs (stray_processEvent platforms type)
  | thread k ok =>
    obtain ⟨t, pre, post, ht, hsplit, hs'⟩ := refStep_thread hstep
    have hall : ∀ t' ∈ pre ++ t :: post, .releaseStray ∉ t'.acts := hsplit ▸ hs
    rcases hs' with ⟨-, rfl⟩ | ⟨a, acts, hacts, rfl⟩
    · exact forall_mem_without hall
    · exact forall_mem_replaced hall (stray_act (hacts ▸ hs t (List.mem_of_getElem? ht)) t ok)
  | receive p o =>
    obtain ⟨m, qs, qs', hfind, -, -, ⟨-, rfl⟩ | ⟨obj, -, rfl⟩⟩ := refStep_receive hstep
    · exact hs
    · exact forall_mem_snoc hs (stray_handler (hi m hfind))
  | zehinCb =>
    cases hstep
    exact hs

/-- Whatever else fails, no object is used or released after it has been freed, and each has as many
references as are held, queued or lost. -/
theorem refHandles_agree (hrun : runFrom (refStep platforms) {} is = some s)
    (hcalm : Along (refStep platforms) RefState.Calm {} is) : s.heap.Agrees s.refs := by
  have hgood : s.Good ∧ s.NoStray := by
    refine Along.invariant_end (J := fun s => s.Good ∧ s.NoStray) ⟨good_start, nofun⟩ hcalm ?_ hrun
    rintro s i s' ⟨hs, hstray⟩ hi hstep
    refine ⟨?_, noStray_step hstray hi hstep⟩
    rcases accounts_step hs hstep with ⟨-, hfaults⟩ | ⟨hgood, -⟩
    · exfalso
      cases i with
      | event type created => exact absurd (hi hfaults.1) (by simp [hfaults.2])
      | thread k ok =>
        obtain ⟨t, ht, hhead⟩ := hfaults
        exact hstray t (List.mem_of_getElem? ht) (List.mem_of_mem_head? hhead)
      | receive p o => exact hfaults
      | zehinCb => exact hfaults
    · exact hgood
  exact hgood.1.agrees

/-- The queue is full: the thread holds the reference that it took for the message, besides its own. -/
theorem refHandles_agree_full : ∃ s, runFrom (refStep [.songli]) {}
    [.event .alarm true, .thread 0 true, .thread 0 true, .thread 0 true, .thread 0 false] = some s ∧
      s.heap.Agrees s.refs := by
  obtain ⟨s, hrun⟩ := Option.isSome_iff_exists.mp (show (runFrom (refStep [.songli]) {}
    [.event .alarm true, .thread 0 true, .thread 0 true, .thread 0 true, .thread 0 false]).isSome = true
      by decide +kernel)
  exact ⟨s, hrun, refHandles_agree hrun (by simp [Along, RefState.Calm])⟩

end VdCamera.Park.RefHandle
