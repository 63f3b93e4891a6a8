import VdCamera.Misc.Run
import VdCamera.Misc.Table

/-!
# Store and forward

A sender sends what it is handed, or stores it when the store is not empty, when the other side is
off line, or after some attempts; a forwarder sends what is stored, the oldest first. They share the
store and nothing else. Nothing gets lost, doubled or out of order in exactly the runs in which what
an answer is taken for is what it means.
-/

namespace VdCamera.Misc

/-- A stored row. -/
structure Parked (ω : Type*) where
  id : Nat
  val : ω
  deriving DecidableEq, Repr

/-- What is sent of a record, its row, and what is sent of a row, if it can be read; whether an
answer is taken for success, and whether the other side has the record then. -/
structure Carrier (ρ τ ω α : Type*) where
  live : ρ → τ
  row : ρ → ω
  again : ω → Option τ
  took : α → Bool
  has : α → Bool
  /-- The sender stores when the other side is off line. -/
  checksOnline : Bool
  again_row : ∀ r t, again (row r) = some t → t = live r

inductive SenderPlace (ρ : Type*) where
  | idle
  | holding (r : ρ)
  | sending (r : ρ) (failed : Nat)
  | storing (r : ρ)
  deriving DecidableEq, Repr

/-- The record that the sender has not done with. -/
def SenderPlace.inHand {ρ : Type*} : SenderPlace ρ → List ρ
  | .idle => []
  | .holding r | .sending r _ | .storing r => [r]

inductive ForwarderPlace (ω : Type*) where
  | idle
  /-- It has found the store not empty. -/
  | counted
  | picked (p : Parked ω)
  /-- It has sent the row and has to delete it. -/
  | sent (id : Nat)
  /-- It has found a row that cannot be read. -/
  | ended
  deriving DecidableEq, Repr

/-- The store and the two threads; beside them what the other side has and what was handed to the
sender. -/
structure StoreForward (ρ τ ω : Type*) where
  table : Table (Parked ω) Parked.id := Table.empty
  sender : SenderPlace ρ := .idle
  forwarder : ForwarderPlace ω := .idle
  received : List τ := []
  handed : List ρ := []

inductive StoreForwardOp (ρ α : Type*) where
  | hand (r : ρ)
  | look (online : Bool)
  | attempt (a : α)
  | store
  | count
  | pick
  | forward (a : α)
  | delete
  deriving DecidableEq, Repr

variable {ρ τ ω α : Type*}

/-- What the other side has after the answer. -/
def Carrier.arrives (c : Carrier ρ τ ω α) (a : α) (t : τ) (received : List τ) : List τ :=
  if c.has a then received ++ [t] else received

/-- `none` when the thread is not at the step. -/
def storeForwardStep (c : Carrier ρ τ ω α) (s : StoreForward ρ τ ω) :
    StoreForwardOp ρ α → Option (StoreForward ρ τ ω)
  | .hand r =>
    match s.sender with
    | .idle => some { s with sender := .holding r, handed := s.handed ++ [r] }
    | _ => none
  | .look online =>
    match s.sender with
    | .holding r =>
      if (c.checksOnline && !online) || !s.table.rows.isEmpty then
        some { s with sender := .storing r }
      else some { s with sender := .sending r 0 }
    | _ => none
  | .attempt a =>
    match s.sender with
    | .sending r failed => some { s with
        received := c.arrives a (c.live r) s.received
        sender :=
          if c.took a then .idle
          else if failed + 1 < 3 then .sending r (failed + 1)
          else .storing r }
    | _ => none
  | .store =>
    match s.sender with
    | .storing r => some { s with
        table := s.table.insert (fun k => ⟨k, c.row r⟩) fun _ => rfl
        sender := .idle }
    | _ => none
  | .count =>
    match s.forwarder with
    | .idle => some { s with forwarder := if s.table.rows.isEmpty then .idle else .counted }
    | _ => none
  | .pick =>
    match s.forwarder, s.table.rows with
    | .counted, p :: _ => some { s with forwarder := .picked p }
    | .counted, [] => some { s with forwarder := .idle }
    | _, _ => none
  | .forward a =>
    match s.forwarder with
    | .picked p =>
      match c.again p.val with
      | some t => some { s with
          received := c.arrives a t s.received
          forwarder := if c.took a then .sent p.id else .idle }
      | none => some { s with forwarder := .ended }
    | _ => none
  | .delete =>
    match s.forwarder with
    | .sent id => some { s with table := s.table.delete id, forwarder := .idle }
    | _ => none

/-- The rows of the store but the one that has been sent. -/
def StoreForward.unsent (s : StoreForward ρ τ ω) : List (Parked ω) :=
  match s.forwarder with
  | .sent id => (s.table.delete id).rows
  | _ => s.table.rows

/-- What the other side has is the first records in their order, and the rest are the rows of the
store and the record in hand. -/
def StoreForward.Forwarded (c : Carrier ρ τ ω α) (s : StoreForward ρ τ ω) : Prop :=
  ∃ done stored, s.handed = done ++ stored ++ s.sender.inHand ∧ s.received = done.map c.live
    ∧ s.unsent.map Parked.val = stored.map c.row

/-- The answer that a thread gets in the step. -/
def StoreForward.answered (c : Carrier ρ τ ω α) (s : StoreForward ρ τ ω) :
    StoreForwardOp ρ α → Option α
  | .attempt a =>
    match s.sender with
    | .sending _ _ => some a
    | _ => none
  | .forward a =>
    match s.forwarder with
    | .picked p => (c.again p.val).map fun _ => a
    | _ => none
  | _ => none

/-- The answer is taken for what it means. -/
def Carrier.Agrees (c : Carrier ρ τ ω α) (s : StoreForward ρ τ ω) (op : StoreForwardOp ρ α) : Prop :=
  ∀ a ∈ s.answered c op, c.took a = c.has a

variable {c : Carrier ρ τ ω α} {s s' : StoreForward ρ τ ω} {op : StoreForwardOp ρ α}

/-- The forwarder works on the first row, and the sender sends when there is none. -/
structure StoreForward.Inv (c : Carrier ρ τ ω α) (s : StoreForward ρ τ ω) : Prop where
  forwarded : s.Forwarded c
  sending : ∀ r n, s.sender = .sending r n → s.table.rows = []
  counted : s.forwarder = .counted → s.table.rows ≠ []
  picked : ∀ p, s.forwarder = .picked p → s.table.rows.head? = some p
  sent : ∀ id, s.forwarder = .sent id → ∃ p, s.table.rows.head? = some p ∧ p.id = id

theorem StoreForward.unsent_of_ne (h : ∀ id, s.forwarder ≠ .sent id) : s.unsent = s.table.rows := by
  unfold unsent
  split
  · rename_i id hid
    exact absurd hid (h id)
  · rfl

theorem StoreForward.unsent_of_sent {id : Nat} (h : s.forwarder = .sent id) :
    s.unsent = (s.table.delete id).rows := by
  unfold unsent
  rw [h]

/-- Nothing that is handed over is forgotten or counted twice. -/
theorem StoreForward.Forwarded.length (h : s.Forwarded c) :
    s.received.length + s.unsent.length + s.sender.inHand.length = s.handed.length := by
  obtain ⟨done, stored, hhanded, hreceived, hunsent⟩ := h
  have hlen := congrArg List.length hunsent
  rw [List.length_map, List.length_map] at hlen
  rw [hhanded, hreceived, hlen, List.length_map, List.length_append, List.length_append]

/-- The first row stands for the first record that the other side does not have. -/
theorem StoreForward.Inv.first {p : Parked ω} (h : s.Inv c) (hp : s.forwarder = .picked p) :
    ∃ done r stored ps, s.table.rows = p :: ps ∧ s.handed = done ++ r :: stored ++ s.sender.inHand
      ∧ s.received = done.map c.live ∧ p.val = c.row r ∧ ps.map Parked.val = stored.map c.row := by
  obtain ⟨done, stored, hhanded, hreceived, hunsent⟩ := h.forwarded
  rw [StoreForward.unsent_of_ne (by simp [hp])] at hunsent
  have hhead := h.picked p hp
  cases hrows : s.table.rows with
  | nil =>
    rw [hrows] at hhead
    cases hhead
  | cons q ps =>
    rw [hrows] at hhead hunsent
    cases hhead
    cases stored with
    | nil => cases hunsent
    | cons r stored =>
      rw [List.map_cons, List.map_cons, List.cons_eq_cons] at hunsent
      exact ⟨done, r, stored, ps, rfl, hhanded, hreceived, hunsent.1, hunsent.2⟩

/-! ## The sender -/

theorem StoreForward.Inv.hand (h : s.Inv c) (hidle : s.sender = .idle) (r : ρ) :
    ({ s with sender := .holding r, handed := s.handed ++ [r] } : StoreForward ρ τ ω).Inv c := by
  refine ⟨?_, nofun, h.counted, h.picked, h.sent⟩
  obtain ⟨done, stored, hhanded, hreceived, hunsent⟩ := h.forwarded
  refine ⟨done, stored, ?_, hreceived, hunsent⟩
  rw [hidle] at hhanded
  show s.handed ++ [r] = done ++ stored ++ [r]
  rw [hhanded]
  simp [SenderPlace.inHand]

/-- The sender goes on to the next place with the record that it has in hand. -/
theorem StoreForward.Inv.sender_to (h : s.Inv c) {place : SenderPlace ρ}
    (hhand : place.inHand = s.sender.inHand)
    (hsending : ∀ r n, place = .sending r n → s.table.rows = []) :
    ({ s with sender := place } : StoreForward ρ τ ω).Inv c := by
  refine ⟨?_, hsending, h.counted, h.picked, h.sent⟩
  obtain ⟨done, stored, hhanded, hreceived, hunsent⟩ := h.forwarded
  refine ⟨done, stored, ?_, hreceived, hunsent⟩
  rw [hhanded, ← hhand]

/-- While the sender sends, the store is empty and nothing is on its way out of it. -/
theorem StoreForward.Inv.unsent_nil {r : ρ} {n : Nat} (h : s.Inv c)
    (hs : s.sender = .sending r n) : s.unsent = [] := by
  have hrows := h.sending r n hs
  rw [StoreForward.unsent_of_ne, hrows]
  intro id hid
  obtain ⟨p, hp, -⟩ := h.sent id hid
  rw [hrows] at hp
  cases hp

theorem StoreForward.Inv.delivered {r : ρ} {n : Nat} (h : s.Inv c) (hs : s.sender = .sending r n) :
    ({ s with received := s.received ++ [c.live r], sender := .idle } : StoreForward ρ τ ω).Inv c := by
  refine ⟨?_, nofun, h.counted, h.picked, h.sent⟩
  have hnil := h.unsent_nil hs
  obtain ⟨done, stored, hhanded, hreceived, hunsent⟩ := h.forwarded
  rw [hnil] at hunsent
  have hstored : stored = [] := by simpa using hunsent.symm
  refine ⟨done ++ [r], [], ?_, ?_, ?_⟩
  · show s.handed = _
    rw [hhanded, hstored, hs]
    simp [SenderPlace.inHand]
  · show s.received ++ [c.live r] = _
    rw [hreceived, List.map_append, List.map_singleton]
  · exact congrArg (List.map Parked.val) hnil

theorem StoreForward.Inv.store {r : ρ} (h : s.Inv c) (hs : s.sender = .storing r) :
    ({ s with
        table := s.table.insert (fun k => ⟨k, c.row r⟩) fun _ => rfl
        sender := .idle } : StoreForward ρ τ ω).Inv c := by
  have hrows : (s.table.insert (fun k => (⟨k, c.row r⟩ : Parked ω)) fun _ => rfl).rows
      = s.table.rows ++ [⟨s.table.lastKey + 1, c.row r⟩] := rfl
  -- the new row is behind the one that the forwarder works on
  have hhead : ∀ p, s.table.rows.head? = some p →
      (s.table.insert (fun k => (⟨k, c.row r⟩ : Parked ω)) fun _ => rfl).rows.head? = some p := by
    intro p hp
    rw [hrows, List.head?_append, hp]
    rfl
  refine ⟨?_, nofun, ?_, fun p hp => hhead p (h.picked p hp), ?_⟩
  · obtain ⟨done, stored, hhanded, hreceived, hunsent⟩ := h.forwarded
    refine ⟨done, stored ++ [r], ?_, hreceived, ?_⟩
    · show s.handed = _
      rw [hhanded, hs]
      simp [SenderPlace.inHand]
    · rw [List.map_append, ← hunsent]
      cases hf : s.forwarder with
      | sent id =>
        obtain ⟨p, hp, rfl⟩ := h.sent id hf
        obtain ⟨ps, hps⟩ : ∃ ps, s.table.rows = p :: ps := by
          cases hr : s.table.rows with
          | nil =>
            rw [hr] at hp
            cases hp
          | cons q ps =>
            rw [hr] at hp
            cases hp
            exact ⟨ps, rfl⟩
        rw [StoreForward.unsent_of_sent hf, s.table.rows_delete_head hps]
        show List.map Parked.val (StoreForward.unsent _) = _
        rw [StoreForward.unsent_of_sent (by rfl),
          Table.rows_delete_head _ (show _ = p :: (ps ++ _) by rw [hrows, hps]; rfl),
          List.map_append]
        rfl
      | idle | counted | picked p | ended =>
        rw [StoreForward.unsent_of_ne (by simp), StoreForward.unsent_of_ne (by simp [hf]), hrows,
          List.map_append]
        rfl
  · intro _
    rw [hrows]
    simp
  · intro id hid
    obtain ⟨p, hp, hpid⟩ := h.sent id hid
    exact ⟨p, hhead p hp, hpid⟩

/-! ## The forwarder -/

/-- The forwarder goes on without having sent anything. -/
theorem StoreForward.Inv.forwarder_to (h : s.Inv c) {place : ForwarderPlace ω}
    (hold : ∀ id, s.forwarder ≠ .sent id) (hnew : ∀ id, place ≠ .sent id)
    (hcounted : place = .counted → s.table.rows ≠ [])
    (hpicked : ∀ p, place = .picked p → s.table.rows.head? = some p) :
    ({ s with forwarder := place } : StoreForward ρ τ ω).Inv c := by
  refine ⟨?_, h.sending, hcounted, hpicked, fun id hid => absurd hid (hnew id)⟩
  obtain ⟨done, stored, hhanded, hreceived, hunsent⟩ := h.forwarded
  refine ⟨done, stored, hhanded, hreceived, ?_⟩
  rw [StoreForward.unsent_of_ne hold] at hunsent
  rwa [StoreForward.unsent_of_ne (by exact hnew)]

theorem StoreForward.Inv.resent {p : Parked ω} {t : τ} (h : s.Inv c)
    (hp : s.forwarder = .picked p) (ht : c.again p.val = some t) :
    ({ s with received := s.received ++ [t], forwarder := .sent p.id } :
      StoreForward ρ τ ω).Inv c := by
  obtain ⟨done, r, stored, ps, hrows, hhanded, hreceived, hval, hps⟩ := h.first hp
  refine ⟨⟨done ++ [r], stored, ?_, ?_, ?_⟩, h.sending, nofun, nofun, ?_⟩
  · show s.handed = _
    rw [hhanded]
    simp
  · show s.received ++ [t] = _
    rw [hval] at ht
    rw [hreceived, c.again_row r t ht, List.map_append, List.map_singleton]
  · rw [StoreForward.unsent_of_sent (by rfl)]
    show List.map Parked.val (s.table.delete p.id).rows = _
    rw [s.table.rows_delete_head hrows, hps]
  · rintro id hid
    cases hid
    exact ⟨p, by show s.table.rows.head? = _; rw [hrows]; rfl, rfl⟩

theorem StoreForward.Inv.delete {id : Nat} (h : s.Inv c) (hs : s.forwarder = .sent id) :
    ({ s with table := s.table.delete id, forwarder := .idle } : StoreForward ρ τ ω).Inv c := by
  refine ⟨?_, ?_, nofun, nofun, nofun⟩
  · obtain ⟨done, stored, hhanded, hreceived, hunsent⟩ := h.forwarded
    rw [StoreForward.unsent_of_sent hs] at hunsent
    exact ⟨done, stored, hhanded, hreceived, hunsent⟩
  · intro r n hsend
    obtain ⟨p, hp, -⟩ := h.sent id hs
    rw [h.sending r n hsend] at hp
    cases hp

/-! ## Runs -/

theorem StoreForward.Inv.step (h : s.Inv c) (hagrees : c.Agrees s op)
    (hstep : storeForwardStep c s op = some s') : s'.Inv c := by
  cases op with
  | hand r =>
    rw [storeForwardStep] at hstep
    split at hstep
    · rename_i hidle
      cases hstep
      exact h.hand hidle r
    · cases hstep
  | look online =>
    rw [storeForwardStep] at hstep
    split at hstep
    · rename_i r hs
      split at hstep
      · cases hstep
        exact h.sender_to (by rw [hs]; rfl) nofun
      · rename_i hlook
        cases hstep
        apply h.sender_to (by rw [hs]; rfl)
        intro _ _ _
        simp only [Bool.or_eq_true, Bool.not_eq_true', not_or, Bool.not_eq_false,
          List.isEmpty_iff] at hlook
        exact hlook.2
    · cases hstep
  | attempt a =>
    rw [storeForwardStep] at hstep
    split at hstep
    · rename_i r failed hs
      cases hstep
      have htook : c.took a = c.has a := hagrees a (by simp [StoreForward.answered, hs])
      unfold Carrier.arrives
      rw [htook]
      cases c.has a with
      | true =>
        exact h.delivered hs
      | false =>
        have hrows := h.sending r failed hs
        apply h.sender_to
        · rw [hs]
          simp only [Bool.false_eq_true, if_false]
          split
          · rfl
          · rfl
        · intro _ _ _
          exact hrows
    · cases hstep
  | store =>
    rw [storeForwardStep] at hstep
    split at hstep
    · rename_i r hs
      cases hstep
      exact h.store hs
    · cases hstep
  | count =>
    rw [storeForwardStep] at hstep
    split at hstep
    · rename_i hidle
      cases hstep
      apply h.forwarder_to (by simp [hidle])
      · intro id
        split
        · simp
        · simp
      · split
        · nofun
        · rename_i hempty
          intro _ hnil
          exact hempty (by simp [hnil])
      · intro p
        split
        · nofun
        · nofun
    · cases hstep
  | pick =>
    rw [storeForwardStep] at hstep
    split at hstep
    · rename_i p ps hcounted hrows
      cases hstep
      refine h.forwarder_to (by simp [hcounted]) (by simp) nofun ?_
      rintro q hq
      cases hq
      rw [hrows]
      rfl
    · rename_i hcounted hrows
      exact absurd hrows (h.counted hcounted)
    · cases hstep
  | forward a =>
    rw [storeForwardStep] at hstep
    split at hstep
    · rename_i p hp
      split at hstep
      · rename_i t ht
        cases hstep
        have htook : c.took a = c.has a := hagrees a (by simp [StoreForward.answered, hp, ht])
        unfold Carrier.arrives
        rw [htook]
        cases c.has a with
        | true => exact h.resent hp ht
        | false => exact h.forwarder_to (by simp [hp]) (by simp) nofun nofun
      · cases hstep
        exact h.forwarder_to (by simp [hp]) (by simp) nofun nofun
    · cases hstep
  | delete =>
    rw [storeForwardStep] at hstep
    split at hstep
    · rename_i id hs
      cases hstep
      exact h.delete hs
    · cases hstep

/-- An answer that is not taken for what it means costs a record or doubles it. -/
theorem StoreForward.Inv.agrees_of_forwarded (h : s.Inv c)
    (hstep : storeForwardStep c s op = some s') (hs' : s'.Forwarded c) : c.Agrees s op := by
  intro a ha
  have htotal := h.forwarded.length
  have htotal' := hs'.length
  cases op with
  | attempt a' =>
    rw [StoreForward.answered] at ha
    rw [storeForwardStep] at hstep
    split at hstep
    · rename_i r failed hs
      rw [hs] at ha
      cases ha
      cases hstep
      have hunsent : StoreForward.unsent { s with
          received := c.arrives a (c.live r) s.received
          sender :=
            if c.took a then .idle
            else if failed + 1 < 3 then .sending r (failed + 1)
            else .storing r } = s.unsent := rfl
      rw [hunsent] at htotal'
      rw [hs] at htotal
      cases hhas : c.has a with
      | true =>
        cases htook : c.took a with
        | true => rfl
        | false =>
          simp only [Carrier.arrives, hhas, htook, if_true, Bool.false_eq_true, if_false,
            List.length_append, List.length_singleton] at htotal'
          split at htotal'
          · simp only [SenderPlace.inHand, List.length_singleton] at htotal htotal'
            omega
          · simp only [SenderPlace.inHand, List.length_singleton] at htotal htotal'
            omega
      | false =>
        cases htook : c.took a with
        | false => rfl
        | true =>
          simp only [Carrier.arrives, hhas, htook, if_true, Bool.false_eq_true, if_false,
            SenderPlace.inHand, List.length_singleton, List.length_nil] at htotal htotal'
          omega
    · cases hstep
  | forward a' =>
    rw [StoreForward.answered] at ha
    rw [storeForwardStep] at hstep
    split at hstep
    · rename_i p hp
      rw [hp] at ha
      obtain ⟨t, ht, rfl⟩ := Option.map_eq_some_iff.mp ha
      rw [ht] at hstep
      cases hstep
      obtain ⟨-, -, -, ps, hrows, -⟩ := h.first hp
      rw [StoreForward.unsent_of_ne (by simp [hp]), hrows] at htotal
      cases hhas : c.has a' with
      | true =>
        cases htook : c.took a' with
        | true => rfl
        | false =>
          simp only [Carrier.arrives, hhas, htook, if_true, Bool.false_eq_true, if_false,
            StoreForward.unsent, hrows, List.length_append, List.length_cons] at htotal htotal'
          omega
      | false =>
        cases htook : c.took a' with
        | false => rfl
        | true =>
          simp only [Carrier.arrives, hhas, htook, if_true, Bool.false_eq_true, if_false,
            StoreForward.unsent, s.table.rows_delete_head hrows, List.length_cons] at htotal htotal'
          omega
    · cases hstep
  | hand r => cases ha
  | look online => cases ha
  | store => cases ha
  | count => cases ha
  | pick => cases ha
  | delete => cases ha

theorem StoreForward.inv_init : ({} : StoreForward ρ τ ω).Inv c :=
  ⟨⟨[], [], rfl, rfl, rfl⟩, nofun, nofun, nofun, nofun⟩

/-- A thread that gets an answer takes a step. -/
theorem StoreForward.step_of_answered {a : α} (h : a ∈ s.answered c op) :
    ∃ s', storeForwardStep c s op = some s' := by
  cases op with
  | attempt a' =>
    rw [answered] at h
    split at h
    · rename_i r failed hs
      rw [storeForwardStep, hs]
      exact ⟨_, rfl⟩
    · cases h
  | forward a' =>
    rw [answered] at h
    split at h
    · rename_i p hp
      obtain ⟨t, ht, -⟩ := Option.map_eq_some_iff.mp h
      rw [storeForwardStep, hp]
      simp only [ht]
      exact ⟨_, rfl⟩
    · cases h
  | hand r => cases h
  | look online => cases h
  | store => cases h
  | count => cases h
  | pick => cases h
  | delete => cases h

/-- Nothing gets lost, doubled or out of order along a run exactly when every answer is taken for what
it means. -/
theorem along_forwarded_iff (c : Carrier ρ τ ω α) (ops : List (StoreForwardOp ρ α)) :
    Along (storeForwardStep c) (After (storeForwardStep c) (StoreForward.Forwarded c)) {} ops
      ↔ Along (storeForwardStep c) c.Agrees {} ops := by
  apply along_congr (StoreForward.inv_init (c := c))
  · intro s op s' h hafter hstep
    exact h.step (h.agrees_of_forwarded hstep (hafter s' hstep)) hstep
  · intro s op h
    constructor
    · intro hafter a ha
      obtain ⟨s', hstep⟩ := StoreForward.step_of_answered ha
      exact h.agrees_of_forwarded hstep (hafter s' hstep) a ha
    · intro hagrees s' hstep
      exact (h.step hagrees hstep).forwarded

end VdCamera.Misc
