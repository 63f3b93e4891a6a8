import VdCamera.Platform.MqSend

/-!
# What the send queue delivers

The buffer of the thread is not initialised. The queue delivers each text exactly once unless the
buffer happens to be valid and the thread looks at a slot before the first text is there.
-/

namespace VdCamera.Platform

open Misc

variable {s s' : MqSend} {op : MqOp}

/-- What the slots hold. -/
def MqSend.slots (s : MqSend) (i : Fin MQ_SEND_NUM) : Option (List UInt8) := (s.text i).content

theorem slots_put (i : Fin MQ_SEND_NUM) (t : MqText) :
    (fun j => (Function.update s.text i t j).content) = Function.update s.slots i t.content := by
  funext j
  by_cases hj : j = i
  · rw [hj, Function.update_self, Function.update_self]
  · rw [Function.update_of_ne hj, Function.update_of_ne hj]
    rfl

theorem content_of_not_valid {t : MqText} (h : t.valid = false) : t.content = none := by
  rw [MqText.content, h]
  rfl

theorem content_of_valid {t : MqText} (h : t.valid = true) : t.content = some t.data := by
  rw [MqText.content, h]
  rfl

/-- A text is refused by full slots, or it is put in a free one. -/
theorem mqSendPut_cases (text : List UInt8) (s : MqSend) :
    (mqSendPut text s = (-1, s) ∧ ∀ i, (s.text i).valid = true)
      ∨ ∃ i, (s.text i).valid = false ∧ mqSendPut text s = (0, { s with
        text := Function.update s.text i ⟨text, true⟩
        accepted := s.accepted ++ [text] }) := by
  unfold mqSendPut
  cases hfind : (List.finRange MQ_SEND_NUM).find? fun i => !(s.text i).valid with
  | none =>
    left
    refine ⟨rfl, fun i => ?_⟩
    simpa using List.find?_eq_none.mp hfind i (List.mem_finRange i)
  | some i =>
    right
    exact ⟨i, by simpa using List.find?_some hfind, rfl⟩

theorem queued_put {i : Fin MQ_SEND_NUM} (h : (s.text i).valid = false) (text : List UInt8) :
    ((List.finRange MQ_SEND_NUM).filterMap
      fun j => (Function.update s.text i ⟨text, true⟩ j).content).Perm (text :: s.queued) := by
  rw [slots_put]
  exact perm_filterMap_put (List.nodup_finRange _) (List.mem_finRange i) (content_of_not_valid h)

theorem refusesWhenFull (s : MqSend) (op : MqOp) : RefusesWhenFull s op := by
  rintro text - hret
  rcases mqSendPut_cases text s with ⟨-, hfull⟩ | ⟨i, -, hput⟩
  · have hcontent : (fun i => (s.text i).content) = fun i => some (s.text i).data := by
      funext i
      exact content_of_valid (hfull i)
    rw [MqSend.queued, hcontent, List.filterMap_eq_map', List.length_map, List.length_finRange]
  · rw [hput] at hret
    exact absurd rfl hret

theorem resendsFailed_step (h : s.ResendsFailed) (hstep : mqStep s op = some s') :
    s'.ResendsFailed := by
  cases op with
  | put text =>
    cases hstep
    rcases mqSendPut_cases text s with ⟨hput, -⟩ | ⟨i, -, hput⟩
    · rw [hput]
      exact h
    · rw [hput]
      exact h
  | take =>
    rw [mqStep] at hstep
    split at hstep
    · cases hstep
    · cases hstep
      unfold mqSendTake
      simp only
      split
      · exact h
      · exact h
  | send ok =>
    rw [mqStep] at hstep
    split at hstep
    · cases hstep
      unfold mqSendSend
      simp only
      split
      · unfold MqSend.ResendsFailed at h ⊢
        cases ok with
        | true => simp [h]
        | false => simp [h]
      · exact h
    · cases hstep

/-! ## Each text once -/

/-- The thread's copy is not taken for a text: it is not valid, or it is about to be replaced. -/
def MqSend.Covered (s : MqSend) : Prop :=
  s.sending = false → s.buf.valid = false ∨ (s.text s.p).valid = true

theorem balanced_put (h : s.Balanced) (text : List UInt8) : (mqSendPut text s).2.Balanced := by
  rcases mqSendPut_cases text s with ⟨hput, -⟩ | ⟨i, hi, hput⟩
  · rw [hput]
    exact h
  · rw [hput]
    show (s.accepted ++ [text]).Perm (s.passed ++ s.inHand ++ _)
    refine (List.perm_append_singleton text s.accepted).trans ((List.Perm.cons text h).trans ?_)
    refine List.perm_middle.symm.trans ?_
    exact (queued_put hi text).symm.append_left _

theorem covered_put (h : s.Covered) (text : List UInt8) : (mqSendPut text s).2.Covered := by
  rcases mqSendPut_cases text s with ⟨hput, -⟩ | ⟨i, hi, hput⟩
  · rw [hput]
    exact h
  · rw [hput]
    intro hs
    refine (h hs).imp_right fun hv => ?_
    show (Function.update s.text i _ s.p).valid = true
    rw [Function.update_apply]
    split
    · rfl
    · exact hv

theorem queued_take (h : (s.text s.p).valid = true) :
    s.queued.Perm ((s.text s.p).data :: (mqSendTake s).queued) := by
  have htake : (mqSendTake s).queued = (List.finRange MQ_SEND_NUM).filterMap
      (Function.update s.slots s.p none) := by
    rw [MqSend.queued, mqSendTake]
    simp only [h, if_true]
    rw [slots_put]
    rfl
  rw [htake]
  exact perm_filterMap_take (List.nodup_finRange _) (List.mem_finRange _) (content_of_valid h)

theorem balanced_take (h : s.Balanced) (hc : s.Covered) (hs : s.sending = false) :
    (mqSendTake s).Balanced := by
  have hhand : s.inHand = [] := by
    rw [MqSend.inHand, hs]
    rfl
  unfold MqSend.Balanced at h ⊢
  rw [hhand, List.append_nil] at h
  cases hv : (s.text s.p).valid with
  | true =>
    have hhand' : (mqSendTake s).inHand = [(s.text s.p).data] := by
      simp [MqSend.inHand, mqSendTake, MqText.content, hv]
    have hkept : (mqSendTake s).accepted = s.accepted ∧ (mqSendTake s).passed = s.passed := by
      simp [MqSend.passed, mqSendTake, hv]
    rw [hkept.1, hkept.2, hhand', List.append_assoc]
    exact h.trans ((queued_take hv).append_left _)
  | false =>
    have hbuf : s.buf.valid = false := (hc hs).resolve_right (by simp [hv])
    have htake : mqSendTake s = { s with p := nextPlace s.p, sending := true } := by
      simp [mqSendTake, hv]
    have hhand' : (mqSendTake s).inHand = [] := by
      rw [htake]
      simp [MqSend.inHand, MqText.content, hbuf]
    rw [hhand', htake, List.append_nil]
    exact h

theorem balanced_send (h : s.Balanced) (hs : s.sending = true) (ok : Bool) :
    (mqSendSend ok s).Balanced := by
  have hsame : (mqSendSend ok s).passed ++ (mqSendSend ok s).inHand = s.passed ++ s.inHand
      ∧ (mqSendSend ok s).accepted = s.accepted ∧ (mqSendSend ok s).queued = s.queued := by
    unfold mqSendSend
    simp only
    cases hv : s.buf.valid with
    | true => simp [MqSend.passed, MqSend.inHand, MqSend.queued, MqText.content, hs, hv]
    | false => simp [MqSend.passed, MqSend.inHand, MqSend.queued, MqText.content, hs, hv]
  unfold MqSend.Balanced at h ⊢
  rw [hsame.1, hsame.2.1, hsame.2.2]
  exact h

theorem balanced_step (h : s.Balanced ∧ s.Covered) (hstep : mqStep s op = some s') :
    s'.Balanced ∧ s'.Covered := by
  cases op with
  | put text =>
    cases hstep
    exact ⟨balanced_put h.1 text, covered_put h.2 text⟩
  | take =>
    rw [mqStep] at hstep
    split at hstep
    · cases hstep
    · rename_i hs
      cases hstep
      refine ⟨balanced_take h.1 h.2 (by simpa using hs), ?_⟩
      intro hs'
      cases hs'
  | send ok =>
    rw [mqStep] at hstep
    split at hstep
    · rename_i hs
      cases hstep
      refine ⟨balanced_send h.1 hs ok, ?_⟩
      intro _
      left
      unfold mqSendSend
      simp only
      split
      · rfl
      · rename_i hv
        simpa using hv
    · cases hstep

/-! ## Once round the slots -/

/-- What the next `k` slots of the thread hold. -/
def MqSend.ahead (s : MqSend) (k : Nat) : List (List UInt8) := (placesFrom s.p k).filterMap s.slots

theorem perm_ahead (s : MqSend) : s.queued.Perm (s.ahead MQ_SEND_NUM) :=
  ((perm_placesFrom s.p).filterMap _).symm

theorem ahead_put (text : List UInt8) (k : Nat) :
    (s.ahead k).Sublist ((mqSendPut text s).2.ahead k) := by
  rcases mqSendPut_cases text s with ⟨hput, -⟩ | ⟨i, hi, hput⟩
  · rw [hput]
  · rw [hput]
    show List.Sublist _ ((placesFrom s.p k).filterMap
      fun j => (Function.update s.text i ⟨text, true⟩ j).content)
    rw [slots_put]
    exact sublist_filterMap_put (content_of_not_valid hi) text

theorem passed_put (text : List UInt8) :
    (mqSendPut text s).2.passed = s.passed ∧ (mqSendPut text s).2.inHand = s.inHand := by
  rcases mqSendPut_cases text s with ⟨hput, -⟩ | ⟨i, -, hput⟩
  · rw [hput]
    exact ⟨rfl, rfl⟩
  · rw [hput]
    exact ⟨rfl, rfl⟩

theorem passed_take : (mqSendTake s).passed = s.passed := by
  unfold mqSendTake
  simp only
  split
  · rfl
  · rfl

/-- What the thread takes from its slot is in its hand, and nothing else has left the slots. -/
theorem ahead_take {k : Nat} (hk : k < MQ_SEND_NUM) :
    (s.ahead (k + 1)).Sublist ((mqSendTake s).inHand ++ (mqSendTake s).ahead k) := by
  have hne := not_mem_placesFrom_next (p := s.p) hk
  cases hv : (s.text s.p).valid with
  | true =>
    have hslot : s.slots s.p = some (s.text s.p).data := content_of_valid hv
    have hhand : (mqSendTake s).inHand = [(s.text s.p).data] := by
      simp [MqSend.inHand, mqSendTake, MqText.content, hv]
    have hahead : (mqSendTake s).ahead k = (placesFrom (nextPlace s.p) k).filterMap s.slots := by
      rw [← filterMap_update_of_not_mem hne none]
      unfold MqSend.ahead MqSend.slots mqSendTake
      simp only [hv, if_true]
      rw [slots_put]
      rfl
    rw [hhand, hahead, MqSend.ahead, placesFrom, List.filterMap_cons_some hslot]
    exact List.Sublist.refl _
  | false =>
    have htake : mqSendTake s = { s with p := nextPlace s.p, sending := true } := by
      simp [mqSendTake, hv]
    have hslot : s.slots s.p = none := content_of_not_valid hv
    rw [MqSend.ahead, placesFrom, List.filterMap_cons_none hslot, htake]
    exact List.sublist_append_right _ _

theorem passed_send (hs : s.sending = true) (ok : Bool) :
    (mqSendSend ok s).passed ++ (mqSendSend ok s).inHand = s.passed ++ s.inHand := by
  unfold mqSendSend
  simp only
  cases hv : s.buf.valid with
  | true => simp [MqSend.passed, MqSend.inHand, MqText.content, hs, hv]
  | false => simp [MqSend.passed, MqSend.inHand, MqText.content, hs, hv]

theorem ahead_send (ok : Bool) (k : Nat) : (mqSendSend ok s).ahead k = s.ahead k := by
  unfold mqSendSend
  simp only
  split
  · rfl
  · rfl

theorem takes_pass (ops : List MqOp) {k : Nat} (hk : k ≤ MQ_SEND_NUM) (htakes : k ≤ takes ops)
    (hrun : runFrom mqStep s ops = some s') :
    (s.passed ++ s.inHand ++ s.ahead k).Subperm (s'.passed ++ s'.inHand) := by
  induction ops generalizing s k with
  | nil =>
    cases hrun
    rw [Nat.le_zero.mp htakes]
    simp only [MqSend.ahead, placesFrom, List.filterMap_nil, List.append_nil]
    exact List.Subperm.refl _
  | cons op ops ih =>
    rw [runFrom_cons] at hrun
    cases op with
    | put text =>
      have hrest := ih hk (by simpa [takes] using htakes) hrun
      rw [(passed_put text).1, (passed_put text).2] at hrest
      exact ((ahead_put text k).append_left _).subperm.trans hrest
    | take =>
      rw [mqStep] at hrun
      split at hrun
      · cases hrun
      · rename_i hs
        have hhand : s.inHand = [] := by simp [MqSend.inHand, hs]
        rw [hhand, List.append_nil]
        cases k with
        | zero =>
          have hrest := ih (Nat.zero_le _) (Nat.zero_le _) hrun
          rw [passed_take] at hrest
          simp only [MqSend.ahead, placesFrom, List.filterMap_nil, List.append_nil] at hrest ⊢
          exact (List.sublist_append_left _ _).subperm.trans hrest
        | succ k =>
          have hrest := ih (Nat.le_of_succ_le hk) (by simpa [takes] using htakes) hrun
          rw [passed_take, List.append_assoc] at hrest
          exact ((ahead_take hk).append_left _).subperm.trans hrest
    | send ok =>
      rw [mqStep] at hrun
      split at hrun
      · rename_i hs
        have hrest := ih hk (by simpa [takes] using htakes) hrun
        rwa [passed_send hs, ahead_send] at hrest
      · cases hrun

/-- The queue delivers each accepted text exactly once exactly when the buffer of the thread is not
valid at its start or a text is put before the thread looks at the first slot. -/
theorem mq_delivers_iff (buf : MqText) (ops : List MqOp) :
    Delivers buf ops ↔ buf.valid = false ∨ ops.head? ≠ some .take := by
  constructor
  · intro h
    by_contra hnot
    obtain ⟨hbuf, hhead⟩ := not_or.mp hnot
    obtain ⟨rest, rfl⟩ : ∃ rest, ops = .take :: rest := by
      cases ops with
      | nil => simp at hhead
      | cons op rest => exact ⟨rest, by simpa using hhead⟩
    have hbalanced : (mqSendTake { buf }).Balanced := h.once.1 _ rfl
    simp [MqSend.Balanced, mqSendTake, MqSend.passed, MqSend.inHand, MqSend.queued,
      MqText.content, hbuf] at hbalanced
  · intro h
    refine ⟨?_, ?_, ?_, ?_⟩
    · have hrun : ∀ (ops : List MqOp) (s : MqSend), s.Balanced ∧ s.Covered →
          Along mqStep (After mqStep MqSend.Balanced) s ops := by
        intro ops s hs
        exact along_true.of_invariant hs (fun _ _ _ h _ hstep => balanced_step h hstep)
          fun _ _ h _ s' hstep => (balanced_step h hstep).1
      have hinit : ({ buf } : MqSend).Balanced := by
        simp [MqSend.Balanced, MqSend.passed, MqSend.inHand, MqSend.queued, MqText.content]
      rcases h with hbuf | hhead
      · exact hrun ops _ ⟨hinit, fun _ => .inl hbuf⟩
      · cases ops with
        | nil => exact along_nil
        | cons op ops =>
          cases op with
          | take => exact absurd rfl hhead
          | send ok =>
            refine ⟨fun s' hs => ?_, fun s' hs => ?_⟩
            · cases hs
            · cases hs
          | put text =>
            -- the first text goes into the slot at which the thread will look first
            refine ⟨fun s' hs => ?_, fun s' hs => ?_⟩
            · cases hs
              exact balanced_put hinit text
            · cases hs
              exact hrun ops _ ⟨balanced_put hinit text, fun _ => .inr rfl⟩
    · have hinit : ({ buf } : MqSend).ResendsFailed := rfl
      exact along_true.of_invariant hinit (fun _ _ _ h _ hstep => resendsFailed_step h hstep)
        fun _ _ h _ s' hstep => resendsFailed_step h hstep
    · exact along_true.mono fun s op _ => refusesWhenFull s op
    · rintro xs ys s s' - - hrun htakes
      have hpass := takes_pass ys (Nat.le_refl _) htakes hrun
      exact ((perm_ahead s).append_left _).subperm.trans hpass

/-- What happens to be in the buffer is sent. -/
theorem mq_not_delivers_garbage : ¬ Delivers ⟨[], true⟩ [.take] := by
  intro h
  have hbalanced : (mqSendTake { buf := ⟨[], true⟩ }).Balanced := h.once.1 _ rfl
  exact absurd hbalanced.length_eq (by decide)

end VdCamera.Platform
