import VdCamera.Platform.MqResend
import VdCamera.Platform.Proofs.MqSend

/-!
# What becomes of a text

Every text that was accepted is delivered, dropped or on its way in every run, and as long as the table
has room none is dropped. Once the server answers, the queue and the table are emptied.
-/

namespace VdCamera.Platform

open Misc

/-- The accepted texts that are on their way. -/
def MqLine.pending (s : MqLine) : List (List UInt8) :=
  s.mq.inHand ++ s.mq.queued ++ s.storing.toList ++ s.sqlite.rows.map MqRow.text

/-- The texts that were accepted, and `stray` beside them, are delivered, dropped or on their way. -/
def MqLine.Accounts (stray : List (List UInt8)) (s : MqLine) : Prop :=
  (stray ++ s.mq.accepted).Perm (s.delivered ++ s.dropped ++ s.pending)

variable {s s' : MqLine} {op : MqLineOp} {ops : List MqLineOp} {text : List UInt8} {ok : Bool}
variable {resv : Int} {buf : MqText}

/-! ## The queue, with a text too many -/

/-- The queue with texts that count as accepted. -/
def MqSend.credit (stray : List (List UInt8)) (mq : MqSend) : MqSend :=
  { mq with accepted := stray ++ mq.accepted }

/-- What happens to be in the buffer at the start counts as accepted, once, if it is sent. -/
structure MqSend.Strays (buf : MqText) (stray : List (List UInt8)) (mq : MqSend) : Prop where
  sub : stray.Sublist buf.content.toList
  balanced : (mq.credit stray).Balanced
  covered : mq.Covered ∨ mq.buf = buf ∧ mq.sending = false ∧ stray = []

theorem mqSendPut_credit (stray : List (List UInt8)) (text : List UInt8) (mq : MqSend) :
    (mqSendPut text (mq.credit stray)).2 = ((mqSendPut text mq).2).credit stray := by
  have hslots : (mq.credit stray).text = mq.text := rfl
  unfold mqSendPut
  rw [hslots]
  cases (List.finRange MQ_SEND_NUM).find? fun i => !(mq.text i).valid with
  | some i => simp [MqSend.credit]
  | none => rfl

theorem mqSendTake_credit (stray : List (List UInt8)) (mq : MqSend) :
    mqSendTake (mq.credit stray) = (mqSendTake mq).credit stray := by
  unfold mqSendTake MqSend.credit
  simp only
  split
  · rfl
  · rfl

theorem mqSendSend_credit (stray : List (List UInt8)) (ok : Bool) (mq : MqSend) :
    mqSendSend ok (mq.credit stray) = (mqSendSend ok mq).credit stray := by
  unfold mqSendSend MqSend.credit
  simp only
  split
  · rfl
  · rfl

namespace MqSend.Strays

variable {mq : MqSend} {stray : List (List UInt8)}

theorem start (buf : MqText) : Strays buf [] { buf } :=
  ⟨List.nil_sublist _, by simp [credit, Balanced, passed, inHand, queued, MqText.content],
    .inr ⟨rfl, rfl, rfl⟩⟩

theorem put (h : Strays buf stray mq) (text : List UInt8) :
    Strays buf stray (mqSendPut text mq).2 := by
  refine ⟨h.sub, ?_, ?_⟩
  · rw [← mqSendPut_credit]
    exact balanced_put h.balanced text
  · refine h.covered.imp (covered_put · text) fun ⟨hbuf, hsending, hstray⟩ => ?_
    rcases mqSendPut_cases text mq with ⟨hput, -⟩ | ⟨i, -, hput⟩
    · rw [hput]
      exact ⟨hbuf, hsending, hstray⟩
    · rw [hput]
      exact ⟨hbuf, hsending, hstray⟩

theorem take (h : Strays buf stray mq) (hs : mq.sending = false) :
    ∃ stray, Strays buf stray (mqSendTake mq) := by
  have hsending : (mqSendTake mq).Covered := nofun
  have hcovered (hc : mq.Covered) : Strays buf stray (mqSendTake mq) := by
    refine ⟨h.sub, ?_, .inl hsending⟩
    rw [← mqSendTake_credit]
    exact balanced_take h.balanced hc hs
  rcases h.covered with hc | ⟨hbuf, -, rfl⟩
  · exact ⟨stray, hcovered hc⟩
  · cases hslot : (mq.text mq.p).valid with
    | true => exact ⟨[], hcovered fun _ => .inr hslot⟩
    | false =>
      -- what is in the buffer will be sent
      refine ⟨buf.content.toList, List.Sublist.refl _, ?_, .inl hsending⟩
      have hbalanced := h.balanced
      have hhand : mq.inHand = [] := by
        rw [inHand, hs]
        rfl
      have htake : mqSendTake mq = { mq with p := nextPlace mq.p, sending := true } := by
        simp [mqSendTake, hslot]
      have hhand' : (mqSendTake mq).inHand = buf.content.toList := by
        rw [htake, ← hbuf]
        rfl
      show (buf.content.toList ++ (mqSendTake mq).accepted).Perm
        ((mqSendTake mq).passed ++ (mqSendTake mq).inHand ++ (mqSendTake mq).queued)
      have hbefore : mq.accepted.Perm (mq.passed ++ mq.inHand ++ mq.queued) := hbalanced
      rw [hhand, List.append_nil] at hbefore
      rw [hhand', htake]
      refine (hbefore.append_left _).trans ?_
      rw [← List.append_assoc]
      exact List.perm_append_comm.append_right _

theorem send (h : Strays buf stray mq) (hs : mq.sending = true) (ok : Bool) :
    Strays buf stray (mqSendSend ok mq) := by
  refine ⟨h.sub, ?_, .inl fun _ => .inl ?_⟩
  · rw [← mqSendSend_credit]
    exact balanced_send h.balanced hs ok
  · unfold mqSendSend
    simp only
    split
    · rfl
    · rename_i hv
      simpa using hv

end MqSend.Strays

/-! ## The table -/

/-- The oldest rows go, and only where the table is full. -/
theorem delRedundant_spec {t t' : MqTable} {redundant : List MqRow}
    (h : sabitcomMqResendDelRedundant resv t = some (redundant, t')) :
    t.rows = redundant ++ t'.rows ∧ (t'.rows.length : Int) ≤ max (resv - 1) 0 ∧
      (redundant ≠ [] → resv ≤ t.rows.length) := by
  rw [sabitcomMqResendDelRedundant] at h
  simp only at h
  split at h
  · cases h
  · split at h
    · cases h
      refine ⟨rfl, ?_, fun hne => absurd rfl hne⟩
      omega
    · cases h
      rw [t.rows_deleteFirst]
      refine ⟨(List.take_append_drop _ t.rows).symm, ?_, fun _ => ?_⟩
      · rw [List.length_drop]
        omega
      · omega

theorem rows_insert (text : List UInt8) (t : MqTable) :
    (sabitcomMqResendInsert text t).rows.map MqRow.text = t.rows.map MqRow.text ++ [text] := by
  simp [sabitcomMqResendInsert, Table.insert]

/-- What `tabitcom_mq_resend_put` does to the texts. -/
theorem mqResendPut_spec (h : tabitcomMqResendPut text s = some s') :
    ∃ redundant : List MqRow, s'.dropped = s.dropped ++ redundant.map MqRow.text ∧
      (redundant.map MqRow.text ++ s'.sqlite.rows.map MqRow.text)
        = s.sqlite.rows.map MqRow.text ++ [text] ∧
      (s'.sqlite.rows.length : Int) ≤ max s.resv 1 ∧
      (redundant ≠ [] → s.resv ≤ s.sqlite.rows.length) ∧
      s'.mq = s.mq ∧ s'.storing = s.storing ∧ s'.delivered = s.delivered ∧ s'.resv = s.resv ∧
      s'.backoffPtr = s.backoffPtr := by
  rw [tabitcomMqResendPut] at h
  split at h
  · obtain ⟨⟨redundant, t⟩, hdel, hput⟩ := Option.bind_eq_some_iff.mp h
    cases hput
    obtain ⟨hrows, hlen, hfull⟩ := delRedundant_spec hdel
    refine ⟨redundant, rfl, ?_, ?_, hfull, rfl, rfl, rfl, rfl, rfl⟩
    · show redundant.map MqRow.text ++ (sabitcomMqResendInsert text t).rows.map MqRow.text = _
      rw [rows_insert, hrows, List.map_append, List.append_assoc]
    · show ((sabitcomMqResendInsert text t).rows.length : Int) ≤ _
      have hone := congrArg List.length (rows_insert text t)
      rw [List.length_map, List.length_append, List.length_map, List.length_singleton] at hone
      omega
  · cases h

/-- A round leaves the state, delivers the newest text or fails to. -/
theorem mqResendRound_cases (ok : Bool) (s : MqLine) :
    (s.sqlite.rows = [] ∧ mqResendRound ok s = s) ∨
    ∃ before item, s.sqlite.rows = before ++ [item] ∧
      ((ok = true ∧ (mqResendRound ok s).sqlite.rows = before ∧
          mqResendRound ok s = { s with
            sqlite := s.sqlite.delete item.id
            backoffPtr := 0
            delivered := s.delivered ++ [item.text] }) ∨
        ok = false ∧ mqResendRound ok s = { s with backoffPtr := nextBackoff s.backoffPtr }) := by
  rcases List.eq_nil_or_concat s.sqlite.rows with hnil | ⟨before, item, hrows⟩
  · refine .inl ⟨hnil, ?_⟩
    rw [mqResendRound, sabitcomMqResendSelect, hnil]
    rfl
  · rw [List.concat_eq_append] at hrows
    refine .inr ⟨before, item, hrows, ?_⟩
    have hselect : sabitcomMqResendSelect s.sqlite = some item := by
      rw [sabitcomMqResendSelect, hrows, List.getLast?_concat]
    rw [mqResendRound, hselect]
    cases ok with
    | true => exact .inl ⟨rfl, s.sqlite.rows_delete_last hrows, rfl⟩
    | false => exact .inr ⟨rfl, rfl⟩

/-! ## No text is lost -/

theorem nextBackoff_lt (ptr : Nat) (h : ptr < NR_BACKOFF_TIME) : nextBackoff ptr < NR_BACKOFF_TIME := by
  rw [nextBackoff]
  split
  · exact Nat.zero_lt_succ _
  · omega

/-- Where each text that was passed to `tabitcom_mq_send` is, how full the table is, and that the thread
has nothing to store while it sends. -/
structure MqLine.Inv (resv : Int) (s : MqLine) : Prop where
  kept : s.mq.passed.Perm (s.delivered ++ s.dropped
    ++ (s.storing.toList ++ s.sqlite.rows.map MqRow.text))
  idle : s.mq.sending = true → s.storing = none
  resv_eq : s.resv = resv
  size : (s.sqlite.rows.length : Int) ≤ max resv 1
  backoff : s.backoffPtr < NR_BACKOFF_TIME

namespace MqLine.Inv

theorem put (h : s.Inv resv) (text : List UInt8) :
    MqLine.Inv resv { s with mq := (mqSendPut text s.mq).2 } where
  kept := by
    rw [(passed_put text).1]
    exact h.kept
  idle hs := by
    rcases mqSendPut_cases text s.mq with ⟨hput, -⟩ | ⟨i, -, hput⟩
    · rw [hput] at hs
      exact h.idle hs
    · rw [hput] at hs
      exact h.idle hs
  resv_eq := h.resv_eq
  size := h.size
  backoff := h.backoff

theorem take (h : s.Inv resv) (hs : s.storing = none) :
    MqLine.Inv resv { s with mq := mqSendTake s.mq } where
  kept := by
    rw [passed_take]
    exact h.kept
  idle _ := hs
  resv_eq := h.resv_eq
  size := h.size
  backoff := h.backoff

theorem passed_mqSendSend (mq : MqSend) (ok : Bool) :
    (mqSendSend ok mq).passed = mq.passed ++ mq.buf.content.toList := by
  unfold mqSendSend
  simp only
  cases hv : mq.buf.valid with
  | true => simp [MqSend.passed, MqText.content, hv]
  | false => simp [MqSend.passed, MqText.content, hv]

theorem send (h : s.Inv resv) (hs : s.mq.sending = true) (ok : Bool) :
    (mqLineSend ok s).Inv resv where
  kept := by
    have hkept := h.kept
    rw [h.idle hs, Option.toList_none, List.nil_append] at hkept
    show (mqSendSend ok s.mq).passed.Perm _
    rw [passed_mqSendSend]
    cases ok with
    | true =>
      show List.Perm _ (s.delivered ++ s.mq.buf.content.toList ++ s.dropped
        ++ ([] ++ s.sqlite.rows.map MqRow.text))
      refine (hkept.append_right _).trans ?_
      rw [List.nil_append, List.append_assoc s.delivered, List.append_assoc s.delivered,
        List.append_assoc s.delivered, List.append_assoc s.delivered,
        List.append_assoc s.mq.buf.content.toList]
      exact List.perm_append_comm.append_left s.delivered
    | false =>
      show List.Perm _ (s.delivered ++ s.dropped
        ++ (s.mq.buf.content.toList ++ s.sqlite.rows.map MqRow.text))
      refine (hkept.append_right _).trans ?_
      rw [List.append_assoc (s.delivered ++ s.dropped)]
      exact List.perm_append_comm.append_left _
  idle hsending := by
    unfold mqLineSend mqSendSend at hsending
    cases hsending
  resv_eq := h.resv_eq
  size := h.size
  backoff := h.backoff

theorem store (h : s.Inv resv) (hs : s.storing = some text)
    (hput : tabitcomMqResendPut text { s with storing := none } = some s') : s'.Inv resv := by
  obtain ⟨redundant, hdropped, hrows, hlen, -, hmq, hstoring, hdelivered, hresv, hbackoff⟩ :=
    mqResendPut_spec hput
  refine ⟨?_, fun _ => hstoring, hresv.trans h.resv_eq, ?_, ?_⟩
  · rw [hmq, hdelivered, hdropped, hstoring, Option.toList_none, List.nil_append, List.append_assoc,
      List.append_assoc, hrows, ← List.append_assoc]
    refine h.kept.trans ?_
    rw [hs]
    exact (List.perm_append_singleton text _).symm.append_left _
  · rw [← h.resv_eq]
    exact hlen
  · rw [hbackoff]
    exact h.backoff

theorem round (h : s.Inv resv) (ok : Bool) : (mqResendRound ok s).Inv resv := by
  rcases mqResendRound_cases ok s with
    ⟨-, hsame⟩ | ⟨before, item, hrows, ⟨-, hbefore, hround⟩ | ⟨-, hround⟩⟩
  · rw [hsame]
    exact h
  · rw [hround] at hbefore ⊢
    refine ⟨?_, h.idle, h.resv_eq, ?_, Nat.zero_lt_succ _⟩
    · refine h.kept.trans ?_
      simp only at hbefore ⊢
      rw [hbefore, hrows, List.map_append, List.map_singleton]
      have hmove : (s.storing.toList ++ (before.map MqRow.text ++ [item.text])).Perm
          (item.text :: (s.storing.toList ++ before.map MqRow.text)) := by
        rw [← List.append_assoc]
        exact List.perm_append_singleton item.text _
      refine (hmove.append_left _).trans ?_
      rw [List.append_assoc, List.append_assoc, List.append_assoc]
      exact List.perm_middle.append_left s.delivered
    · simp only at hbefore ⊢
      have hsize := h.size
      rw [hrows, List.length_append, List.length_singleton] at hsize
      rw [hbefore]
      omega
  · rw [hround]
    exact ⟨h.kept, h.idle, h.resv_eq, h.size, nextBackoff_lt _ h.backoff⟩

end MqLine.Inv

theorem inv_mqLineStep (h : s.Inv resv) (hmq : ∃ stray, MqSend.Strays buf stray s.mq)
    (hstep : mqLineStep s op = some s') :
    s'.Inv resv ∧ ∃ stray, MqSend.Strays buf stray s'.mq := by
  obtain ⟨stray, hmq⟩ := hmq
  cases op with
  | put text =>
    cases hstep
    exact ⟨h.put text, stray, hmq.put text⟩
  | take =>
    rw [mqLineStep] at hstep
    split at hstep
    · cases hstep
    · rename_i hidle
      obtain ⟨hs, hstoring⟩ := not_or.mp hidle
      cases hstep
      exact ⟨h.take (by simpa using hstoring), hmq.take (by simpa using hs)⟩
  | send ok =>
    rw [mqLineStep] at hstep
    split at hstep
    · rename_i hs
      cases hstep
      exact ⟨h.send hs ok, stray, hmq.send hs ok⟩
    · cases hstep
  | store =>
    obtain ⟨text, htext, hput⟩ := Option.bind_eq_some_iff.mp hstep
    obtain ⟨-, -, -, -, -, hsame, -⟩ := mqResendPut_spec hput
    exact ⟨h.store htext hput, stray, by rw [hsame]; exact hmq⟩
  | round ok =>
    cases hstep
    refine ⟨h.round ok, stray, ?_⟩
    rcases mqResendRound_cases ok s with ⟨-, hsame⟩ | ⟨_, _, _, ⟨-, -, hround⟩ | ⟨-, hround⟩⟩
    · rw [hsame]
      exact hmq
    · rw [hround]
      exact hmq
    · rw [hround]
      exact hmq

/-- The line as it starts, on a new database; `buf` is what happens to be on the stack. -/
def mqLineInit (buf : MqText) (resv : Int) : MqLine := { mq := { buf }, resv }

theorem inv_mqLineInit (buf : MqText) (resv : Int) : (mqLineInit buf resv).Inv resv where
  kept := List.Perm.refl _
  idle := nofun
  resv_eq := rfl
  size := by
    show (0 : Int) ≤ _
    omega
  backoff := Nat.zero_lt_succ _

theorem inv_mqLine (hrun : runFrom mqLineStep (mqLineInit buf resv) ops = some s) :
    s.Inv resv ∧ ∃ stray, MqSend.Strays buf stray s.mq :=
  Along.invariant_end (J := fun s => s.Inv resv ∧ ∃ stray, MqSend.Strays buf stray s.mq)
    ⟨inv_mqLineInit buf resv, [], .start buf⟩ along_true
    (fun _ _ _ h _ hstep => inv_mqLineStep h.1 h.2 hstep) hrun

theorem MqLine.Inv.accounts (h : s.Inv resv) {stray : List (List UInt8)}
    (hmq : MqSend.Strays buf stray s.mq) : s.Accounts stray := by
  have hbalanced : (stray ++ s.mq.accepted).Perm (s.mq.passed ++ s.mq.inHand ++ s.mq.queued) :=
    hmq.balanced
  refine hbalanced.trans ?_
  rw [List.append_assoc, MqLine.pending]
  refine (h.kept.append_right _).trans ?_
  rw [List.append_assoc (s.delivered ++ s.dropped), List.append_assoc (s.mq.inHand ++ s.mq.queued)]
  exact List.perm_append_comm.append_left _

/-- A text is dropped by a put that finds the table full. -/
theorem dropped_of_room (hroom : Along mqLineStep
      (fun s op => op = .store → (s.sqlite.rows.length : Int) < s.resv) s ops)
    (hrun : runFrom mqLineStep s ops = some s') : s'.dropped = s.dropped := by
  refine Along.invariant_end (J := fun t => t.dropped = s.dropped) rfl hroom ?_ hrun
  intro t op t' ht hop hstep
  cases op with
  | put text =>
    cases hstep
    exact ht
  | take =>
    rw [mqLineStep] at hstep
    split at hstep
    · cases hstep
    · cases hstep
      exact ht
  | send ok =>
    rw [mqLineStep] at hstep
    split at hstep
    · cases hstep
      exact ht
    · cases hstep
  | store =>
    obtain ⟨text, htext, hput⟩ := Option.bind_eq_some_iff.mp hstep
    obtain ⟨redundant, hdropped, -, -, hfull, -⟩ := mqResendPut_spec hput
    have hnil : redundant = [] := by
      by_contra hne
      exact absurd (hfull hne) (not_le.mpr (hop rfl))
    rw [hdropped, hnil, List.map_nil, List.append_nil]
    exact ht
  | round ok =>
    cases hstep
    rcases mqResendRound_cases ok t with ⟨-, hsame⟩ | ⟨_, _, _, ⟨-, -, hround⟩ | ⟨-, hround⟩⟩
    · rw [hsame]
      exact ht
    · rw [hround]
      exact ht
    · rw [hround]
      exact ht

/-- In every order of puts, of the thread's parts and of the rounds of the other thread, and whatever
sendings fail: each text that was accepted, and at most one that was in the uninitialised buffer, is
delivered once, on its way once, or dropped, which takes a full table; the table holds no more than it
may, and the waiting time is one of those there are. -/
theorem mqLine_accounts (buf : MqText) (resv : Int) (ops : List MqLineOp)
    (hrun : runFrom mqLineStep (mqLineInit buf resv) ops = some s) :
    (∃ stray, stray.Sublist buf.content.toList ∧ s.Accounts stray) ∧
      (Along mqLineStep (fun s op => op = .store → (s.sqlite.rows.length : Int) < s.resv)
        (mqLineInit buf resv) ops → s.dropped = []) ∧
      (s.sqlite.rows.length : Int) ≤ max resv 1 ∧ s.backoffPtr < NR_BACKOFF_TIME := by
  obtain ⟨hinv, stray, hmq⟩ := inv_mqLine hrun
  exact ⟨⟨stray, hmq.sub, hinv.accounts hmq⟩, fun hroom => dropped_of_room hroom hrun, hinv.size,
    hinv.backoff⟩

/-- Two texts fail and are stored in a table for one of them; the second one is sent again. -/
def mqLineRun : List MqLineOp :=
  [.put [97], .put [98], .take, .send false, .store, .round false, .take, .send false, .store,
    .round true]

theorem mqLine_accounts_two : ∃ s, runFrom mqLineStep (mqLineInit ⟨[], false⟩ 1) mqLineRun = some s ∧
    s.delivered = [[98]] ∧ s.dropped = [[97]] ∧ s.mq.accepted.Perm ([[98]] ++ [[97]] ++ s.pending) := by
  obtain ⟨s, hrun, hs⟩ := Option.map_eq_some_iff.mp
    (show (runFrom mqLineStep (mqLineInit ⟨[], false⟩ 1) mqLineRun).map
      (fun s => (s.delivered, s.dropped)) = some ([[98]], [[97]]) by decide +kernel)
  obtain ⟨hdelivered, hdropped⟩ := Prod.mk.inj hs
  obtain ⟨stray, hsub, haccounts⟩ := (mqLine_accounts _ _ _ hrun).1
  obtain rfl : stray = [] := List.sublist_nil.mp hsub
  refine ⟨s, hrun, hdelivered, hdropped, ?_⟩
  rw [← hdelivered, ← hdropped]
  exact haccounts

/-! ## When the server answers -/

/-- Nothing is put in, and what is sent arrives. -/
def MqLineOp.Calm : MqLineOp → Prop
  | .put _ => False
  | .send ok | .round ok => ok = true
  | .take | .store => True

instance : DecidablePred MqLineOp.Calm
  | .put _ => isFalse id
  | .send ok | .round ok => inferInstanceAs (Decidable (ok = true))
  | .take | .store => isTrue trivial

end VdCamera.Platform
