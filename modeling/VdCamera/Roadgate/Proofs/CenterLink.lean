import VdCamera.Roadgate.CenterLink
import Mathlib.Data.List.Nodup

/-!
# When the platform's commands reach the road gate

The words of `gstr_bitcom_pro.roadgate` are a mailbox of one slot. Each word is written once and
taken once for every command as long as no word is written before its last value was taken and none
is taken before it is written; then the controls are enqueued one a command, in order and unmixed.
-/

namespace VdCamera.Roadgate

open Misc

/-- The word that the status thread reads next. -/
def StatusPlace.reads : StatusPlace → Option LinkWord
  | .readAction => some .barriergate
  | .readMode _ => some .bgmode
  | .readTimeout _ _ => some .bgkeeptime
  | _ => none

/-- The status thread is about to make a control. -/
def StatusPlace.creates : StatusPlace → Bool
  | .newCtrl _ _ _ => true
  | _ => false

/-- The platform writes a word only when its last value was taken, the status thread reads one only
when it has been written since, and memory can be allocated for a control. -/
def Link.InTurn (s : Link) : LinkStep → Prop
  | .receive _ => True
  | .copy w => s.fresh w = false
  | .status allocOk =>
    (∀ w ∈ s.place.reads, s.fresh w = true) ∧ (s.place.creates = true → allocOk = true)

/-- The controls are those of the commands received, in order; when no copy is under way, the flag
is cleared and the status thread polls, those of all of them. -/
def Link.InOrder (s : Link) : Prop :=
  s.enqueued.map some <+: s.received.map GateCmd.ctrl ∧
    (s.pending = [] → s.place = .poll → s.mem .validFlag = 0 →
      s.enqueued.map some = s.received.map GateCmd.ctrl)

instance (s : Link) : ∀ i, Decidable (s.InTurn i)
  | .receive _ => isTrue trivial
  | .copy w => inferInstanceAs (Decidable (s.fresh w = false))
  | .status allocOk => inferInstanceAs (Decidable
      ((∀ w ∈ s.place.reads, s.fresh w = true) ∧ (s.place.creates = true → allocOk = true)))

instance (s : Link) : Decidable s.InOrder :=
  inferInstanceAs (Decidable (s.enqueued.map some <+: s.received.map GateCmd.ctrl ∧
    (s.pending = [] → s.place = .poll → s.mem .validFlag = 0 →
      s.enqueued.map some = s.received.map GateCmd.ctrl)))

/-- How often a word has been taken in the round under way. -/
def StatusPlace.taken : StatusPlace → LinkWord → Nat
  | .poll, _ | .clear, _ => 0
  | .readAction, w => if w = .validFlag then 1 else 0
  | .readMode _, w => if w = .validFlag ∨ w = .barriergate then 1 else 0
  | .readTimeout _ _, w => if w = .bgkeeptime then 0 else 1
  | .newCtrl _ _ _, _ => 1

/-- What the status thread has read are words of the command. -/
def StatusPlace.Of (cmd : Option GateCmd) : StatusPlace → Prop
  | .readMode action => ∃ c, cmd = some c ∧ action = c.barriergate
  | .readTimeout action mode => ∃ c, cmd = some c ∧ action = c.barriergate ∧ mode = c.bgmode
  | .newCtrl action mode keeptime =>
    ∃ c, cmd = some c ∧ action = c.barriergate ∧ mode = c.bgmode ∧ keeptime = c.bgkeeptime
  | _ => True

/-- The invariant of the runs whose steps are in turn. Every word has been written for each command
received but the last one while it is pending, and taken for each one enqueued and in the round
under way. -/
structure Link.Inv (s : Link) : Prop where
  enqueued : s.enqueued.map some = (s.received.take s.enqueued.length).map GateCmd.ctrl
  counts : ∀ w, s.received.length = s.enqueued.length + s.place.taken w +
    (s.fresh w).toNat + (if w ∈ s.pending then 1 else 0)
  nodup : s.pending.Nodup
  values : ∀ w, s.fresh w = true →
    ∃ c, s.received[s.enqueued.length + s.place.taken w]? = some c ∧ s.mem w = c.word w
  flag : s.mem .validFlag = (s.fresh .validFlag).toNat
  clear : s.place = .clear → s.fresh .validFlag = true
  place : s.place.Of s.received[s.enqueued.length]?

variable {s s' : Link} {w : LinkWord} {i : LinkStep} {cmd : GateCmd}

/-- A valid command stands for a control. -/
theorem ctrl_isSome (cmd : GateCmd) : ∃ c, cmd.ctrl = some c := by
  obtain ⟨hg1, hg7⟩ := cmd.gate_valid
  obtain ⟨hm1, hm4⟩ := cmd.mode_valid
  have haction : ∃ a, actionTab cmd.barriergate = some a := by
    obtain h | h | h | h | h | h : cmd.barriergate = 1 ∨ cmd.barriergate = 2 ∨ cmd.barriergate = 3 ∨
        cmd.barriergate = 4 ∨ cmd.barriergate = 5 ∨ cmd.barriergate = 6 := by omega
    all_goals exact ⟨_, by rw [h]; rfl⟩
  have htype : ∃ t, typeTab cmd.bgmode = some t := by
    obtain h | h | h : cmd.bgmode = 1 ∨ cmd.bgmode = 2 ∨ cmd.bgmode = 3 := by omega
    all_goals exact ⟨_, by rw [h]; rfl⟩
  obtain ⟨a, ha⟩ := haction
  obtain ⟨t, ht⟩ := htype
  rw [GateCmd.ctrl, newCtrl, ha, ht]
  exact ⟨_, rfl⟩

theorem Link.Inv.le (h : s.Inv) : s.enqueued.length ≤ s.received.length := by
  have hcount := h.counts .validFlag
  omega

/-- The flag says whether it is fresh. -/
theorem Link.Inv.fresh_flag {b : Bool} (h : s.Inv) (hb : s.mem .validFlag = b.toNat) :
    s.fresh .validFlag = b := by
  have heq : ((s.fresh .validFlag).toNat : Int) = b.toNat := h.flag.symm.trans hb
  cases b <;> cases hf : s.fresh .validFlag <;> simp_all

theorem Link.Inv.inOrder (h : s.Inv) : s.InOrder := by
  refine ⟨?_, ?_⟩
  · rw [h.enqueued]
    exact (List.take_prefix _ _).map _
  · intro hpending hplace hflag
    have hcount := h.counts .validFlag
    have hfresh : s.fresh .validFlag = false := h.fresh_flag hflag
    rw [hplace, hfresh, hpending, if_neg List.not_mem_nil] at hcount
    have hlen : s.received.length ≤ s.enqueued.length := Nat.le_of_eq hcount
    rw [h.enqueued, List.take_of_length_le hlen]

/-- A command arrives. -/
theorem Link.Inv.receive (h : s.Inv) (hpending : s.pending = []) :
    Inv { s with
      received := s.received ++ [cmd]
      pending := [.validFlag, .barriergate, .bgkeeptime, .bgmode] } := by
  have hkeep : ∀ {k : Nat} {c : GateCmd}, s.received[k]? = some c →
      (s.received ++ [cmd])[k]? = some c := by
    intro k c hk
    rw [List.getElem?_append_left (List.getElem?_eq_some_iff.mp hk).1]
    exact hk
  refine ⟨?_, ?_, ?_, ?_, h.flag, h.clear, ?_⟩
  · dsimp only
    rw [List.take_append_of_le_length h.le]
    exact h.enqueued
  · intro w
    have hcount := h.counts w
    rw [hpending] at hcount
    have hmem : w ∈ [LinkWord.validFlag, .barriergate, .bgkeeptime, .bgmode] := by
      cases w <;> decide
    rw [if_neg List.not_mem_nil] at hcount
    simp only [List.length_append, List.length_cons, List.length_nil, if_pos hmem]
    omega
  · change [LinkWord.validFlag, .barriergate, .bgkeeptime, .bgmode].Nodup
    decide
  · intro w hw
    obtain ⟨c, hc, hval⟩ := h.values w hw
    exact ⟨c, hkeep hc, hval⟩
  · have hplace := h.place
    cases hp : s.place with
    | readMode a =>
      rw [hp] at hplace
      obtain ⟨c, hc, hread⟩ := hplace
      exact ⟨c, hkeep hc, hread⟩
    | readTimeout a m =>
      rw [hp] at hplace
      obtain ⟨c, hc, hread⟩ := hplace
      exact ⟨c, hkeep hc, hread⟩
    | newCtrl a m k =>
      rw [hp] at hplace
      obtain ⟨c, hc, hread⟩ := hplace
      exact ⟨c, hkeep hc, hread⟩
    | poll => trivial
    | clear => trivial
    | readAction => trivial

/-- A word of the last command is written. -/
theorem Link.Inv.copy (h : s.Inv) (hlast : s.received.getLast? = some cmd) (hw : w ∈ s.pending)
    (hfresh : s.fresh w = false) :
    Inv { s with
      mem := Function.update s.mem w (cmd.word w)
      fresh := Function.update s.fresh w true
      pending := s.pending.erase w } := by
  have hcount := h.counts w
  rw [hfresh, if_pos hw] at hcount
  refine ⟨h.enqueued, ?_, h.nodup.erase w, ?_, ?_, ?_, h.place⟩
  · intro w'
    by_cases hww : w' = w
    · subst hww
      dsimp only
      rw [Function.update_self, if_neg (List.Nodup.not_mem_erase h.nodup)]
      exact hcount
    · dsimp only
      rw [Function.update_of_ne hww]
      simp only [List.mem_erase_of_ne hww]
      exact h.counts w'
  · intro w' hw'
    by_cases hww : w' = w
    · subst hww
      refine ⟨cmd, ?_, Function.update_self _ _ _⟩
      rw [List.getLast?_eq_getElem?] at hlast
      dsimp only
      rw [← hlast]
      congr 1
      rw [Bool.toNat_false] at hcount
      omega
    · dsimp only at hw' ⊢
      rw [Function.update_of_ne hww] at hw' ⊢
      exact h.values w' hw'
  · dsimp only
    by_cases hww : .validFlag = w
    · subst hww
      rw [Function.update_self, Function.update_self]
      rfl
    · rw [Function.update_of_ne hww, Function.update_of_ne hww]
      exact h.flag
  · intro hclear
    by_cases hww : .validFlag = w
    · subst hww
      dsimp only
      rw [Function.update_self]
    · dsimp only
      rw [Function.update_of_ne hww]
      exact h.clear hclear

/-- The status thread takes a fresh word. -/
theorem Link.Inv.take {mem : LinkWord → Int} {place : StatusPlace} (h : s.Inv)
    (hfresh : s.fresh w = true) (htaken : ∀ w', place.taken w' =
      s.place.taken w' + if w' = w then 1 else 0)
    (hmem : ∀ w', w' ≠ w → mem w' = s.mem w')
    (hflag : mem .validFlag = (Function.update s.fresh w false .validFlag).toNat)
    (hclear : place ≠ .clear) (hplace : place.Of s.received[s.enqueued.length]?) :
    Inv (Link.take { s with mem } w place) := by
  refine ⟨h.enqueued, ?_, h.nodup, ?_, hflag, fun hp => absurd hp hclear, hplace⟩
  · intro w'
    have hcount := h.counts w'
    change s.received.length = s.enqueued.length + place.taken w' +
      (Function.update s.fresh w false w').toNat + (if w' ∈ s.pending then 1 else 0)
    rw [htaken w']
    by_cases hww : w' = w
    · subst hww
      rw [hfresh, Bool.toNat_true] at hcount
      rw [Function.update_self, if_pos rfl, Bool.toNat_false]
      omega
    · rw [Function.update_of_ne hww, if_neg hww]
      exact hcount
  · intro w' hw'
    simp only [Link.take] at hw' ⊢
    by_cases hww : w' = w
    · subst hww
      rw [Function.update_self] at hw'
      cases hw'
    · rw [Function.update_of_ne hww] at hw'
      rw [htaken w', if_neg hww, hmem w' hww]
      exact h.values w' hw'

/-- The status thread reads a word other than the flag. -/
theorem Link.Inv.read {place : StatusPlace} (h : s.Inv) (hw : w ≠ .validFlag)
    (hfresh : s.fresh w = true)
    (htaken : ∀ w', place.taken w' = s.place.taken w' + if w' = w then 1 else 0)
    (hclear : place ≠ .clear) (hplace : place.Of s.received[s.enqueued.length]?) :
    Inv (s.take w place) := by
  refine h.take hfresh htaken (fun _ _ => rfl) ?_ hclear hplace
  rw [Function.update_of_ne hw.symm]
  exact h.flag

/-- The word that is read is the one of the command under way. -/
theorem Link.Inv.value (h : s.Inv) (hfresh : s.fresh w = true) (htaken : s.place.taken w = 0) :
    ∃ c, s.received[s.enqueued.length]? = some c ∧ s.mem w = c.word w := by
  obtain ⟨c, hc, hval⟩ := h.values w hfresh
  rw [htaken, Nat.add_zero] at hc
  exact ⟨c, hc, hval⟩

/-- The control of the command under way is enqueued. -/
theorem Link.Inv.enqueue {c : RgCtrl} (h : s.Inv) (hplace : ∀ w, s.place.taken w = 1)
    (hcmd : s.received[s.enqueued.length]? = some cmd) (hctrl : cmd.ctrl = some c) :
    Inv { s with enqueued := s.enqueued ++ [c], place := .poll } := by
  have hlen : (s.enqueued ++ [c]).length = s.enqueued.length + 1 := by simp
  refine ⟨?_, ?_, h.nodup, ?_, h.flag, nofun, trivial⟩
  · dsimp only
    rw [hlen, List.take_add_one, hcmd, List.map_append, List.map_append, h.enqueued]
    simp [hctrl]
  · intro w
    have hcount := h.counts w
    rw [hplace w] at hcount
    dsimp only
    rw [hlen]
    exact hcount
  · intro w hw
    obtain ⟨c', hc', hval⟩ := h.values w hw
    rw [hplace w] at hc'
    refine ⟨c', ?_, hval⟩
    dsimp only
    rw [hlen]
    exact hc'

/-- The steps of the status thread. -/
theorem Link.Inv.status {allocOk : Bool} (h : s.Inv) (hturn : s.InTurn (.status allocOk)) :
    (statusStep allocOk s).Inv := by
  obtain ⟨hfresh, halloc⟩ := hturn
  have hof := h.place
  unfold statusStep
  cases hp : s.place with
  | poll =>
    dsimp only
    split_ifs with hflag
    · have hf : s.fresh .validFlag = true := h.fresh_flag hflag
      refine ⟨h.enqueued, ?_, h.nodup, ?_, h.flag, fun _ => hf, trivial⟩
      · intro w
        have hcount := h.counts w
        rw [hp] at hcount
        exact hcount
      · intro w hw
        have hval := h.values w hw
        rw [hp] at hval
        exact hval
    · exact h
  | clear =>
    refine h.take (h.clear hp) ?_ ?_ ?_ nofun trivial
    · intro w
      rw [hp]
      cases w <;> rfl
    · intro w hw
      exact Function.update_of_ne hw _ _
    · rw [Function.update_self, Function.update_self]
      rfl
  | readAction =>
    rw [hp] at hfresh
    have hf := hfresh .barriergate rfl
    obtain ⟨c, hc, hval⟩ := h.value hf (by rw [hp]; rfl)
    refine h.read nofun hf ?_ nofun ⟨c, hc, hval⟩
    intro w
    rw [hp]
    cases w <;> rfl
  | readMode a =>
    rw [hp] at hfresh hof
    have hf := hfresh .bgmode rfl
    obtain ⟨c, hc, ha⟩ := hof
    obtain ⟨c', hc', hval⟩ := h.value hf (by rw [hp]; rfl)
    cases hc.symm.trans hc'
    refine h.read nofun hf ?_ nofun ⟨c, hc, ha, hval⟩
    intro w
    rw [hp]
    cases w <;> rfl
  | readTimeout a m =>
    rw [hp] at hfresh hof
    have hf := hfresh .bgkeeptime rfl
    obtain ⟨c, hc, ha, hm⟩ := hof
    obtain ⟨c', hc', hval⟩ := h.value hf (by rw [hp]; rfl)
    cases hc.symm.trans hc'
    refine h.read nofun hf ?_ nofun ⟨c, hc, ha, hm, hval⟩
    intro w
    rw [hp]
    cases w <;> rfl
  | newCtrl a m k =>
    rw [hp] at halloc hof
    obtain ⟨c, hc, rfl, rfl, rfl⟩ := hof
    obtain ⟨ctrl, hctrl⟩ := ctrl_isSome c
    have hnew : newCtrl c.barriergate c.bgmode c.bgkeeptime = some ctrl := hctrl
    dsimp only
    rw [if_pos (halloc rfl), hnew]
    exact h.enqueue (fun w => by rw [hp]; rfl) hc hctrl

/-- A step in turn keeps the invariant. -/
theorem Link.Inv.step (h : s.Inv) (hturn : s.InTurn i)
    (hstep : linkStep s i = some s') : s'.Inv := by
  cases i with
  | receive cmd =>
    simp only [linkStep] at hstep
    split_ifs at hstep with hpending
    cases hstep
    exact h.receive hpending
  | copy w =>
    simp only [linkStep] at hstep
    split at hstep
    · next cmd hlast =>
      split_ifs at hstep with hw
      cases hstep
      exact h.copy hlast hw hturn
    · cases hstep
  | status allocOk =>
    cases hstep
    exact h.status hturn

theorem link_inv_init : Link.Inv {} where
  enqueued := rfl
  counts := fun w => by cases w <;> rfl
  nodup := List.nodup_nil
  values := nofun
  flag := rfl
  clear := nofun
  place := trivial

/-- In every state that a run with its steps in turn comes to, the controls enqueued are those of
the commands received, in order, and when nothing is under way those of all of them. -/
theorem gateCmds_enqueued {is : List LinkStep} (hturn : Along linkStep Link.InTurn {} is)
    (hrun : runFrom linkStep {} is = some s) : s.InOrder :=
  (hturn.invariant_end link_inv_init (fun _ _ _ h ht hstep => h.step ht hstep) hrun).inOrder

/-- `RoadGate` with `BarrierGate` up or down for five seconds. -/
def gateUp : GateCmd := ⟨1, 5, 2, by decide, by decide⟩

def gateDown : GateCmd := ⟨2, 5, 2, by decide, by decide⟩

/-- A command that is copied. -/
def copied (cmd : GateCmd) : List LinkStep :=
  [.receive cmd, .copy .validFlag, .copy .barriergate, .copy .bgkeeptime, .copy .bgmode]

/-- A round of the status thread that finds the flag set. -/
def polled : List LinkStep := List.replicate 6 (.status true)

theorem gateCmds_enqueued_polled : ∃ s,
    runFrom linkStep {} (copied gateUp ++ polled ++ copied gateDown ++ polled) = some s ∧
      s.enqueued = [⟨.center, .manual, .up, 5000⟩, ⟨.center, .manual, .dn, 5000⟩] ∧ s.InOrder :=
  ⟨_, rfl, rfl, gateCmds_enqueued
    (show Along linkStep Link.InTurn {} (copied gateUp ++ polled ++ copied gateDown ++ polled) by decide)
    rfl⟩

/-- A command that is copied before the last one was polled takes its place. -/
theorem gateCmds_not_enqueued : ∃ s,
    runFrom linkStep {} (copied gateUp ++ copied gateDown ++ polled) = some s ∧ ¬ s.InOrder :=
  ⟨_, rfl, by decide⟩

end VdCamera.Roadgate
