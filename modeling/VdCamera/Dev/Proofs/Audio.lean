import Mathlib.Data.List.Perm.Subperm
import VdCamera.Dev.Audio
import VdCamera.Misc.Run

/-!
# The audio player switched off and on

The mutex and the semaphore are initialised once, and destroyed as the device is switched off. So the
player is usable in every run that does not switch it on again, and unusable as soon as one does.
-/

namespace VdCamera.Dev

open Misc

variable {s s' : AudioSys} {op : AudioOp} {player player' : Mp3Player} {nodes : List PlayNode}

/-! ## The player -/

/-- A player that was initialised and not destroyed, with `pending` items in the list that are not
counted by the semaphore. -/
structure Mp3Player.Live (player : Mp3Player) (pending : Nat) (nodes : List PlayNode) : Prop where
  once : player.once = true
  mutex : player.mutex = .live
  sem : player.sem = .live
  ring : player.links.Ring .ready nodes
  allocated : ∀ node ∈ nodes, ∃ addr ∈ player.items, node = .item addr
  playing : ∀ addr, player.thread = .playing addr → addr ∈ player.items ∧ .item addr ∉ nodes
  count : player.value + pending + (if player.thread = .woken then 1 else 0) = nodes.length

/-- A player that was not initialised. -/
structure Mp3Player.Fresh (player : Mp3Player) : Prop where
  once : player.once = false
  mutex : player.mutex = .never
  sem : player.sem = .never
  thread : player.thread = .none ∨ player.thread = .start

/-- A player that was destroyed. -/
structure Mp3Player.Gone (player : Mp3Player) : Prop where
  mutex : player.mutex = .destroyed
  sem : player.sem = .destroyed
  once : player.once = true
  thread : player.thread = .none

theorem Mp3Player.Live.once_eq {pending : Nat} (h : player.Live pending nodes) :
    mp3PlayerOnce player = player := if_pos h.once

theorem Mp3Player.Fresh.live (h : player.Fresh) : (mp3PlayerOnce player).Live 0 [] := by
  rw [mp3PlayerOnce, if_neg (by simp [h.once])]
  refine ⟨rfl, rfl, rfl, Links.ring_initHead, by simp, ?_, ?_⟩
  · rcases h.thread with hthread | hthread
    · simp [hthread]
    · simp [hthread]
  · rcases h.thread with hthread | hthread
    · simp [hthread]
    · simp [hthread]

theorem Mp3Player.Live.setThread {pending : Nat} {thread : PlayThread}
    (h : player.Live pending nodes) (hwoken : player.thread ≠ .woken) (hnot : thread ≠ .woken)
    (hplaying : ∀ addr, thread ≠ .playing addr) :
    ({ player with thread } : Mp3Player).Live pending nodes where
  once := h.once
  mutex := h.mutex
  sem := h.sem
  ring := h.ring
  allocated := h.allocated
  playing addr heq := absurd heq (hplaying addr)
  count := by
    have hcount := h.count
    rw [if_neg hwoken] at hcount
    rw [if_neg hnot]
    exact hcount

/-- A thread that was woken finds an item. -/
theorem Mp3Player.Live.take {pending : Nat} (h : player.Live pending nodes)
    (hwoken : player.thread = .woken) : ∃ player' addr nodes', mp3PlayStep player .take = some player'
      ∧ player'.thread = .playing addr ∧ player'.Live pending nodes' := by
  have hcount := h.count
  rw [if_pos hwoken] at hcount
  cases nodes with
  | nil =>
    rw [List.length_nil] at hcount
    omega
  | cons node nodes' =>
    obtain ⟨addr, haddr, rfl⟩ := h.allocated node List.mem_cons_self
    obtain ⟨links, hunlink, hring⟩ := h.ring.unlink_head
    refine ⟨{ player with links, thread := .playing addr }, addr, nodes', ?_, rfl, h.once, h.mutex,
      h.sem, hring, ?_, ?_, ?_⟩
    · have hempty : ¬ player.links.isEmpty .ready = true := by
        rw [h.ring.isEmpty_iff]
        nofun
      rw [mp3PlayStep, if_pos ⟨hwoken, h.mutex⟩, if_neg hempty, h.ring.next_head]
      simp [hunlink]
    · exact fun node hnode => h.allocated node (List.mem_cons_of_mem _ hnode)
    · intro addr' heq
      obtain rfl : addr = addr' := PlayThread.playing.inj heq
      exact ⟨haddr, (List.nodup_cons.mp (List.nodup_cons.mp h.ring.nodup).2).1⟩
    · rw [List.length_cons] at hcount
      simpa using hcount

/-- The thread keeps a player that is live. -/
theorem Mp3Player.Live.step {pending : Nat} (h : player.Live pending nodes)
    (hstep : mp3PlayStep player op = some player') : ∃ nodes', player'.Live pending nodes' := by
  cases op with
  | once =>
    simp only [mp3PlayStep, Option.ite_none_right_eq_some, Option.some.injEq, h.once_eq] at hstep
    obtain ⟨hthread, rfl⟩ := hstep
    refine ⟨nodes, h.setThread ?_ nofun fun _ => nofun⟩
    rw [hthread]
    nofun
  | wait interrupted =>
    simp only [mp3PlayStep, Option.ite_none_right_eq_some] at hstep
    obtain ⟨⟨hthread, _⟩, hstep⟩ := hstep
    split at hstep
    · cases hstep
      exact ⟨nodes, h⟩
    · split at hstep
      · cases hstep
      · next hvalue =>
        cases hstep
        refine ⟨nodes, h.once, h.mutex, h.sem, h.ring, h.allocated, fun _ => nofun, ?_⟩
        have hcount := h.count
        rw [hthread, if_neg (by nofun)] at hcount
        rw [if_pos rfl]
        dsimp only
        omega
  | take =>
    have hwoken : player.thread = .woken := by
      rw [mp3PlayStep, Option.ite_none_right_eq_some] at hstep
      exact hstep.1.1
    obtain ⟨_, _, nodes', htake, _, hlive⟩ := h.take hwoken
    cases htake.symm.trans hstep
    exact ⟨nodes', hlive⟩
  | finish =>
    rw [mp3PlayStep] at hstep
    split at hstep
    · next addr hthread =>
      simp only [Option.ite_none_right_eq_some, Option.some.injEq] at hstep
      obtain ⟨_, rfl⟩ := hstep
      have hnot := (h.playing addr hthread).2
      have hidle : ({ player with thread := .idle } : Mp3Player).Live pending nodes :=
        h.setThread (by rw [hthread]; nofun) nofun fun _ => nofun
      refine ⟨nodes, h.once, h.mutex, h.sem, h.ring, fun node hnode => ?_, fun _ => nofun,
        hidle.count⟩
      obtain ⟨other, hother, rfl⟩ := h.allocated node hnode
      have hne : other ≠ addr := fun heq => hnot (heq ▸ hnode)
      exact ⟨other, (List.mem_erase_of_ne hne).mpr hother, rfl⟩
    · cases hstep
  | cancelled =>
    rw [mp3PlayStep] at hstep
    split at hstep
    · next hthread =>
      cases hstep
      refine ⟨nodes, h.setThread ?_ nofun fun _ => nofun⟩
      rw [hthread]
      nofun
    · next hthread =>
      cases hstep
      refine ⟨nodes, h.setThread ?_ nofun fun _ => nofun⟩
      rw [hthread]
      nofun
    · cases hstep
  | _ => cases hstep

/-- The thread initialises a player that was not, and nothing else. -/
theorem Mp3Player.Fresh.step (h : player.Fresh) (hstep : mp3PlayStep player op = some player') :
    player.thread = .start ∧ player'.Live 0 [] := by
  cases op with
  | once =>
    simp only [mp3PlayStep, Option.ite_none_right_eq_some, Option.some.injEq] at hstep
    obtain ⟨hthread, rfl⟩ := hstep
    refine ⟨hthread, h.live.setThread ?_ nofun fun _ => nofun⟩
    rw [mp3PlayerOnce, if_neg (by simp [h.once])]
    dsimp only
    rw [hthread]
    nofun
  | _ => rcases h.thread with hthread | hthread <;> simp [mp3PlayStep, hthread] at hstep

theorem Mp3Player.Gone.step (h : player.Gone) : mp3PlayStep player op = none := by
  cases op <;> simp [mp3PlayStep, h.thread]

/-- A new item is the last one of the list. -/
theorem Mp3Player.Live.addTail {addr : Nat} (h : player.Live 0 nodes) (haddr : addr ∉ player.items) :
    ∃ links, player.links.addTail (.item addr) .ready = some links
      ∧ ({ player with links, items := addr :: player.items } : Mp3Player).Live 1
        (nodes ++ [.item addr]) := by
  have hnew : PlayNode.item addr ∉ PlayNode.ready :: nodes := by
    intro hmem
    rcases List.mem_cons.mp hmem with heq | hmem
    · cases heq
    · obtain ⟨other, hother, heq⟩ := h.allocated _ hmem
      exact haddr (PlayNode.item.inj heq ▸ hother)
  obtain ⟨links, hadd, hring⟩ := h.ring.addTail hnew
  refine ⟨links, hadd, h.once, h.mutex, h.sem, hring, fun node hnode => ?_, fun other hother => ?_, ?_⟩
  · rcases List.mem_append.mp hnode with hnode | hnode
    · obtain ⟨other, hother, heq⟩ := h.allocated node hnode
      exact ⟨other, List.mem_cons_of_mem addr hother, heq⟩
    · exact ⟨addr, List.mem_cons_self, List.mem_singleton.mp hnode⟩
  · obtain ⟨hmem, hnot⟩ := h.playing other hother
    refine ⟨List.mem_cons_of_mem addr hmem, fun hin => ?_⟩
    rcases List.mem_append.mp hin with hin | hin
    · exact hnot hin
    · exact haddr (PlayNode.item.inj (List.mem_singleton.mp hin) ▸ hmem)
  · have hcount := h.count
    rw [List.length_append, List.length_singleton, ← hcount]
    dsimp only
    omega

theorem Mp3Player.Live.post (h : player.Live 1 nodes) :
    ({ player with value := player.value + 1 } : Mp3Player).Live 0 nodes where
  once := h.once
  mutex := h.mutex
  sem := h.sem
  ring := h.ring
  allocated := h.allocated
  playing := h.playing
  count := h.count

theorem gone_of_destroy (h : player.once = true) (hdestroy : mp3PlayerDestroy player = some player') :
    player'.Gone := by
  rw [mp3PlayerDestroy, Option.ite_none_right_eq_some] at hdestroy
  obtain ⟨_, hdestroy⟩ := hdestroy
  obtain ⟨⟨links, freed⟩, _, hdestroy⟩ := Option.bind_eq_some_iff.mp hdestroy
  cases hdestroy
  exact ⟨rfl, rfl, h, rfl⟩

/-! ## The device -/

/-- The player is not switched on after it was destroyed, and its semaphore can count one item more. -/
def NeverAgain (audio : AudioSys) : AudioOp → Prop
  | .change model _ => model = AUDIO_MODEL_LO → audio.player.mutex ≠ .destroyed
  | .post => audio.player.value < SEM_VALUE_MAX
  | _ => True

instance decidableNeverAgain (audio : AudioSys) : DecidablePred (NeverAgain audio)
  | .change model _ =>
    inferInstanceAs (Decidable (model = AUDIO_MODEL_LO → audio.player.mutex ≠ .destroyed))
  | .post => inferInstanceAs (Decidable (audio.player.value < SEM_VALUE_MAX))
  | .joined _ | .put _ | .queue _ | .once | .wait _ | .take | .finish | .cancelled => isTrue trivial

/-- How many items a call has put into the list and not posted. -/
def AudioCall.pending (call : AudioCall) : Nat := if call = .post then 1 else 0

/-- The player by what has become of it. -/
inductive AudioInv (s : AudioSys) : Prop
  | fresh (player : s.player.Fresh)
      (call : s.call = .idle ∨ ∃ model, model ≠ AUDIO_MODEL_LO ∧ s.call = .join model)
      (dev : s.dev = AUDIO_MODEL_LO ∨ s.dev = AUDIO_MODEL_OFF ∧ s.player.thread = .none)
  | live {nodes : List PlayNode} (player : s.player.Live s.call.pending nodes)
      (call : ∀ model, s.call = .join model → model ≠ AUDIO_MODEL_LO)
      (dev : s.dev = AUDIO_MODEL_LO)
  | gone (player : s.player.Gone) (call : s.call = .idle) (dev : s.dev = AUDIO_MODEL_OFF)

theorem audioDevSearch_eq (model : UInt8) : (audioDevSearch model).getD AUDIO_MODEL_OFF
    = if model = AUDIO_MODEL_LO then AUDIO_MODEL_LO else AUDIO_MODEL_OFF := by
  rw [audioDevSearch]
  by_cases hlo : model = AUDIO_MODEL_LO
  · subst hlo
    decide
  · by_cases hoff : model = AUDIO_MODEL_OFF
    · subst hoff
      decide
    · simp [hlo, Ne.symm hlo, Ne.symm hoff]

theorem audioDevInit_off {model : UInt8} (result : AudioInit) (h : model ≠ AUDIO_MODEL_LO) :
    audioDevInit model result s = { s with dev := AUDIO_MODEL_OFF, call := .idle } := by
  rw [audioDevInit, audioDevSearch_eq, if_neg h]
  exact if_neg (by decide)

theorem audioDevInit_lo (result : AudioInit) : audioDevInit AUDIO_MODEL_LO result s
    = dm8127AudioInit result { s with dev := AUDIO_MODEL_LO, call := .idle } := by
  rw [audioDevInit, audioDevSearch_eq, if_pos rfl]
  exact if_pos rfl

/-- A step of the thread keeps what the calls rely on. -/
theorem AudioInv.thread (h : AudioInv s) (hstep : mp3PlayStep s.player op = some player) :
    AudioInv { s with player } := by
  cases h with
  | fresh hplayer hcall hdev =>
    obtain ⟨hstart, hlive⟩ := hplayer.step hstep
    have hpending : s.call.pending = 0 := by
      rcases hcall with hcall | ⟨_, _, hcall⟩ <;> rw [hcall] <;> rfl
    rw [← hpending] at hlive
    refine .live hlive (fun model hmodel => ?_) ?_
    · rcases hcall with hcall | ⟨other, hother, hcall⟩
      · cases hcall.symm.trans hmodel
      · exact AudioCall.join.inj (hcall.symm.trans hmodel) ▸ hother
    · refine hdev.resolve_right fun hoff => ?_
      cases hstart.symm.trans hoff.2
  | live hplayer hcall hdev =>
    obtain ⟨nodes', hlive⟩ := hplayer.step hstep
    exact .live hlive hcall hdev
  | gone hplayer _ _ => cases hplayer.step.symm.trans hstep

/-- The current device is left only if it is not the one that is asked for. -/
theorem AudioInv.change {model : UInt8} {result : AudioInit} (h : AudioInv s)
    (hnever : NeverAgain s (.change model result))
    (hstep : audioCallStep s (.change model result) = some s') : AudioInv s' := by
  unfold audioCallStep at hstep
  dsimp only at hstep
  split at hstep
  · cases hstep
  next hcall =>
  have hcall : s.call = .idle := not_not.mp hcall
  split at hstep
  · cases hstep
    exact h
  next hmodel =>
  split at hstep
  · next hlo =>
    have hne : model ≠ AUDIO_MODEL_LO := fun heq => hmodel (hlo.trans heq.symm)
    rw [Option.ite_none_right_eq_some, Option.some.injEq] at hstep
    obtain ⟨⟨_, hthread⟩, rfl⟩ := hstep
    cases h with
    | fresh hplayer _ _ => exact .fresh hplayer (.inr ⟨model, hne, rfl⟩) (.inl hlo)
    | live hplayer _ _ =>
      rw [hcall] at hplayer
      exact .live hplayer (fun other heq => AudioCall.join.inj heq ▸ hne) hlo
    | gone _ _ hdev =>
      rw [hdev] at hlo
      exact absurd hlo (by decide)
  · next hlo =>
    cases hstep
    by_cases hon : model = AUDIO_MODEL_LO
    · subst hon
      rw [audioDevInit_lo]
      cases h with
      | fresh hplayer _ hdev =>
        obtain ⟨_, hthread⟩ := hdev.resolve_left hlo
        cases result with
        | ok =>
          exact .fresh ⟨hplayer.once, hplayer.mutex, hplayer.sem, .inr rfl⟩ (.inl rfl) (.inl rfl)
        | _ => exact .fresh hplayer (.inl rfl) (.inl rfl)
      | live _ _ hdev => exact absurd hdev hlo
      | gone hplayer _ _ => exact absurd hplayer.mutex (hnever rfl)
    · rw [audioDevInit_off result hon]
      cases h with
      | fresh hplayer _ hdev =>
        obtain ⟨_, hthread⟩ := hdev.resolve_left hlo
        exact .fresh hplayer (.inl rfl) (.inr ⟨rfl, hthread⟩)
      | live _ _ hdev => exact absurd hdev hlo
      | gone hplayer _ _ => exact .gone hplayer rfl rfl

theorem AudioInv.joined {result : AudioInit} (h : AudioInv s)
    (hstep : audioCallStep s (.joined result) = some s') : AudioInv s' := by
  unfold audioCallStep at hstep
  dsimp only at hstep
  split at hstep
  · next model hjoin =>
    rw [Option.ite_none_right_eq_some] at hstep
    obtain ⟨hended, hstep⟩ := hstep
    obtain ⟨player', hdestroy, rfl⟩ := Option.map_eq_some_iff.mp hstep
    cases h with
    | fresh hplayer _ _ => rcases hplayer.thread with hthread | hthread <;> simp [hthread] at hended
    | live hplayer hcall _ =>
      rw [audioDevInit_off result (hcall model hjoin)]
      exact .gone (gone_of_destroy hplayer.once hdestroy) rfl rfl
    | gone _ hcall _ => cases hcall.symm.trans hjoin
  · cases hstep

theorem AudioInv.put {flag : UInt8} (h : AudioInv s)
    (hstep : audioCallStep s (.put flag) = some s') : AudioInv s' := by
  unfold audioCallStep at hstep
  dsimp only at hstep
  split at hstep
  · cases hstep
  next hcall =>
  have hcall : s.call = .idle := not_not.mp hcall
  split at hstep
  · cases hstep
    exact h
  next hoff =>
  split at hstep
  · cases hstep
    exact h
  · cases hstep
    cases h with
    | fresh hplayer _ hdev =>
      exact .live hplayer.live (fun _ => nofun) (hdev.resolve_right fun h => hoff h.1)
    | live hplayer _ hdev =>
      rw [hcall] at hplayer
      rw [← hplayer.once_eq] at hplayer
      exact .live hplayer (fun _ => nofun) hdev
    | gone _ _ hdev => exact absurd hdev hoff

theorem AudioInv.queue {item : Option Nat} (h : AudioInv s)
    (hstep : audioCallStep s (.queue item) = some s') : AudioInv s' := by
  unfold audioCallStep at hstep
  rw [Option.ite_none_right_eq_some] at hstep
  obtain ⟨⟨hput, _⟩, hstep⟩ := hstep
  cases h with
  | fresh _ hcall _ => rcases hcall with hcall | ⟨_, _, hcall⟩ <;> cases hcall.symm.trans hput
  | gone _ hcall _ => cases hcall.symm.trans hput
  | live hplayer _ hdev =>
    rw [hput] at hplayer
    split at hstep
    · cases hstep
      exact .live hplayer (fun _ => nofun) hdev
    · cases item with
      | none =>
        cases hstep
        exact .live hplayer (fun _ => nofun) hdev
      | some addr =>
        dsimp only at hstep
        split at hstep
        · cases hstep
        · next haddr =>
          obtain ⟨links, hadd, hlive⟩ := hplayer.addTail haddr
          rw [hadd] at hstep
          cases hstep
          exact .live hlive (fun _ => nofun) hdev

theorem AudioInv.post (h : AudioInv s) (hnever : NeverAgain s .post)
    (hstep : audioCallStep s .post = some s') : AudioInv s' := by
  unfold audioCallStep at hstep
  rw [Option.ite_none_right_eq_some] at hstep
  obtain ⟨⟨hpost, _⟩, hstep⟩ := hstep
  cases h with
  | fresh _ hcall _ => rcases hcall with hcall | ⟨_, _, hcall⟩ <;> cases hcall.symm.trans hpost
  | gone _ hcall _ => cases hcall.symm.trans hpost
  | live hplayer _ hdev =>
    rw [hpost] at hplayer
    dsimp only at hstep
    rw [if_pos (show s.player.value < SEM_VALUE_MAX from hnever)] at hstep
    cases hstep
    exact .live hplayer.post (fun _ => nofun) hdev

theorem AudioInv.step (h : AudioInv s) (hnever : NeverAgain s op) (hstep : audioStep s op = some s') :
    AudioInv s' := by
  cases op with
  | change => exact h.change hnever hstep
  | joined => exact h.joined hstep
  | put => exact h.put hstep
  | queue => exact h.queue hstep
  | post => exact h.post hnever hstep
  | cancelled =>
    unfold audioStep at hstep
    dsimp only at hstep
    split at hstep
    · obtain ⟨player', hplayer, rfl⟩ := Option.map_eq_some_iff.mp hstep
      exact h.thread hplayer
    · cases hstep
  | _ =>
    obtain ⟨player', hplayer, rfl⟩ := Option.map_eq_some_iff.mp hstep
    exact h.thread hplayer

theorem AudioInv.usable (h : AudioInv s) (op : AudioOp) : Usable s op := by
  cases h with
  | live hplayer _ _ =>
    exact ⟨fun _ => ⟨hplayer.mutex, _, hplayer.ring⟩, fun _ => ⟨hplayer.sem, _, hplayer.ring⟩⟩
  | fresh hplayer hcall _ =>
    have hthread := hplayer.thread
    constructor
    · intro hlocks
      cases op with
      | queue => rcases hcall with hcall | ⟨_, _, hcall⟩ <;> cases hcall.symm.trans hlocks
      | take => rcases hthread with hthread | hthread <;> cases hthread.symm.trans hlocks
      | finish =>
        obtain ⟨_, hlocks⟩ := hlocks
        rcases hthread with hthread | hthread <;> cases hthread.symm.trans hlocks
      | _ => cases hlocks
    · intro huses
      cases op with
      | post => rcases hcall with hcall | ⟨_, _, hcall⟩ <;> cases hcall.symm.trans huses
      | wait => rcases hthread with hthread | hthread <;> cases hthread.symm.trans huses
      | _ => cases huses
  | gone hplayer hcall _ =>
    constructor
    · intro hlocks
      cases op with
      | queue => cases hcall.symm.trans hlocks
      | take => cases hplayer.thread.symm.trans hlocks
      | finish =>
        obtain ⟨_, hlocks⟩ := hlocks
        cases hplayer.thread.symm.trans hlocks
      | _ => cases hlocks
    · intro huses
      cases op with
      | post => cases hcall.symm.trans huses
      | wait => cases hplayer.thread.symm.trans huses
      | _ => cases huses

theorem AudioInv.balanced (h : AudioInv s) : Balanced s := by
  intro hcall hwoken hsem
  cases h with
  | fresh hplayer _ _ => cases hplayer.sem.symm.trans hsem
  | gone hplayer _ _ => cases hplayer.sem.symm.trans hsem
  | live hplayer _ _ =>
    refine ⟨_, hplayer.ring, ?_⟩
    have hcount := hplayer.count
    rw [AudioCall.pending, if_neg hcall, if_neg hwoken] at hcount
    exact hcount

theorem audioInv_init : AudioInv {} :=
  .fresh ⟨rfl, rfl, rfl, .inl rfl⟩ (.inl rfl) (.inr ⟨rfl, rfl⟩)

/-- A player that is never switched on again is usable at every step and balanced at rest. -/
theorem audio_player_usable {ops : List AudioOp} (h : Along audioStep NeverAgain {} ops) :
    Along audioStep Usable {} ops ∧ ∀ s, runFrom audioStep {} ops = some s → Balanced s :=
  ⟨h.of_invariant audioInv_init (fun _ _ _ hinv hnever hstep => hinv.step hnever hstep)
      fun _ op hinv _ => hinv.usable op,
    fun _ hrun => (h.invariant_end audioInv_init
      (fun _ _ _ hinv hnever hstep => hinv.step hnever hstep) hrun).balanced⟩

/-- The player is switched on, plays an item and is switched off. -/
def onAndOff : List AudioOp :=
  [.change AUDIO_MODEL_LO .ok, .once, .put 4, .queue (some 7), .post, .wait false, .take, .finish,
    .change AUDIO_MODEL_OFF .ok, .cancelled, .joined .ok]

theorem audio_player_usable_onAndOff : Along audioStep Usable {} onAndOff
    ∧ ∀ s, runFrom audioStep {} onAndOff = some s → Balanced s :=
  audio_player_usable (by decide)

/-- Switched on again, the thread waits for a semaphore that was destroyed. -/
theorem not_audio_player_usable : ¬ Along audioStep Usable {}
    [.change AUDIO_MODEL_LO .ok, .once, .change AUDIO_MODEL_OFF .ok, .cancelled, .joined .ok,
      .change AUDIO_MODEL_LO .ok, .once, .wait false] := by
  intro h
  have h := h.2 _ rfl
  have h := h.2 _ rfl
  have h := h.2 _ rfl
  have h := h.2 _ rfl
  have h := h.2 _ rfl
  have h := h.2 _ rfl
  have h := h.2 _ rfl
  cases (h.1.2 rfl).1

/-- Switched on again, the player locks a mutex that was destroyed. -/
theorem unusable_on {result : AudioInit} (h : s.player.Gone) (hcall : s.call = .idle)
    (hdev : s.dev = AUDIO_MODEL_OFF)
    (hstep : audioStep s (.change AUDIO_MODEL_LO result) = some s') :
    ¬ Along audioStep Usable s' [.put 0, .queue none] := by
  have hs' : s' = dm8127AudioInit result { s with dev := AUDIO_MODEL_LO, call := .idle } := by
    have hne : AUDIO_MODEL_OFF ≠ AUDIO_MODEL_LO := by decide
    unfold audioStep audioCallStep at hstep
    dsimp only at hstep
    rw [if_neg (not_not_intro hcall), hdev, if_neg hne, if_neg hne, audioDevInit_lo] at hstep
    exact (Option.some.inj hstep).symm
  obtain ⟨hdev', hcall', hmutex, honce⟩ : s'.dev = AUDIO_MODEL_LO ∧ s'.call = .idle
      ∧ s'.player.mutex = .destroyed ∧ s'.player.once = true := by
    subst hs'
    cases result <;> exact ⟨rfl, rfl, h.mutex, h.once⟩
  intro hall
  have hput : audioStep s' (.put 0)
      = some { s' with call := .put, player := mp3PlayerOnce s'.player } := by
    have hne : s'.dev ≠ AUDIO_MODEL_OFF := by
      rw [hdev']
      decide
    unfold audioStep audioCallStep
    dsimp only
    rw [if_neg (not_not_intro hcall'), if_neg hne, if_neg (by decide)]
  have hlive := ((hall.2 _ hput).1.1 rfl).1
  rw [mp3PlayerOnce, if_pos honce, hmutex] at hlive
  cases hlive

theorem unbalanced_of_live (h : s.player.Live 1 nodes) (hcall : s.call = .idle)
    (hwoken : s.player.thread ≠ .woken) : ¬ Balanced s := by
  intro hbalanced
  obtain ⟨nodes', hring, hvalue⟩ := hbalanced (by rw [hcall]; nofun) hwoken h.sem
  obtain rfl := hring.unique h.ring
  have hcount := h.count
  rw [if_neg hwoken, hvalue] at hcount
  omega

/-- A step that `NeverAgain` excludes has a continuation that is not usable or not balanced at rest. -/
theorem unusable_again {ops : List AudioOp} (h : Along audioStep NeverAgain {} ops)
    (hrun : runFrom audioStep {} ops = some s) (hagain : ¬ NeverAgain s op)
    (hstep : audioStep s op = some s') : ∃ more, ¬ (Along audioStep Usable s' more
      ∧ ∀ s'', runFrom audioStep s' more = some s'' → Balanced s'') := by
  have hinv : AudioInv s := h.invariant_end audioInv_init
    (fun _ _ _ hinv hnever hstep => hinv.step hnever hstep) hrun
  cases op with
  | change model result =>
    obtain ⟨rfl, hmutex⟩ : model = AUDIO_MODEL_LO ∧ s.player.mutex = .destroyed := by
      simpa [NeverAgain] using hagain
    cases hinv with
    | fresh hplayer _ _ => cases hplayer.mutex.symm.trans hmutex
    | live hplayer _ _ => cases hplayer.mutex.symm.trans hmutex
    | gone hplayer hcall hdev => exact ⟨_, fun hall => unusable_on hplayer hcall hdev hstep hall.1⟩
  | post =>
    have hfull : ¬ s.player.value < SEM_VALUE_MAX := hagain
    unfold audioStep audioCallStep at hstep
    dsimp only at hstep
    rw [if_neg hfull, Option.ite_none_right_eq_some, Option.some.injEq] at hstep
    obtain ⟨⟨hpost, _⟩, rfl⟩ := hstep
    cases hinv with
    | fresh _ hcall _ => rcases hcall with hcall | ⟨_, _, hcall⟩ <;> cases hcall.symm.trans hpost
    | gone _ hcall _ => cases hcall.symm.trans hpost
    | live hplayer _ _ =>
      rw [hpost] at hplayer
      by_cases hwoken : s.player.thread = .woken
      · obtain ⟨player', addr, nodes', htake, hplaying, hlive⟩ := hplayer.take hwoken
        have htake' : audioStep { s with call := .idle } .take
            = some { s with call := .idle, player := player' } := by
          change (mp3PlayStep s.player .take).map _ = _
          rw [htake]
          rfl
        refine ⟨[.take], fun hall => ?_⟩
        have hbalanced := hall.2 { s with call := .idle, player := player' } (by simp [htake'])
        exact unbalanced_of_live hlive rfl (by rw [hplaying]; nofun) hbalanced
      · have hidle : ({ s with call := .idle } : AudioSys).player.Live 1 _ := hplayer
        exact ⟨[], fun hall => unbalanced_of_live hidle rfl hwoken (hall.2 _ rfl)⟩
  | _ => exact absurd trivial hagain

end VdCamera.Dev
