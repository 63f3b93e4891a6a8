import Mathlib.Algebra.Ring.Int.Defs
import Mathlib.Algebra.Ring.Nat
import VdCamera.Misc.LinkRing

/-!
# The audio player

`ve/dev/audio.c`, `dev/audio/8127.c`, `dev/audio/mp3.c`. The mutex of `audio_t` is held through every
call of `audio_put` and `audio_dev_change`, so there is one call at a time; beside it runs the thread of
the player. A step is what one of them does up to the next moment at which the other can go on. It is
`none` if the thread is not there, if it waits, or where nothing says what the program does.
-/

namespace VdCamera.Dev

open Misc

def AUDIO_MODEL_OFF : UInt8 := 0

def AUDIO_MODEL_LO : UInt8 := 1

def AUDIO_TEXT : UInt8 := 0x02

def SEM_VALUE_MAX : Nat := 2 ^ 31 - 1

/-- What has become of a mutex or a semaphore. -/
inductive Life
  | never
  | live
  | destroyed
  deriving DecidableEq, Repr

/-- Where the thread of the player is. -/
inductive PlayThread
  /-- There is none, or it was joined. -/
  | none
  /-- Before it has called `mp3_player_once`. -/
  | start
  /-- In front of a call of `mp3_play_daemon`. -/
  | idle
  /-- It has got the semaphore. -/
  | woken
  /-- It plays the item of an address. -/
  | playing (item : Nat)
  /-- It was cancelled. -/
  | ended
  deriving DecidableEq, Repr

/-- The head of the list of a player, or the link of the item of an address. -/
inductive PlayNode
  | ready
  | item (addr : Nat)
  deriving DecidableEq, Repr

/-- `mp3_player_t` without the counter and the flag `stop`, which nothing reads; beside it the control of
`pthread_once`, where the thread is, and the items that were allocated and not freed. -/
structure Mp3Player where
  links : Links PlayNode := ⟨fun _ => none, fun _ => none⟩
  mutex : Life := .never
  sem : Life := .never
  value : Nat := 0
  fault : Bool := false
  once : Bool := false
  thread : PlayThread := .none
  items : List Nat := []

/-- `mp3_player_once`. If the mutex or the semaphore cannot be initialised, the program exits. -/
def mp3PlayerOnce (player : Mp3Player) : Mp3Player :=
  if player.once then player
  else { player with
    links := player.links.initHead .ready
    mutex := .live
    sem := .live
    value := 0
    fault := false
    once := true }

/-- `__mp3_player_destroy`, after the thread was joined. -/
def mp3PlayerDestroy (player : Mp3Player) : Option Mp3Player := do
  if player.sem = .live ∧ player.mutex = .live then
    let (links, nodes) ← player.links.unlinkAll .ready (player.items.length + 1)
    return { player with
      links
      mutex := .destroyed
      sem := .destroyed
      thread := .none
      items := player.items.filter fun addr => .item addr ∉ nodes }
  else none

/-- What `audio_put` and `audio_dev_change` are at. -/
inductive AudioCall
  | idle
  /-- `__mp3_play_put` after `mp3_player_once`. -/
  | put
  /-- `__mp3_play_put` with the item in the list. -/
  | post
  /-- `__mp3_player_destroy` on the way to a model, with the thread cancelled. -/
  | join (model : UInt8)
  deriving DecidableEq, Repr

/-- `audio_t` and `brd_audio`: the model of the device, and whether there is a `brd_audio_t`. -/
structure AudioSys where
  dev : UInt8 := AUDIO_MODEL_OFF
  brdAudio : Bool := false
  call : AudioCall := .idle
  player : Mp3Player := {}

/-- `__audio_dev_search`. -/
def audioDevSearch (model : UInt8) : Option UInt8 :=
  [AUDIO_MODEL_OFF, AUDIO_MODEL_LO].find? (· = model)

/-- Where `__dm8127_audio_init` stops. -/
inductive AudioInit
  | ok
  | noMemory
  | noMutex
  | noThread
  deriving DecidableEq, Repr

/-- `__dm8127_audio_init`. -/
def dm8127AudioInit (result : AudioInit) (audio : AudioSys) : AudioSys :=
  match result with
  | .noMemory | .noMutex => { audio with brdAudio := false }
  | .noThread => { audio with brdAudio := true }
  | .ok => { audio with brdAudio := true, player := { audio.player with thread := .start } }

/-- The rest of `__audio_dev_change` after the current device was destroyed. The device stays the new one
also if it cannot be initialised. -/
def audioDevInit (model : UInt8) (result : AudioInit) (audio : AudioSys) : AudioSys :=
  let dev := (audioDevSearch model).getD AUDIO_MODEL_OFF
  let audio := { audio with dev, call := .idle }
  if dev = AUDIO_MODEL_LO then dm8127AudioInit result audio else audio

/-- A step of a call or of the thread. -/
inductive AudioOp
  /-- `audio_dev_change`, up to the waiting for the thread if there is one to end. -/
  | change (model : UInt8) (result : AudioInit)
  /-- The thread is joined. -/
  | joined (result : AudioInit)
  /-- `audio_put`, up to the lock of the player. -/
  | put (flag : UInt8)
  /-- The section of `__mp3_play_put`; what `xmalloc` returns. -/
  | queue (item : Option Nat)
  | post
  /-- The thread calls `mp3_player_once`. -/
  | once
  /-- `sem_wait`, which may be interrupted. -/
  | wait (interrupted : Bool)
  /-- The section of `mp3_play_daemon`. -/
  | take
  /-- The item was played. -/
  | finish
  /-- The thread is cancelled, between two items or while it plays one. -/
  | cancelled
  deriving DecidableEq, Repr

/-- A call's step. -/
def audioCallStep (audio : AudioSys) : AudioOp → Option AudioSys
  | .change model result =>
    if audio.call ≠ .idle then none
    else if audio.dev = model then some audio
    else if audio.dev = AUDIO_MODEL_LO then
      -- the thread that is cancelled must be there, and so must `brd_audio`
      if audio.brdAudio ∧ audio.player.thread ≠ .none then
        some { audio with brdAudio := false, call := .join model }
      else none
    else some (audioDevInit model result audio)
  | .joined result =>
    match audio.call with
    | .join model =>
      if audio.player.thread = .ended then
        (mp3PlayerDestroy audio.player).map fun player =>
          audioDevInit model result { audio with player }
      else none
    | _ => none
  | .put flag =>
    if audio.call ≠ .idle then none
    else if audio.dev = AUDIO_MODEL_OFF then some audio
    else if flag &&& AUDIO_TEXT ≠ 0 then some audio
    else some { audio with call := .put, player := mp3PlayerOnce audio.player }
  | .queue item =>
    if audio.call = .put ∧ audio.player.mutex = .live then
      if audio.player.fault then some { audio with call := .idle }
      else
        match item with
        | none => some { audio with call := .idle }
        | some addr =>
          -- an address that is in use is not allocated
          if addr ∈ audio.player.items then none
          else (audio.player.links.addTail (.item addr) .ready).map fun links =>
            { audio with
              call := .post
              player := { audio.player with links, items := addr :: audio.player.items } }
    else none
  | .post =>
    if audio.call = .post ∧ audio.player.sem = .live then
      let value := if audio.player.value < SEM_VALUE_MAX then audio.player.value + 1
        else audio.player.value
      some { audio with call := .idle, player := { audio.player with value } }
    else none
  | _ => none

/-- A step of the thread of the player. -/
def mp3PlayStep (player : Mp3Player) : AudioOp → Option Mp3Player
  | .once =>
    if player.thread = .start then some { mp3PlayerOnce player with thread := .idle } else none
  | .wait interrupted =>
    if player.thread = .idle ∧ player.sem = .live then
      if interrupted then some player
      else if player.value = 0 then none
      else some { player with value := player.value - 1, thread := .woken }
    else none
  | .take =>
    if player.thread = .woken ∧ player.mutex = .live then
      if player.links.isEmpty .ready then some { player with thread := .idle }
      else
        match player.links.next .ready with
        | some (.item addr) => (player.links.unlink (.item addr)).map fun links =>
            { player with links, thread := .playing addr }
        | _ => none
    else none
  | .finish =>
    match player.thread with
    | .playing addr =>
      if player.mutex = .live then
        some { player with thread := .idle, fault := false, items := player.items.erase addr }
      else none
    | _ => none
  | .cancelled =>
    match player.thread with
    | .idle | .playing _ => some { player with thread := .ended }
    | _ => none
  | _ => none

def audioStep (audio : AudioSys) (op : AudioOp) : Option AudioSys :=
  match op with
  | .change .. | .joined _ | .put _ | .queue _ | .post => audioCallStep audio op
  | .cancelled =>
    match audio.call with
    | .join _ => (mp3PlayStep audio.player op).map fun player => { audio with player }
    | _ => none
  | _ => (mp3PlayStep audio.player op).map fun player => { audio with player }

/-- The step locks the mutex of the player. -/
def LocksPlayer (audio : AudioSys) : AudioOp → Prop
  | .queue _ => audio.call = .put
  | .take => audio.player.thread = .woken
  | .finish => ∃ item, audio.player.thread = .playing item
  | _ => False

/-- The step waits on the semaphore of the player or posts it. -/
def UsesSem (audio : AudioSys) : AudioOp → Prop
  | .post => audio.call = .post
  | .wait _ => audio.player.thread = .idle
  | _ => False

/-- What a step locks, waits on or posts was initialised and not destroyed, and the list is one. -/
def Usable (audio : AudioSys) (op : AudioOp) : Prop :=
  (LocksPlayer audio op →
    audio.player.mutex = .live ∧ ∃ nodes, audio.player.links.Ring .ready nodes)
  ∧ (UsesSem audio op → audio.player.sem = .live ∧ ∃ nodes, audio.player.links.Ring .ready nodes)

/-- At rest there is as much in the semaphore as in the list. -/
def Balanced (audio : AudioSys) : Prop :=
  audio.call ≠ .post → audio.player.thread ≠ .woken → audio.player.sem = .live →
    ∃ nodes, audio.player.links.Ring .ready nodes ∧ audio.player.value = nodes.length

end VdCamera.Dev
