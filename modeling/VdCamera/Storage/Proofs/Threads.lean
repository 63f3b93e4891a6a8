import VdCamera.Storage.Disk
import VdCamera.Storage.FileServer

/-!
# The threads that carry out disk commands and serve connections

The argument of a call is handed over through a condition without a predicate: in time it is copied
before the creator goes on, and no signal is lost.
-/

namespace VdCamera.Storage

open Misc

/-- In every state that a run with its steps in time comes to, for either pair of threads, the
creator does not wait for a signal that has been given, and the worker of every call past its wait
has copied the argument it was created for. -/
theorem threads_handOver (cmd : DiskCmd) (clientNum stack : Int) :
    (∀ is s, Along diskCmdStep HandOff.InTime { shared := cmd.words } is →
      runFrom diskCmdStep { shared := cmd.words } is = some s → s.NoneLost ∧ s.Intact) ∧
    (∀ is s, Along (fsServerRunStep stack) HandOff.InTime { shared := [clientNum] } is →
      runFrom (fsServerRunStep stack) { shared := [clientNum] } is = some s →
      s.NoneLost ∧ s.Intact) := by
  constructor
  · intro is s htime hrun
    have hinit : HandOff.Inv DiskCmd.cleared.words.length ({ shared := cmd.words } : HandOff Int) :=
      HandOff.inv_init rfl rfl rfl
    have hinv := HandOff.run_inv hinit htime hrun
    exact ⟨hinv.noneLost, hinv.intact⟩
  · intro is s htime hrun
    have hinit : HandOff.Inv [stack].length ({ shared := [clientNum] } : HandOff Int) :=
      HandOff.inv_init rfl rfl rfl
    have hinv := HandOff.run_inv hinit htime hrun
    exact ⟨hinv.noneLost, hinv.intact⟩

/-- One call whose worker starts when the creator waits. -/
def calmCall (arg : List Int) : List (HandOffStep Int) :=
  [.call arg, .creator true, .creator true, .creator true] ++
    List.replicate (arg.length + 1) .current ++ List.replicate (arg.length + 3) (.creator true)

theorem threads_handOver_calm :
    (∃ s, runFrom diskCmdStep { shared := [0, 0, 0] } (calmCall [2, 0, 1]) = some s ∧
      s.place = .idle ∧ s.served = [⟨[2, 0, 1], [2, 0, 1], true⟩] ∧ s.NoneLost ∧ s.Intact) ∧
    (∃ s, runFrom (fsServerRunStep 7) { shared := [0] } (calmCall [4]) = some s ∧
      s.place = .idle ∧ s.served = [⟨[4], [4], true⟩] ∧ s.NoneLost ∧ s.Intact) :=
  ⟨⟨_, rfl, rfl, rfl, (threads_handOver ⟨0, 0, 0⟩ 0 7).1 (calmCall [2, 0, 1]) _ (by decide) rfl⟩,
    ⟨_, rfl, rfl, rfl, (threads_handOver ⟨0, 0, 0⟩ 0 7).2 (calmCall [4]) _ (by decide) rfl⟩⟩

/-- A worker that signals before the creator waits leaves it waiting, and a wake-up from elsewhere
has the command cleared before it is copied. -/
theorem threads_not_handOver :
    (∃ s, runFrom diskCmdStep { shared := [0, 0, 0] }
        [.call [2, 0, 1], .creator true, .creator true, .current, .current, .current, .current,
          .creator true] = some s ∧ ¬ s.NoneLost) ∧
    (∃ s, runFrom (fsServerRunStep 7) { shared := [0] }
        [.call [4], .creator true, .creator true, .current, .current, .creator true] = some s ∧
      ¬ s.NoneLost) ∧
    (∃ s, runFrom diskCmdStep { shared := [0, 0, 0] }
        [.call [2, 0, 1], .creator true, .creator true, .creator true, .wakeUp, .creator true,
          .creator true, .served 0] = some s ∧ ¬ s.Intact) := by
  refine ⟨⟨_, rfl, ?_⟩, ⟨_, rfl, ?_⟩, ⟨_, rfl, ?_⟩⟩
  · decide
  · decide
  · decide

end VdCamera.Storage
