import Mathlib.Algebra.Ring.Int.Defs
import Mathlib.Algebra.Ring.Nat
import Mathlib.Tactic.Common

/-!
# Time comparison

`src/sys/time_util.c`. The target is a 32-bit ARM Linux: `int_fast32_t` and `time_t` have 32 bits,
and a result that does not fit wraps around.
-/

namespace VdCamera.Sys

/-- `struct timeval`. -/
structure Timeval where
  sec : Int
  usec : Int
  deriving DecidableEq, Repr

/-- The value a 32-bit signed integer takes. -/
def int32 (z : Int) : Int := z.bmod (2 ^ 32)

/-- The `timersub` macro of `<sys/time.h>`. -/
def timersub (a b : Timeval) : Timeval :=
  let sec := int32 (a.sec - b.sec)
  let usec := a.usec - b.usec
  if usec < 0 then ⟨int32 (sec - 1), usec + 1000000⟩ else ⟨sec, usec⟩

/-- `timeval_is_overtime` (`time_util.c:175-198`), `curr` being what `gettimeofday` returns. -/
def timevalIsOvertime (curr prev : Timeval) (timeout : Nat) : Bool :=
  let timeout := int32 timeout
  let diff := timersub curr prev
  if diff.sec < 0 then true
  else
    let diffMs := int32 (diff.sec * 1000)
    if diffMs > timeout then true
    else
      let diffMs := int32 (diffMs + diff.usec.tdiv 1000)
      decide (diffMs ≥ timeout)

/-- `struct timespec`. -/
structure Timespec where
  sec : Int
  nsec : Int
  deriving DecidableEq, Repr

/-- `timespec_sub`. -/
def timespecSub (a b : Timespec) : Timespec :=
  let sec := int32 (a.sec - b.sec)
  let nsec := a.nsec - b.nsec
  -- the source takes the second away here as well
  if nsec < 0 then ⟨int32 (sec - 1), nsec - 1000000000⟩ else ⟨sec, nsec⟩

/-- `timespec_diff_msec`. -/
def timespecDiffMsec (a b : Timespec) : Int :=
  let t := timespecSub a b
  int32 (int32 (t.sec * 1000) + t.nsec.tdiv 1000000)

/-- `timespec_diff_sec`. -/
def timespecDiffSec (a b : Timespec) : Int := (timespecSub a b).sec

end VdCamera.Sys
