import VdCamera.Misc.Text
import VdCamera.Misc.Run
import VdCamera.Sys.TimeUtil

/-!
# The event log

`src/ve/event.c`. Any thread may put an event into the list; the event thread waits on a semaphore,
appends what is in the list to a file, and renames the file once it is large. The threads that are in
`event_put` stand at the mutex, hold it, or have still to post the semaphore. A file that does not
exist is an empty one, which is all that is read of it.
-/

namespace VdCamera.Sys

open Misc

/-- `EVENT_FILE_MAX_SIZE`. -/
def EVENT_FILE_MAX_SIZE : Nat := 1024 * 100

/-- What is read of a `struct tm`. -/
structure Tm where
  year : Int
  mon : Int
  mday : Int
  hour : Int
  min : Int
  sec : Int
  deriving DecidableEq, Repr

/-- `event_item_t`, less its link; the strings without the zeros behind them. -/
structure EventItem where
  tv : Timeval
  ident : List UInt8
  desc : List UInt8
  deriving DecidableEq, Repr

/-- `%0<w>d`. -/
def fmtZeros (w : Nat) (n : Int) : List UInt8 :=
  (if n < 0 then [45] else []) ++ List.replicate (w - (fmtInt n).length) 48 ++ fmtInt n.natAbs

/-- `%-<w>s`. -/
def fmtLeft (w : Nat) (s : List UInt8) : List UInt8 := s ++ List.replicate (w - s.length) 32

section Text

variable (localtime : Int → Tm)

/-- `timeval2str` into a buffer of `size` bytes. -/
def timeval2str (size : Nat) (tv : Timeval) : List UInt8 :=
  let tm := localtime tv.sec
  (fmtZeros 4 (tm.year + 1900) ++ [45] ++ fmtZeros 2 (tm.mon + 1) ++ [45] ++ fmtZeros 2 tm.mday
    ++ [32] ++ fmtZeros 2 tm.hour ++ [58] ++ fmtZeros 2 tm.min ++ [58] ++ fmtZeros 2 tm.sec
    ++ [46] ++ fmtZeros 3 (tv.usec.tdiv 1000)).take (size - 1)

/-- The line that `snprintf` leaves in `buf`, which has 1024 bytes. -/
def eventText (item : EventItem) : List UInt8 :=
  (ascii "|" ++ fmtLeft 24 (timeval2str localtime 64 item.tv) ++ ascii "|" ++ fmtLeft 32 item.ident
    ++ ascii "|" ++ fmtLeft 64 item.desc ++ ascii "|\n").take 1023

/-- What is written for an event: its line, and a line of dashes under it. -/
def eventRecord (item : EventItem) : List UInt8 :=
  let text := eventText localtime item
  text ++ List.replicate (text.length - 1) 45 ++ [10]

end Text

/-- Who has the mutex: nobody, a thread before its `list_add_tail` or behind it, or the event
thread. -/
inductive EventHolder where
  | free
  | adding (item : EventItem)
  | added
  | daemon
  deriving DecidableEq, Repr

/-- Where the event thread is. -/
inductive EventPlace where
  | rotate
  | wait
  | lock
  | check
  | write
  | unlock
  deriving DecidableEq, Repr

/-- `event_t` with its threads and files. Beside it the events that were put in, in the order of
their `list_add_tail`, the bytes of the files that were given up, and how often the file could not be
opened since the list was last seen empty. -/
structure EventLog where
  ls : List EventItem := []
  sem : Nat := 0
  holder : EventHolder := .free
  calls : List EventItem := []
  posting : Nat := 0
  place : EventPlace := .rotate
  file : List UInt8 := []
  old : List UInt8 := []
  puts : List EventItem := []
  lost : List UInt8 := []
  failed : Nat := 0
  deriving DecidableEq, Repr

/-- How the calls on the files go. -/
structure EventFiles where
  removed : Bool := true
  renamed : Bool := true
  opened : Bool := true
  deriving DecidableEq, Repr

/-- `file_rotate`. -/
def fileRotate (o : EventFiles) (s : EventLog) : EventLog :=
  if s.file.length < EVENT_FILE_MAX_SIZE / 2 then s
  else
    let s := if o.removed then { s with lost := s.lost ++ s.old, old := [] } else s
    if o.renamed then { s with lost := s.lost ++ s.old, old := s.file, file := [] } else s

/-- `__event_daemon`. -/
def eventDaemon (localtime : Int → Tm) (o : EventFiles) (s : EventLog) : Option EventLog :=
  match s.place with
  | .rotate => some { fileRotate o s with place := .wait }
  | .wait => if s.sem = 0 then none else some { s with sem := s.sem - 1, place := .lock }
  | .lock =>
    if s.holder = .free then some { s with holder := .daemon, place := .check } else none
  | .check =>
    if s.ls = [] then some { s with failed := 0, place := .unlock }
    else if o.opened then some { s with place := .write }
    else some { s with failed := s.failed + 1, place := .unlock }
  | .write =>
    match s.ls with
    | [] => some { s with failed := 0, place := .unlock }
    | item :: ls => some { s with ls, file := s.file ++ eventRecord localtime item }
  | .unlock => some { s with holder := .free, place := .rotate }

/-- A step of one of the threads: a call of `event_put`, one of the callers takes the mutex, adds its
event, gives the mutex back, posts the semaphore; the event thread goes on. -/
inductive EventStep where
  | put (item : EventItem)
  | lock (k : Nat)
  | add
  | unlock
  | post
  | daemon (o : EventFiles)
  deriving DecidableEq, Repr

/-- `__event_put`, one step of it, or of `event_thread`. -/
def eventStep (localtime : Int → Tm) (s : EventLog) : EventStep → Option EventLog
  | .put item => some { s with calls := s.calls ++ [item] }
  | .lock k =>
    match s.holder, s.calls[k]? with
    | .free, some item => some { s with holder := .adding item, calls := s.calls.eraseIdx k }
    | _, _ => none
  | .add =>
    match s.holder with
    | .adding item =>
      some { s with holder := .added, ls := s.ls ++ [item], puts := s.puts ++ [item] }
    | _ => none
  | .unlock =>
    if s.holder = .added then some { s with holder := .free, posting := s.posting + 1 } else none
  | .post =>
    if s.posting = 0 then none else some { s with posting := s.posting - 1, sem := s.sem + 1 }
  | .daemon o => eventDaemon localtime o s

end VdCamera.Sys
