import VdCamera.Misc.RefCount
import VdCamera.Misc.Run
import Mathlib.Data.List.FinRange

/-!
# Objects handed to the platforms

`src/storage/park_records_process.cpp`: an event is copied into an object of `_RefHandleCreate`
(`src/tpi/inc/refhandle.h`), which each platform's `notify` retains and queues, and its main thread
releases. A thread is the list of what it has still to do with its object; what an act does may depend
on how a call goes. `MSG_PARK_ZEHIN_CB` carries no object, here or in the source's handler.
-/

namespace VdCamera.Park.RefHandle

open Misc

/-- The platforms of a parking device. -/
inductive ParkPlatform where
  | zehin
  | bitcom
  | songli
  | http
  | ktetc
  deriving DecidableEq, Repr

/-- `MSG_PARK_ALARM` .. `MSG_PARK_LIGHT`; of a light the first six bytes of its `Lighting_park`. -/
inductive ParkMsgType where
  | alarm
  | record
  | info
  | status
  | snap
  | light (info : Fin 6 → UInt8)
  | zehinCb

/-- What a thread does with its object: reading or writing it, `_RefHandleRetain`,
`_RefHandleRelease`, the release of something else, `vmq_sendto_*` with or without a pointer to the
object; and what may or may not go well: whether a platform is subscribed, `analyze_park_record_picture`
and `tpzehin_provisioned`. -/
inductive RefAct where
  | touch
  | retain
  | release
  | releaseStray
  | send (dst : ParkPlatform) (data : Bool)
  | notify (p : ParkPlatform)
  | analyze
  | provisioned
  deriving DecidableEq, Repr

/-! ## The events -/

/-- The loop over `g_platform_list`. -/
def notifyAll (platforms : List ParkPlatform) : List RefAct := platforms.map .notify

/-- `process_park_alarm`, `process_park_light`, `process_park_status_info`: the object is filled,
shown to the platforms, and released. -/
def processParkAlarm (platforms : List ParkPlatform) : List RefAct :=
  .touch :: (notifyAll platforms ++ [.release])

/-- `process_park_leave_info`, which reads the record again for the history. -/
def processParkLeaveInfo (platforms : List ParkPlatform) : List RefAct :=
  .touch :: (notifyAll platforms ++ [.touch, .release])

/-- `process_park_records`; where the pictures cannot be analyzed it returns. -/
def processParkRecords (platforms : List ParkPlatform) : List RefAct :=
  .touch :: .analyze :: .touch :: (notifyAll platforms ++ [.touch, .release])

/-- `process_snap_return_info`. -/
def processSnapReturnInfo : List RefAct := [.touch, .provisioned, .release]

/-- What the thread does that handles an event, once it has made the object. -/
def processEvent (platforms : List ParkPlatform) : ParkMsgType → List RefAct
  | .alarm | .status | .light _ => processParkAlarm platforms
  | .info => processParkLeaveInfo platforms
  | .record => processParkRecords platforms
  | .snap => processSnapReturnInfo
  | .zehinCb => []

/-! ## The notices -/

/-- `CParkSongli::notify`. -/
def songliNotify : ParkMsgType → List RefAct
  | .alarm | .light _ | .info | .record => [.retain, .send .songli true]
  | _ => []

/-- `CParkHTTP::notify`. -/
def httpNotify : ParkMsgType → List RefAct
  | .alarm | .info | .record => [.retain, .send .http true]
  | _ => []

/-- `CParkKtetc::notify`. -/
def ktetcNotify : ParkMsgType → List RefAct
  | .alarm | .info | .record => [.retain, .send .ktetc true]
  | _ => []

/-- `CParkZehin::notify`; `alarm_notify`, `info_notify` and `record_notify` copy the object. -/
def zehinNotify : ParkMsgType → List RefAct
  | .alarm | .info | .record => [.retain, .touch, .release, .send .zehin false]
  | .status => [.retain, .send .zehin true]
  | _ => []

/-- `CParkBitcom::notify`, which copies the object. -/
def bitcomNotify : ParkMsgType → List RefAct
  | .info | .record => [.retain, .touch, .send .bitcom false, .release]
  | _ => []

/-- The `notify` of the platform. -/
def platformNotify : ParkPlatform → ParkMsgType → List RefAct
  | .zehin => zehinNotify
  | .bitcom => bitcomNotify
  | .songli => songliNotify
  | .http => httpNotify
  | .ktetc => ktetcNotify

/-! ## The handlers -/

/-- `light_flag` of `CParkSongli::light_handler`. -/
def lightFlag (info : Fin 6 → UInt8) : Nat :=
  (List.finRange 6).foldl (fun flag i => flag ||| ((if info i > 0 then 1 else 0) <<< (6 - i.val - 1))) 0

/-- The keys of `map_light`. -/
def mapLight : List Nat := [0x20, 0x30, 0x08, 0x0C, 0x02, 0x03]

/-- What `tpzehin_status_handler` finds: whether it looks at the lights as before a restart,
`tpzehin_space_status_enable`, and whether a status waits for the messages to be sent again. -/
structure StatusAnswers where
  restore : Bool := false
  spaceStatusEnable : Bool := true
  held : Bool := false
  deriving DecidableEq, Repr

/-- `tpzehin_status_handler`. -/
def tpzehinStatusHandler (o : StatusAnswers) : List RefAct :=
  (if o.restore then [.touch] else []) ++
    if !o.spaceStatusEnable then [.release]
    else if o.held then [.touch]
    else [.touch, .release]

/-- `cap_state`; `ZEHIN_CAP_FINISH` is treated as `ZEHIN_CAP_START` is. -/
inductive CapState where
  | START
  | SEND2DSP
  | FINISH
  deriving DecidableEq, Repr

/-- `capture_pic_upload`: what is done with `snap_rtn`, when there is one, and the next state. The
argument that the main thread passes is the place of its pointer to the object. -/
def capturePicUpload (snapRtn : Bool) : CapState → List RefAct × CapState
  | .START | .FINISH => ([], .SEND2DSP)
  | .SEND2DSP => if snapRtn then ([.releaseStray], .FINISH) else ([], .SEND2DSP)

/-- `CParkSongli::alarm_handler` .. `light_handler`. -/
def songliHandler : ParkMsgType → List RefAct
  | .alarm | .record => [.touch, .release]
  | .info => [.release]
  | .light info => .touch :: if lightFlag info ∈ mapLight then [.release] else []
  | _ => []

/-- `http_alarm_handler`, `http_record_handler` and `http_info_handler`. -/
def httpHandler : ParkMsgType → List RefAct
  | .alarm | .record | .info => [.touch, .release]
  | _ => []

/-- `CParkKtetc::alarm_handler`, `record_handler` and `info_handler`. -/
def ktetcHandler : ParkMsgType → List RefAct
  | .alarm | .record | .info => [.touch, .release]
  | _ => []

/-- `tpzehin_pthread`. -/
def zehinHandler (o : StatusAnswers) (cap : CapState) : ParkMsgType → List RefAct × CapState
  | .status => (tpzehinStatusHandler o, cap)
  | .snap => capturePicUpload true cap
  | .zehinCb => capturePicUpload false cap
  | _ => ([], cap)

/-- What the main thread of a platform does for a message, and `cap_state` then. -/
def handler (o : StatusAnswers) (cap : CapState) (type : ParkMsgType) :
    ParkPlatform → List RefAct × CapState
  | .zehin => zehinHandler o cap type
  | .bitcom => ([], cap)
  | .songli => (songliHandler type, cap)
  | .http => (httpHandler type, cap)
  | .ktetc => (ktetcHandler type, cap)

/-! ## The threads -/

/-- `str_park_msg`, and the platform whose type it has. -/
structure RefMsg where
  dst : ParkPlatform
  type : ParkMsgType
  data : Option Nat

/-- A thread on its way through an event, or through a message if it is the main thread of a
platform. Beside it the references that it holds. -/
structure RefThread where
  owner : Option ParkPlatform
  type : ParkMsgType
  obj : Nat
  held : Nat
  acts : List RefAct

/-- The objects, the threads, the queue `MSG_PARK_ID` and `cap_state`. Beside it the references that
nobody holds any more, by their objects. -/
structure RefState where
  heap : RefHeap := {}
  threads : List RefThread := []
  queue : List RefMsg := []
  cap : CapState := .START
  lost : List Nat := []

/-- An event for which `_RefHandleCreate` returns an object or not; the thread `k` goes on, a call of
it going well or not; the main thread of a platform takes its next message; the zehin platform asks
for a picture. -/
inductive RefStep where
  | event (type : ParkMsgType) (created : Bool)
  | thread (k : Nat) (ok : Bool)
  | receive (p : ParkPlatform) (o : StatusAnswers)
  | zehinCb

/-- The thread after its next act, with the objects and the queue. -/
def RefThread.act (t : RefThread) (ok : Bool) (heap : RefHeap) (queue : List RefMsg) :
    RefAct → List RefAct → RefThread × RefHeap × List RefMsg
  | .touch, acts => ({ t with acts }, heap.touch t.obj, queue)
  | .retain, acts => ({ t with acts, held := t.held + 1 }, heap.retain t.obj, queue)
  | .release, acts => ({ t with acts, held := t.held - 1 }, heap.release t.obj, queue)
  | .releaseStray, acts => ({ t with acts }, { heap with fault := true }, queue)
  | .send dst data, acts =>
    if ok then
      if data then ({ t with acts, held := t.held - 1 }, heap, queue ++ [⟨dst, t.type, some t.obj⟩])
      else ({ t with acts }, heap, queue ++ [⟨dst, t.type, none⟩])
    else ({ t with acts }, heap, queue)
  | .notify p, acts =>
    ({ t with acts := if ok then platformNotify p t.type ++ acts else acts }, heap, queue)
  | .analyze, acts => ({ t with acts := if ok then acts else [] }, heap, queue)
  | .provisioned, acts =>
    ({ t with acts := if ok then .retain :: .send .zehin true :: acts else acts }, heap, queue)

/-- One step of the threads. -/
def refStep (platforms : List ParkPlatform) (s : RefState) : RefStep → Option RefState
  | .event type created =>
    match type, created with
    | .zehinCb, _ => none
    | .snap, false => some { s with heap := { s.heap with fault := true } }
    | _, false => some s
    | type, true => some { s with
        heap := s.heap.create
        threads := s.threads ++ [⟨none, type, s.heap.made, 1, processEvent platforms type⟩] }
  | .thread k ok => do
    let t ← s.threads[k]?
    match t.acts with
    | [] => some { s with
        threads := s.threads.eraseIdx k
        lost := s.lost ++ List.replicate t.held t.obj }
    | a :: acts =>
      let (t', heap, queue) := t.act ok s.heap s.queue a acts
      some { s with heap, queue, threads := s.threads.set k t' }
  | .receive p o => do
    if s.threads.any (·.owner = some p) then none
    else
      let m ← s.queue.find? (·.dst = p)
      let queue := s.queue.eraseP (·.dst = p)
      let (acts, cap) := handler o s.cap m.type p
      match m.data with
      | none => some { s with queue, cap }
      | some obj => some { s with
          queue, cap, threads := s.threads ++ [⟨some p, m.type, obj, 1, acts⟩] }
  | .zehinCb => some { s with queue := s.queue ++ [⟨.zehin, .zehinCb, none⟩] }

end VdCamera.Park.RefHandle
