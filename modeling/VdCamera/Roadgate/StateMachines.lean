import VdCamera.Roadgate.Handlers

/-!
# The state machines

The 24 machines of the three detection modes, and the tables and handlers that they are made of.
-/

namespace VdCamera.Roadgate

/-! ## The coil state machines

`src/ve/dev/roadgate/coil/*.c`: the eight machines of the coil detection, and the tables and
handlers they are made of. The machines of `front_record_entrance.c` and `front_record_export.c`
have the handlers of `front_entrance.c` and `front_export.c` under other names.
-/

/-! ### Tables -/

/-- `[RG_ACTION_UP] = {set_up_signal, STATUS_LO_OPEN}` of the idle handlers. -/
def idleLoTab (setUpSignal : Env → Gate → Gate) : LoTab
  | .up => some ⟨setUpSignal, .loOpen⟩
  | _ => none

/-- The manual controls every idle handler has (`coil/front_entrance.c:60-69`). -/
def idleManual : Action → Option CtrlHandle
  | .up => some ⟨port rgSetUpSignal, .centerOpen⟩
  | .dn => some ⟨rgDownS, .centerClose⟩
  | .stop => some ⟨port rgStop, .centerStop⟩
  | .ncSet => some ⟨port rgClrUpSignal, .centerNc⟩
  | .noSet => some ⟨port rgSetUpSignal, .centerNo⟩
  | .ncClr => none

/-- The center table of `front_idle` (`coil/front_entrance.c:59-72`). -/
def frontIdleTab : CenterTab
  | .manual, a => idleManual a
  | .other, .up => some ⟨port rgSetUpSignal, .centerOpen⟩
  | _, _ => none

/-- The center table of `mix_idle` (`coil/mix_entrance.c:58-75`). -/
def mixIdleTab : CenterTab
  | .manual, a => idleManual a
  | .auto, .up => some ⟨port rgSetUpSignal, .centerOpen⟩
  | .other, .up => some ⟨port rgSetUpSignal, .centerOpen⟩
  | _, _ => none

/-- The center table of `center_idle` (`coil/center_entrance.c:43-61`). -/
def centerIdleTab : CenterTab
  | .manual, a => idleManual a
  | .auto, .up => some ⟨centerCenterSetUpSignal, .centerOpen⟩
  | .other, .up => some ⟨centerCenterSetUpSignal, .centerOpen⟩
  | _, _ => none

/-- `[RG_ACTION_UP] = {front_do_dummy, STATUS_CENTER_NC_LO_WAIT}` of `front_center_nc`. -/
def ncLoTab : LoTab
  | .up => some ⟨doDummy, .centerNcLoWait⟩
  | _ => none

/-- The manual controls every normal close handler has (`coil/front_entrance.c:212-219`). -/
def ncManual : Action → Option CtrlHandle
  | .ncClr => some ⟨doDummy, .idle⟩
  | .up => some ⟨port rgSetUpSignal, .centerNcCenterOpen⟩
  | .dn => some ⟨rgDownS, .centerNcCenterClose⟩
  | .stop => some ⟨port rgClrUpSignal, .centerNcCenterStop⟩
  | _ => none

/-- The center table of `front_center_nc`. -/
def frontNcTab : CenterTab
  | .manual, a => ncManual a
  | _, _ => none

/-- The center table of `center_center_nc` (`coil/center_entrance.c:146-159`). -/
def centerNcTab : CenterTab
  | .manual, a => ncManual a
  | .auto, .up => some ⟨centerCenterSetUpSignal, .centerOpen⟩
  | _, _ => none

/-- The same in the exports (`coil/center_export.c:138-154`), where `OTHER` opens as well. -/
def centerNcExportTab : CenterTab
  | .manual, a => ncManual a
  | .auto, .up => some ⟨centerCenterSetUpSignal, .centerOpen⟩
  | .other, .up => some ⟨centerCenterSetUpSignal, .centerOpen⟩
  | _, _ => none

/-- The center table of `front_center_nc_lo_wait` (`coil/front_entrance.c:274-283`). -/
def loWaitTab (setUpSignal : Env → Gate → Gate) : CenterTab
  | .manual, .ncClr => some ⟨setUpSignal, .loOpen⟩
  | .manual, .up => some ⟨port rgSetUpSignal, .centerNcCenterOpen⟩
  | .manual, .dn => some ⟨rgDownS, .centerNcCenterClose⟩
  | .manual, .stop => some ⟨port rgClrUpSignal, .centerNcCenterStop⟩
  | _, _ => none

/-! ### Entrances -/

/-- `front_idle` (`coil/front_entrance.c:30-103`). -/
def frontIdle : Handler := idleHandle (idleLoTab frontSetUpSignal) frontIdleTab

/-- `front_lo_open` (`coil/front_entrance.c:105-150`). -/
def frontLoOpen : Handler := loOpenEntrance [.dn, .stop] .coilFree

/-- `front_center_open` (`coil/front_entrance.c:152-168`). -/
def frontCenterOpen : Handler := openUntilClosed .overtime

/-- `front_center_nc` (`coil/front_entrance.c:180-242`). -/
def frontCenterNc : Handler := centerNcHandle ncLoTab frontNcTab

/-- `front_center_nc_lo_wait` (`coil/front_entrance.c:253-302`). -/
def frontCenterNcLoWait : Handler := centerNcLoWaitHandle (loWaitTab frontSetUpSignal)

/-- `coil_front_entrance` (`coil/front_entrance.c:379-404`). -/
def coilFrontEntrance : StatusHandle :=
  entranceTable frontIdle frontLoOpen frontCenterOpen frontCenterNc frontCenterNcLoWait

/-- `coil_front_record_entrance` (`coil/front_record_entrance.c:377-402`). -/
def coilFrontRecordEntrance : StatusHandle :=
  entranceTable frontIdle frontLoOpen frontCenterOpen frontCenterNc frontCenterNcLoWait

/-- `center_idle` (`coil/center_entrance.c:30-92`). -/
def centerIdle : Handler := idleHandle noLo centerIdleTab

/-- `center_center_nc` (`coil/center_entrance.c:128-185`). -/
def centerCenterNc : Handler := centerNcHandle noLo centerNcTab

/-- `coil_center_entrance` (`coil/center_entrance.c:259-282`). -/
def coilCenterEntrance : StatusHandle := centerTable centerIdle centerCenterOpen centerCenterNc

/-- `mix_idle` (`coil/mix_entrance.c:30-106`). -/
def mixIdle : Handler := idleHandle (idleLoTab frontSetUpSignal) mixIdleTab

/-- `mix_lo_open` (`coil/mix_entrance.c:117-164`). -/
def mixLoOpen : Handler := loOpenEntrance [.dn, .stop] .overtimeCoilFree

/-- `mix_center_open` (`coil/mix_entrance.c:166-183`). -/
def mixCenterOpen : Handler := openUntilClosed .overtimeCoilFree

/-- `coil_mix_entrance` (`coil/mix_entrance.c:393-418`). -/
def coilMixEntrance : StatusHandle :=
  entranceTable mixIdle mixLoOpen mixCenterOpen frontCenterNc frontCenterNcLoWait

/-! ### Exports -/

/-- `front_idle` (`coil/front_export.c:23-95`). -/
def frontExportIdle : Handler := idleHandle (idleLoTab (port rgSetUpSignal)) frontIdleTab

/-- `front_lo_open` (`coil/front_export.c:97-119`). -/
def frontExportLoOpen : Handler := openUntilCtrl .overtimeCoilFree

/-- `front_center_nc` (`coil/front_export.c:148-196`). -/
def frontExportCenterNc : Handler := centerNcHandle noLo frontNcTab

/-- `front_center_nc_center_open` (`coil/front_export.c:198-213`). -/
def frontExportCenterNcCenterOpen : Handler := centerNcCenterOpenHandle backToNc

/-- `coil_front_export` (`coil/front_export.c:268-292`). -/
def coilFrontExport : StatusHandle :=
  exportTable frontExportIdle frontExportLoOpen frontCenterOpen frontExportCenterNc
    frontExportCenterNcCenterOpen

/-- `coil_front_record_export` (`coil/front_record_export.c:268-292`). -/
def coilFrontRecordExport : StatusHandle :=
  exportTable frontExportIdle frontExportLoOpen frontCenterOpen frontExportCenterNc
    frontExportCenterNcCenterOpen

/-- `center_center_nc` (`coil/center_export.c:121-180`). -/
def centerExportCenterNc : Handler := centerNcHandle noLo centerNcExportTab

/-- `coil_center_export` (`coil/center_export.c:247-270`). -/
def coilCenterExport : StatusHandle :=
  centerTable centerIdle (openUntilClosed .overtime) centerExportCenterNc

/-- `mix_idle` (`coil/mix_export.c:23-99`). -/
def mixExportIdle : Handler := idleHandle (idleLoTab (port rgSetUpSignal)) mixIdleTab

/-- `mix_lo_open` (`coil/mix_export.c:101-120`). -/
def mixExportLoOpen : Handler := openUntilCtrl .overtime

/-- `coil_mix_export` (`coil/mix_export.c:269-293`). -/
def coilMixExport : StatusHandle :=
  exportTable mixExportIdle mixExportLoOpen frontCenterOpen frontExportCenterNc
    frontExportCenterNcCenterOpen

/-! ## The video and mix state machines

`src/ve/dev/roadgate/video/*.c` and `mix/*.c`: the sixteen machines of the other two detection
modes. They are the coil machines with another way to raise the barrier for a local control and
other conditions for closing it. Handlers that are textually those of the coil machine are used from
there.
-/

/-! ### Video -/

/-- `video_front_entrance` (`video/front_entrance.c:347-372`): nothing asks the coil. -/
def videoFrontEntrance : StatusHandle :=
  entranceTable frontExportIdle (openUntilCtrl .overtime) frontCenterOpen frontCenterNc
    (centerNcLoWaitHandle (loWaitTab (port rgSetUpSignal)))

/-- `video_front_record_entrance` (`video/front_record_entrance.c:347-372`). -/
def videoFrontRecordEntrance : StatusHandle :=
  entranceTable frontExportIdle (openUntilCtrl .overtimeCoilFree) frontCenterOpen frontCenterNc
    (centerNcLoWaitHandle (loWaitTab (port rgSetUpSignal)))

/-- `video_center_entrance` (`video/center_entrance.c:251-274`). -/
def videoCenterEntrance : StatusHandle :=
  centerTable centerIdle (openUntilCtrl .overtime) centerCenterNc

/-- The center table of `mix_center_nc` (`video/mix_entrance.c:160-172`), where `OTHER` opens. -/
def videoMixNcTab : CenterTab
  | .manual, a => ncManual a
  | .other, .up => some ⟨port rgSetUpSignal, .centerNcCenterOpen⟩
  | _, _ => none

/-- `video_mix_entrance` (`video/mix_entrance.c:260-285`): an entrance without the local wait
state. -/
def videoMixEntrance : StatusHandle :=
  exportTable mixExportIdle (openUntilClosed .overtime) mixCenterOpen (centerNcHandle noLo videoMixNcTab)
    centerNcCenterOpenUntilClosed

/-- `video_front_export` (`video/front_export.c:266-290`). -/
def videoFrontExport : StatusHandle :=
  exportTable frontExportIdle (openUntilCtrl .overtime) frontCenterOpen frontExportCenterNc
    frontExportCenterNcCenterOpen

/-- `video_front_record_export` (`video/front_record_export.c:266-290`). -/
def videoFrontRecordExport : StatusHandle :=
  exportTable frontExportIdle (openUntilCtrl .overtime) frontCenterOpen frontExportCenterNc
    frontExportCenterNcCenterOpen

/-- `video_center_export` (`video/center_export.c:247-270`). -/
def videoCenterExport : StatusHandle :=
  centerTable centerIdle (openUntilClosed .overtime) centerExportCenterNc

/-- `video_mix_export` (`video/mix_export.c:270-294`). -/
def videoMixExport : StatusHandle :=
  exportTable mixExportIdle mixExportLoOpen frontCenterOpen frontExportCenterNc
    frontExportCenterNcCenterOpen

/-! ### Mix -/

/-- `mix_front_entrance` (`mix/front_entrance.c:381-406`): a manual `UP` also ends the local
opening. -/
def mixFrontEntrance : StatusHandle :=
  entranceTable frontExportIdle (loOpenEntrance [.up, .dn, .stop] .overtimeCoilFree) frontCenterOpen
    frontCenterNc (centerNcLoWaitHandle (loWaitTab (port rgSetUpSignal)))

/-- `mix_front_record_entrance` (`mix/front_record_entrance.c:377-402`). -/
def mixFrontRecordEntrance : StatusHandle :=
  entranceTable frontExportIdle mixLoOpen frontCenterOpen frontCenterNc
    (centerNcLoWaitHandle (loWaitTab (port rgSetUpSignal)))

/-- `mix_center_entrance` (`mix/center_entrance.c:259-282`). -/
def mixCenterEntrance : StatusHandle := centerTable centerIdle centerCenterOpen centerCenterNc

/-- `mix_mix_entrance` (`mix/mix_entrance.c:384-409`). -/
def mixMixEntrance : StatusHandle :=
  entranceTable mixIdle mixLoOpen mixCenterOpen frontCenterNc frontCenterNcLoWait

/-- `mix_front_export` (`mix/front_export.c:267-291`). -/
def mixFrontExport : StatusHandle :=
  exportTable frontExportIdle frontExportLoOpen frontCenterOpen frontExportCenterNc
    frontExportCenterNcCenterOpen

/-- `mix_front_record_export` (`mix/front_record_export.c:268-292`). -/
def mixFrontRecordExport : StatusHandle :=
  exportTable frontExportIdle frontExportLoOpen frontCenterOpen frontExportCenterNc
    frontExportCenterNcCenterOpen

/-- `mix_center_export` (`mix/center_export.c:247-270`). -/
def mixCenterExport : StatusHandle :=
  centerTable centerIdle (openUntilClosed .overtime) centerExportCenterNc

/-- `mix_mix_export` (`mix/mix_export.c:269-293`). -/
def mixMixExport : StatusHandle :=
  exportTable mixExportIdle mixExportLoOpen frontCenterOpen frontExportCenterNc
    frontExportCenterNcCenterOpen

end VdCamera.Roadgate
