import VdCamera.Config.Sections
import VdCamera.Config.JsonCfg
import VdCamera.Misc.Run

/-!
# Loading and dumping the configuration

`ve_cfg.c`. The steps of a dump are those at which the files change or a call can fail, so that it
may end after any of them.
-/

namespace VdCamera.Config

open Misc

/-- `__ve_cfg_read_new`: the result and the configuration. -/
def veCfgReadNew (L : JsonLibrary) (json : List UInt8) (cfg : VeCfg) : Int × VeCfg :=
  match L.parse json with
  | none => (-1, cfg)
  | some root => (0, readNew rootEntry root cfg)

/-- `__ve_cfg_write_new`: the configuration and what the buffer holds then. -/
def veCfgWriteNew (L : JsonLibrary) (cfg : VeCfg) (buf : List UInt8) (size : Nat) :
    VeCfg × List UInt8 :=
  let (cfg, root) := writeNew rootEntry cfg
  let text := L.print root
  (cfg, if text.length + 1 ≤ size then text else buf)

/-- The profile and its backup; `none` for a file that does not exist. -/
structure Disk where
  profile : Option (List UInt8)
  bak : Option (List UInt8)
deriving DecidableEq

/-- `__ve_cfg_load`; -1 is `EPERM` as well. There is memory for the text, and a file that is there can be
opened and read. -/
def veCfgLoad (L : JsonLibrary) (disk : Disk) (cfg : VeCfg) : Int × VeCfg :=
  match disk.profile with
  | none => (-1, cfg)
  | some json => veCfgReadNew L json cfg

/-! ## `__ve_cfg_dump` -/

inductive DumpPc
  | backup
  | create
  | alloc
  | format (buf : List UInt8)
  | flush (len : Int) (data : List UInt8)
  | settle (len : Int)
  | done (result : Int)
deriving DecidableEq

structure DumpState where
  disk : Disk
  cfg : VeCfg
  pc : DumpPc
deriving DecidableEq

/-- The calls of a dump with what comes of them. -/
inductive DumpEvent
  /-- `rename` of the profile -/
  | backup (ok : Bool)
  /-- `fopen` -/
  | create (ok : Bool)
  /-- `malloc`, with what the memory holds -/
  | alloc (buf : Option (List UInt8))
  /-- `json_format_stream` with the number of `fputc` that succeed -/
  | format (room : Option Nat)
  /-- so many bytes of what was handed to the stream have reached the file -/
  | reach (n : Nat)
  /-- `fflush`, `fsync` and `fclose`, whatever they return -/
  | close
  /-- `remove` or `rename` of the backup -/
  | settle (ok : Bool)
deriving DecidableEq

def bufSize : Nat := 1024 * 1024

/-- `rename(from, to)` with the profile. -/
def Disk.backup (disk : Disk) : Disk := { profile := none, bak := disk.profile }

def Disk.restore (disk : Disk) : Disk := { profile := disk.bak, bak := none }

def dumpStep (L : JsonLibrary) (s : DumpState) (e : DumpEvent) : Option DumpState :=
  match s.pc, e with
  | .backup, .backup ok =>
    some { s with
      disk := if s.disk.profile.isSome && ok then s.disk.backup else s.disk
      pc := .create }
  | .create, .create ok =>
    some (if ok then { s with disk := { s.disk with profile := some [] }, pc := .alloc }
      else { s with pc := .done (-1) })
  | .alloc, .alloc buf =>
    some { s with pc := match buf with | none => .settle (-1) | some buf => .format buf }
  | .format buf, .format room =>
    let (cfg, buf) := veCfgWriteNew L s.cfg buf bufSize
    let (len, f) := jsonFormatStream buf 4 ⟨[], room⟩
    some { s with cfg := cfg, pc := .flush len f.data }
  | .flush _ data, .reach n =>
    if (s.disk.profile.getD []).length ≤ n then
      some { s with disk := { s.disk with profile := some (data.take n) } }
    else none
  | .flush len _, .close => some { s with pc := .settle len }
  | .settle len, .settle ok =>
    some { s with
      disk :=
        if s.disk.bak.isSome && ok then
          if 0 < len then { s.disk with bak := none } else s.disk.restore
        else s.disk
      pc := .done 0 }
  | _, _ => none

/-- A dump of a configuration before its first step. -/
def dumpStart (disk : Disk) (cfg : VeCfg) : DumpState := { disk := disk, cfg := cfg, pc := .backup }

end VdCamera.Config
