import VdCamera.Misc.FileSystem

/-!
# Making a path

`mkpath` of `storage/storage_common.cpp:93-156`, on any file system. The characters in front of the
pointer `s` and those from it on are two lists; the character that is replaced by a terminator is the
first of the second one. The copy of the path is given, and the mode is that of every `mkdir`.
-/

namespace VdCamera.Storage

open Misc

/-- `do ++s; while (*s == '/');` -/
def skipSlashes : List UInt8 → List UInt8 × List UInt8
  | [] => ([], [])
  | c :: s =>
    if c = 47 then
      let (skipped, s) := skipSlashes s
      (c :: skipped, s)
    else ([], c :: s)

/-- The inner loop: the characters that `s` goes over, and those from it on. -/
def nextCut : List UInt8 → List UInt8 × List UInt8
  | [] => ([], [])
  | c :: s =>
    if c = 47 then
      let (skipped, s) := skipSlashes s
      (c :: skipped, s)
    else
      let (taken, s) := nextCut s
      (c :: taken, s)

section

variable {σ : Type} (fs : FileSystem σ)

/-- The loop of `mkpath`; `none` when the fuel does not suffice. -/
def mkpathLoop : Nat → List UInt8 → List UInt8 → σ → Option (Int × σ)
  | 0, _, _, _ => none
  | fuel + 1, before, s, st =>
    let (taken, s) := nextCut s
    let tmpPath := before ++ taken
    if fs.access st tmpPath then
      if !fs.isDir st tmpPath then some (-1, st)
      else if s = [] then some (0, st)
      else mkpathLoop fuel tmpPath s st
    else
      match fs.mkdir st tmpPath with
      | none => some (-1, st)
      | some st => if s = [] then some (0, st) else mkpathLoop fuel tmpPath s st

def mkpath (fuel : Nat) (path : List UInt8) (st : σ) : Option (Int × σ) := mkpathLoop fs fuel [] path st

end

end VdCamera.Storage
