import VdCamera.Misc.CString

/-!
# What the file server may be asked for

`is_path_dir` and `is_path_regular_file` of `storage/file_system_server.cpp`. A path is its bytes; what
the system says of one is an input.
-/

namespace VdCamera.Storage

open Misc

/-- What `realpath` gives: the names from the root on. -/
structure CanonPath where
  names : List (List UInt8)
  valid : ∀ n ∈ names, n ≠ [] ∧ 47 ∉ n ∧ 0 ∉ n ∧ n ≠ ascii "." ∧ n ≠ ascii ".."

/-- The path as a string. -/
def CanonPath.text (r : CanonPath) : List UInt8 :=
  if r.names = [] then [47] else r.names.flatMap (47 :: ·)

/-- `realpath`, `access` with a mode, and the `st_mode` of `stat`. -/
structure PathSystem where
  realpath : List UInt8 → Option CanonPath
  access : List UInt8 → Nat → Bool
  stat : List UInt8 → Option Nat

def R_OK : Nat := 4

def X_OK : Nat := 1

/-- `S_ISDIR`. -/
def S_ISDIR (mode : Nat) : Bool := mode &&& 0xF000 == 0x4000

/-- `S_ISREG`. -/
def S_ISREG (mode : Nat) : Bool := mode &&& 0xF000 == 0x8000

def FS_PATH_PERMISSION : List UInt8 := ascii "/media"

def FS_PATH_PERMISSION_LEN : Nat := 6

/-- `strncmp(s, t, n) == 0`. -/
def strncmpZero (s t : List UInt8) (n : Nat) : Bool := (s ++ [0]).take n == (t ++ [0]).take n

section

variable (sys : PathSystem)

/-- What the two functions have in common (`file_system_server.cpp:677-700` and `913-936`). -/
def pathCheck (mode : Nat) (isKind : Nat → Bool) (path : List UInt8) : Int :=
  match sys.realpath path with
  | none => -1
  | some resolved =>
    if !strncmpZero resolved.text FS_PATH_PERMISSION FS_PATH_PERMISSION_LEN then -1
    else if !sys.access path mode then -1
    else
      match sys.stat path with
      | none => -1
      | some stMode => if isKind stMode then 1 else 0

def isPathDir (path : List UInt8) : Int := pathCheck sys X_OK S_ISDIR path

def isPathRegularFile (path : List UInt8) : Int := pathCheck sys R_OK S_ISREG path

end

end VdCamera.Storage
