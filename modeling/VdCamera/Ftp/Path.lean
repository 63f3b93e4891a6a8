import VdCamera.Misc.CString
import VdCamera.Misc.FileSystem
import VdCamera.Misc.Encoding
import VdCamera.Misc.Scan

/-!
# Making a path on an FTP server

What `ftp/ftp.cpp` does on the control connection to make a path: `CWD` with shorter and shorter
prefixes until one can be entered, then `MKD` and `CWD` with the names that were cut off. `USE_UTF8`
is defined, so a command is converted from GBK before it is sent; a function that would leave a buffer
of its own, or send less than its command, gives `none`.
-/

namespace VdCamera.Ftp

open Misc (ascii crlf tokens DirTree LosslessDoubleByte scanDown)

abbrev Name : Type := List UInt8

/-- A server that is in one of its directories. -/
structure Server where
  tree : DirTree Name
  cwd : List Name
  inside : tree.isDir cwd = true

/-- The names that an argument stands for. -/
def resolve (cwd : List Name) (arg : List UInt8) : List Name :=
  if arg.head? = some 47 then tokens 47 arg else cwd ++ tokens 47 arg

namespace Server

/-- `CWD`. -/
def changeDir (s : Server) (arg : List UInt8) : Option Server :=
  if h : s.tree.isDir (resolve s.cwd arg) = true then
    some { s with cwd := resolve s.cwd arg, inside := h }
  else none

/-- `MKD`. -/
def makeDir (s : Server) (arg : List UInt8) : Option Server :=
  match (resolve s.cwd arg).getLast? with
  | none => none
  | some name =>
    match h : s.tree.mkdir (resolve s.cwd arg).dropLast name with
    | none => none
    | some tree => some { s with tree, inside := DirTree.isDir_mkdir h s.inside }

/-- The code of the reply to a line, and the server after it. -/
def answer (s : Server) (line : List UInt8) : Option (Nat × Server) :=
  if crlf.isSuffixOf line then
    let arg := (line.drop 4).dropLast.dropLast
    if (ascii "CWD ").isPrefixOf line then
      some (match s.changeDir arg with
        | some s' => (250, s')
        | none => (550, s))
    else if (ascii "MKD ").isPrefixOf line then
      some (match s.makeDir arg with
        | some s' => (257, s')
        | none => (550, s))
    else none
  else none

end Server

variable (enc : LosslessDoubleByte)

/-- `convert_enc` into a buffer of `size` bytes: the whole of the text, and a terminator. The conversion
is one that `iconv_open` knows; without it nothing is written, and the caller does not look. -/
def convertEnc (text : List UInt8) (size : Nat) : Option (List UInt8) :=
  if enc.complete text ∧ (enc.toUtf8 text).length < size then some (enc.toUtf8 text) else none

/-- `ftp_cd_dir`, with its two buffers of 256 bytes. -/
def ftpCdDir (s : Server) (dir : List UInt8) : Option (Bool × Server) :=
  let cmd := ascii "CWD " ++ dir ++ crlf
  if cmd.length < 256 then
    (convertEnc enc cmd 256).bind fun ftpCmdBuf =>
      (s.answer ftpCmdBuf).map fun r => (r.1 = 250, r.2)
  else none

/-- `ftp_mkd`. -/
def ftpMkd (s : Server) (dir : List UInt8) : Option (Bool × Server) :=
  if dir.length = 0 then some (false, s)
  else
    (convertEnc enc dir (dir.length * 2)).bind fun dirCmd =>
      let buf := ascii "MKD " ++ dirCmd ++ crlf
      if buf.length < dir.length * 2 + 64 then (s.answer buf).map fun r => (r.1 = 257, r.2)
      else none

/-- The string that begins at `tmp_path + i`. -/
def stringAt (tmpPath : List UInt8) (i : Nat) : Option (List UInt8) :=
  if 0 ∈ tmpPath.drop i then some ((tmpPath.drop i).takeWhile (· ≠ 0)) else none

/-- The inner loop: the last slash up to `i` is made a terminator. The first byte is not looked at. -/
def cutComponent (tmpPath : List UInt8) (i : Nat) : Option (List UInt8 × Nat) :=
  if i < tmpPath.length then
    some (match scanDown (fun k => tmpPath[k]? = some 47) 1 i with
      | some j => (tmpPath.set j 0, j)
      | none => (tmpPath, 0))
  else none

/-- The first loop, up to `fuel` times: until a prefix can be entered. -/
def enterExisting : Nat → Server → List UInt8 → Nat → Option (Server × List UInt8 × Nat)
  | 0, _, _, _ => none
  | fuel + 1, s, tmpPath, i =>
    if i = 0 then some (s, tmpPath, i)
    else
      (stringAt tmpPath 0).bind fun dir => (ftpCdDir enc s dir).bind fun r =>
        if r.1 then some (r.2, tmpPath, i)
        else (cutComponent tmpPath i).bind fun c => enterExisting fuel r.2 c.1 c.2

/-- Makes a directory and enters it. -/
def makeEnter (s : Server) (dir : List UInt8) : Option (Bool × Server) :=
  (ftpMkd enc s dir).bind fun r => if r.1 then ftpCdDir enc r.2 dir else some r

/-- The second loop, with so many bytes to go: a name behind each terminator. -/
def makeRest (tmpPath : List UInt8) : Nat → Server → Nat → Option (Bool × Server)
  | 0, s, _ => some (true, s)
  | n + 1, s, i =>
    tmpPath[i]?.bind fun b =>
      if b = 0 then
        (stringAt tmpPath (i + 1)).bind fun dir => (makeEnter enc s dir).bind fun r =>
          if r.1 then makeRest tmpPath n r.2 (i + 1) else some r
      else makeRest tmpPath n s (i + 1)

/-- `ftp_mk_path`. The first loop lowers `i` each time. -/
def ftpMkPath (s : Server) (path : List UInt8) : Option (Bool × Server) :=
  (enterExisting enc (path.length + 1) s (path ++ [0]) path.length).bind fun e =>
    if e.2.2 = 0 then
      (stringAt e.2.1 0).bind fun dir => (makeEnter enc e.1 dir).bind fun r =>
        -- The length is not 0 here: there is no directory without a name.
        if r.1 then makeRest enc e.2.1 (path.length - 1) r.2 0 else some r
    else makeRest enc e.2.1 (path.length - 1 - e.2.2) e.1 e.2.2

end VdCamera.Ftp
