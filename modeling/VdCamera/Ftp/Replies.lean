import VdCamera.Ftp.Transfer
import VdCamera.Misc.Memory
import VdCamera.Misc.Run

/-!
# The commands of an upload and their replies

`ftp_put_data` of one buffer as a system of steps on the control connection, one for each command. The
inputs are what the server answers, what `clear_socket_recvbuf` finds before a command and how many
bytes each `recv` returns.
-/

namespace VdCamera.Ftp

open Misc (ascii crlf overwrite)

def MAX_DIR_LEVEL : Nat := 6

/-- The bytes that `iconv` puts out for a text, from UTF-8 to GBK, when there is room for so many;
`iconv_open` knows the two. -/
structure Iconv where
  out : Nat → List UInt8 → List UInt8
  room : ∀ n s, (out n s).length ≤ n
  /-- No character is longer in GBK than it is in UTF-8. -/
  fits : ∀ n s, s.length ≤ n → out n s = out s.length s

/-- The whole text in GBK. -/
def Iconv.whole (iconv : Iconv) (s : List UInt8) : List UInt8 := iconv.out s.length s

/-- `ftp_recv_cmd_response` into the `len` bytes at `buf`; `response` is what `recv` returned. -/
def ftpRecvCmdResponse (iconv : Iconv) (buf len : Nat) (response : Option (List UInt8))
    (mem : Nat → UInt8) : Int × (Nat → UInt8) :=
  match response with
  | none => (FAILURE, mem)
  | some response =>
    (SUCCESS, overwrite (overwrite mem buf (List.replicate len 0)) buf (iconv.out len response))

/-- The `len` bytes at `buf`. -/
def window (mem : Nat → UInt8) (buf len : Nat) : List UInt8 :=
  (List.range len).map fun k => mem (buf + k)

inductive Phase where
  | start
  | cdRoot
  | mkd (k : Nat)
  | pasv
  | socket
  | cdDir
  | stor
  | data
  | response
  | done (ret : Int)
  deriving DecidableEq, Repr

/-- A step read `text` from its buffer of `len` bytes, where the server had answered its command with
`reply`. -/
structure Decision where
  command : List UInt8
  len : Nat
  text : List UInt8
  reply : List UInt8
  deriving DecidableEq, Repr

inductive Status where
  | ok
  | fail
  | exp
  deriving DecidableEq, Repr

/-- `inbox` is what the server has sent and the camera has not yet received; `final` is its second
reply to `STOR`, which it may have sent `early`. -/
structure Upload where
  phase : Phase := .start
  inbox : List UInt8 := []
  final : List UInt8 := []
  early : Bool := false
  status : Status := .ok
  full : Bool := false
  decisions : List Decision := []
  mem : Nat → UInt8 := fun _ => 0

inductive Sent where
  | failed
  | part
  | whole
  deriving DecidableEq, Repr

/-- What a step meets: whether a check, a call or the sending of data succeeds, how much of a command
is sent, how much is dropped before it, the reply of the server (the first of `STOR`, whose second is
`final`), the result of `recv`, and the place of the buffer. -/
structure Input where
  ok : Bool := true
  sent : Sent := .whole
  dropped : Nat := 0
  reply : List UInt8 := []
  final : List UInt8 := []
  early : Bool := false
  got : Option Nat := none
  buf : Nat := 0
  deriving Repr

namespace Upload

variable (iconv : Iconv) (len : Nat) (command reply : List UInt8) (i : Input)

/-- `ftp_recv_cmd_response` for a command with a reply: the text, if there is one, and the upload after
it. `recv` returns at least one byte and no more than `len`. -/
def receive (s : Upload) : Option (Option (List UInt8) × Upload) :=
  match i.got with
  | none =>
    let r := ftpRecvCmdResponse iconv i.buf len none s.mem
    some (none, { s with status := .fail, mem := r.2 })
  | some n =>
    if 0 < n ∧ n ≤ len ∧ n ≤ s.inbox.length then
      let r := ftpRecvCmdResponse iconv i.buf len (some (s.inbox.take n)) s.mem
      let text := window r.2 i.buf len
      some (some text, { s with
        inbox := s.inbox.drop n
        decisions := s.decisions ++ [{ command, len, text, reply }]
        mem := r.2 })
    else none

/-- `clear_socket_recvbuf`. -/
def clearSocketRecvbuf (s : Upload) : Upload := { s with inbox := s.inbox.drop i.dropped }

/-- `ftp_send_cmd`: the server answers a whole command. -/
def ftpSendCmd (answer : List UInt8) (s : Upload) : Upload :=
  let s := s.clearSocketRecvbuf i
  if i.sent = .whole then { s with inbox := s.inbox ++ answer } else { s with status := .fail }

/-- A command and its reply, for the functions that give up unless the whole command was sent. -/
def request (answer : List UInt8) (s : Upload) : Option (Option (List UInt8) × Upload) :=
  let s := s.ftpSendCmd i answer
  if i.sent = .whole then s.receive iconv len command reply i else some (none, s)

def goto (p : Phase) (s : Upload) : Upload := { s with phase := p }

/-- Going on where the text begins with one of the codes, giving up otherwise. -/
def decideOn (codes : List (List UInt8)) (p : Phase) (r : Option (List UInt8) × Upload) : Upload :=
  match r.1 with
  | some text => r.2.goto (if codes.any (·.isPrefixOf text) then p else .done FAILURE)
  | none => r.2.goto (.done FAILURE)

/-- What the last reply says. -/
def conclude (r : Option (List UInt8) × Upload) : Upload :=
  match r.1 with
  | none => r.2.goto (.done FAILURE)
  | some text =>
    if (ascii "226").isPrefixOf text then r.2.goto (.done SUCCESS)
    else if (ascii "452").isPrefixOf text then { r.2.goto (.done FAILURE) with full := true }
    else { r.2.goto (.done FAILURE) with status := .exp }

end Upload

/-- `cmd_dir` with the first `k` levels. -/
def cmdDir (dirs : List (List UInt8)) (k : Nat) : List UInt8 :=
  ascii "/" ++ ((dirs.take k).map (· ++ ascii "/")).flatten

def cwd (dir : List UInt8) : List UInt8 := ascii "CWD " ++ dir ++ crlf

/-- The levels up to the first empty one. -/
def levels (dir : List (List UInt8)) : List (List UInt8) :=
  (dir.take MAX_DIR_LEVEL).takeWhile (· ≠ [])

/-- The size of the buffer that a phase gives to `ftp_recv_cmd_response`. -/
def Phase.bufLen : Phase → Nat
  | .cdRoot | .cdDir => 256
  | .mkd _ => 1024
  | .pasv | .stor | .response => 200
  | .start | .socket | .data | .done _ => 0

/-- One step of `ftp_put_data`. -/
def step (iconv : Iconv) (dir : List (List UInt8)) (filename : List UInt8) (s : Upload) (i : Input) :
    Option Upload :=
  let dirs := levels dir
  match s.phase with
  | .start =>
    some (if i.ok then (s.clearSocketRecvbuf i).goto .cdRoot else s.goto (.done FAILURE))
  | .cdRoot =>
    -- the result of `ftp_cd_dir("/")` is not looked at
    (s.request iconv s.phase.bufLen (cwd (ascii "/")) i.reply i i.reply).map fun r => r.2.goto (.mkd 0)
  | .mkd k =>
    if k < dirs.length then
      let command := ascii "MKD " ++ cmdDir dirs (k + 1) ++ crlf
      (s.request iconv s.phase.bufLen command i.reply i i.reply).map fun r =>
        r.2.goto (if r.1.isSome then .mkd (k + 1) else .done FAILURE)
    else some (s.goto .pasv)
  | .pasv =>
    let command := ascii "PASV" ++ crlf
    let sent := s.ftpSendCmd i i.reply
    -- only the result -1 is an error here
    if i.sent = .failed then some (sent.goto (.done FAILURE))
    else (sent.receive iconv s.phase.bufLen command i.reply i).map
      (Upload.decideOn [ascii "227"] .socket)
  | .socket => some (s.goto (if i.ok then .cdDir else .done FAILURE))
  | .cdDir =>
    (s.request iconv s.phase.bufLen (cwd (cmdDir dirs dirs.length)) i.reply i i.reply).map
      (Upload.decideOn [ascii "250"] .stor)
  | .stor =>
    let command := ascii "STOR " ++ filename ++ crlf
    let answer := if i.early then i.reply ++ i.final else i.reply
    let s := { s with final := i.final, early := i.early }
    (s.request iconv s.phase.bufLen command i.reply i answer).map
      (Upload.decideOn [ascii "125", ascii "150", ascii "110"] .data)
  | .data =>
    let s := { s with inbox := if s.early then s.inbox else s.inbox ++ s.final }
    some (s.goto (if i.ok then .response else .done FAILURE))
  | .response =>
    (s.receive iconv s.phase.bufLen (ascii "STOR " ++ filename ++ crlf) s.final i).map Upload.conclude
  | .done _ => none

end VdCamera.Ftp
