import Mathlib.Logic.Function.Basic
import VdCamera.Ftp.Replies

/-!
# Threads that share one FTP channel

The uploads and the keep-alive of `ftp/ftp.cpp` on one `CLASS_FTP`. The threads share the control
connection, the passive port and the data socket; what one step does is done under the mutex, or is one
statement outside of it. The server has a current directory and at most one port that waits for a
`STOR`. The form of `ftp_put_data` that takes a path is left out.
-/

namespace VdCamera.Ftp.Shared

/-! ## Calls -/

/-- A call of `ftp_put_data` with one buffer or two, or of `ftp_put_h264`. -/
inductive Put where
  | data (dir : List (List UInt8)) (filename : List UInt8) (buf : Option (List UInt8))
  | data2 (dir : List (List UInt8)) (filename : List UInt8) (buf buf2 : Option (List UInt8))
  | h264 (dir : List (List UInt8)) (filename : List UInt8) (vidinfo : Option (List (List UInt8)))
  deriving DecidableEq, Repr

namespace Put

def dir : Put → List (List UInt8)
  | data dir _ _ | data2 dir _ _ _ | h264 dir _ _ => dir

def filename : Put → List UInt8
  | data _ filename _ | data2 _ filename _ _ | h264 _ filename _ => filename

/-- The check of the arguments; only the first one takes an empty directory. -/
def paramOk : Put → Bool
  | data _ filename buf => filename ≠ [] ∧ buf.isSome ∧ (buf.getD []).length ≠ 0
  | data2 dir filename buf _ =>
    dir.headD [] ≠ [] ∧ filename ≠ [] ∧ buf.isSome ∧ (buf.getD []).length ≠ 0
  | h264 dir filename vidinfo => dir.headD [] ≠ [] ∧ filename ≠ [] ∧ vidinfo.isSome

def bytes : Put → List UInt8
  | data _ _ buf => buf.getD []
  | data2 _ _ buf buf2 => buf.getD [] ++ buf2.getD []
  | h264 _ _ vidinfo => (vidinfo.getD []).flatten

/-- What is sent on the data socket, and the value that decides. -/
def sendAll (send : Nat → Nat → Option Nat) : Put → DataSocket → Int × DataSocket
  | data _ _ buf, d => ftpSendData (send 0) (buf.getD []) d
  | data2 _ _ buf buf2, d =>
    let r := ftpSendData (send 0) (buf.getD []) d
    match buf2 with
    | none => r
    | some bytes2 =>
      let r2 := ftpSendData (send 1) bytes2 r.2
      (Int.lor r.1 r2.1, r2.2)
  | h264 _ _ vidinfo, d => sendSegments send 0 (vidinfo.getD []) (-1, d)

/-- `cmd_dir` with all its levels. -/
def path (u : Put) : List UInt8 := cmdDir (levels u.dir) (levels u.dir).length

end Put

/-- A directory and a name. -/
abbrev File : Type := List UInt8 × List UInt8

def Put.target (u : Put) : File := (u.path, u.filename)

/-! ## The server -/

/-- The data connection of a passive port: what has come before a `STOR`, with the upload that sent it,
and the file it is stored into since. -/
structure DataConn where
  accepted : Bool := false
  ended : Bool := false
  buffered : List (Put × List UInt8) := []
  file : Option File := none
  deriving DecidableEq, Repr

/-- `port` waits for a `STOR`, `ports` is how many were opened; `received` lists whose bytes came into
which file. -/
structure Server where
  cwd : List UInt8
  port : Option Nat := none
  ports : Nat := 0
  conns : Nat → DataConn := fun _ => {}
  files : File → Option (List UInt8)
  received : List (File × Put) := []

inductive Command where
  | cwd (dir : List UInt8)
  | mkd (dir : List UInt8)
  | pasv
  | stor (filename : List UInt8)
  | noop
  deriving DecidableEq, Repr

structure Reply where
  code : Nat
  port : Nat := 0
  deriving DecidableEq, Repr

/-- What a step meets: whether a command is sent, whether `recv` returns, whether the server accepts the
command, the last reply to a `STOR` and how many bytes it keeps when this is not 226, what becomes of
each `MKD`, and the results of the calls on the data socket. -/
structure Meets where
  sent : Bool := true
  got : Bool := true
  accepts : Bool := true
  final : Nat := 226
  keeps : Nat := 0
  mkdSent : Nat → Bool := fun _ => true
  mkdGot : Nat → Bool := fun _ => true
  socket : Bool := true
  connects : Bool := true
  send : Nat → Nat → Option Nat := fun _ _ => some MAX_SIZE_SEND

namespace Server

variable (e : Meets) (s : Server)

/-- The file is made anew and gets what has come before. -/
def store (filename : List UInt8) (p : Nat) : Server :=
  let c := s.conns p
  { s with
    port := none
    conns := Function.update s.conns p { c with buffered := [], file := some (s.cwd, filename) }
    files := Function.update s.files (s.cwd, filename) (some (c.buffered.flatMap Prod.snd))
    received := s.received ++ c.buffered.map fun b => ((s.cwd, filename), b.1) }

def answer : Command → List Reply × Server
  | .cwd dir => if e.accepts then ([⟨250, 0⟩], { s with cwd := dir }) else ([⟨550, 0⟩], s)
  | .mkd _ => ([⟨if e.accepts then 257 else 550, 0⟩], s)
  | .pasv =>
    if e.accepts then ([⟨227, s.ports⟩], { s with port := some s.ports, ports := s.ports + 1 })
    else ([⟨502, 0⟩], s)
  | .stor filename =>
    match s.port with
    | none => ([⟨425, 0⟩], s)
    | some p =>
      if e.accepts ∧ (s.conns p).accepted then
        (⟨150, 0⟩ :: if (s.conns p).ended then [⟨e.final, 0⟩] else [], s.store filename p)
      else ([⟨425, 0⟩], s)
  | .noop => ([⟨if e.accepts then 200 else 421, 0⟩], s)

/-- Bytes of an upload arrive. -/
def arrive (u : Put) (bytes : List UInt8) (p : Nat) : Server :=
  let c := s.conns p
  let bytes := if e.final = 226 then bytes else bytes.take e.keeps
  match c.file with
  | some f => { s with
      files := Function.update s.files f (some ((s.files f).getD [] ++ bytes))
      received := s.received ++ [(f, u)] }
  | none => { s with
      conns := Function.update s.conns p { c with buffered := c.buffered ++ [(u, bytes)] } }

/-- The camera closes a data connection; what is stored gets its last reply. -/
def hangUp (p : Nat) : List Reply × Server :=
  let c := s.conns p
  (if c.file.isSome then [⟨e.final, 0⟩] else [],
    { s with conns := Function.update s.conns p { c with ended := true } })

end Server

/-! ## The channel -/

inductive Sock where
  | closed
  | unconnected
  | connected (port : Nat)
  deriving DecidableEq, Repr

/-- The server and the members of the object. `ctlOpen` says that `fd_ctl_socket` is positive and
`statusOk` that `ftp_status` is `STA_FTP_OK`. -/
structure Link where
  server : Server
  ctlOpen : Bool := true
  inbox : List Reply := []
  statusOk : Bool := true
  dataPort : Nat := 0
  dataSocket : Option Nat := none
  sockets : Nat → Sock := fun _ => .closed
  created : Nat := 0

/-- The next statement of an upload. -/
inductive Place where
  | check
  | clear
  | cdRoot
  | mkDirs
  | pasv
  | socket
  | address
  | connect (port tries : Nat)
  | cdDir
  | stor
  | send
  | giveUp
  deriving DecidableEq, Repr

/-- An upload goes on or returns. -/
inductive Next where
  | goto (p : Place)
  | ret (n : Int)
  deriving DecidableEq, Repr

namespace Link

variable (e : Meets) (u : Put) (l : Link)

/-- `ftp_send_cmd`, with the answer of the server. -/
def ftpSendCmd (cmd : Command) : Bool × Link :=
  if !l.ctlOpen then (false, l)
  else if e.sent then
    let r := l.server.answer e cmd
    (true, { l with inbox := r.1, server := r.2 })
  else (false, { l with inbox := [], statusOk := false })

/-- `ftp_recv_cmd_response`, which takes all that has come. -/
def ftpRecvCmdResponse : Option Reply × Link :=
  if l.ctlOpen && e.got then
    match l.inbox with
    | r :: _ => (some r, { l with inbox := [] })
    | [] => (none, { l with statusOk := false })
  else (none, { l with statusOk := false })

/-- A command and its reply. -/
def request (cmd : Command) : Option Reply × Link :=
  let r := l.ftpSendCmd e cmd
  if r.1 then r.2.ftpRecvCmdResponse e else (none, r.2)

/-- The loop of `ftp_mk_dir` over `n` levels from the `k`-th on; the replies are not looked at. -/
def mkdLoop (dirs : List (List UInt8)) : Nat → Nat → Link → Bool × Link
  | 0, _, l => (true, l)
  | n + 1, k, l =>
    let e := { e with sent := e.mkdSent k, got := e.mkdGot k }
    match l.request e (.mkd (cmdDir dirs (k + 1))) with
    | (none, l) => (false, l)
    | (some _, l) => mkdLoop dirs n (k + 1) l

/-- The port that the data socket is connected to. -/
def connectedTo : Option Nat :=
  match l.dataSocket with
  | none => none
  | some n =>
    match l.sockets n with
    | .connected p => some p
    | _ => none

/-- `ftp_close_data_socket`. -/
def ftpCloseDataSocket : Link :=
  match l.dataSocket with
  | none => l
  | some n =>
    let l' := { l with sockets := Function.update l.sockets n .closed }
    match l.sockets n with
    | .connected p =>
      let r := l.server.hangUp e p
      { l' with inbox := l.inbox ++ r.1, server := r.2 }
    | _ => l'

/-- `socket` and the assignment to `fd_data_socket`. -/
def mkSocket : Link :=
  { l with
    dataSocket := some l.created
    sockets := Function.update l.sockets l.created .unconnected
    created := l.created + 1 }

/-- `connect`; the server accepts one connection for the port that waits. -/
def connect (port : Nat) : Option Link :=
  match l.dataSocket with
  | none => none
  | some n =>
    if e.connects ∧ l.sockets n = .unconnected ∧ l.server.port = some port
        ∧ (l.server.conns port).accepted = false then
      some { l with
        sockets := Function.update l.sockets n (.connected port)
        server := { l.server with
          conns := Function.update l.server.conns port
            { l.server.conns port with accepted := true } } }
    else none

/-- The data on the socket that the object has, and closing it. -/
def sendBytes : Int × Link :=
  let r := u.sendAll (if l.connectedTo.isSome then e.send else fun _ _ => none) {}
  match l.connectedTo with
  | some p => (r.1, { l with server := l.server.arrive e u r.2.sent p }.ftpCloseDataSocket e)
  | none => (r.1, l.ftpCloseDataSocket e)

/-- The last reply. -/
def conclude : Link × Next :=
  match l.ftpRecvCmdResponse e with
  | (none, l) => (l, .ret FAILURE)
  | (some reply, l) =>
    if reply.code = 226 then (l, .ret SUCCESS)
    else if reply.code = 452 then (l, .ret FAILURE)
    else ({ l with statusOk := false }, .ret FAILURE)

/-- One step of an upload. -/
def step : Place → Link × Next
  | .check => (l, if u.paramOk && l.statusOk then .goto .clear else .ret FAILURE)
  | .clear => ({ l with inbox := [] }, .goto .cdRoot)
  | .cdRoot =>
    -- the result of `ftp_cd_dir("/")` is not looked at
    ((l.request e (.cwd (Misc.ascii "/"))).2, .goto .mkDirs)
  | .mkDirs =>
    let r := mkdLoop e (levels u.dir) (levels u.dir).length 0 l
    (r.2, if r.1 then .goto .pasv else .ret FAILURE)
  | .pasv =>
    match l.request e .pasv with
    | (none, l) => (l, .ret FAILURE)
    | (some reply, l) =>
      if reply.code = 227 then ({ l with dataPort := reply.port }, .goto .socket)
      else (l, .ret FAILURE)
  | .socket =>
    if e.socket then (l.mkSocket, .goto .address)
    else ({ l with dataSocket := none }, .ret FAILURE)
  | .address => (l, .goto (.connect l.dataPort 3))
  | .connect port tries =>
    match l.connect e port with
    | some l => (l, .goto .cdDir)
    | none => (l, .goto (if tries ≤ 1 then .giveUp else .connect port (tries - 1)))
  | .cdDir =>
    match l.request e (.cwd u.path) with
    | (none, l) => (l, .goto .giveUp)
    | (some reply, l) => (l, .goto (if reply.code = 250 then .stor else .giveUp))
  | .stor =>
    match l.request e (.stor u.filename) with
    | (none, l) => (l, .goto .giveUp)
    | (some reply, l) => (l, .goto (if reply.code ∈ [125, 150, 110] then .send else .giveUp))
  | .send =>
    let r := l.sendBytes e u
    if r.1 ≠ SUCCESS then (r.2, .ret FAILURE) else r.2.conclude e
  | .giveUp => (l.ftpCloseDataSocket e, .ret FAILURE)

/-- `ftp_check_ftp_sta`. -/
def ftpCheckFtpSta : Link :=
  match l.request e .noop with
  | (none, l) => { l with statusOk := false }
  | (some reply, l) =>
    if reply.code = 200 then { l with statusOk := true }
    else { l with ctlOpen := false, statusOk := false }

end Link

/-! ## The threads -/

/-- What an upload returned, with what its file held then. -/
structure Returned where
  put : Put
  ret : Int
  content : Option (List UInt8)
  deriving DecidableEq, Repr

structure Channel (τ : Type) where
  link : Link
  threads : τ → Option (Put × Place) := fun _ => none
  returned : List Returned := []

inductive ChannelOp (τ : Type) where
  /-- A thread calls an upload. -/
  | call (t : τ) (u : Put)
  /-- A thread goes on with its upload. -/
  | go (t : τ) (e : Meets)
  | noop (e : Meets)

variable {τ : Type} [DecidableEq τ]

def channelStep (s : Channel τ) : ChannelOp τ → Option (Channel τ)
  | .call t u =>
    match s.threads t with
    | none => some { s with threads := Function.update s.threads t (some (u, .check)) }
    | some _ => none
  | .go t e =>
    match s.threads t with
    | none => none
    | some (u, p) =>
      match s.link.step e u p with
      | (link, .goto p) =>
        some { s with link, threads := Function.update s.threads t (some (u, p)) }
      | (link, .ret ret) => some {
          link
          threads := Function.update s.threads t none
          returned := s.returned ++ [⟨u, ret, link.server.files u.target⟩] }
  | .noop e => some { s with link := s.link.ftpCheckFtpSta e }

/-- A channel that is open, with nothing under way. -/
def channelInit (cwd : List UInt8) (files : File → Option (List UInt8)) : Channel τ where
  link := { server := { cwd, files } }

end VdCamera.Ftp.Shared
