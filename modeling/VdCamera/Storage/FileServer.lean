import VdCamera.Misc.Bytes
import VdCamera.Misc.Loop
import VdCamera.Misc.HandOff

/-!
# The file server's connections

`fs_server_run`, `fs_server_process_connection` and the two reads of
`storage/file_system_server.cpp`. A connection is the bytes that the client has sent and that have
not been received; what a `recv` returns of them is up to the network.
-/

namespace VdCamera.Storage

open Misc

/-- `FileServCmdHead`, with the bytes that align `body_length`. -/
structure FileServCmdHead where
  flag : UInt64
  cmd : UInt32
  cmdIndex : UInt32
  reply : UInt32
  padding : UInt32 := 0
  bodyLength : UInt64
  deriving DecidableEq, Repr

/-- `FS_CMD_HEAD_FLAG`. -/
def FS_CMD_HEAD_FLAG : UInt64 := 0x426974636f6d00

/-- `sizeof(FileServCmdHead)`. -/
def sizeofHead : Nat := 32

/-- The head as it lies in memory. -/
def FileServCmdHead.bytes (h : FileServCmdHead) : List UInt8 :=
  leBytes 8 h.flag.toNat ++ (leBytes 4 h.cmd.toNat ++ (leBytes 4 h.cmdIndex.toNat ++
    (leBytes 4 h.reply.toNat ++ (leBytes 4 h.padding.toNat ++ leBytes 8 h.bodyLength.toNat))))

/-- The memory that was received, read as a head. -/
def FileServCmdHead.ofBytes (bs : List UInt8) : FileServCmdHead where
  flag := UInt64.ofNat (leNat (bs.take 8))
  cmd := UInt32.ofNat (leNat ((bs.drop 8).take 4))
  cmdIndex := UInt32.ofNat (leNat ((bs.drop 12).take 4))
  reply := UInt32.ofNat (leNat ((bs.drop 16).take 4))
  padding := UInt32.ofNat (leNat ((bs.drop 20).take 4))
  bodyLength := UInt64.ofNat (leNat ((bs.drop 24).take 8))

/-- How many bytes each `recv` of a connection finds; none finds less than one before the end. -/
structure Segmentation where
  size : Nat → Nat
  pos : ∀ i, 0 < size i

/-- A connection: the bytes still to be received, the number of calls of `recv` so far and the
commands handed to `fs_server_process_cmd`. -/
structure Conn where
  stream : List UInt8
  recvs : Nat := 0
  handed : List (FileServCmdHead × List UInt8) := []
  deriving DecidableEq

section Server

-- `mallocOk n`: `malloc(n)` returns memory
variable (seg : Segmentation) (mallocOk : Nat → Bool)

/-- `recv(socket_fd, buf, n, 0)`; no bytes at the end of the stream. -/
def recv (n : Nat) (c : Conn) : List UInt8 × Conn :=
  let k := min n (seg.size c.recvs)
  (c.stream.take k, { c with stream := c.stream.drop k, recvs := c.recvs + 1 })

/-- The results of `fs_server_read_cmd_head`. -/
inductive HeadResult where
  | received (head : FileServCmdHead)
  | shutdown
  | sizeWrong
  | flagWrong
  deriving DecidableEq

/-- `fs_server_read_cmd_head`. -/
def fsServerReadCmdHead (c : Conn) : HeadResult × Conn :=
  let (bs, c) := recv seg sizeofHead c
  if bs.length = 0 then (.shutdown, c)
  else if bs.length < sizeofHead then (.sizeWrong, c)
  else
    let head := FileServCmdHead.ofBytes bs
    if head.flag ≠ FS_CMD_HEAD_FLAG then (.flagWrong, c) else (.received head, c)

/-- `fs_server_read_cmd_body` into `length` zero bytes: one `recv`, whatever it returns. -/
def fsServerReadCmdBody (length : Nat) (c : Conn) : Int × List UInt8 × Conn :=
  let (bs, c) := recv seg length c
  let body := bs ++ List.replicate (length - bs.length) 0
  if bs.length = 0 then (-1, body, c) else (0, body, c)

/-- `fs_server_process_cmd` is given the command. -/
def hand (head : FileServCmdHead) (body : List UInt8) (c : Conn) : Conn :=
  { c with handed := c.handed ++ [(head, body)] }

/-- `fs_server_process_connection`; a size is a `size_t` of 32 bits. -/
def fsServerProcessConnection (c : Conn) : Int × Conn :=
  match fsServerReadCmdHead seg c with
  | (.received head, c) =>
    if head.bodyLength > 0 then
      let n := head.bodyLength.toNat
      if !mallocOk ((n + 1) % 2 ^ 32) then (-2, c)
      else
        match fsServerReadCmdBody seg (n % 2 ^ 32) c with
        | (0, body, c) => (0, hand head body c)
        | (_, _, c) => (-2, c)
    else (0, hand head [] c)
  | (_, c) => (-1, c)

/-- The buffer of a command body: what `malloc`, `memset` and `recv` are given, each converted to a
`size_t` of 32 bits (`file_system_server.cpp:341-353`). -/
structure BodyBuffer where
  allocated : Nat
  zeroed : Nat
  asked : Nat
  deriving DecidableEq, Repr

def bodyBuffer (head : FileServCmdHead) : Option BodyBuffer :=
  if head.bodyLength > 0 then
    some {
      allocated := (head.bodyLength + 1).toUInt32.toNat
      zeroed := (head.bodyLength + 1).toUInt32.toNat
      asked := head.bodyLength.toUInt32.toNat }
  else none

/-- The loop of `fs_server_run`: the connection is closed at the first failure. -/
def fsServerStep (c : Conn) : Option Conn :=
  match fsServerProcessConnection seg mallocOk c with
  | (0, c) => some c
  | _ => none

end Server

/-! ## Connections -/

/-- `process_succeed_new_connection` and the `fs_server_run` threads. The argument is the parameter
`client_num` itself: once the call returns its place on the stack holds something else. -/
def fsServerRunStep (stack : Int) : HandOff Int → HandOffStep Int → Option (HandOff Int) :=
  handOffStep [stack]

end VdCamera.Storage
