import Mathlib.Data.Int.Bitwise
import VdCamera.Misc.Text

/-!
# Transfers on the data connection of an FTP server

The uploads and the download of `ftp/ftp.cpp`. What the steps on the control connection come to, and
what every call on the data connection returns, is in the environment of a transfer.
-/

namespace VdCamera.Ftp

open Misc (ascii)

abbrev SUCCESS : Int := 0
abbrev SOCKET_ERR : Int := -1
abbrev FAILURE : Int := -2
def MAX_SIZE_SEND : Nat := 1024 * 1024

/-- The data sockets that were created and closed, and what the server has got on them. -/
structure DataSocket where
  created : Nat := 0
  closed : Nat := 0
  sent : List UInt8 := []
  deriving DecidableEq, Repr

/-- The server gets bytes. -/
def DataSocket.put (d : DataSocket) (bytes : List UInt8) : DataSocket :=
  { d with sent := d.sent ++ bytes }

/-- `ftp_close_data_socket`. -/
def DataSocket.close (d : DataSocket) : DataSocket := { d with closed := d.closed + 1 }

/-- `ftp_mk_data_socket`: three times `connect`. -/
def ftpMkDataSocket (socket : Bool) (connect : Nat → Bool) (d : DataSocket) : Int × DataSocket :=
  if socket then
    let d := { d with created := d.created + 1 }
    if (List.range 3).any connect then (SUCCESS, d) else (SOCKET_ERR, d.close)
  else (SOCKET_ERR, d)

/-! ## Sending -/

/-- `send`, which takes so many bytes or fails. -/
def sendOnce (result : Option Nat) (bytes : List UInt8) (d : DataSocket) : Int × DataSocket :=
  match result with
  | none => (-1, d)
  | some n => ((min n bytes.length : Nat), d.put (bytes.take n))

/-- The loop of `ftp_send_data` over `n` packets from packet `i` on. -/
def sendPackets (send : Nat → Option Nat) (buf : List UInt8) :
    Nat → Nat → DataSocket → Bool × DataSocket
  | 0, _, d => (true, d)
  | n + 1, i, d =>
    let r := sendOnce (send i) ((buf.drop (i * MAX_SIZE_SEND)).take MAX_SIZE_SEND) d
    if r.1 ≠ MAX_SIZE_SEND then (false, r.2) else sendPackets send buf n (i + 1) r.2

/-- `ftp_send_data`; the `i`-th `send` returns `send i`. -/
def ftpSendData (send : Nat → Option Nat) (buf : List UInt8) (d : DataSocket) : Int × DataSocket :=
  let n := buf.length / MAX_SIZE_SEND
  let r := sendPackets send buf n 0 d
  if r.1 then
    let byteEnd := buf.length % MAX_SIZE_SEND
    let e := sendOnce (send n) (buf.drop (n * MAX_SIZE_SEND)) r.2
    if e.1 ≠ byteEnd then (FAILURE, e.2) else (SUCCESS, e.2)
  else (FAILURE, r.2)

/-! ## Uploads -/

/-- What an upload meets: the status of the channel, whether the directories are made, the passive mode
is entered, the socket is created and connected and the file is opened for storing; what the sends of
each buffer return; the last reply. -/
structure PutEnv where
  statusOk : Bool
  mkDir : Bool
  pasv : Bool
  socket : Bool
  connect : Nat → Bool
  store : Bool
  send : Nat → Nat → Option Nat
  response : Option (List UInt8)

/-- The result, whether `server_is_full` is set and whether the status becomes `STA_FTP_EXP`. -/
structure PutResult where
  ret : Int
  data : DataSocket
  full : Bool := false
  abnormal : Bool := false

/-- The reply after the data. -/
def putResponse (data : DataSocket) : Option (List UInt8) → PutResult
  | none => { ret := FAILURE, data }
  | some text =>
    if (ascii "226").isPrefixOf text then { ret := SUCCESS, data }
    else if (ascii "452").isPrefixOf text then { ret := FAILURE, data, full := true }
    else { ret := FAILURE, data, abnormal := true }

/-- What the uploads have in common: they differ in the check of their arguments and in what they
send. -/
def ftpPut (env : PutEnv) (paramOk : Bool) (sendAll : DataSocket → Int × DataSocket) : PutResult :=
  if paramOk && env.statusOk && env.mkDir && env.pasv then
    let s := ftpMkDataSocket env.socket env.connect {}
    if s.1 = SOCKET_ERR then { ret := FAILURE, data := s.2 }
    else if env.store then
      let r := sendAll s.2
      let data := r.2.close
      if r.1 ≠ SUCCESS then { ret := FAILURE, data } else putResponse data env.response
    else { ret := FAILURE, data := s.2.close }
  else { ret := FAILURE, data := {} }

/-- `ftp_put_data` of two buffers, of which the second may be missing. -/
def ftpPutTwo (env : PutEnv) (dir0 filename : List UInt8) (buf buf2 : Option (List UInt8)) :
    PutResult :=
  let bytes := buf.getD []
  ftpPut env (dir0 ≠ [] ∧ filename ≠ [] ∧ buf.isSome ∧ bytes.length ≠ 0) fun d =>
    let r := ftpSendData (env.send 0) bytes d
    match buf2 with
    | none => r
    | some bytes2 =>
      let r2 := ftpSendData (env.send 1) bytes2 r.2
      (Int.lor r.1 r2.1, r2.2)

/-- `ftp_put_data` of one buffer. -/
def ftpPutData (env : PutEnv) (filename : List UInt8) (buf : Option (List UInt8)) : PutResult :=
  let bytes := buf.getD []
  ftpPut env (filename ≠ [] ∧ buf.isSome ∧ bytes.length ≠ 0) fun d =>
    ftpSendData (env.send 0) bytes d

/-- `ftp_put_data` of one buffer with a path, which `ftp_mk_path` makes. -/
def ftpPutPath (env : PutEnv) (destPath destName buf : Option (List UInt8)) : PutResult :=
  let bytes := buf.getD []
  ftpPut env (destPath.isSome ∧ destName.isSome ∧ buf.isSome ∧ (destPath.getD []).length ≠ 0
      ∧ (destName.getD []).length ≠ 0 ∧ bytes.length ≠ 0) fun d =>
    ftpSendData (env.send 0) bytes d

/-- The loop of `ftp_put_h264` over the segments from the `i`-th on, with what the last one came to. -/
def sendSegments (send : Nat → Nat → Option Nat) :
    Nat → List (List UInt8) → Int × DataSocket → Int × DataSocket
  | _, [], r => r
  | i, seg :: segs, r => sendSegments send (i + 1) segs (ftpSendData (send i) seg r.2)

/-- `ftp_put_h264`. -/
def ftpPutH264 (env : PutEnv) (dir0 filename : List UInt8) (vidinfo : Option (List (List UInt8))) :
    PutResult :=
  ftpPut env (dir0 ≠ [] ∧ filename ≠ [] ∧ vidinfo.isSome) fun d =>
    sendSegments env.send 0 (vidinfo.getD []) (-1, d)

/-! ## The download -/

/-- What a download meets. The server sends a file; `recv` returns pieces of it, from the beginning on,
until it returns 0 or fails. -/
structure GetEnv where
  pasv : Bool
  socket : Bool
  connect : Nat → Bool
  fopen : Bool
  retr : Bool
  malloc : Bool
  file : List UInt8
  pieces : List (List UInt8)
  fwrite : Nat → Nat
  response : Option (List UInt8)
  nonempty : [] ∉ pieces
  stream : pieces.flatten <+: file

/-- The result, the local file, and whether the status becomes `STA_FTP_FAIL`. -/
structure GetResult where
  ret : Int
  data : DataSocket
  saved : List UInt8 := []
  failed : Bool := false

/-- The loop over the pieces from the `i`-th on; `fwrite` writes so many bytes of each. -/
def receive (fwrite : Nat → Nat) : Nat → List (List UInt8) → List UInt8 → List UInt8
  | _, [], file => file
  | i, piece :: pieces, file => receive fwrite (i + 1) pieces (file ++ piece.take (fwrite i))

/-- `ftp_get_file`. -/
def ftpGetFile (env : GetEnv) : GetResult :=
  if env.pasv then
    let s := ftpMkDataSocket env.socket env.connect {}
    if s.1 = SOCKET_ERR then { ret := FAILURE, data := s.2 }
    else if env.fopen then
      if env.retr && env.malloc then {
        ret := SUCCESS
        data := s.2.close
        saved := receive env.fwrite 0 env.pieces []
        failed := env.response.isNone }
      else { ret := FAILURE, data := s.2.close }
    else { ret := FAILURE, data := s.2 }
  else { ret := FAILURE, data := {} }

end VdCamera.Ftp
