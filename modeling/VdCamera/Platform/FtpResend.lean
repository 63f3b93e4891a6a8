import VdCamera.Platform.ResendStore

/-!
# Pictures sent again over FTP

`ftp_send_pic` of `ve/platform/bitcom/record.cpp`, which puts a picture into the store when it could
not be sent, and `ftp_resend.c`, which sends the newest one again. The directory levels of a picture
are stored as one text. Beside it the row keeps the upload that it was made of, which the code does
not have. A function has no result where the code writes past an array. `SIZE_JPEG_BUFFER`, whose
definition is not part of the sources, is a parameter.
-/

namespace VdCamera.Platform

open Misc

/-- `FTP_PATH_LEN`. -/
def FTP_PATH_LEN : Nat := 80

/-- `FTP_PATH_DEPTH`. -/
def FTP_PATH_DEPTH : Nat := 6

/-- `SABITCOM_FTP_PATH_SIZE`. -/
def SABITCOM_FTP_PATH_SIZE : Nat := FTP_PATH_DEPTH * FTP_PATH_LEN

/-- `NAME_MAX_LEN`. -/
def NAME_MAX_LEN : Nat := 256

def slash : UInt8 := 47

/-- `char path[FTP_PATH_DEPTH][FTP_PATH_LEN]`. -/
@[ext]
structure FtpPath where
  levels : List (List UInt8)
  depth : levels.length = FTP_PATH_DEPTH
  len : ∀ l ∈ levels, l.length < FTP_PATH_LEN
  deriving DecidableEq, Repr

/-- One level is written, with the zero behind it. -/
def FtpPath.write (p : FtpPath) (i : Nat) (level : List UInt8) : Option FtpPath :=
  if h : i < FTP_PATH_DEPTH ∧ level.length < FTP_PATH_LEN then
    some ⟨p.levels.set i level, by rw [List.length_set, p.depth], fun l hl => by
      rcases List.mem_or_eq_of_mem_set hl with hl | rfl
      · exact p.len l hl
      · exact h.2⟩
  else none

/-- What `EP_PicInfo` says of an upload: its directories, its name and the bytes of the picture. -/
@[ext]
structure EpPicInfo where
  path : FtpPath
  name : List UInt8
  pic : List UInt8
  deriving DecidableEq, Repr

/-- The path of a row, and the upload that the row was made of. -/
structure FtpItem where
  path : List UInt8
  origin : EpPicInfo
  deriving DecidableEq, Repr

/-- `ftp_resend_t` with the `picinfo` of its thread, which is the same in all rounds. -/
structure FtpResend where
  store : ResendStore FtpItem
  resv : Int
  picinfo : EpPicInfo
  backoffPtr : Nat

/-- `tabitcom_ftp_resend_ram_init` on a new database; `picinfo` is what happens to be on the stack.
-/
def tabitcomFtpResendRamInit (picDir : List UInt8) (h : picDir.length < 256) (resv : Int)
    (picinfo : EpPicInfo) : FtpResend :=
  ⟨ResendStore.empty picDir h, resv, picinfo, 0⟩

/-- `tabitcom_ftp_resend_put`. -/
def tabitcomFtpResendPut (name : List UInt8) (item : FtpItem) (pic : List UInt8) (openOk : Bool)
    (s : FtpResend) : Option FtpResend := do
  let store ← s.store.put s.resv name item pic openOk
  some { s with store }

/-- `ftp_send_pic`; `uninit` is the text that happens to be in `item.path`, to which the levels are
appended. -/
def ftpSendPic (sizeJpegBuffer : Nat) (u : EpPicInfo) (uninit : List UInt8) (sendOk openOk : Bool)
    (s : FtpResend) : Option FtpResend :=
  if sendOk then some s
  else
    let path := uninit ++ u.path.levels.flatten
    if path.length < SABITCOM_FTP_PATH_SIZE ∧ u.name.length < NAME_MAX_LEN ∧
        u.pic.length ≤ sizeJpegBuffer then
      tabitcomFtpResendPut u.name ⟨path, u⟩ u.pic openOk s
    else none

/-- The loop that makes levels of a path: `i` and `level` are the level at hand and what it holds.
-/
def splitPath (i : Nat) (level : List UInt8) (picinfo : FtpPath) : List UInt8 → Option FtpPath
  | [] => picinfo.write i level
  | c :: p =>
    if p.head? = some slash then do
      let picinfo ← picinfo.write i (level ++ [c])
      splitPath (i + 1) [] picinfo p
    else splitPath i (level ++ [c]) picinfo p

/-- A round of `ftp_resend_pthread`, and what it hands to `tabitcom_ftp_send`. -/
def ftpResendRound (sizeJpegBuffer : Nat) (openOk sendOk : Bool) (s : FtpResend) :
    Option (FtpResend × Option EpPicInfo) :=
  match s.store.select with
  | none => some (s, none)
  | some item =>
    let file := s.store.read sizeJpegBuffer openOk item.name
    -- without a file the picture is the one of the round before
    let pic := file.getD s.picinfo.pic
    let store := if file.isSome then s.store else s.store.delId item.id
    if pic = [] then
      some ({ s with store := store.delId item.id, picinfo := { s.picinfo with pic } }, none)
    else do
      let path ← splitPath 0 [] s.picinfo.path item.info.path
      let picinfo := { path, name := item.name, pic }
      if sendOk then
        let store := (store.delId item.id).remove item.name
        some ({ s with store, picinfo, backoffPtr := 0 }, some picinfo)
      else
        some ({ s with store, picinfo, backoffPtr := nextBackoff s.backoffPtr }, some picinfo)

/-- An upload, or a round of the thread. -/
inductive FtpEvent where
  | send (u : EpPicInfo) (uninit : List UInt8) (sendOk openOk : Bool)
  | round (openOk sendOk : Bool)
  deriving DecidableEq, Repr

def ftpStep (sizeJpegBuffer : Nat) (s : FtpResend) : FtpEvent → Option FtpResend
  | .send u uninit sendOk openOk => ftpSendPic sizeJpegBuffer u uninit sendOk openOk s
  | .round openOk sendOk => (ftpResendRound sizeJpegBuffer openOk sendOk s).map Prod.fst

/-- What a step of the thread hands to `tabitcom_ftp_send`. -/
def ftpHanded (sizeJpegBuffer : Nat) (s : FtpResend) : FtpEvent → Option EpPicInfo
  | .send .. => none
  | .round openOk sendOk => (ftpResendRound sizeJpegBuffer openOk sendOk s).bind Prod.snd

end VdCamera.Platform
