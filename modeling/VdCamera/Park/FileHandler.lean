import VdCamera.Misc.Memory
import VdCamera.Misc.Text
import Mathlib.Logic.Function.Basic

/-!
# Picture files

`tpi/park/src/park_file_handler.cpp`. A file is known by its path. `read` returns what the system has
at hand: as little as one byte of what is left, or an error.
-/

namespace VdCamera.Park

open Misc

/-- The contents of the files. -/
abbrev Files := List UInt8 → Option (List UInt8)

/-- `char pic_path[128]`. -/
def PIC_PATH_SIZE : Nat := 128

/-- The room for a picture at the callers of `park_read_picture`. -/
def PIC_BUF_SIZE : Nat := 500 * 1024

/-- The path that a name is given; `none` when it does not fit into `pic_path`. -/
def picPath (dir name : List UInt8) : Option (List UInt8) :=
  let path := if name.head? = some 47 then name else dir ++ name
  if path.length < PIC_PATH_SIZE then some path else none

/-- The directory of `park_save_picture` and `park_read_picture`. -/
def pictureDir : List UInt8 := ascii "/home/records/park/system/picture/"

/-- The directory of `park_delete_picture`. -/
def systemDir : List UInt8 := ascii "/home/records/park/system/"

/-- `write` at the start of the file. -/
def writeFile (path bytes : List UInt8) (files : Files) : Files :=
  Function.update files path (some (bytes ++ ((files path).getD []).drop bytes.length))

/-- `park_save_picture`; `opened` says whether `open` succeeds and `wrote` is what `write` returns. `none`
when the name does not fit into `pic_path`. -/
def parkSavePicture (name pic : List UInt8) (opened : Bool) (wrote : Int) (files : Files) :
    Option (Int × Files) :=
  if pic = [] then some (-1, files)
  else (picPath pictureDir name).map fun path =>
    if opened = false then (-1, files)
    else
      let files := writeFile path (pic.take wrote.toNat) files
      if wrote ≠ pic.length then (-1, files) else (wrote, files)

/-- The caller's memory from its buffer on, and where the last byte written to it ends. -/
structure PicBuf where
  mem : Nat → UInt8
  extent : Nat := 0

def PicBuf.write (b : PicBuf) (p : Nat) (bytes : List UInt8) : PicBuf where
  mem := overwrite b.mem p bytes
  extent := max b.extent (p + bytes.length)

/-- What a call of `read` returns of the bytes that are left: with `none` an error, with `some k` up to
`k + 1` bytes. -/
def readCall (answer : Option Nat) (want : Nat) (rest : List UInt8) : Option (List UInt8) :=
  answer.map fun k => rest.take (min (k + 1) want)

/-- The value, the buffer, and whether a call has failed. -/
structure PictureRead where
  ret : Int
  buf : PicBuf
  failed : Bool

/-- The loop that reads to the end of the file: call `i` reads to `p = picbuff + 1024 * i`. -/
def parkReadLoop (answers : Nat → Option Nat) :
    Nat → Nat → List UInt8 → Int → PicBuf → Option PictureRead
  | 0, _, _, _, _ => none
  | fuel + 1, i, rest, ret, buf =>
    match readCall (answers i) 1024 rest with
    | none => some ⟨ret + -1, buf, true⟩
    | some [] => some ⟨ret + 0, buf, false⟩
    | some bytes =>
      parkReadLoop answers fuel (i + 1) (rest.drop bytes.length) (ret + bytes.length)
        (buf.write (1024 * i) bytes)

/-- `park_read_picture`; `opened` says whether `open` succeeds where there is a file. `none` when the name
does not fit into `pic_path`. -/
def parkReadPicture (name : List UInt8) (size : Int) (opened : Bool) (answers : Nat → Option Nat)
    (files : Files) (buf : PicBuf) : Option PictureRead :=
  (picPath pictureDir name).bind fun path =>
    match (if opened then files path else none) with
    | none => some ⟨-1, buf, true⟩
    | some content =>
      if 0 < size then
        match readCall (answers 0) size.toNat content with
        | none => some ⟨-1, buf, true⟩
        | some bytes => some ⟨bytes.length, buf.write 0 bytes, false⟩
      else if size = 0 then parkReadLoop answers (content.length + 1) 0 content 0 buf
      else some ⟨-1, buf, false⟩

/-- `park_delete_picture`, with an `unlink` that succeeds where there is a file. -/
def parkDeletePicture (name : List UInt8) (files : Files) : Option (Int × Files) :=
  (if name.head? = some 47 then some name else picPath systemDir name).map fun path =>
    match files path with
    | some _ => (0, Function.update files path none)
    | none => (-1, files)

/-- A picture of the size that the callers have room for. -/
structure Picture where
  bytes : List UInt8
  pos : 0 < bytes.length
  fits : bytes.length ≤ PIC_BUF_SIZE

/-- The size that a caller asks for: 0 or the stored one. -/
def Picture.size (pic : Picture) (stored : Bool) : Int := if stored then pic.bytes.length else 0

/-- What is read after the picture was saved: its bytes, or a negative value after a read error, and
nothing beyond the buffer. -/
def Picture.ReadAs (pic : Picture) (r : PictureRead) : Prop :=
  r.buf.extent ≤ PIC_BUF_SIZE
  ∧ if r.failed then r.ret < 0
    else r.ret = pic.bytes.length ∧ ∀ i < pic.bytes.length, pic.bytes[i]? = some (r.buf.mem i)

/-- A picture that is saved is read as it was saved, and deleted from where it was saved. -/
def SavedReadDeleted (name : List UInt8) (pic : Picture) (files : Files) (stored opened : Bool)
    (answers : Nat → Option Nat) : Prop :=
  ∃ path, picPath pictureDir name = some path
    ∧ ∀ opens wrote files', parkSavePicture name pic.bytes opens wrote files
        = some ((pic.bytes.length : Int), files') →
      (∀ mem, ∃ r, parkReadPicture name (pic.size stored) opened answers files' { mem } = some r
        ∧ pic.ReadAs r)
      ∧ parkDeletePicture name files' = some (0, Function.update files' path none)

/-- Each call returns all it is asked for or all that is left, and the end of the file is no error. -/
def FullReads (n : Nat) (answers : Nat → Option Nat) : Prop :=
  (∀ i, 1024 * i < n → ∃ k ∈ answers i, min 1024 (n - 1024 * i) ≤ k + 1)
    ∧ answers ((n + 1023) / 1024) ≠ none

/-- The name is an absolute path that fits. Of the file either nothing can be read, or: the file of that
name was no longer than the picture and is read in full pieces, or it is read in one call that returns
the stored size. -/
def SavedReadDeletedWhen (name : List UInt8) (pic : Picture) (files : Files) (stored opened : Bool)
    (answers : Nat → Option Nat) : Prop :=
  name.head? = some 47 ∧ name.length < PIC_PATH_SIZE
    ∧ (opened = false ∨ answers 0 = none
      ∨ if stored then ∃ k ∈ answers 0, pic.bytes.length ≤ k + 1
        else ((files name).getD []).length ≤ pic.bytes.length
          ∧ FullReads pic.bytes.length answers)

end VdCamera.Park
