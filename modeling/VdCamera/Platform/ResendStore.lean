import Mathlib.Algebra.Ring.Int.Defs
import Mathlib.Algebra.Ring.Nat
import VdCamera.Misc.Attachment
import VdCamera.Misc.Table

/-!
# The store of what is sent again

What `ftp_resend.c` and `http_resend.c` have in common, with `ftp_resend_db.c` and
`http_resend_db.c`: a table of what could not be sent, and a directory with a picture file for each
row. The statements of the database succeed. The column `size` is left out: nothing but a log
message reads it. Texts are given without the zero at their end.
-/

namespace VdCamera.Platform

open Misc

/-- A row of the table: beside the identifier and the name of the picture the columns in which the
two stores differ. -/
structure ResendRow (β : Type*) where
  id : Nat
  name : List UInt8
  info : β
  deriving DecidableEq, Repr

/-- The table, and the picture files by their names in `pic_dir`. -/
structure ResendStore (β : Type*) where
  table : Table (ResendRow β) ResendRow.id
  picDir : List UInt8
  picDirLen : picDir.length < 256
  files : List UInt8 → Option (List UInt8)

namespace ResendStore

variable {β : Type*}

/-- The store of a new database. -/
def empty (picDir : List UInt8) (h : picDir.length < 256) : ResendStore β :=
  ⟨Table.empty, picDir, h, fun _ => none⟩

def rows (s : ResendStore β) : List (ResendRow β) := s.table.rows

/-- The name of the file that `snprintf(buf, 512, "%s/%s", pic_dir, name)` makes of a name. -/
def picName (s : ResendStore β) (name : List UInt8) : List UInt8 :=
  name.take (512 - 1 - (s.picDir.length + 1))

/-- `select * from %s order by id DESC limit 1`. -/
def select (s : ResendStore β) : Option (ResendRow β) := s.rows.getLast?

/-- `sqlite_del_id`. -/
def delId (id : Nat) (s : ResendStore β) : ResendStore β :=
  { s with table := s.table.delete id }

/-- `remove(path)`. -/
def remove (name : List UInt8) (s : ResendStore β) : ResendStore β :=
  { s with files := Function.update s.files (s.picName name) none }

/-- `insert into %s values(?, ?, ?, ?)`, where the first value is not bound. -/
def insert (name : List UInt8) (info : β) (s : ResendStore β) : ResendStore β :=
  { s with table := s.table.insert (fun id => ⟨id, name, info⟩) fun _ => rfl }

/-- `fopen(buf, "rb")` and `fread` of at most `size` bytes; `none` when the file does not open. -/
def read (size : Nat) (openOk : Bool) (name : List UInt8)
    (s : ResendStore β) : Option (List UInt8) :=
  if openOk then (s.files (s.picName name)).map (·.take size) else none

/-- `fopen(buf, "wb")` and `fwrite`. -/
def write (openOk : Bool) (name pic : List UInt8) (s : ResendStore β) : ResendStore β :=
  if openOk then { s with files := Function.update s.files (s.picName name) (some pic) } else s

/-- The `limit` of `del_redundant`. -/
def limit (nr : Int) (s : ResendStore β) : Int := s.rows.length - nr + 1

/-- `sabitcom_http_resend_del_redundant` and `sabitcom_ftp_resend_del_redundant`: the names of the
deleted rows, of which there are at most `nrNameMax`. `none` when the limit is past `int32_t`. -/
def delRedundant (nr : Int) (nrNameMax : Nat) (s : ResendStore β) :
    Option (List (List UInt8) × ResendStore β) :=
  if 2 ^ 31 ≤ s.limit nr then none
  else if s.limit nr ≤ 0 then some ([], s)
  else
    let selected := (s.rows.take (s.limit nr).toNat).take nrNameMax
    some (selected.map ResendRow.name, selected.foldl (fun s r => s.delId r.id) s)

/-- What a put does before it inserts: the redundant rows go, then their files. -/
def trim (nr : Int) (s : ResendStore β) : Option (ResendStore β) := do
  let (delName, s) ← s.delRedundant nr 10
  some (delName.foldl (fun s name => s.remove name) s)

/-- `tabitcom_ftp_resend_put`, and `tabitcom_http_resend_put` when it is switched on. -/
def put (nr : Int) (name : List UInt8) (info : β) (pic : List UInt8) (openOk : Bool)
    (s : ResendStore β) : Option (ResendStore β) := do
  let s ← s.trim nr
  some ((s.insert name info).write openOk name pic)

end ResendStore

/-- How many waiting times there are in `backoff_time`. -/
def NR_BACKOFF_TIME : Nat := 6

/-- The next waiting time after a failed send. -/
def nextBackoff (ptr : Nat) : Nat := if ptr + 1 = NR_BACKOFF_TIME then 0 else ptr + 1

end VdCamera.Platform
