import VdCamera.Misc.Decimal
import VdCamera.Misc.SqlText

/-!
# Records as statements and rows

What `db_format_insert_sql_*` and `db_unformat_*` of `storage/` have in common: each column is
printed between quotes, and the row that a query gives is read by the numbers of its columns.
-/

namespace VdCamera.Storage

open Misc

/-- `SQL_BUF_SIZE`. -/
abbrev SQL_BUF_SIZE : Nat := 2048

/-- `%02d`. -/
def fmtInt02 (n : Int) : List UInt8 := if 0 ≤ n ∧ n < 10 then 48 :: fmtInt n else fmtInt n

/-- What is printed for a column. -/
inductive Cell where
  /-- `%s`, of a field with `size` bytes -/
  | s (size : Nat) (text : List UInt8)
  /-- `%d` -/
  | d (n : Int32)
  /-- `%02d` -/
  | d02 (n : Int32)
  deriving DecidableEq, Repr

/-- The types of `CREATE TABLE`; a `VARCHAR` is as long as its value. -/
inductive ColumnType where
  | varchar
  | integer
  deriving DecidableEq, Repr

namespace Cell

def print : Cell → List UInt8
  | s _ text => text
  | d n => fmtInt n.toInt
  | d02 n => fmtInt02 n.toInt

/-- The type of the column that the cell is for. -/
def type : Cell → ColumnType
  | s .. => .varchar
  | d _ | d02 _ => .integer

/-- A string fits its field, with the zero behind it. -/
def Fits : Cell → Prop
  | s size text => 0 ∉ text ∧ text.length < size
  | d _ | d02 _ => True

instance : (c : Cell) → Decidable c.Fits
  | s size text => inferInstanceAs (Decidable (0 ∉ text ∧ text.length < size))
  | d _ | d02 _ => inferInstanceAs (Decidable True)

end Cell

/-- The statement that is made: the texts between the quotes are the ones that are printed. -/
def formatInsert (table : List UInt8) (cells : List Cell) : List UInt8 :=
  Sql.insertText table (cells.map Cell.print)

/-- A database. It gives back a text as it was stored; a column of type `INTEGER` holds numbers, and
gives back their decimal text. -/
structure Database where
  integer : List UInt8 → List UInt8
  integer_d : ∀ n : Int32, integer (fmtInt n.toInt) = fmtInt n.toInt
  integer_d02 : ∀ n : Int32, integer (fmtInt02 n.toInt) = fmtInt n.toInt

namespace Database

variable (db : Database)

def column : ColumnType → List UInt8 → List UInt8
  | .varchar, value => value
  | .integer, value => db.integer value

/-- `azResult` from the row on: `ID`, then the columns. -/
def row (columns : List ColumnType) (id : Int32) (values : List (List UInt8)) : Nat → List UInt8
  | 0 => fmtInt id.toInt
  | i + 1 => (List.zipWith db.column columns values).getD i []

end Database

/-- A kind of record: its table, what is printed of a record and how a row is read. A text that is
read stays in its field as long as it fits it. -/
structure RecordKind (ρ : Type) where
  table : List UInt8
  /-- The columns behind `ID INTEGER PRIMARY KEY`. -/
  columns : List ColumnType
  cells : ρ → List Cell
  format : ρ → List UInt8
  format_eq : ∀ r, format r = formatInsert table (cells r)
  unformat : (Nat → List UInt8) → ρ
  /-- The record as it is to be read where its row is `id`: a field without a column is zero. -/
  persisted : Int32 → ρ → ρ

namespace RecordKind

variable {ρ : Type} (k : RecordKind ρ)

/-- The strings of the record fit their fields. -/
def Fits (r : ρ) : Prop := ∀ c ∈ k.cells r, c.Fits

/-- The statement fits the buffer that it is printed into, it is a single insertion of a row of this
table, and the row that a query then gives is read as the record. -/
def ReadsBack (db : Database) (id : Int32) (r : ρ) : Prop :=
  ∃ values, Sql.Inserts k.table values (k.format r) ∧
    (k.format r).length < SQL_BUF_SIZE ∧
    values.length = k.columns.length ∧
    k.unformat (db.row k.columns id values) = k.persisted id r

/-- No string of the record has a quote. -/
def Unquoted (r : ρ) : Prop := ∀ size text, Cell.s size text ∈ k.cells r → Sql.quote ∉ text

/-- The bytes that are printed of the record. -/
def bytes (r : ρ) : Nat := ((k.cells r).map fun c => c.print.length).sum

end RecordKind

end VdCamera.Storage
