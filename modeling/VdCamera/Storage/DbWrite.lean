import Mathlib.Tactic.Common

/-!
# Writing a record to a database

`db_write` of `storage/database_mng.cpp:100-175` and the functions that call it under a mutex. The
result codes of SQLite are inputs; what is asked of it is recorded in order.
-/

namespace VdCamera.Storage

abbrev SQLITE_OK : Int := 0

/-- What SQLite answers. -/
structure SqliteCodes where
  openRc : Int
  createRc : Int
  insertRc : Int
  /-- `sqlite3_open` has written a handle -/
  handle : Bool
  /-- without one only when the open fails (no memory) -/
  handle_of_open : openRc = SQLITE_OK → handle = true

/-- The calls that are made. -/
inductive DbCall where
  | lock
  | sqliteOpen (name : String) (handle : Bool)
  | create (sql : String) (rc : Int)
  | insert (sql : String) (rc : Int)
  | sqliteClose
  | unlock
  deriving DecidableEq, Repr

section

variable (c : SqliteCodes)

/-- The results of a statement that `db_write` accepts. -/
def accepted (rc : Int) : Bool := !(decide (rc < 0) || decide (rc > 1))

/-- `db_write` after the database is open. -/
def dbExec (sqlInsert sqlCreate : String) : Int × List DbCall :=
  if !accepted c.createRc then (-1, [.create sqlCreate c.createRc, .sqliteClose])
  else if !accepted c.insertRc then
    (-1, [.create sqlCreate c.createRc, .insert sqlInsert c.insertRc, .sqliteClose])
  else (0, [.create sqlCreate c.createRc, .insert sqlInsert c.insertRc, .sqliteClose])

/-- `db_write`; an argument of `none` is a null pointer. -/
def dbWrite (dbName sqlInsert sqlCreate : Option String) : Int × List DbCall :=
  match dbName, sqlCreate, sqlInsert with
  | some dbName, some sqlCreate, some sqlInsert =>
    if c.openRc ≠ SQLITE_OK then (-1, [.sqliteOpen dbName c.handle])
    else
      let (ret, calls) := dbExec c sqlInsert sqlCreate
      (ret, .sqliteOpen dbName c.handle :: calls)
  | _, _, _ => (-1, [])

/-- What `db_write_DB_file`, `db_write_traffic_records`, `db_write_park_records` and their siblings
have in common. -/
def dbWriteLocked (dbName sqlInsert sqlCreate : Option String) : Int × List DbCall :=
  let (ret, calls) := dbWrite c dbName sqlInsert sqlCreate
  (if ret ≠ 0 then -1 else 0, .lock :: (calls ++ [.unlock]))

end

end VdCamera.Storage
