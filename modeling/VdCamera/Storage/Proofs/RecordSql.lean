import Mathlib.Algebra.Order.BigOperators.Group.List
import VdCamera.Storage.RecordKinds

/-!
# What is stored reads back

The columns of a kind of record agree between the statement, the table and the reader; this is said
once for each kind. From it: a record reads back if and only if none of its strings has a quote and
the statement fits its buffer.
-/

namespace VdCamera.Storage

open Misc

section Numbers

theorem isDigit_ne_quote {b : UInt8} (h : isDigit b = true) : b ≠ Sql.quote := by
  rintro rfl
  exact absurd h (by decide)

theorem quote_not_mem_fmtInt (n : Int) : Sql.quote ∉ fmtInt n := fun h =>
  forall_mem_fmtInt (P := (· ≠ Sql.quote)) (by decide) (fun _ => isDigit_ne_quote) n _ h rfl

theorem quote_not_mem_fmtInt02 (n : Int) : Sql.quote ∉ fmtInt02 n := by
  unfold fmtInt02
  split
  · exact List.not_mem_cons_of_ne_of_not_mem (by decide) (quote_not_mem_fmtInt n)
  · exact quote_not_mem_fmtInt n

theorem length_fmtInt_le (n : Int32) : (fmtInt n.toInt).length ≤ 11 := by
  have hlow := Int32.le_toInt n
  have hhigh := Int32.toInt_lt n
  exact (length_fmtInt_le_iff 9).mpr (by omega)

theorem length_fmtInt02_le (n : Int32) : (fmtInt02 n.toInt).length ≤ 11 := by
  unfold fmtInt02
  split
  · next h =>
    have hdigit : (fmtInt n.toInt).length ≤ 0 + 2 := (length_fmtInt_le_iff 0).mpr (by omega)
    rw [List.length_cons]
    omega
  · exact length_fmtInt_le n

end Numbers

namespace Cell

theorem quote_not_mem_print {c : Cell} (h : ∀ size text, c = s size text → Sql.quote ∉ text) :
    Sql.quote ∉ c.print := by
  cases c with
  | s size text => exact h size text rfl
  | d n => exact quote_not_mem_fmtInt _
  | d02 n => exact quote_not_mem_fmtInt02 _

/-- The room that a cell can take. -/
def maxLength : Cell → Nat
  | s size _ => size - 1
  | d _ | d02 _ => 11

theorem length_print_le {c : Cell} (h : c.Fits) : c.print.length ≤ c.maxLength := by
  cases c with
  | s size text => exact Nat.le_sub_one_of_lt h.2
  | d n => exact length_fmtInt_le n
  | d02 n => exact length_fmtInt02_le n

end Cell

@[simp]
theorem Database.atoi_integer_d (db : Database) (n : Int32) :
    atoi (db.integer (fmtInt n.toInt)) = n := by
  rw [db.integer_d, atoi_fmtInt]

@[simp]
theorem Database.atoi_integer_d02 (db : Database) (n : Int32) :
    atoi (db.integer (fmtInt02 n.toInt)) = n := by
  rw [db.integer_d02, atoi_fmtInt]

namespace RecordKind

variable {ρ : Type}

/-- The positions of the columns agree. -/
structure Lawful (k : RecordKind ρ) : Prop where
  types : ∀ r, (k.cells r).map Cell.type = k.columns
  /-- The row of a record is read as the record. -/
  unformat_row : ∀ (db : Database) (id : Int32) (r : ρ),
    k.unformat (db.row k.columns id ((k.cells r).map Cell.print)) = k.persisted id r
  cells_persisted : ∀ id r, k.cells (k.persisted id r) = k.cells r
  /-- A string that is read is the text of its own column. -/
  cells_unformat : ∀ az, List.Forall₂ (fun c i => ∀ size text, c = Cell.s size text → text = az i)
    (k.cells (k.unformat az)) (List.range' 1 k.columns.length)

variable {k : RecordKind ρ} {db : Database} {id : Int32} {r : ρ}

theorem length_format (k : RecordKind ρ) (r : ρ) :
    (k.format r).length = k.table.length + 3 * (k.cells r).length + k.bytes r + 26 := by
  have hsum : ∀ cells : List Cell, ((cells.map Cell.print).map fun t => t.length + 3).sum
      = 3 * cells.length + (cells.map fun c => c.print.length).sum := by
    intro cells
    induction cells with
    | nil => rfl
    | cons c cells ih =>
      simp only [List.map_cons, List.sum_cons, List.length_cons, ih]
      omega
  rw [k.format_eq, formatInsert, Sql.insertText, List.length_append, List.length_append,
    List.length_append, List.length_append, Sql.length_listed, hsum, bytes]
  have hhead : (ascii "INSERT INTO ").length = 12 := rfl
  have hvalues : (ascii " VALUES(NULL").length = 12 := rfl
  have htail : (ascii ");").length = 2 := rfl
  omega

theorem bytes_le (h : k.Fits r) : k.bytes r ≤ ((k.cells r).map Cell.maxLength).sum :=
  List.sum_le_sum fun c hc => Cell.length_print_le (h c hc)

/-- A record that reads back is spelled by its statement, so that none of its strings has a quote. -/
theorem unquoted_of_readsBack (hk : k.Lawful) (h : k.ReadsBack db id r) : k.Unquoted r := by
  obtain ⟨values, hinserts, -, hlength, hread⟩ := h
  rw [k.format_eq] at hinserts
  have hcells := hk.cells_unformat (db.row k.columns id values)
  rw [hread, hk.cells_persisted] at hcells
  obtain ⟨-, hcells⟩ := List.forall₂_iff_get.mp hcells
  have hlen : (k.cells r).length = k.columns.length := by
    rw [← hk.types r, List.length_map]
  have hagree : List.Forall₂ (fun t v => Sql.quote ∈ t → v = t)
      ((k.cells r).map Cell.print) values := by
    rw [List.forall₂_iff_get]
    refine ⟨by rw [List.length_map, hlen, hlength], ?_⟩
    intro i hi hi' hquote
    have hicells : i < (k.cells r).length := by simpa using hi
    simp only [List.get_eq_getElem, List.getElem_map] at hquote ⊢
    cases hc : (k.cells r)[i] with
    | s size text =>
      have htext := hcells i hicells (by simp [hlen.symm, hicells]) size text hc
      have hicolumns : i < k.columns.length := hlen ▸ hicells
      have htype : k.columns[i] = .varchar := by
        simp only [← hk.types r, List.getElem_map, hc]
        rfl
      rw [List.get_eq_getElem, List.getElem_range', Nat.one_mul, Nat.add_comm] at htext
      rw [htext]
      simp [Cell.print, Database.row, hi', hlength ▸ hi', htype, Database.column]
    | d n =>
      rw [hc] at hquote
      exact absurd hquote (quote_not_mem_fmtInt _)
    | d02 n =>
      rw [hc] at hquote
      exact absurd hquote (quote_not_mem_fmtInt02 _)
  intro size text hmem
  exact Sql.not_mem_of_inserts hagree hinserts text (List.mem_map.mpr ⟨_, hmem, rfl⟩)

theorem readsBack_iff (hk : k.Lawful) : k.ReadsBack db id r ↔
    k.Unquoted r ∧ k.table.length + 3 * k.columns.length + k.bytes r + 26 < SQL_BUF_SIZE := by
  have hlen : (k.cells r).length = k.columns.length := by
    rw [← hk.types r, List.length_map]
  rw [← hlen, ← k.length_format]
  constructor
  · intro h
    have hquote := unquoted_of_readsBack hk h
    obtain ⟨-, -, hroom, -⟩ := h
    exact ⟨hquote, hroom⟩
  · rintro ⟨hquote, hroom⟩
    refine ⟨(k.cells r).map Cell.print, ?_, hroom, by rw [List.length_map, hlen],
      hk.unformat_row db id r⟩
    rw [k.format_eq]
    apply Sql.inserts_insertText
    intro t ht
    obtain ⟨c, hc, rfl⟩ := List.mem_map.mp ht
    exact Cell.quote_not_mem_print fun size text h => hquote size text (h ▸ hc)

/-- Where the longest record has room in the buffer, only quotes matter. -/
theorem readsBack_iff_unquoted (hk : k.Lawful) (hfits : k.Fits r)
    (hmax : k.table.length + 3 * k.columns.length + ((k.cells r).map Cell.maxLength).sum + 26
      < SQL_BUF_SIZE) : k.ReadsBack db id r ↔ k.Unquoted r := by
  have hbytes := bytes_le hfits
  exact (readsBack_iff hk).trans (and_iff_left (by omega))

end RecordKind

section Kinds

theorem trafficRecords_lawful : trafficRecords.Lawful where
  types _ := rfl
  cells_persisted _ _ := rfl
  cells_unformat az := by
    simp [trafficRecords, dbUnformatReadSqlTrafficRecords, DBTrafficRecord.cells, List.range']
  unformat_row db id r := by
    simp [trafficRecords, dbUnformatReadSqlTrafficRecords, DBTrafficRecord.cells, Database.row,
      Database.column, Cell.print]

theorem parkRecords_lawful : parkRecords.Lawful where
  types _ := rfl
  cells_persisted _ _ := rfl
  cells_unformat az := by
    simp [parkRecords, dbUnformatReadSqlParkRecords, DBParkRecord.cells, List.range']
  unformat_row db id r := by
    simp [parkRecords, dbUnformatReadSqlParkRecords, DBParkRecord.cells, Database.row,
      Database.column, Cell.print]

theorem trafficFlow_lawful : trafficFlow.Lawful where
  types _ := rfl
  cells_persisted _ _ := rfl
  cells_unformat az := by
    simp [trafficFlow, dbUnformatReadSqlTrafficFlow, DBTrafficFlow.cells, List.range']
  unformat_row db id r := by
    simp [trafficFlow, dbUnformatReadSqlTrafficFlow, DBTrafficFlow.cells, Database.row,
      Database.column, Cell.print]

theorem trafficFlowPedestrian_lawful : trafficFlowPedestrian.Lawful where
  types _ := rfl
  cells_persisted _ _ := rfl
  cells_unformat az := by
    simp [trafficFlowPedestrian, dbUnformatTrafficFlowPedestrianInfo,
      DBTrafficFlowPedestrian.cells, List.range']
  unformat_row db id r := by
    simp [trafficFlowPedestrian, dbUnformatTrafficFlowPedestrianInfo,
      DBTrafficFlowPedestrian.cells, Database.row, Database.column, Cell.print]

end Kinds

/-- A record reads back as it was written if and only if none of its strings has a quote and, of a
park record, no more is printed than the buffer of the statement has room for. -/
theorem reads_back_iff (db : Database) (id : Int32) (r : StoredRecord) :
    r.ReadsBack db id ↔ r.Unquoted ∧ r.HasRoom := by
  cases r with
  | traffic r =>
    refine (RecordKind.readsBack_iff_unquoted trafficRecords_lawful r.2 ?_).trans
      (and_iff_left trivial).symm
    simp [trafficRecords, DBTrafficRecord.cells, Cell.maxLength, ascii, SQL_BUF_SIZE]
  | park r =>
    refine (RecordKind.readsBack_iff parkRecords_lawful).trans (and_congr_right fun _ => ?_)
    have hroom : parkRecords.table.length + 3 * parkRecords.columns.length = 129 := rfl
    rw [hroom]
    show 129 + parkRecords.bytes r.1 + 26 < 2048 ↔ parkRecords.bytes r.1 ≤ 1892
    omega
  | flow r =>
    refine (RecordKind.readsBack_iff_unquoted trafficFlow_lawful r.2 ?_).trans
      (and_iff_left trivial).symm
    simp [trafficFlow, DBTrafficFlow.cells, Cell.maxLength, ascii, SQL_BUF_SIZE]
  | pedestrian r =>
    refine (RecordKind.readsBack_iff_unquoted trafficFlowPedestrian_lawful r.2 ?_).trans
      (and_iff_left trivial).symm
    simp [trafficFlowPedestrian, DBTrafficFlowPedestrian.cells, Cell.maxLength, ascii, SQL_BUF_SIZE]

theorem atoi_fmtInt02 (n : Int32) : atoi (fmtInt02 n.toInt) = n := by
  unfold fmtInt02
  split
  · next h =>
    -- a leading zero is a digit that adds nothing
    have hdigits : ∀ b ∈ 48 :: digits n.toInt.natAbs, isDigit b = true :=
      List.forall_mem_cons.mpr ⟨by decide, fun b hb => isDigit_of_mem_digits hb⟩
    have hzero : decimal (48 :: digits n.toInt.natAbs) = n.toInt.natAbs := decimal_digits _
    rw [fmtInt_eq, if_neg (by omega), atoi, strtol_digits hdigits, hzero]
    have hmin : min (2 ^ 31 - 1) (n.toInt.natAbs : Int) = n.toInt := by omega
    rw [hmin, Int32.ofInt_toInt]
  · exact atoi_fmtInt n

/-- A database whose numbers are `int`s. -/
def Database.ofInt32 : Database where
  integer text := fmtInt (atoi text).toInt
  integer_d n := by rw [atoi_fmtInt]
  integer_d02 n := by rw [atoi_fmtInt02]

/-- A flow of pedestrians at a point whose name has an apostrophe. -/
def quotedFlow : DBTrafficFlowPedestrian where
  ID := 0
  flowLeft2right := 12
  flowRight2left := 7
  pointId := ascii "1001"
  pointName := ascii "People's Square"
  devId := ascii "7"
  devName := ascii "cam"
  uptime := ascii "2016-01-02 03:00:00"
  flagSend := 1
  flagStore := 0

theorem quotedFlow_fits : trafficFlowPedestrian.Fits quotedFlow := by
  unfold RecordKind.Fits
  decide

theorem not_reads_back :
    ¬ ∀ (db : Database) (id : Int32) (r : StoredRecord), r.ReadsBack db id := by
  intro h
  have hquote := RecordKind.unquoted_of_readsBack trafficFlowPedestrian_lawful
    (h Database.ofInt32 1 (.pedestrian ⟨quotedFlow, quotedFlow_fits⟩))
  exact hquote 100 quotedFlow.pointName (by decide) (by decide)

end VdCamera.Storage
