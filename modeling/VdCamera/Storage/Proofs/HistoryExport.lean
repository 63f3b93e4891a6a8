import VdCamera.Storage.HistoryExport

/-!
# When the exported history is complete and numbered

The hours that the range is rounded to lose no record. What goes wrong is the variable that nobody
sets before the first round, which hides the first records of the first database, and the number,
which also counts the rounds in which a database ends.
-/

namespace VdCamera.Storage

open Misc

/-! ## Hours -/

section Times

variable {a b x y : List Char} {t : TimeText}

theorem append_lt_append_iff (h : a.length = b.length) :
    a ++ x < b ++ y ↔ a < b ∨ a = b ∧ x < y := by
  induction a generalizing b with
  | nil =>
    rw [List.eq_nil_of_length_eq_zero h.symm]
    simp
  | cons c a ih =>
    cases b with
    | nil => cases h
    | cons d b =>
      rw [List.cons_append, List.cons_append, List.cons_lt_cons_iff, List.cons_lt_cons_iff,
        ih (Nat.succ.inj h), List.cons.injEq]
      constructor
      · rintro (hlt | ⟨heq, hlt | ⟨hab, hxy⟩⟩)
        · exact .inl (.inl hlt)
        · exact .inl (.inr ⟨heq, hlt⟩)
        · exact .inr ⟨⟨heq, hab⟩, hxy⟩
      · rintro ((hlt | ⟨heq, hlt⟩) | ⟨⟨heq, hab⟩, hxy⟩)
        · exact .inl hlt
        · exact .inr ⟨heq, .inl hlt⟩
        · exact .inr ⟨heq, .inr ⟨hab, hxy⟩⟩

theorem twoDigits_bounds (n : Fin 60) :
    ¬ twoDigits n < twoDigits 0 ∧ ¬ twoDigits 59 < twoDigits n := by
  revert n
  decide

/-- What stands behind the hour is compared minute first. -/
theorem rest_lt_iff {m m' n n' : Nat} :
    ':' :: (twoDigits m ++ ':' :: twoDigits n) < ':' :: (twoDigits m' ++ ':' :: twoDigits n')
      ↔ twoDigits m < twoDigits m' ∨ twoDigits m = twoDigits m' ∧ twoDigits n < twoDigits n' := by
  have hcolon : ¬ ':' < ':' := by decide
  have hlen : (twoDigits m).length = (twoDigits m').length := rfl
  rw [List.cons_lt_cons_iff, append_lt_append_iff hlen, List.cons_lt_cons_iff]
  simp only [hcolon, false_or, true_and]

theorem not_rest_lt (t : TimeText) : ¬ t.rest < ":00:00".toList := by
  show ¬ _ < ':' :: (twoDigits 0 ++ ':' :: twoDigits 0)
  rw [TimeText.rest, rest_lt_iff, not_or]
  exact ⟨(twoDigits_bounds t.minute).1, fun h => (twoDigits_bounds t.second).1 h.2⟩

theorem not_lt_rest (t : TimeText) : ¬ ":59:59".toList < t.rest := by
  show ¬ ':' :: (twoDigits 59 ++ ':' :: twoDigits 59) < _
  rw [TimeText.rest, rest_lt_iff, not_or]
  exact ⟨(twoDigits_bounds t.minute).2, fun h => (twoDigits_bounds t.second).2 h.2⟩

/-- Times are compared hour first. -/
theorem ofList_le_iff {s : String} (h : s = String.ofList (a ++ x)) (hlen : a.length = 13) :
    (s ≤ t.text ↔ ¬ (t.hour < a ∨ t.hour = a ∧ t.rest < x))
      ∧ (t.text ≤ s ↔ ¬ (a < t.hour ∨ a = t.hour ∧ x < t.rest)) := by
  subst h
  have hto : t.text.toList = t.hour ++ t.rest := String.toList_ofList
  constructor
  · show ¬ t.text.toList < (String.ofList (a ++ x)).toList ↔ _
    rw [hto, String.toList_ofList, append_lt_append_iff (t.length.trans hlen.symm)]
  · show ¬ (String.ofList (a ++ x)).toList < t.text.toList ↔ _
    rw [hto, String.toList_ofList, append_lt_append_iff (hlen.trans t.length.symm)]

theorem takeWhile_text (t : TimeText) :
    ':' ∈ t.text.toList ∧ t.text.toList.takeWhile (· ≠ ':') = t.hour := by
  rw [TimeText.text, String.toList_ofList, TimeText.rest]
  refine ⟨List.mem_append_right _ List.mem_cons_self, ?_⟩
  rw [List.takeWhile_append_of_pos, List.takeWhile_cons_of_neg (by simp), List.append_nil]
  intro c hc
  simpa using fun heq : c = ':' => t.colon (heq ▸ hc)

theorem getHourStart_text (t : TimeText) :
    getHourStart t.text = String.ofList (t.hour ++ ":00:00".toList) := by
  obtain ⟨hmem, hhour⟩ := takeWhile_text t
  rw [getHourStart, if_pos hmem, hhour, String.ofList_append, String.ofList_toList]

theorem getHourEnd_text (t : TimeText) :
    getHourEnd t.text = String.ofList (t.hour ++ ":59:59".toList) := by
  obtain ⟨hmem, hhour⟩ := takeWhile_text t
  rw [getHourEnd, if_pos hmem, hhour, String.ofList_append, String.ofList_toList]

/-- The database of a record in the range is among those that the range is rounded to. -/
theorem indexed_of_stored {range : HistoryRange} {f : HourlyFile} {r : HourlyRecord}
    (hstore : f.flagStore = 1) (hhour : r.time.hour = f.time.hour)
    (hr : range.stored r = true) : range.indexed f = true := by
  simp only [HistoryRange.stored, HistoryRange.indexed, decide_eq_true_eq] at hr ⊢
  obtain ⟨-, hstart, hend⟩ := hr
  have hfrom := (ofList_le_iff (s := range.timeStart.text) rfl range.timeStart.length).1.mp hstart
  have hto := (ofList_le_iff (s := range.timeEnd.text) rfl range.timeEnd.length).2.mp hend
  rw [not_or] at hfrom hto
  refine ⟨hstore, ?_, ?_⟩
  · rw [(ofList_le_iff (getHourStart_text _) range.timeStart.length).1, not_or, ← hhour]
    exact ⟨hfrom.1, fun h => not_rest_lt _ h.2⟩
  · rw [(ofList_le_iff (getHourEnd_text _) range.timeEnd.length).2, not_or, ← hhour]
    exact ⟨hto.1, fun h => not_lt_rest _ h.2⟩

end Times

/-! ## What is claimed of the export -/

section Export

variable {h : History} {range : HistoryRange} {rounds : Nat → ExportRound} {f : HourlyFile}
  {fs : List HourlyFile} {r : HourlyRecord} {rs : List HourlyRecord} {s : Export}

/-- The records of a database that lie in the range. -/
def History.wanted (h : History) (range : HistoryRange) (f : HourlyFile) : List HourlyRecord :=
  (h.records f.recordPath).rows.filter range.stored

/-- What is to be sent: the records in the range of every database that is indexed as stored. -/
def History.toSend (h : History) (range : HistoryRange) : List (Nat × HourlyRecord) :=
  (h.dbFiles.rows.filter fun f => f.flagStore = 1).flatMap fun f =>
    (h.wanted range f).map fun r => (f.ID, r)

/-- No command stops the export, and every read and transfer of it succeeds. -/
structure Calm (rounds : Nat → ExportRound) : Prop where
  stop : ∀ n, (rounds n).stop = false
  readFile : ∀ n, (rounds n).readFile = true
  readRecord : ∀ n, (rounds n).readRecord = true
  sends : ∀ n, (rounds n).sends = true

/-- The export ends; it has sent what is to be sent, numbered from 1 on, and as much as is counted. -/
def Complete (h : History) (range : HistoryRange) (rounds : Nat → ExportRound) (recordID : Int) :
    Prop :=
  ∃ fuel s, dbUploadHistoryTrafficThr h range rounds true true recordID fuel = some s
    ∧ s.sent = (h.toSend range).zipIdx 1 ∧ s.sent.length = getRecordCountTraffic h range

/-- The databases of the hours of the range. -/
def History.shownFiles (h : History) (range : HistoryRange) : List HourlyFile :=
  h.dbFiles.rows.filter range.indexed

/-- In the first database of the range what stands in the variable hides no record of it, and no later
database has a record in the range. -/
def OneDatabase (h : History) (range : HistoryRange) (recordID : Int) : Prop :=
  match h.shownFiles range with
  | [] => True
  | f :: fs => (∀ r ∈ h.wanted range f, recordID < r.ID) ∧ ∀ f' ∈ fs, h.wanted range f' = []

/-! ## Rounds -/

/-- The rows that the cursor of the index has still to come to. -/
def History.filesAfter (h : History) (range : HistoryRange) (last : Nat) : List HourlyFile :=
  h.dbFiles.rowsAfter last range.indexed

def History.recordsAfter (h : History) (range : HistoryRange) (f : HourlyFile) (last : Int) :
    List HourlyRecord :=
  (h.records f.recordPath).rowsAfter last.toNat range.stored

/-- A calm round as the two cursors see it. -/
theorem exportRound_calm (hcalm : Calm rounds) : exportRound h range rounds s =
    match (h.filesAfter range s.idDBFileLast).head? with
    | none => none
    | some f =>
      match (h.recordsAfter range f s.recordID).head? with
      | none => some { s with countSend := s.countSend + 1, recordID := 0, idDBFileLast := f.ID }
      | some r => some { s with
          countSend := s.countSend + 1
          recordID := r.ID
          sent := s.sent ++ [((f.ID, r), s.countSend + 1)] } := by
  have hfile : h.dbFiles.selectAfter s.idDBFileLast range.indexed
      = (h.filesAfter range s.idDBFileLast).head? := Table.selectAfter_eq_head? _
  have hrecord : ∀ f : HourlyFile,
      (h.records f.recordPath).selectAfter s.recordID.toNat range.stored
        = (h.recordsAfter range f s.recordID).head? := fun f => Table.selectAfter_eq_head? _
  cases hhead : (h.filesAfter range s.idDBFileLast).head? with
  | none => simp [exportRound, hcalm.stop, hcalm.readFile, hfile, hhead]
  | some f =>
    cases hnext : (h.recordsAfter range f s.recordID).head? with
    | none =>
      simp [exportRound, hcalm.stop, hcalm.readFile, hcalm.readRecord, hfile, hrecord, hhead, hnext]
    | some r =>
      simp [exportRound, hcalm.stop, hcalm.readFile, hcalm.readRecord, hcalm.sends, hfile, hrecord,
        hhead, hnext]

theorem exportRound_end (hcalm : Calm rounds) (hfile : h.filesAfter range s.idDBFileLast = []) :
    exportRound h range rounds s = none := by
  rw [exportRound_calm hcalm, hfile]
  rfl

theorem exportRound_file (hcalm : Calm rounds)
    (hfile : h.filesAfter range s.idDBFileLast = f :: fs)
    (hrecord : h.recordsAfter range f s.recordID = []) :
    exportRound h range rounds s
      = some { s with countSend := s.countSend + 1, recordID := 0, idDBFileLast := f.ID } := by
  rw [exportRound_calm hcalm, hfile]
  dsimp only [List.head?_cons]
  rw [hrecord]
  rfl

theorem exportRound_record (hcalm : Calm rounds)
    (hfile : h.filesAfter range s.idDBFileLast = f :: fs)
    (hrecord : h.recordsAfter range f s.recordID = r :: rs) :
    exportRound h range rounds s = some { s with
      countSend := s.countSend + 1
      recordID := r.ID
      sent := s.sent ++ [((f.ID, r), s.countSend + 1)] } := by
  rw [exportRound_calm hcalm, hfile]
  dsimp only [List.head?_cons]
  rw [hrecord]
  rfl

/-- What is sent of one database: its records with the numbers behind those that are counted. -/
def numbered (f : HourlyFile) (count : Nat) (rs : List HourlyRecord) :
    List ((Nat × HourlyRecord) × Nat) :=
  (rs.map fun r => (f.ID, r)).zipIdx (count + 1)

/-- The rounds of one database; the last one sends nothing and is counted. -/
theorem exitsIn_file (hcalm : Calm rounds) (hfile : h.filesAfter range s.idDBFileLast = f :: fs)
    (hrecord : h.recordsAfter range f s.recordID = rs) {t : Export} :
    ExitsIn (exportRound h range rounds) s t ↔ ExitsIn (exportRound h range rounds) {
      idDBFileLast := f.ID
      recordID := 0
      countSend := s.countSend + (rs.length + 1)
      sent := s.sent ++ numbered f s.countSend rs } t := by
  induction rs generalizing s with
  | nil =>
    rw [exitsIn_iff_of_step (exportRound_file hcalm hfile hrecord)]
    simp [numbered]
  | cons r rs ih =>
    have hnext : h.recordsAfter range f (r.ID : Nat) = rs := by
      rw [History.recordsAfter, Int.toNat_natCast]
      exact Table.rowsAfter_next _ hrecord
    rw [exitsIn_iff_of_step (exportRound_record hcalm hfile hrecord), ih (s := { s with
      countSend := s.countSend + 1
      recordID := r.ID
      sent := s.sent ++ [((f.ID, r), s.countSend + 1)] }) hfile hnext]
    simp [numbered, Nat.add_assoc, Nat.add_comm]

theorem recordsAfter_zero : h.recordsAfter range f 0 = h.wanted range f := Table.rowsAfter_zero _

theorem filesAfter_zero : h.filesAfter range 0 = h.shownFiles range := Table.rowsAfter_zero _

/-- What is sent of the databases behind the first one. -/
def History.sends (h : History) (range : HistoryRange) :
    Nat → List HourlyFile → List ((Nat × HourlyRecord) × Nat)
  | _, [] => []
  | count, f :: fs => numbered f count (h.wanted range f)
      ++ h.sends range (count + ((h.wanted range f).length + 1)) fs

/-- The export exits, whatever the databases hold. -/
theorem exitsIn_files (hcalm : Calm rounds) (hfile : h.filesAfter range s.idDBFileLast = fs)
    (hzero : s.recordID = 0) :
    (∃ t, ExitsIn (exportRound h range rounds) s t)
      ∧ ∀ t, ExitsIn (exportRound h range rounds) s t →
        t.sent = s.sent ++ h.sends range s.countSend fs := by
  induction fs generalizing s with
  | nil =>
    have hexit := fun t => exitsIn_iff_of_exit (t := t) (exportRound_end hcalm hfile)
    refine ⟨⟨s, (hexit s).mpr rfl⟩, fun t ht => ?_⟩
    rw [(hexit t).mp ht, History.sends, List.append_nil]
  | cons f fs ih =>
    have hrecord : h.recordsAfter range f s.recordID = h.wanted range f := by
      rw [hzero, recordsAfter_zero]
    have hexit := fun t => exitsIn_file (t := t) hcalm hfile hrecord
    obtain ⟨⟨t, ht⟩, hsent⟩ := ih (s := {
      idDBFileLast := f.ID
      recordID := 0
      countSend := s.countSend + ((h.wanted range f).length + 1)
      sent := s.sent ++ numbered f s.countSend (h.wanted range f) })
      (Table.rowsAfter_next _ hfile) rfl
    refine ⟨⟨t, (hexit t).mpr ht⟩, fun t ht => ?_⟩
    rw [hsent t ((hexit t).mp ht), History.sends, List.append_assoc]

/-- What the export sends when `recordID` stands in the variable at the start. -/
def History.sent (h : History) (range : HistoryRange) (recordID : Int) :
    List ((Nat × HourlyRecord) × Nat) :=
  match h.shownFiles range with
  | [] => []
  | f :: fs => numbered f 0 (h.recordsAfter range f recordID)
      ++ h.sends range ((h.recordsAfter range f recordID).length + 1) fs

theorem exitsIn_export (h : History) (range : HistoryRange) (hcalm : Calm rounds)
    (recordID : Int) :
    (∃ t, ExitsIn (exportRound h range rounds) { recordID } t)
      ∧ ∀ t, ExitsIn (exportRound h range rounds) { recordID } t →
        t.sent = h.sent range recordID := by
  have hfile : h.filesAfter range ({ recordID } : Export).idDBFileLast = h.shownFiles range :=
    filesAfter_zero
  unfold History.sent
  cases hshown : h.shownFiles range with
  | nil =>
    rw [hshown] at hfile
    have hexit := fun t => exitsIn_iff_of_exit (t := t) (exportRound_end hcalm hfile)
    exact ⟨⟨_, (hexit _).mpr rfl⟩, fun t ht => by rw [(hexit t).mp ht]⟩
  | cons f fs =>
    rw [hshown] at hfile
    have hexit := fun t => exitsIn_file (s := { recordID }) (t := t) hcalm hfile rfl
    obtain ⟨⟨t, ht⟩, hsent⟩ := exitsIn_files (s := {
      idDBFileLast := f.ID
      recordID := 0
      countSend := 0 + ((h.recordsAfter range f recordID).length + 1)
      sent := [] ++ numbered f 0 (h.recordsAfter range f recordID) })
      hcalm (Table.rowsAfter_next _ hfile) rfl
    refine ⟨⟨t, (hexit t).mpr ht⟩, fun t ht => ?_⟩
    rw [hsent t ((hexit t).mp ht), List.nil_append, Nat.zero_add]

/-! ## What is to be sent and what is counted -/

theorem wanted_of_not_indexed (hf : f ∈ h.dbFiles.rows) (hstore : f.flagStore = 1)
    (hindexed : range.indexed f = false) : h.wanted range f = [] := by
  refine List.filter_eq_nil_iff.mpr fun r hr hstored => ?_
  rw [indexed_of_stored hstore (h.hourly f hf r hr) hstored] at hindexed
  cases hindexed

theorem flatMap_filter_of_nil {α β : Type} {p : α → Bool} {g : α → List β} {l : List α}
    (hnil : ∀ a ∈ l, p a = false → g a = []) : (l.filter p).flatMap g = l.flatMap g := by
  induction l with
  | nil => rfl
  | cons a l ih =>
    obtain ⟨ha, hl⟩ := List.forall_mem_cons.mp hnil
    cases hp : p a with
    | true => rw [List.filter_cons_of_pos hp, List.flatMap_cons, List.flatMap_cons, ih hl]
    | false =>
      rw [List.filter_cons_of_neg (by simp [hp]), List.flatMap_cons, ha hp, ih hl, List.nil_append]

/-- The rounded hours lose no record. -/
theorem toSend_eq : h.toSend range = (h.shownFiles range).flatMap fun f =>
    (h.wanted range f).map fun r => (f.ID, r) := by
  have hshown : h.shownFiles range
      = (h.dbFiles.rows.filter fun f => decide (f.flagStore = 1)).filter range.indexed := by
    rw [List.filter_filter]
    refine List.filter_congr fun f _ => ?_
    simp only [HistoryRange.indexed]
    by_cases hstore : f.flagStore = 1 <;> simp [hstore]
  rw [hshown, flatMap_filter_of_nil]
  · rfl
  · intro f hf hindexed
    obtain ⟨hrow, hstore⟩ := List.mem_filter.mp hf
    rw [wanted_of_not_indexed hrow (of_decide_eq_true hstore) hindexed]
    rfl

theorem length_toSend : (h.toSend range).length = getRecordCountTraffic h range := by
  rw [toSend_eq, List.length_flatMap, getRecordCountTraffic]
  simp only [List.length_map]
  rfl

/-! ## The numbers -/

/-- The records of some databases, each with its database. -/
def History.pairs (h : History) (range : HistoryRange) (fs : List HourlyFile) :
    List (Nat × HourlyRecord) :=
  fs.flatMap fun f => (h.wanted range f).map fun r => (f.ID, r)

theorem pairs_cons : h.pairs range (f :: fs)
    = (h.wanted range f).map (fun r => (f.ID, r)) ++ h.pairs range fs := List.flatMap_cons

theorem pairs_eq_nil : h.pairs range fs = [] ↔ ∀ f ∈ fs, h.wanted range f = [] := by
  simp [History.pairs]

theorem sends_eq_nil (hnil : ∀ f ∈ fs, h.wanted range f = []) (count : Nat) :
    h.sends range count fs = [] := by
  induction fs generalizing count with
  | nil => rfl
  | cons f fs ih =>
    obtain ⟨hf, hfs⟩ := List.forall_mem_cons.mp hnil
    rw [History.sends, hf, ih hfs]
    rfl

theorem map_fst_sends (count : Nat) :
    (h.sends range count fs).map Prod.fst = h.pairs range fs := by
  induction fs generalizing count with
  | nil => rfl
  | cons f fs ih => rw [History.sends, List.map_append, ih, numbered, List.zipIdx_map_fst, pairs_cons]

/-- Once a round has been counted that sent nothing, no later number is right. -/
theorem sends_late_iff {count late : Nat} (hlt : count < late) :
    h.sends range late fs = (h.pairs range fs).zipIdx (count + 1)
      ↔ ∀ f ∈ fs, h.wanted range f = [] := by
  constructor
  · intro heq
    induction fs generalizing late with
    | nil => exact fun _ hf => absurd hf List.not_mem_nil
    | cons f fs ih =>
      rw [History.sends, pairs_cons] at heq
      cases hwanted : h.wanted range f with
      | nil =>
        rw [hwanted] at heq
        exact List.forall_mem_cons.mpr ⟨hwanted, ih (Nat.lt_succ_of_lt hlt) heq⟩
      | cons r rs =>
        rw [hwanted, numbered, List.map_cons, List.zipIdx_cons, List.cons_append, List.cons_append,
          List.zipIdx_cons, List.cons.injEq, Prod.mk.injEq] at heq
        exact absurd (Nat.succ.inj heq.1.2) (Nat.ne_of_gt hlt)
  · intro hnil
    rw [sends_eq_nil hnil, pairs_eq_nil.mpr hnil]
    rfl

theorem recordsAfter_eq_filter (recordID : Int) : h.recordsAfter range f recordID
    = (h.wanted range f).filter fun r => decide (recordID < r.ID) := by
  rw [History.recordsAfter, Table.rowsAfter, History.wanted, List.filter_filter]
  refine List.filter_congr fun r hr => ?_
  have hpos := (h.records f.recordPath).pos r hr
  have hiff : recordID.toNat < r.ID ↔ recordID < r.ID := by omega
  rw [decide_eq_decide.mpr hiff]

/-- What is sent is what is to be sent, numbered from 1 on, in the one case. -/
theorem sent_eq_iff (recordID : Int) :
    h.sent range recordID = (h.toSend range).zipIdx 1 ↔ OneDatabase h range recordID := by
  rw [toSend_eq, History.sent, OneDatabase]
  cases h.shownFiles range with
  | nil => exact ⟨fun _ => trivial, fun _ => rfl⟩
  | cons f fs =>
    show _ = (h.pairs range (f :: fs)).zipIdx 1 ↔ _
    dsimp only
    have hall : h.recordsAfter range f recordID = h.wanted range f
        ↔ ∀ r ∈ h.wanted range f, recordID < r.ID := by
      rw [recordsAfter_eq_filter, List.filter_eq_self]
      simp
    rw [← hall, pairs_cons, List.zipIdx_append, List.length_map]
    constructor
    · intro heq
      have hfst := congrArg (List.map Prod.fst) heq
      rw [List.map_append, List.map_append, map_fst_sends, numbered, List.zipIdx_map_fst,
        List.zipIdx_map_fst, List.zipIdx_map_fst, List.append_cancel_right_eq] at hfst
      have hlen := congrArg List.length hfst
      rw [List.length_map, List.length_map, recordsAfter_eq_filter] at hlen
      have hsame : h.recordsAfter range f recordID = h.wanted range f := by
        rw [recordsAfter_eq_filter]
        exact List.filter_sublist.eq_of_length hlen
      refine ⟨hsame, ?_⟩
      rw [hsame, numbered, Nat.zero_add, List.append_cancel_left_eq, Nat.add_comm 1] at heq
      exact (sends_late_iff (Nat.lt_succ_self _)).mp heq
    · rintro ⟨hsame, hnil⟩
      rw [hsame, sends_eq_nil hnil, pairs_eq_nil.mpr hnil]
      rfl

/-- The export of a range is complete and numbered exactly when all its records are in the first
database and the variable that nobody sets hides none of them. -/
theorem history_export_complete_iff (h : History) (range : HistoryRange)
    {rounds : Nat → ExportRound} (hcalm : Calm rounds) (recordID : Int) :
    Complete h range rounds recordID ↔ OneDatabase h range recordID := by
  obtain ⟨⟨t, fuel, ht⟩, hsent⟩ := exitsIn_export h range hcalm recordID
  rw [← sent_eq_iff]
  constructor
  · rintro ⟨fuel', s, hs, heq, -⟩
    rw [← hsent s ⟨fuel', hs⟩, heq]
  · intro heq
    have hs := (hsent t ⟨fuel, ht⟩).trans heq
    exact ⟨fuel, t, ht, hs, by rw [hs, List.length_zipIdx, length_toSend]⟩

/-! ## Two hours with a record each -/

def atNoon : TimeText := ⟨"2013-06-01 12".toList, 1, 2, by decide, by decide⟩

def atOne : TimeText := ⟨"2013-06-01 13".toList, 1, 2, by decide, by decide⟩

def fileAt (ID : Nat) (recordPath : String) (time : TimeText) : HourlyFile :=
  { ID, recordPath, flagSend := 0, flagStore := 1, time }

def recordAt (time : TimeText) : HourlyRecord :=
  { ID := 1, partitionPath := "mmc", imagePath := "a.jpg", flagSend := 0, flagStore := 1, time }

def twoHours : History where
  dbFiles := ⟨[fileAt 1 "12.db" atNoon, fileAt 2 "13.db" atOne], by decide, by decide⟩
  records := fun path =>
    ⟨[recordAt (if path = "12.db" then atNoon else atOne)], List.pairwise_singleton _ _, by
      simp [recordAt]⟩
  hourly := by decide

theorem calm_default : Calm fun _ => {} :=
  ⟨fun _ => rfl, fun _ => rfl, fun _ => rfl, fun _ => rfl⟩

/-- The range of one hour is exported. -/
theorem history_export_complete_atNoon :
    Calm (fun _ => {}) ∧ Complete twoHours ⟨atNoon, atNoon⟩ (fun _ => {}) 0 := by
  refine ⟨calm_default, (history_export_complete_iff _ _ calm_default 0).mpr ?_⟩
  show (∀ r ∈ [recordAt atNoon], (0 : Int) < r.ID) ∧ ∀ f' ∈ [], _
  exact ⟨by decide, fun _ hf' => absurd hf' List.not_mem_nil⟩

/-- In the range of both hours the second record gets the number 3. -/
theorem not_history_export_complete :
    Calm (fun _ => {}) ∧ ¬ Complete twoHours ⟨atNoon, atOne⟩ (fun _ => {}) 0 := by
  refine ⟨calm_default, ?_⟩
  rintro ⟨fuel, s, hs, heq, -⟩
  have hsent : s.sent = twoHours.sent ⟨atNoon, atOne⟩ 0 :=
    (exitsIn_export _ _ calm_default 0).2 s ⟨fuel, hs⟩
  rw [hsent] at heq
  have hnumbers := congrArg (List.map Prod.snd) heq
  have hlate : (twoHours.sent ⟨atNoon, atOne⟩ 0).map Prod.snd = [1, 3] := rfl
  have hwanted : ((twoHours.toSend ⟨atNoon, atOne⟩).zipIdx 1).map Prod.snd = [1, 2] := rfl
  rw [hlate, hwanted] at hnumbers
  cases hnumbers

end Export

end VdCamera.Storage
