import VdCamera.Misc.Run
import VdCamera.Storage.TrafficReupload

/-!
# No record is dropped before it is delivered

What a round can do is said once, as a relation. From it: a record whose information is still to be
sent stays in its database, with its bit, until the information has been reported as sent, in every
run in which no round loses a record.
-/

namespace VdCamera.Storage

open Misc

variable {e : Round} {s t u : Store} {path : String} {r r' : TrafficRecord} {f : DBFile}

/-- With `flag` left of the flags, the round deletes the record without its information sent. -/
def LosesInfo (e : Round) (flag : Nat) : Prop :=
  flag ≠ 1 ∨ e.mqUp ∧ e.mqUpAtSend ∧ ¬ e.mqSend

/-- The round deletes the record without its information sent: the image is missing, another bit is
left when the image is done, or MQ does not take the information. -/
def Loses (e : Round) (s : Store) (r : TrafficRecord) : Prop :=
  if r.imageToSend then
    e.ftpUp ∧ ((r.partitionPath, r.imagePath) ∉ s.images ∨
      e.ftpSend ∧ e.ftpChannel ∧ LosesInfo e (r.flagSend &&& 0xfd))
  else LosesInfo e r.flagSend

/-- What a round can do once it has read a record. -/
inductive RecordStep (e : Round) (s : Store) (path : String) (r : TrafficRecord) : Store → Prop
  | waits (images : List (String × String)) (h : ¬ Loses e s r) :
      RecordStep e s path r { s with images := images }
  | sent (images : List (String × String)) (h : ¬ Loses e s r) (r' : TrafficRecord)
      (hID : r'.ID = r.ID) :
      RecordStep e s path r
        (finishRecord e { s with images := images, delivered := (path, r.ID) :: s.delivered } path r')
  | unsent (images : List (String × String)) (h : Loses e s r) (r' : TrafficRecord)
      (hID : r'.ID = r.ID) :
      RecordStep e s path r (finishRecord e { s with images := images } path r')

/-- The round is configured and has a link to send over. -/
def Round.Active (e : Round) : Prop := e.isResumePasscar ∧ (e.ftpUp ∨ e.mqUp)

/-- What a round can do. -/
inductive RoundStep (e : Round) (s : Store) : Store → Prop
  | idle (h : ¬ e.Active ∨ dbReadDBFile e s = none) : RoundStep e s s
  | closes (he : e.Active) (f : DBFile) (hf : dbReadDBFile e s = some f)
      (hr : dbReadTrafficRecord e s f.recordPath = none) :
      RoundStep e s (dbDeleteDBFile e { s with idRecordLast := 0, idDBFileLast := 0 } f)
  | record (he : e.Active) (f : DBFile) (hf : dbReadDBFile e s = some f) (r : TrafficRecord)
      (hr : dbReadTrafficRecord e s f.recordPath = some r) (t : Store)
      (ht : RecordStep e s f.recordPath r t) : RoundStep e s t

/-- The second half of a round, from the store and the flag that the first half leaves. -/
theorem reuploadInfo_cases (e : Round) (s : Store) (path : String) (r : TrafficRecord) :
    (reuploadInfo e s path r).2 = s ∧ ¬ LosesInfo e r.flagSend ∨
    (reuploadInfo e s path r).2 =
        finishRecord e { s with delivered := (path, r.ID) :: s.delivered } path r ∧
      ¬ LosesInfo e r.flagSend ∨
    (reuploadInfo e s path r).2 = finishRecord e s path r ∧ LosesInfo e r.flagSend := by
  unfold reuploadInfo LosesInfo
  by_cases hflag : r.flagSend = 1
  · by_cases hmq : e.mqUp
    · rw [if_pos ⟨hflag, hmq⟩]
      unfold sendTrafficRecordsInfo
      by_cases hup : e.mqUpAtSend
      · by_cases hsend : e.mqSend
        · simp [hflag, hup, hsend]
        · simp [hflag, hmq, hup, hsend]
      · simp [hflag, hup]
    · simp [hflag, hmq]
  · simp [hflag]

theorem recordStep_of_info (images : List (String × String)) (hID : r'.ID = r.ID)
    (hl : Loses e s r ↔ LosesInfo e r'.flagSend) :
    RecordStep e s path r (reuploadInfo e { s with images := images } path r').2 := by
  rcases reuploadInfo_cases e { s with images := images } path r' with ⟨ht, h⟩ | ⟨ht, h⟩ | ⟨ht, h⟩
  · rw [ht]
    exact .waits images (mt hl.mp h)
  · rw [ht, hID]
    exact .sent images (mt hl.mp h) r' hID
  · rw [ht]
    exact .unsent images (hl.mpr h) r' hID

/-- An uploaded image is moved away or stays. -/
theorem sendTrafficRecordsImageFile_of_send (hfile : (r.partitionPath, r.imagePath) ∈ s.images)
    (hsend : e.ftpSend) :
    ∃ images, sendTrafficRecordsImageFile e s r = (0, { s with images := images }) := by
  unfold sendTrafficRecordsImageFile
  rw [if_neg (not_not_intro hfile), if_neg (by simp [hsend])]
  split
  · exact ⟨_, rfl⟩
  · exact ⟨s.images, rfl⟩

theorem recordStep (e : Round) (s : Store) (path : String) (r : TrafficRecord) :
    RecordStep e s path r (reuploadRecord e s path r).2 := by
  unfold reuploadRecord
  by_cases himage : r.imageToSend
  · by_cases hftp : e.ftpUp
    · rw [if_pos ⟨hftp, himage⟩]
      by_cases hfile : (r.partitionPath, r.imagePath) ∈ s.images
      · by_cases hsend : e.ftpSend
        · obtain ⟨images, hres⟩ := sendTrafficRecordsImageFile_of_send hfile hsend
          simp only [hres]
          by_cases hchannel : e.ftpChannel
          · rw [if_neg (by simp [hchannel])]
            exact recordStep_of_info images rfl (by
              simp [Loses, himage, hftp, hfile, hsend, hchannel])
          · rw [if_pos (by simp [hchannel])]
            exact .waits images (by simp [Loses, himage, hfile, hchannel])
        · have hres : sendTrafficRecordsImageFile e s r = (-1, s) := by
            simp [sendTrafficRecordsImageFile, hfile, hsend]
          rw [hres]
          exact .waits s.images (by simp [Loses, himage, hfile, hsend])
      · have hres : sendTrafficRecordsImageFile e s r = (-2, s) := by
          simp [sendTrafficRecordsImageFile, hfile]
        rw [hres]
        exact .unsent s.images (by simp [Loses, himage, hftp, hfile]) r rfl
    · rw [if_neg (by simp [hftp]), if_pos himage]
      exact .waits s.images (by simp [Loses, himage, hftp])
  · rw [if_neg (by simp [himage]), if_neg himage]
    exact recordStep_of_info s.images rfl (by simp [Loses, himage])

theorem roundStep (e : Round) (s : Store) : RoundStep e s (trafficRecordReupload e s).2 := by
  unfold trafficRecordReupload
  by_cases hresume : e.isResumePasscar
  · by_cases hlink : e.ftpUp ∨ e.mqUp
    · have he : e.Active := ⟨hresume, hlink⟩
      rw [if_neg (by simp [hresume]), if_neg (by simpa [or_iff_not_imp_left] using hlink)]
      rcases hf : dbReadDBFile e s with _ | f
      · exact .idle (Or.inr hf)
      · dsimp only
        rcases hr : dbReadTrafficRecord e s f.recordPath with _ | r
        · exact .closes he f hf hr
        · exact .record he f hf r hr _ (recordStep e s f.recordPath r)
    · rw [if_neg (by simp [hresume]), if_pos (by simpa using hlink)]
      exact .idle (Or.inl fun he => hlink he.2)
  · rw [if_pos (by simp [hresume])]
    exact .idle (Or.inl fun he => hresume he.1)

section Tables

theorem flagSend_pos (h : r.infoToSend) : 0 < r.flagSend := by
  rcases Nat.eq_zero_or_pos r.flagSend with h0 | h0
  · simp [TrafficRecord.infoToSend, h0] at h
  · exact h0

/-- The record of a round is the first one behind the last that has something left to send. -/
theorem dbReadTrafficRecord_some (h : dbReadTrafficRecord e s path = some r) :
    r ∈ (s.records path).rows ∧ s.idRecordLast < r.ID ∧
      ∀ r' ∈ (s.records path).rows, r'.infoToSend → s.idRecordLast < r'.ID → r.ID ≤ r'.ID := by
  unfold dbReadTrafficRecord at h
  split at h
  · obtain ⟨hmem, hlast, -, hfirst⟩ := Table.selectAfter_some _ h
    refine ⟨hmem, hlast, ?_⟩
    intro r' hr' hinfo hlast'
    by_contra hlt
    have hflag := hfirst r' hr' hlast' (Nat.lt_of_not_le hlt)
    simp only [decide_eq_false_iff_not] at hflag
    exact hflag (flagSend_pos hinfo)
  · cases h

/-- A query that succeeds and finds nothing leaves nothing to send behind the last record. -/
theorem dbReadTrafficRecord_none (h : dbReadTrafficRecord e s path = none) (he : e.readRecord) :
    ∀ r ∈ (s.records path).rows, r.infoToSend → r.ID ≤ s.idRecordLast := by
  unfold dbReadTrafficRecord at h
  rw [if_pos he] at h
  intro r hr hinfo
  by_contra hlt
  have hflag := Table.selectAfter_none _ h r hr (Nat.lt_of_not_le hlt)
  simp only [decide_eq_false_iff_not] at hflag
  exact hflag (flagSend_pos hinfo)

/-- Deleting a record leaves every other one. -/
theorem mem_dbDeleteTrafficRecords {path' : String} (hr' : r' ∈ (s.records path').rows)
    (hne : path' = path → r'.ID ≠ r.ID) :
    r' ∈ ((dbDeleteTrafficRecords e s path r).records path').rows := by
  unfold dbDeleteTrafficRecords Store.setRecords
  by_cases hpath : path' = path
  · subst hpath
    split_ifs
    · exact hr'
    · simpa [Table.mem_update] using Or.inl ⟨hr', hne rfl⟩
    · simpa [Table.mem_delete] using ⟨hr', hne rfl⟩
  · split_ifs <;> simpa [Function.update_of_ne hpath] using hr'

/-- What is left to send after a record is deleted was there before; the record itself is not left,
unless the statement failed. -/
theorem of_mem_dbDeleteTrafficRecords {path' : String}
    (h : r' ∈ ((dbDeleteTrafficRecords e s path r).records path').rows) (hinfo : r'.infoToSend) :
    r' ∈ (s.records path').rows ∧ (path' = path → e.deleteRecord → r'.ID ≠ r.ID) := by
  unfold dbDeleteTrafficRecords Store.setRecords at h
  by_cases hpath : path' = path
  · subst hpath
    split_ifs at h with hfail hstore
    · exact ⟨h, fun _ hdelete => by simp [hdelete] at hfail⟩
    · simp only [Function.update_self, Table.mem_update] at h
      rcases h with h | ⟨r₀, -, -, rfl⟩
      · exact ⟨h.1, fun _ _ => h.2⟩
      · simp [TrafficRecord.infoToSend] at hinfo
    · simp only [Function.update_self, Table.mem_delete] at h
      exact ⟨h.1, fun _ _ => h.2⟩
  · refine ⟨?_, fun h => absurd h hpath⟩
    split_ifs at h <;> simpa [Function.update_of_ne hpath] using h

end Tables

section Run

/-- The database has a record whose information is still to be sent and was not delivered. -/
def Owes (s : Store) (path : String) : Prop :=
  ∃ r ∈ (s.records path).rows, r.infoToSend ∧ (path, r.ID) ∉ s.delivered

/-- The round loses no record that is owed: it does not drop the one it reads, and where the query
itself fails it does not remove a database that owes one. -/
def RoundSafe (s : Store) (e : Round) : Prop :=
  e.Active → ∀ f, dbReadDBFile e s = some f →
    (∀ r, dbReadTrafficRecord e s f.recordPath = some r → r.infoToSend →
      (f.recordPath, r.ID) ∉ s.delivered → ¬ Loses e s r) ∧
    (¬ e.readRecord → f.flagStore ≠ 1 → e.openIndex → ¬ Owes s f.recordPath)

/-- Every record of `s` whose information is still to be sent is still there in `t`, with its bit,
or was delivered. -/
def NoDrop (s t : Store) : Prop :=
  ∀ path, ∀ r ∈ (s.records path).rows, r.infoToSend →
    (∃ r' ∈ (t.records path).rows, r'.ID = r.ID ∧ r'.infoToSend) ∨ (path, r.ID) ∈ t.delivered

theorem NoDrop.refl (s : Store) : NoDrop s s := fun _ r hr hinfo => Or.inl ⟨r, hr, rfl, hinfo⟩

theorem NoDrop.trans (h : NoDrop s t) (h' : NoDrop t u) (hsub : t.delivered ⊆ u.delivered) :
    NoDrop s u := by
  intro path r hr hinfo
  rcases h path r hr hinfo with ⟨r', hr', hID, hinfo'⟩ | hdel
  · rw [← hID]
    exact h' path r' hr' hinfo'
  · exact Or.inr (hsub hdel)

/-- What the static variables stand for: in the database that is worked on, everything up to the
last record is delivered. -/
structure Passed (s : Store) : Prop where
  idDBFileLast : s.idDBFileLast = 0
  delivered : ∀ f, s.dbFiles.selectAfter 0 (0 < ·.flagSend) = some f →
    ∀ r ∈ (s.records f.recordPath).rows, r.infoToSend → r.ID ≤ s.idRecordLast →
      (f.recordPath, r.ID) ∈ s.delivered

theorem Passed.of_zero (h : s.idDBFileLast = 0) (h' : s.idRecordLast = 0) : Passed s := by
  refine ⟨h, ?_⟩
  intro f _ r hr _ hle
  have := (s.records f.recordPath).pos r hr
  omega

theorem Passed.read (h : Passed s) (hf : dbReadDBFile e s = some f) :
    s.dbFiles.selectAfter 0 (0 < ·.flagSend) = some f := by
  unfold dbReadDBFile at hf
  split at hf
  · rwa [h.idDBFileLast] at hf
  · cases hf

section Finish

variable {images : List (String × String)} {delivered : List (String × Nat)}

/-- A round that is done with its record drops nothing if the record is delivered or owes nothing.
-/
theorem noDrop_finishRecord (hr : r ∈ (s.records path).rows) (hID : r'.ID = r.ID)
    (hdone : r.infoToSend → (path, r.ID) ∈ delivered) :
    NoDrop s (finishRecord e { s with images := images, delivered := delivered } path r') := by
  intro path' r₀ hr₀ hinfo
  by_cases hsame : path' = path ∧ r₀.ID = r'.ID
  · obtain ⟨rfl, hID₀⟩ := hsame
    obtain rfl : r₀ = r := Table.eq_of_key _ hr₀ hr (hID₀.trans hID)
    refine Or.inr ?_
    unfold finishRecord dbDeleteTrafficRecords Store.setRecords
    split_ifs <;> exact hdone hinfo
  · exact Or.inl ⟨r₀, mem_dbDeleteTrafficRecords hr₀ fun hpath hID₀ => hsame ⟨hpath, hID₀⟩, rfl, hinfo⟩

theorem delivered_finishRecord : (finishRecord e s path r).delivered = s.delivered := by
  unfold finishRecord dbDeleteTrafficRecords Store.setRecords
  split_ifs <;> rfl

theorem dbFiles_finishRecord : (finishRecord e s path r).dbFiles = s.dbFiles ∧
    (finishRecord e s path r).idDBFileLast = s.idDBFileLast := by
  unfold finishRecord dbDeleteTrafficRecords Store.setRecords
  split_ifs <;> exact ⟨rfl, rfl⟩

/-- The record becomes the last one: everything up to it is delivered. -/
theorem Passed.finishRecord (h : Passed s) (hf : dbReadDBFile e s = some f)
    (hr : dbReadTrafficRecord e s f.recordPath = some r) (hID : r'.ID = r.ID)
    (hsub : s.delivered ⊆ delivered) (hdone : r.infoToSend → (f.recordPath, r.ID) ∈ delivered) :
    Passed (finishRecord e { s with images := images, delivered := delivered } f.recordPath r') := by
  obtain ⟨hmem, -, hfirst⟩ := dbReadTrafficRecord_some hr
  refine ⟨dbFiles_finishRecord.2.trans h.idDBFileLast, ?_⟩
  intro f' hf' r₀ hr₀ hinfo hle
  rw [dbFiles_finishRecord.1, h.read hf] at hf'
  cases hf'
  rw [delivered_finishRecord]
  have hr₀ : r₀ ∈ (s.records f.recordPath).rows := (of_mem_dbDeleteTrafficRecords hr₀ hinfo).1
  have hle : r₀.ID ≤ r.ID := hID ▸ hle
  rcases Nat.lt_or_ge s.idRecordLast r₀.ID with hlast | hlast
  · obtain rfl : r₀ = r :=
      Table.eq_of_key _ hr₀ hmem (Nat.le_antisymm hle (hfirst r₀ hr₀ hinfo hlast))
    exact hdone hinfo
  · exact hsub (h.delivered f (h.read hf) r₀ hr₀ hinfo hlast)

end Finish

theorem delivered_dbDeleteDBFile : (dbDeleteDBFile e s f).delivered = s.delivered := by
  unfold dbDeleteDBFile Store.setRecords
  split_ifs <;> rfl

theorem Passed.dbDeleteDBFile (h : s.idDBFileLast = 0) (h' : s.idRecordLast = 0) :
    Passed (dbDeleteDBFile e s f) := by
  refine .of_zero ?_ ?_
  · unfold Storage.dbDeleteDBFile Store.setRecords
    split_ifs <;> exact h
  · unfold Storage.dbDeleteDBFile Store.setRecords
    split_ifs <;> exact h'

/-- Removing a database drops nothing if it owes nothing. -/
theorem noDrop_dbDeleteDBFile (h : f.flagStore ≠ 1 → e.openIndex → ¬ Owes s f.recordPath) :
    NoDrop s (dbDeleteDBFile e s f) := by
  unfold dbDeleteDBFile Store.setRecords
  by_cases hopen : e.openIndex
  · rw [if_neg (by simp [hopen])]
    by_cases hstore : f.flagStore = 1
    · rw [if_pos hstore]
      split <;> exact NoDrop.refl s
    · rw [if_neg hstore]
      intro path r hr hinfo
      by_cases hpath : path = f.recordPath
      · subst hpath
        refine Or.inr ?_
        have hdel : (f.recordPath, r.ID) ∈ s.delivered := by
          by_contra hdel
          exact h hstore hopen ⟨r, hr, hinfo, hdel⟩
        split <;> exact hdel
      · refine Or.inl ⟨r, ?_, rfl, hinfo⟩
        split <;> simpa [Function.update_of_ne hpath] using hr
  · rw [if_pos (by simp [hopen])]
    exact NoDrop.refl s

/-- A safe round drops nothing, forgets no delivery and leaves the static variables right. -/
theorem round_of_safe (h : Passed s) (hsafe : RoundSafe s e) (ht : RoundStep e s t) :
    NoDrop s t ∧ s.delivered ⊆ t.delivered ∧ Passed t := by
  cases ht with
  | idle _ => exact ⟨NoDrop.refl s, List.Subset.refl _, h⟩
  | closes he f hf hr =>
    have hzero : NoDrop s { s with idRecordLast := 0, idDBFileLast := 0 } := NoDrop.refl s
    refine ⟨hzero.trans (noDrop_dbDeleteDBFile fun hstore hopen => ?_) ?_, ?_, .dbDeleteDBFile rfl rfl⟩
    · by_cases hread : e.readRecord
      · rintro ⟨r, hmem, hinfo, hdel⟩
        exact hdel (h.delivered f (h.read hf) r hmem hinfo
          (dbReadTrafficRecord_none hr hread r hmem hinfo))
      · exact (hsafe he f hf).2 hread hstore hopen
    · rw [delivered_dbDeleteDBFile]
      exact List.Subset.refl _
    · rw [delivered_dbDeleteDBFile]
      exact List.Subset.refl _
  | record he f hf r hr _ ht =>
    have hmem := (dbReadTrafficRecord_some hr).1
    cases ht with
    | waits images _ =>
      exact ⟨NoDrop.refl s, List.Subset.refl _, ⟨h.idDBFileLast, h.delivered⟩⟩
    | sent images _ r' hID =>
      have hsub : s.delivered ⊆ (f.recordPath, r.ID) :: s.delivered := List.subset_cons_self _ _
      have hdone : r.infoToSend → (f.recordPath, r.ID) ∈ (f.recordPath, r.ID) :: s.delivered :=
        fun _ => List.mem_cons_self
      refine ⟨noDrop_finishRecord hmem hID hdone, ?_, h.finishRecord hf hr hID hsub hdone⟩
      rwa [delivered_finishRecord]
    | unsent images hloses r' hID =>
      have hdone : r.infoToSend → (f.recordPath, r.ID) ∈ s.delivered := by
        intro hinfo
        by_contra hdel
        exact (hsafe he f hf).1 r hr hinfo hdel hloses
      have hsub := List.Subset.refl s.delivered
      refine ⟨noDrop_finishRecord hmem hID hdone, ?_, h.finishRecord hf hr hID hsub hdone⟩
      rwa [delivered_finishRecord]

/-- From a start with the static variables at zero, no record is dropped before its information is
delivered in any run whose rounds are safe. -/
theorem reupload_noDrop (rounds : List Round) (hfile : s.idDBFileLast = 0)
    (hrecord : s.idRecordLast = 0) (hsafe : Along reuploadRound RoundSafe s rounds)
    (hrun : runFrom reuploadRound s rounds = some t) : NoDrop s t := by
  have hinv : NoDrop s t ∧ Passed t := by
    refine Along.invariant_end (J := fun t => NoDrop s t ∧ Passed t)
      ⟨NoDrop.refl s, .of_zero hfile hrecord⟩ hsafe ?_ hrun
    intro u e v hu hsafe hv
    cases hv
    obtain ⟨hdrop, hsub, hpassed⟩ := round_of_safe hu.2 hsafe (roundStep e u)
    exact ⟨hu.1.trans hdrop hsub, hpassed⟩
  exact hinv.1

/-- Where the deletion of records works, the rounds that drop nothing are the safe ones. -/
theorem round_noDrop_iff (h : Passed s) (hdelete : e.deleteRecord) (ht : RoundStep e s t) :
    NoDrop s t ↔ RoundSafe s e := by
  refine ⟨?_, fun hsafe => (round_of_safe h hsafe ht).1⟩
  intro hdrop he f hf
  cases ht with
  | idle h =>
    rcases h with h | h
    · exact absurd he h
    · rw [hf] at h
      cases h
  | closes _ f' hf' hr' =>
    rw [hf] at hf'
    cases hf'
    refine ⟨fun r hr => ?_, fun hread hstore hopen howes => ?_⟩
    · rw [hr'] at hr
      cases hr
    · obtain ⟨r, hmem, hinfo, hdel⟩ := howes
      rcases hdrop f.recordPath r hmem hinfo with ⟨r', hr', -, -⟩ | hdel'
      · have hempty : ((dbDeleteDBFile e { s with idRecordLast := 0, idDBFileLast := 0 } f).records
            f.recordPath).rows = [] := by
          unfold dbDeleteDBFile Store.setRecords
          rw [if_neg (by simp [hopen]), if_neg hstore]
          split <;> simp [Table.empty]
        rw [hempty] at hr'
        cases hr'
      · rw [delivered_dbDeleteDBFile] at hdel'
        exact hdel hdel'
  | record _ f' hf' r' hr' _ ht =>
    rw [hf] at hf'
    cases hf'
    refine ⟨fun r hr hinfo hdel hloses => ?_, fun hread => ?_⟩
    · obtain rfl : r = r' := Option.some.inj (hr.symm.trans hr')
      cases ht with
      | waits _ h => exact h hloses
      | sent _ h _ _ => exact h hloses
      | unsent images _ r' hID =>
        rcases hdrop f.recordPath r (dbReadTrafficRecord_some hr).1 hinfo with
          ⟨r₀, hr₀, hID₀, hinfo₀⟩ | hdel'
        · exact (of_mem_dbDeleteTrafficRecords hr₀ hinfo₀).2 rfl hdelete (hID₀.trans hID.symm)
        · rw [delivered_finishRecord] at hdel'
          exact hdel hdel'
    · simp [dbReadTrafficRecord, hread] at hr'

/-- The same along a run: no round drops an undelivered record if and only if every round is safe.
-/
theorem reupload_noDrop_iff {rounds : List Round} (hfile : s.idDBFileLast = 0)
    (hrecord : s.idRecordLast = 0) (hdelete : Along reuploadRound (fun _ e => e.deleteRecord) s rounds) :
    Along reuploadRound (fun s e => After reuploadRound (NoDrop s) s e) s rounds ↔
      Along reuploadRound RoundSafe s rounds := by
  have hiff (s : Store) (e : Round) (hs : Passed s) (he : e.deleteRecord) :
      After reuploadRound (NoDrop s) s e ↔ RoundSafe s e :=
    (after_of_eq rfl).trans (round_noDrop_iff hs he (roundStep e s))
  refine hdelete.congr (.of_zero hfile hrecord) ?_ hiff
  intro s e t hs he hP ht
  cases ht
  exact (round_of_safe hs ((hiff s e hs he).mp hP) (roundStep e s)).2.2

/-- One record database with one record that is not kept, and its image. -/
def oneRecord (flagSend : Nat) : Store where
  dbFiles := ⟨[⟨1, "a.db", 3, 0⟩], by decide, by decide⟩
  records := fun _ => ⟨[⟨1, "mmc", "a.jpg", flagSend, 0⟩], List.pairwise_singleton _ _, by simp⟩
  images := [("mmc", "a.jpg")]

theorem oneRecord_roundSafe : RoundSafe (oneRecord 1) { ftpUp := false, mqUp := true } := by
  rintro - f hf
  have hfile : f = ⟨1, "a.db", 3, 0⟩ := (Option.some.inj hf).symm
  subst hfile
  refine ⟨?_, fun hread => absurd rfl hread⟩
  intro r hr _ _
  have hrow : r = ⟨1, "mmc", "a.jpg", 1, 0⟩ := (Option.some.inj hr).symm
  subst hrow
  simp [Loses, LosesInfo, TrafficRecord.imageToSend]

theorem reupload_noDrop_one :
    NoDrop (oneRecord 1) (trafficRecordReupload { ftpUp := false, mqUp := true } (oneRecord 1)).2 :=
  reupload_noDrop [{ ftpUp := false, mqUp := true }] rfl rfl
    ⟨oneRecord_roundSafe, fun _ _ => trivial⟩ rfl

/-- The image is uploaded while MQ is down, and moved away; the next round does not find it and
deletes the record, whose information was never sent. -/
theorem reupload_drops_uploaded : ¬ ∀ t, runFrom reuploadRound (oneRecord 3)
    [{ ftpUp := true, mqUp := false }, { ftpUp := true, mqUp := true }] = some t →
      NoDrop (oneRecord 3) t := by
  intro h
  rcases h _ rfl "a.db" ⟨1, "mmc", "a.jpg", 3, 0⟩ List.mem_cons_self rfl with ⟨r, hr, -, -⟩ | hdel
  · exact absurd hr List.not_mem_nil
  · exact absurd hdel List.not_mem_nil

end Run

end VdCamera.Storage
