import VdCamera.Misc.Run
import VdCamera.Platform.HttpResend
import VdCamera.Platform.Proofs.FtpResend

/-!
# The stores are bounded and paired with their pictures

A round leaves the store as it is or takes the newest row with its file, and a put adds a row with
its file, so the pairing is kept along every run in which the operations succeed.
-/

namespace VdCamera.Platform

open Misc

variable {β : Type*} {sizeJpegBuffer : Nat}

/-- A file that can be read and sent. -/
def Readable (sizeJpegBuffer : Nat) (pic : List UInt8) : Prop :=
  pic ≠ [] ∧ pic.length ≤ sizeJpegBuffer

/-- The rows and the files belong together, and every file can be read. -/
structure ResendStore.Kept (sizeJpegBuffer : Nat) (s : ResendStore β) : Prop where
  sound : s.Sound fun _ => Readable sizeJpegBuffer
  distinct : s.Distinct
  paired : s.Paired

namespace ResendStore.Kept

variable {s s' : ResendStore β} {r : ResendRow β} {nr : Int} {name pic : List UInt8} {info : β}

theorem empty {picDir : List UInt8} {h : picDir.length < 256} :
    (empty picDir h : ResendStore β).Kept sizeJpegBuffer :=
  ⟨empty_sound, List.nodup_nil, empty_paired⟩

theorem put (hs : s.Kept sizeJpegBuffer) (h : s.put nr name info pic true = some s')
    (hfits : s.Fits name) (hnew : s.NewName nr name) (hpic : Readable sizeJpegBuffer pic) :
    s'.Kept sizeJpegBuffer where
  sound := by
    apply hs.sound.put h hfits
    · intro _ t _
      exact ⟨fun _ => hpic, fun _ _ _ => hpic⟩
    · intro hfailed
      cases hfailed
  distinct := hs.distinct.put h hnew
  paired := hs.paired.put hs.sound hs.distinct h hfits

theorem delId_remove (hs : s.Kept sizeJpegBuffer) (h : s.select = some r) :
    ((s.delId r.id).remove r.name).Kept sizeJpegBuffer where
  sound := (Shrinks.delId_remove s r).sound hs.sound
  distinct := (Shrinks.delId_remove s r).distinct hs.distinct
  paired := hs.paired.delId_remove hs.sound hs.distinct h

/-- The picture of the newest row is read. -/
theorem read (hs : s.Kept sizeJpegBuffer) (h : s.select = some r) :
    ∃ pic, pic ≠ [] ∧ s.read sizeJpegBuffer true r.name = some pic := by
  obtain ⟨b, hb, hread⟩ := read_of_paired hs.paired hs.sound (mem_rows_of_select h)
  rw [List.take_of_length_le hb.2] at hread
  exact ⟨b, hb.1, hread⟩

/-- A round that leaves the store or takes the newest row with its file. -/
theorem round (hs : s.Kept sizeJpegBuffer)
    (h : s' = s ∨ ∃ r, s.select = some r ∧ s' = (s.delId r.id).remove r.name) :
    s'.Kept sizeJpegBuffer := by
  rcases h with rfl | ⟨r, hr, rfl⟩
  · exact hs
  · exact hs.delId_remove hr

end ResendStore.Kept

/-! ## The store of `http_resend.c` -/

/-- The file operations of a step succeed; a picture that is put is not empty, and its name is as
long as a file name can be and that of no row that stays. -/
def HttpSucceeds (s : HttpResend) : HttpEvent → Prop
  | .put item openOk => openOk = true ∧ (s.on = true →
      item.pic ≠ [] ∧ s.store.Fits item.name ∧ s.store.NewName s.nrRecord item.name)
  | .round _ _ openOk _ => openOk = true
  | _ => True

instance (s : HttpResend) : ∀ e, Decidable (HttpSucceeds s e)
  | .put _ _ => inferInstanceAs (Decidable (_ ∧ (_ → _ ∧ _ ∧ _)))
  | .round _ _ _ _ => inferInstanceAs (Decidable (_ = _))
  | .setRecordNum _ => inferInstanceAs (Decidable True)
  | .setSwitch _ => inferInstanceAs (Decidable True)

/-- How many rows there are after a put, given the number of rows to keep and the rows before. -/
def HttpPutLeaves (sizeJpegBuffer : Nat) (bound : HttpResend → Int) (s : HttpResend) :
    HttpEvent → Prop
  | .put item openOk => After (httpStep sizeJpegBuffer)
      (fun s' => (s'.store.rows.length : Int) ≤ bound s) s (.put item openOk)
  | _ => True

instance (bound : HttpResend → Int) (s : HttpResend) :
    ∀ e, Decidable (HttpPutLeaves sizeJpegBuffer bound s e)
  | .put item openOk => inferInstanceAs (Decidable (After (httpStep sizeJpegBuffer)
      (fun s' => (s'.store.rows.length : Int) ≤ bound s) s (.put item openOk)))
  | .setRecordNum _ => inferInstanceAs (Decidable True)
  | .setSwitch _ => inferInstanceAs (Decidable True)
  | .round _ _ _ _ => inferInstanceAs (Decidable True)

/-- The most rows that a put leaves: those to be kept, which is at least the new one, or nine fewer
than before; while the store is switched off, those before. -/
def httpTrimBound (s : HttpResend) : Int :=
  if s.on then max (max 1 s.nrRecord) (s.store.rows.length - 9) else s.store.rows.length

theorem httpResendRound_store {s : HttpResend} {info : TabitcomHttpInfo} {sec : Nat} {sendOk : Bool}
    (hs : s.store.Kept sizeJpegBuffer) :
    (httpResendRound sizeJpegBuffer sec info true sendOk s).store = s.store ∨
      ∃ r, s.store.select = some r ∧
        (httpResendRound sizeJpegBuffer sec info true sendOk s).store =
          (s.store.delId r.id).remove r.name := by
  unfold httpResendRound
  cases s.on with
  | false => exact Or.inl rfl
  | true =>
    cases hsel : s.store.select with
    | none => exact Or.inl rfl
    | some r =>
      obtain ⟨pic, hne, hread⟩ := hs.read hsel
      simp only [hread, if_neg hne, if_true]
      split
      · exact Or.inr ⟨r, rfl, rfl⟩
      · cases sendOk with
        | true => exact Or.inr ⟨r, rfl, rfl⟩
        | false => exact Or.inl rfl

theorem httpPut_spec {s s' : HttpResend} {item : SabitcomHttpResend} {openOk : Bool}
    (h : tabitcomHttpResendPut sizeJpegBuffer item openOk s = some s') :
    s.on = false ∧ s' = s ∨ s.on = true ∧ item.pic.length ≤ sizeJpegBuffer ∧
      s.store.put s.nrRecord item.name item.json item.pic openOk = some s'.store := by
  unfold tabitcomHttpResendPut at h
  cases hon : s.on with
  | false =>
    simp only [hon, Bool.false_eq_true, if_false, Option.some.injEq] at h
    exact Or.inl ⟨rfl, h.symm⟩
  | true =>
    simp only [hon, if_true] at h
    split at h
    · obtain ⟨store, hput, hs'⟩ := Option.bind_eq_some_iff.mp h
      cases hs'
      exact Or.inr ⟨rfl, ‹_›, hput⟩
    · cases h

theorem httpStep_kept {s s' : HttpResend} {e : HttpEvent} (hs : s.store.Kept sizeJpegBuffer)
    (he : HttpSucceeds s e) (h : httpStep sizeJpegBuffer s e = some s') :
    s'.store.Kept sizeJpegBuffer := by
  cases e with
  | put item openOk =>
    obtain ⟨rfl, hitem⟩ := he
    rcases httpPut_spec h with ⟨-, rfl⟩ | ⟨hon, hlen, hput⟩
    · exact hs
    · obtain ⟨hpic, hfits, hnew⟩ := hitem hon
      exact hs.put hput hfits hnew ⟨hpic, hlen⟩
  | setRecordNum nr =>
    cases h
    exact hs
  | setSwitch on =>
    cases h
    exact hs
  | round info sec openOk sendOk =>
    cases h
    have hopen : openOk = true := he
    rw [hopen]
    exact hs.round (httpResendRound_store hs)

/-- At most ten rows go in a put. -/
theorem httpPut_leaves {s : HttpResend} {e : HttpEvent} :
    HttpPutLeaves sizeJpegBuffer httpTrimBound s e := by
  cases e with
  | put item openOk =>
    intro s' h
    rcases httpPut_spec h with ⟨hoff, rfl⟩ | ⟨hon, -, hput⟩
    · simp [httpTrimBound, hoff]
    · simp only [httpTrimBound, hon, if_true]
      exact ResendStore.length_rows_put hput
  | _ => trivial

/-! ## The store of `ftp_resend.c` -/

/-- The file operations of a step succeed; a picture that could not be sent is not empty, and its
name is that of no row that stays. -/
def FtpSucceeds (s : FtpResend) : FtpEvent → Prop
  | .send u _ sendOk openOk => sendOk = true ∨
      openOk = true ∧ u.pic ≠ [] ∧ s.store.NewName s.resv u.name
  | .round openOk _ => openOk = true

instance (s : FtpResend) : ∀ e, Decidable (FtpSucceeds s e)
  | .send _ _ _ _ => inferInstanceAs (Decidable (_ ∨ _ ∧ _ ∧ _))
  | .round _ _ => inferInstanceAs (Decidable (_ = _))

theorem ftpRound_store {s s' : FtpResend} {sendOk : Bool} {passed : Option EpPicInfo}
    (hs : s.store.Kept sizeJpegBuffer)
    (h : ftpResendRound sizeJpegBuffer true sendOk s = some (s', passed)) :
    s'.store = s.store ∨
      ∃ r, s.store.select = some r ∧ s'.store = (s.store.delId r.id).remove r.name := by
  unfold ftpResendRound at h
  cases hsel : s.store.select with
  | none =>
    rw [hsel] at h
    cases h
    exact Or.inl rfl
  | some r =>
    obtain ⟨pic, hne, hread⟩ := hs.read hsel
    simp only [hsel, hread, Option.getD_some, Option.isSome_some, if_true, if_neg hne] at h
    obtain ⟨path, -, h⟩ := Option.bind_eq_some_iff.mp h
    cases sendOk with
    | true =>
      cases h
      exact Or.inr ⟨r, rfl, rfl⟩
    | false =>
      cases h
      exact Or.inl rfl

/-- The store is kept and holds at most `resv` rows, or one if `resv` is not positive. -/
structure FtpResend.Bounded (sizeJpegBuffer : Nat) (resv : Int) (s : FtpResend) : Prop where
  kept : s.store.Kept sizeJpegBuffer
  keeps : s.resv = resv
  rows : (s.store.rows.length : Int) ≤ max 1 resv

theorem ftpStep_bounded {s s' : FtpResend} {e : FtpEvent} {resv : Int}
    (hs : s.Bounded sizeJpegBuffer resv) (he : FtpSucceeds s e)
    (h : ftpStep sizeJpegBuffer s e = some s') : s'.Bounded sizeJpegBuffer resv := by
  cases e with
  | send u uninit sendOk openOk =>
    rcases ftpSendPic_spec h with ⟨-, rfl⟩ | ⟨hfail, hname, hlen, -, hresv, hput⟩
    · exact hs
    · rcases he with hsent | ⟨rfl, hpic, hnew⟩
      · exact absurd (hsent.symm.trans hfail) (by simp)
      · refine ⟨hs.kept.put hput (fits_of_name hname) hnew ⟨hpic, hlen⟩, hresv.trans hs.keeps, ?_⟩
        have hleaves := ResendStore.length_rows_put hput
        have hrows := hs.rows
        rw [hs.keeps] at hleaves
        omega
  | round openOk sendOk =>
    obtain ⟨⟨t, passed⟩, hround, rfl⟩ := Option.map_eq_some_iff.mp h
    have hopen : openOk = true := he
    subst hopen
    obtain ⟨hshrinks, hresv⟩ := ftpRound_shrinks hround
    refine ⟨hs.kept.round (ftpRound_store hs.kept hround), hresv.trans hs.keeps, ?_⟩
    have hlen : t.store.rows.length ≤ s.store.rows.length := hshrinks.rows.length_le
    have hrows := hs.rows
    show (t.store.rows.length : Int) ≤ max 1 resv
    omega

/-! ## Both stores -/

/-- Along every run in which the operations succeed the picture files are those of the rows. A put
into the table of `http_resend.c` leaves at most the number of rows to keep, or nine rows fewer than
before; the table of `ftp_resend.c` never holds more than the number of rows to keep. -/
theorem resendStores_paired (picDir : List UInt8) (hdir : picDir.length < 256) (nr : Int) :
    (∀ es, Along (httpStep sizeJpegBuffer) HttpSucceeds
        (tabitcomHttpResendRamInit picDir hdir nr) es →
      Along (httpStep sizeJpegBuffer) (fun s e =>
        After (httpStep sizeJpegBuffer) (fun s' => s'.store.Paired) s e ∧
        HttpPutLeaves sizeJpegBuffer httpTrimBound s e)
        (tabitcomHttpResendRamInit picDir hdir nr) es) ∧
    ∀ picinfo es, Along (ftpStep sizeJpegBuffer) FtpSucceeds
        (tabitcomFtpResendRamInit picDir hdir nr picinfo) es →
      Along (ftpStep sizeJpegBuffer) (After (ftpStep sizeJpegBuffer) fun s' =>
        s'.store.Paired ∧ (s'.store.rows.length : Int) ≤ max 1 nr)
        (tabitcomFtpResendRamInit picDir hdir nr picinfo) es := by
  refine ⟨fun es hrun => ?_, fun picinfo es hrun => ?_⟩
  · apply Along.of_invariant (J := fun s => s.store.Kept sizeJpegBuffer) ResendStore.Kept.empty hrun
    · intro s e s' hs he h
      exact httpStep_kept hs he h
    · intro s e hs he
      exact ⟨fun s' h => (httpStep_kept hs he h).paired, httpPut_leaves⟩
  · have hinit : (tabitcomFtpResendRamInit picDir hdir nr picinfo).Bounded sizeJpegBuffer nr := by
      refine ⟨ResendStore.Kept.empty, rfl, ?_⟩
      show ((0 : Nat) : Int) ≤ max 1 nr
      omega
    apply Along.of_invariant hinit hrun
    · intro s e s' hs he h
      exact ftpStep_bounded hs he h
    · intro s e hs he s' h
      exact ⟨(ftpStep_bounded hs he h).kept.paired, (ftpStep_bounded hs he h).rows⟩

/-- A picture of one byte under a name of one byte. -/
def onePicture (name : UInt8) : SabitcomHttpResend := ⟨[], [name], [name]⟩

theorem resendStores_paired_one :
    Along (httpStep 4) (fun s e =>
        After (httpStep 4) (fun s' => s'.store.Paired) s e ∧ HttpPutLeaves 4 httpTrimBound s e)
        (tabitcomHttpResendRamInit [] (by decide) 1)
        [.put (onePicture 1) true, .put (onePicture 2) true, .setRecordNum 5,
          .put (onePicture 1) true, .round ⟨[], [], 0, []⟩ 0 true true] ∧
      Along (ftpStep 4) (After (ftpStep 4) fun s' =>
        s'.store.Paired ∧ (s'.store.rows.length : Int) ≤ max 1 1)
        (tabitcomFtpResendRamInit [] (by decide) 1 ⟨oneLevel 97, [], []⟩)
        [.send ⟨oneLevel 97, [110], [10]⟩ [] false true, .round true false,
          .send ⟨oneLevel 98, [111], [20]⟩ [] false true, .round true true] :=
  ⟨(resendStores_paired [] (by decide) 1).1 _ (by decide),
    (resendStores_paired [] (by decide) 1).2 ⟨oneLevel 97, [], []⟩ _ (by decide)⟩

/-- A put that follows a call of `tabitcom_http_resend_set_record_num` leaves three rows where one
is to be kept. -/
theorem httpResend_not_bounded :
    let puts := (List.range 12).map fun i => HttpEvent.put (onePicture (UInt8.ofNat i)) true
    Along (httpStep 4) HttpSucceeds (tabitcomHttpResendRamInit [] (by decide) 12)
        (puts ++ [.setRecordNum 1, .put (onePicture 12) true]) ∧
      ¬ Along (httpStep 4) (HttpPutLeaves 4 fun s => max 1 s.nrRecord)
        (tabitcomHttpResendRamInit [] (by decide) 12)
        (puts ++ [.setRecordNum 1, .put (onePicture 12) true]) := by
  decide +kernel

end VdCamera.Platform
