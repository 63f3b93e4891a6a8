import VdCamera.Platform.ResendStore

/-!
# What the operations on the store keep

Trimming takes the oldest rows with their files, a put adds a row with its file, and a round takes
the newest row. `Sound` is kept by all of them, `Paired` by those that succeed on the row and on its
file.
-/

namespace VdCamera.Platform

open Misc

namespace ResendStore

variable {β : Type*} {s s' t : ResendStore β} {r : ResendRow β} {nr : Int} {name pic : List UInt8}
  {info : β} {openOk : Bool} {good : ResendRow β → List UInt8 → Prop}

/-- The name of the file is the name itself. -/
def Fits (s : ResendStore β) (name : List UInt8) : Prop := s.picDir.length + name.length ≤ 510

instance : Decidable (s.Fits name) := inferInstanceAs (Decidable (_ ≤ _))

theorem picName_eq (h : s.Fits name) : s.picName name = name := by
  unfold Fits at h
  exact List.take_of_length_le (by omega)

/-- The names are not cut, and each file is good for its row. -/
structure Sound (good : ResendRow β → List UInt8 → Prop) (s : ResendStore β) : Prop where
  attached : Attached ResendRow.name good s.rows s.files
  fits : ∀ r ∈ s.rows, s.Fits r.name

/-- The picture files are those of the rows. -/
def Paired (s : ResendStore β) : Prop := Misc.Paired ResendRow.name s.rows s.files

/-- No two rows have one name. -/
def Distinct (s : ResendStore β) : Prop := (s.rows.map ResendRow.name).Nodup

theorem empty_sound {picDir : List UInt8} {h : picDir.length < 256} :
    (empty picDir h : ResendStore β).Sound good where
  attached _ hr := absurd hr List.not_mem_nil
  fits _ hr := absurd hr List.not_mem_nil

theorem empty_paired {picDir : List UInt8} {h : picDir.length < 256} :
    (empty picDir h : ResendStore β).Paired :=
  Misc.Paired.empty

/-! ## Taking rows and files away -/

/-- Some rows and some files are gone. -/
structure Shrinks (s t : ResendStore β) : Prop where
  picDir : t.picDir = s.picDir
  rows : t.rows.Sublist s.rows
  files : ∀ n b, t.files n = some b → s.files n = some b

namespace Shrinks

theorem refl (s : ResendStore β) : s.Shrinks s := ⟨rfl, List.Sublist.refl _, fun _ _ hb => hb⟩

theorem trans (h : s.Shrinks t) (h' : t.Shrinks s') : s.Shrinks s' where
  picDir := h'.picDir.trans h.picDir
  rows := h'.rows.trans h.rows
  files n b hb := h.files n b (h'.files n b hb)

theorem delId (s : ResendStore β) (id : Nat) : s.Shrinks (s.delId id) :=
  ⟨rfl, List.filter_sublist, fun _ _ hb => hb⟩

theorem remove (s : ResendStore β) (name : List UInt8) : s.Shrinks (s.remove name) where
  picDir := rfl
  rows := List.Sublist.refl _
  files n b hb := by
    by_cases hn : n = s.picName name
    · subst hn
      simp [ResendStore.remove] at hb
    · simpa [ResendStore.remove, hn] using hb

theorem delId_remove (s : ResendStore β) (r : ResendRow β) :
    s.Shrinks ((s.delId r.id).remove r.name) :=
  (delId s r.id).trans (remove _ r.name)

theorem fits (h : s.Shrinks t) : t.Fits name ↔ s.Fits name := by
  unfold Fits
  rw [h.picDir]

theorem sound (h : s.Shrinks t) (hs : s.Sound good) : t.Sound good where
  attached := hs.attached.mono h.rows.subset h.files
  fits r hr := h.fits.mpr (hs.fits r (h.rows.subset hr))

theorem distinct (h : s.Shrinks t) (hs : s.Distinct) : t.Distinct :=
  hs.sublist (h.rows.map ResendRow.name)

end Shrinks

/-! ## Trimming -/

/-- How many rows a put deletes. -/
def trimmed (nr : Int) (s : ResendStore β) : Nat := min (s.limit nr).toNat 10

theorem foldl_delId (l : List (ResendRow β)) : l.foldl (fun s r => s.delId r.id) s =
    { s with table := l.foldl (fun t r => t.delete r.id) s.table } := by
  induction l generalizing s with
  | nil => rfl
  | cons r l ih => exact ih

theorem foldl_remove (names : List (List UInt8)) : names.foldl (fun s name => s.remove name) s =
    { s with files := removeFiles (names.map s.picName) s.files } := by
  induction names generalizing s with
  | nil => simp
  | cons name names ih =>
    rw [List.foldl_cons, ih]
    show { s with files := removeFiles (names.map s.picName) (Function.update s.files _ none) } = _
    rw [← foldl_update_none, ← foldl_update_none, List.map_cons, List.foldl_cons]

/-- The oldest rows go, with the files of their names. -/
theorem trim_spec (h : s.trim nr = some t) :
    t.rows = s.rows.drop (s.trimmed nr) ∧ t.picDir = s.picDir ∧
      t.files =
        removeFiles ((s.rows.take (s.trimmed nr)).map fun r => s.picName r.name) s.files := by
  unfold trim delRedundant at h
  split at h
  · cases h
  · split at h
    · have hnone : s.trimmed nr = 0 := by
        unfold trimmed
        omega
      cases h
      simp [hnone]
    · have htake : (s.rows.take (s.limit nr).toNat).take 10 = s.rows.take (s.trimmed nr) := by
        rw [List.take_take, trimmed, Nat.min_comm]
      simp only [htake, foldl_delId, Option.bind_eq_bind, Option.bind_some, foldl_remove,
        Option.some.injEq] at h
      subst h
      refine ⟨s.table.rows_deleteFirst (s.trimmed nr), rfl, ?_⟩
      simp only [List.map_map]
      rfl

theorem shrinks_trim (h : s.trim nr = some t) : s.Shrinks t := by
  obtain ⟨hrows, hdir, hfiles⟩ := trim_spec h
  refine ⟨hdir, ?_, ?_⟩
  · rw [hrows]
    exact List.drop_sublist _ _
  · intro n b hb
    rw [hfiles] at hb
    exact (removeFiles_some hb).2

theorem Paired.trim (hp : s.Paired) (hs : s.Sound good) (hd : s.Distinct)
    (h : s.trim nr = some t) : t.Paired := by
  obtain ⟨hrows, -, hfiles⟩ := trim_spec h
  have hnames : (s.rows.take (s.trimmed nr)).map (fun r => s.picName r.name) =
      (s.rows.take (s.trimmed nr)).map ResendRow.name :=
    List.map_congr_left fun r hr => picName_eq (hs.fits r (List.mem_of_mem_take hr))
  unfold ResendStore.Paired
  rw [hrows, hfiles, hnames]
  apply Misc.Paired.remove hp hd
  rw [List.take_append_drop]

/-! ## Putting -/

/-- No row that stays when `nr` rows are kept has the name. -/
def NewName (nr : Int) (name : List UInt8) (s : ResendStore β) : Prop :=
  ∀ t ∈ s.trim nr, name ∉ t.rows.map ResendRow.name

instance : Decidable (s.NewName nr name) := inferInstanceAs (Decidable (∀ t ∈ s.trim nr, _))

/-- The row comes behind those that stay and, if its file opens, the file to the others. -/
theorem put_spec (h : s.put nr name info pic openOk = some s') :
    ∃ t id, s.trim nr = some t ∧ s'.picDir = s.picDir ∧
      s'.rows = t.rows ++ [⟨id, name, info⟩] ∧
      s'.files = if openOk then Function.update t.files (s.picName name) (some pic)
        else t.files := by
  unfold put at h
  obtain ⟨t, ht, hs'⟩ := Option.bind_eq_some_iff.mp h
  have hdir := (trim_spec ht).2.1
  have hname : t.picName name = s.picName name := by rw [picName, hdir, picName]
  cases Option.some.inj hs'
  rw [← hname]
  refine ⟨t, t.table.lastKey + 1, ht, ?_⟩
  cases openOk with
  | true => exact ⟨hdir, rfl, rfl⟩
  | false => exact ⟨hdir, rfl, rfl⟩

theorem mem_rows_put (h : s.put nr name info pic openOk = some s') (hr : r ∈ s'.rows) :
    r ∈ s.rows ∨ r.name = name ∧ r.info = info := by
  obtain ⟨t, id, ht, -, hrows, -⟩ := put_spec h
  rw [hrows] at hr
  rcases List.mem_append.mp hr with hr | hr
  · exact Or.inl ((shrinks_trim ht).rows.subset hr)
  · rw [List.mem_singleton.mp hr]
    exact Or.inr ⟨rfl, rfl⟩

/-- The row that is put needs a file that is good for all rows of its name. -/
theorem Sound.put (hs : s.Sound good) (h : s.put nr name info pic openOk = some s')
    (hfits : s.Fits name)
    (hopened : openOk = true → ∀ t ∈ s.trim nr, (∀ id, good ⟨id, name, info⟩ pic) ∧
      ∀ r ∈ t.rows, r.name = name → good r pic)
    (hfailed : openOk = false →
      ∀ t ∈ s.trim nr, ∀ b ∈ t.files name, ∀ id, good ⟨id, name, info⟩ b) :
    s'.Sound good := by
  obtain ⟨t, id, ht, hdir, hrows, hfiles⟩ := put_spec h
  have hattached := ((shrinks_trim ht).sound hs).attached
  rw [picName_eq hfits] at hfiles
  constructor
  · rw [hrows, hfiles]
    apply hattached.append
    · intro n hn
      split
      · exact Function.update_of_ne hn _ _
      · rfl
    · intro b hb
      cases openOk with
      | true =>
        have hb : b = pic := by simpa [eq_comm] using hb
        rw [hb]
        exact ⟨(hopened rfl t ht).1 id, (hopened rfl t ht).2⟩
      | false =>
        refine ⟨hfailed rfl t ht b hb id, ?_⟩
        intro r hr hname
        exact hattached r hr b (hname ▸ hb)
  · intro r hr
    unfold Fits
    rw [hdir]
    rcases mem_rows_put h hr with hr | ⟨hr, -⟩
    · exact hs.fits r hr
    · rw [hr]
      exact hfits

theorem Distinct.put (hd : s.Distinct) (h : s.put nr name info pic openOk = some s')
    (hnew : s.NewName nr name) : s'.Distinct := by
  obtain ⟨t, id, ht, -, hrows, -⟩ := put_spec h
  unfold Distinct
  rw [hrows]
  exact nodup_names_append ((shrinks_trim ht).distinct hd) (hnew t ht)

theorem Paired.put (hp : s.Paired) (hs : s.Sound good) (hd : s.Distinct)
    (h : s.put nr name info pic true = some s') (hfits : s.Fits name) : s'.Paired := by
  obtain ⟨t, id, ht, -, hrows, hfiles⟩ := put_spec h
  unfold ResendStore.Paired
  rw [hrows, hfiles, if_pos rfl, picName_eq hfits]
  exact (hp.trim hs hd ht).append

/-- After a put there are at most `nr` rows, or one if `nr` is not positive, or nine fewer than
before. -/
theorem length_rows_put (h : s.put nr name info pic openOk = some s') :
    (s'.rows.length : Int) ≤ max (max 1 nr) (s.rows.length - 9) := by
  obtain ⟨t, id, ht, -, hrows, -⟩ := put_spec h
  have hlen : s'.rows.length = s.rows.length - s.trimmed nr + 1 := by
    rw [hrows, (trim_spec ht).1]
    simp
  unfold trimmed limit at hlen
  omega

/-! ## The newest row -/

theorem select_spec (h : s.select = some r) : s.rows = s.rows.dropLast ++ [r] := by
  obtain ⟨rs, hrs⟩ := List.getLast?_eq_some_iff.mp h
  simp [hrs]

theorem mem_rows_of_select (h : s.select = some r) : r ∈ s.rows := List.mem_of_getLast? h

theorem rows_delId (h : s.select = some r) : (s.delId r.id).rows = s.rows.dropLast :=
  s.table.rows_delete_last (select_spec h)

/-- The newest row goes with its file. -/
theorem Paired.delId_remove (hp : s.Paired) (hs : s.Sound good) (hd : s.Distinct)
    (h : s.select = some r) :
    ((s.delId r.id).remove r.name).Paired := by
  have hpic : s.picName r.name = r.name := picName_eq (hs.fits r (mem_rows_of_select h))
  have hremove : Function.update s.files r.name none = removeFiles [r.name] s.files := by
    rw [← foldl_update_none, List.foldl_cons, List.foldl_nil]
  have hrows : s.rows.Perm ([r] ++ s.rows.dropLast) := by
    conv_lhs => rw [select_spec h]
    exact List.perm_append_comm
  unfold ResendStore.Paired
  show Misc.Paired ResendRow.name (s.delId r.id).rows
    (Function.update s.files (s.picName r.name) none)
  rw [hpic, hremove, rows_delId h]
  exact Misc.Paired.remove hp hd hrows

/-- What is read of a row is what its file holds. -/
theorem read_of_sound {size : Nat} (hs : s.Sound good) (hr : r ∈ s.rows)
    (h : s.read size openOk r.name = some pic) : ∃ b, good r b ∧ pic = b.take size := by
  unfold read at h
  split at h
  · obtain ⟨b, hb, rfl⟩ := Option.map_eq_some_iff.mp h
    rw [picName_eq (hs.fits r hr)] at hb
    exact ⟨b, hs.attached r hr b hb, rfl⟩
  · cases h

/-- The file of a row opens. -/
theorem read_of_paired {size : Nat} (hp : s.Paired) (hs : s.Sound good) (hr : r ∈ s.rows) :
    ∃ b, good r b ∧ s.read size true r.name = some (b.take size) := by
  obtain ⟨b, hb⟩ := Option.isSome_iff_exists.mp ((hp r.name).mpr (List.mem_map_of_mem hr))
  refine ⟨b, hs.attached r hr b hb, ?_⟩
  simp [read, picName_eq (hs.fits r hr), hb]

end ResendStore

end VdCamera.Platform
