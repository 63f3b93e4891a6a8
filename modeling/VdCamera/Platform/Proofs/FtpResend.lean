import VdCamera.Misc.Run
import VdCamera.Platform.FtpResend
import VdCamera.Platform.Proofs.ResendStore

/-!
# What is sent again is what failed

A path of regular levels is split into these levels, as long as no level of the round before is left
behind them. Along a run in which the rows keep their own files, every picture that is sent again is
then the one that its row was made of.
-/

namespace VdCamera.Platform

open Misc

variable {β : Type*} {sizeJpegBuffer : Nat}

theorem ftpSendPic_spec {s s' : FtpResend} {u : EpPicInfo} {uninit : List UInt8}
    {sendOk openOk : Bool} (h : ftpSendPic sizeJpegBuffer u uninit sendOk openOk s = some s') :
    sendOk = true ∧ s' = s ∨ sendOk = false ∧ u.name.length < NAME_MAX_LEN ∧
      u.pic.length ≤ sizeJpegBuffer ∧ s'.picinfo = s.picinfo ∧ s'.resv = s.resv ∧
      s.store.put s.resv u.name ⟨uninit ++ u.path.levels.flatten, u⟩ u.pic openOk =
        some s'.store := by
  unfold ftpSendPic at h
  cases sendOk with
  | true => exact Or.inl ⟨rfl, (Option.some.inj h).symm⟩
  | false =>
    simp only [Bool.false_eq_true, if_false] at h
    split at h
    · rename_i hlen
      obtain ⟨store, hput, hs'⟩ := Option.bind_eq_some_iff.mp h
      cases hs'
      exact Or.inr ⟨rfl, hlen.2.1, hlen.2.2, rfl, rfl, hput⟩
    · cases h

theorem fits_of_name {s : ResendStore β} {name : List UInt8} (h : name.length < NAME_MAX_LEN) :
    s.Fits name := by
  have hdir := s.picDirLen
  unfold NAME_MAX_LEN at h
  unfold ResendStore.Fits
  omega

/-! ## Splitting a path -/

/-- What stands behind the first level: levels that begin with their only slash, then empty ones. -/
def Chained : List (List UInt8) → Prop
  | [] => True
  | l :: ls => if l = [] then ∀ m ∈ ls, m = []
      else l.head? = some slash ∧ slash ∉ l.tail ∧ Chained ls

/-- Levels that a path can be split into: no slash within a level, one in front of each level but
the first, no used level behind an unused one. -/
def Regular : List (List UInt8) → Prop
  | [] => True
  | l :: ls => if l = [] then ∀ m ∈ ls, m = [] else slash ∉ l.tail ∧ Chained ls

instance Chained.decidable : ∀ ls, Decidable (Chained ls)
  | [] => isTrue trivial
  | l :: ls =>
    have := Chained.decidable ls
    inferInstanceAs (Decidable (if l = [] then _ else _))

instance : ∀ ls, Decidable (Regular ls)
  | [] => isTrue trivial
  | l :: _ => inferInstanceAs (Decidable (if l = [] then _ else _))

/-- Where a level is empty in the first list, it is so in the second one. -/
def EmptyBehind (ls stale : List (List UInt8)) : Prop := ∀ p ∈ ls.zip stale, p.1 = [] → p.2 = []

instance (ls stale : List (List UInt8)) : Decidable (EmptyBehind ls stale) :=
  inferInstanceAs (Decidable (∀ p ∈ ls.zip stale, _))

/-- Empty levels behind empty ones are the same. -/
theorem EmptyBehind.eq_of_empty {ls stale : List (List UInt8)} (h : EmptyBehind ls stale)
    (hlen : ls.length = stale.length) (hempty : ∀ l ∈ ls, l = []) : stale = ls := by
  induction ls generalizing stale with
  | nil => exact List.length_eq_zero_iff.mp hlen.symm
  | cons l ls ih =>
    cases stale with
    | nil => cases hlen
    | cons x stale =>
      have hl : l = [] := hempty l List.mem_cons_self
      have hx : x = [] := h (l, x) List.mem_cons_self hl
      have hrest : stale = ls := by
        apply ih
        · intro p hp
          exact h p (List.mem_cons_of_mem _ hp)
        · exact Nat.succ.inj hlen
        · intro m hm
          exact hempty m (List.mem_cons_of_mem _ hm)
      rw [hl, hx, hrest]

theorem FtpPath.write_spec {p : FtpPath} {before stale : List (List UInt8)} {x l : List UInt8}
    (hp : p.levels = before ++ x :: stale) (hl : l.length < FTP_PATH_LEN) :
    ∃ q, p.write before.length l = some q ∧ q.levels = before ++ l :: stale := by
  have hdepth := p.depth
  rw [hp, List.length_append, List.length_cons] at hdepth
  have hi : before.length < FTP_PATH_DEPTH := by omega
  unfold FtpPath.write
  rw [dif_pos ⟨hi, hl⟩]
  refine ⟨_, rfl, ?_⟩
  simp [hp]

/-- The loop over the bytes of one level. -/
theorem splitPath_level (i : Nat) (level : List UInt8) (c : UInt8) (p : FtpPath)
    {w rest : List UInt8} (hw : slash ∉ w) (hrest : rest = [] ∨ rest.head? = some slash) :
    splitPath i level p (c :: (w ++ rest)) =
      (p.write i (level ++ c :: w)).bind fun q =>
        if rest = [] then some q else splitPath (i + 1) [] q rest := by
  induction w generalizing level c with
  | nil =>
    rcases hrest with rfl | hrest
    · simp [splitPath]
    · have hne : rest ≠ [] := by
        rintro rfl
        cases hrest
      simp [splitPath, hrest, hne]
  | cons d w ih =>
    have hd : d ≠ slash := fun h => hw (h ▸ List.mem_cons_self)
    have hw' : slash ∉ w := fun h => hw (List.mem_cons_of_mem _ h)
    show (if (d :: (w ++ rest)).head? = some slash then _
      else splitPath i (level ++ [c]) p (d :: (w ++ rest))) = _
    rw [if_neg (by simpa using hd), ih (level ++ [c]) d hw', List.append_assoc,
      List.singleton_append]

/-- The loop over the last level; what is behind it is left. -/
theorem splitPath_last {before stale : List (List UInt8)} {x l : List UInt8} {p : FtpPath}
    (hp : p.levels = before ++ x :: stale) (hl : l ≠ []) (hslash : slash ∉ l.tail)
    (hshort : l.length < FTP_PATH_LEN) :
    ∃ q, splitPath before.length [] p l = some q ∧ q.levels = before ++ l :: stale := by
  obtain ⟨c, w, rfl⟩ := List.exists_cons_of_ne_nil hl
  obtain ⟨q, hq, hlevels⟩ := FtpPath.write_spec hp hshort
  have hsplit := splitPath_level before.length [] c p hslash (Or.inl (rfl : ([] : List UInt8) = []))
  refine ⟨q, ?_, hlevels⟩
  simpa [hq] using hsplit

/-- The loop from the start of a level on, when the levels before it are done. -/
theorem splitPath_chained {ls before stale : List (List UInt8)} {x l : List UInt8} {p : FtpPath}
    (hp : p.levels = before ++ x :: stale) (hlen : ls.length = stale.length) (hl : l ≠ [])
    (hslash : slash ∉ l.tail) (hchain : Chained ls) (hempty : EmptyBehind ls stale)
    (hshort : ∀ m ∈ l :: ls, m.length < FTP_PATH_LEN) :
    ∃ q, splitPath before.length [] p (l :: ls).flatten = some q ∧
      q.levels = before ++ l :: ls := by
  have hfirst := hshort l List.mem_cons_self
  induction ls generalizing before stale x l p with
  | nil =>
    have hstale : stale = [] := List.length_eq_zero_iff.mp hlen.symm
    subst hstale
    simpa using splitPath_last hp hl hslash hfirst
  | cons m ls ih =>
    by_cases hm : m = []
    · -- no further level is used
      have hnone : ∀ k ∈ m :: ls, k = [] := by
        unfold Chained at hchain
        rw [if_pos hm] at hchain
        simpa [hm] using hchain
      have hpath : (l :: m :: ls).flatten = l := by
        rw [List.flatten_cons, List.flatten_eq_nil_iff.mpr hnone, List.append_nil]
      rw [hpath, ← hempty.eq_of_empty hlen hnone]
      exact splitPath_last hp hl hslash hfirst
    · unfold Chained at hchain
      rw [if_neg hm] at hchain
      obtain ⟨hhead, htail, hchain⟩ := hchain
      obtain ⟨c, w, rfl⟩ := List.exists_cons_of_ne_nil hl
      obtain ⟨y, stale, rfl⟩ := List.exists_cons_of_length_eq_add_one hlen.symm
      obtain ⟨q, hq, hlevels⟩ := FtpPath.write_spec hp hfirst
      have hbehind : EmptyBehind ls stale := fun k hk => hempty k (List.mem_cons_of_mem _ hk)
      have hmid : q.levels = (before ++ [c :: w]) ++ y :: stale := by simp [hlevels]
      have hrest := ih hmid (Nat.succ.inj hlen) hm htail hchain hbehind
        (fun k hk => hshort k (List.mem_cons_of_mem _ hk))
        (hshort m (List.mem_cons_of_mem _ List.mem_cons_self))
      have hhead' : (m :: ls).flatten.head? = some slash := by
        simp [List.head?_append, hhead]
      have hne : (m :: ls).flatten ≠ [] := by
        simp [hm]
      have hsplit := splitPath_level before.length [] c p hslash (Or.inr hhead')
      obtain ⟨q', hq', hlevels'⟩ := hrest
      refine ⟨q', ?_, ?_⟩
      · rw [List.length_append, List.length_singleton] at hq'
        show splitPath before.length [] p (c :: (w ++ (m :: ls).flatten)) = some q'
        rw [List.tail_cons] at hsplit
        rw [hsplit, List.nil_append, hq, Option.bind_some, if_neg hne]
        exact hq'
      · simp [hlevels']

/-- Regular levels come back, if no used level of the round before stands behind them. -/
theorem splitPath_flatten {dirs p : FtpPath} (hreg : Regular dirs.levels)
    (hempty : EmptyBehind dirs.levels.tail p.levels.tail) :
    splitPath 0 [] p dirs.levels.flatten = some dirs := by
  have hdepth := dirs.depth
  have hdepth' := p.depth
  obtain ⟨l, ls, hdirs⟩ := List.exists_cons_of_length_eq_add_one hdepth
  obtain ⟨x, stale, hp⟩ := List.exists_cons_of_length_eq_add_one hdepth'
  rw [hdirs] at hreg hempty hdepth
  rw [hp] at hempty hdepth'
  have hlen : ls.length = stale.length := by
    rw [List.length_cons] at hdepth hdepth'
    omega
  have hshort : ∀ m ∈ l :: ls, m.length < FTP_PATH_LEN := by
    intro m hm
    exact dirs.len m (hdirs ▸ hm)
  have hreg : if l = [] then ∀ m ∈ ls, m = [] else slash ∉ l.tail ∧ Chained ls := hreg
  have hp : p.levels = [] ++ x :: stale := hp
  have hsplit : ∃ q, splitPath 0 [] p (l :: ls).flatten = some q ∧ q.levels = l :: ls := by
    by_cases hl : l = []
    · rw [if_pos hl] at hreg
      have hpath : (l :: ls).flatten = [] := by
        rw [hl, List.flatten_cons, List.flatten_eq_nil_iff.mpr hreg, List.append_nil]
      have hstale : stale = ls := hempty.eq_of_empty hlen hreg
      have hwrite := FtpPath.write_spec hp (hshort l List.mem_cons_self)
      rw [hpath, ← hstale]
      rw [hl] at hwrite ⊢
      exact hwrite
    · rw [if_neg hl] at hreg
      exact splitPath_chained hp hlen hl hreg.1 hreg.2 hempty hshort
  obtain ⟨q, hq, hlevels⟩ := hsplit
  rw [hdirs, hq, FtpPath.ext (hlevels.trans hdirs.symm)]

/-! ## The steps -/

/-- What a step of the thread hands to `tabitcom_ftp_send` is the upload of a stored row. -/
def SendsStored (sizeJpegBuffer : Nat) (s : FtpResend) (e : FtpEvent) : Prop :=
  ∀ p ∈ ftpHanded sizeJpegBuffer s e, ∃ r ∈ s.store.rows, r.info.origin = p

instance (s : FtpResend) (e : FtpEvent) : Decidable (SendsStored sizeJpegBuffer s e) :=
  inferInstanceAs (Decidable (∀ p ∈ ftpHanded sizeJpegBuffer s e, _))

/-- No row that stays has the name and another picture; when the file does not open to be written,
no other picture is filed under the name. -/
def FilesOwn (name pic : List UInt8) (openOk : Bool) (s : FtpResend) : Prop :=
  ∀ t ∈ s.store.trim s.resv,
    if openOk then ∀ r ∈ t.rows, r.name = name → r.info.origin.pic = pic
    else ∀ b ∈ t.files name, b = pic

instance (name pic : List UInt8) (openOk : Bool) (s : FtpResend) :
    Decidable (FilesOwn name pic openOk s) :=
  inferInstanceAs (Decidable (∀ t ∈ s.store.trim s.resv, if openOk then _ else _))

/-- What a round finds in the row, its file and `picinfo` is of one upload: if there are bytes to
send, those of a round before are the bytes of the row, and no level of a round before is used where
the row has an empty one. -/
def FindsOwn (sizeJpegBuffer : Nat) (openOk : Bool) (s : FtpResend)
    (item : ResendRow FtpItem) : Prop :=
  (s.store.read sizeJpegBuffer openOk item.name).getD s.picinfo.pic = [] ∨
    (s.store.read sizeJpegBuffer openOk item.name = none → s.picinfo.pic = item.info.origin.pic) ∧
      EmptyBehind item.info.origin.path.levels.tail s.picinfo.path.levels.tail

instance (openOk : Bool) (s : FtpResend) (item : ResendRow FtpItem) :
    Decidable (FindsOwn sizeJpegBuffer openOk s item) :=
  inferInstanceAs (Decidable (_ ∨ (_ → _) ∧ _))

/-- A picture that could not be sent has regular levels, which are appended to an empty text, and
gets a file of its own; a round finds what is of one upload. -/
def KeepsApart (sizeJpegBuffer : Nat) (s : FtpResend) : FtpEvent → Prop
  | .send u uninit sendOk openOk =>
    sendOk = true ∨ uninit = [] ∧ Regular u.path.levels ∧ FilesOwn u.name u.pic openOk s
  | .round openOk _ => ∀ item ∈ s.store.select, FindsOwn sizeJpegBuffer openOk s item

instance (s : FtpResend) : ∀ e, Decidable (KeepsApart sizeJpegBuffer s e)
  | .send _ _ _ _ => inferInstanceAs (Decidable (_ ∨ _ ∧ _ ∧ _))
  | .round openOk _ =>
    inferInstanceAs (Decidable (∀ item ∈ s.store.select, FindsOwn sizeJpegBuffer openOk s item))

/-- The row has the name and the path of its upload. -/
structure StoredAs (r : ResendRow FtpItem) : Prop where
  name : r.name = r.info.origin.name
  path : r.info.path = r.info.origin.path.levels.flatten
  regular : Regular r.info.origin.path.levels

/-- Each row is that of its upload, and so is its file, if there is one. -/
structure FtpResend.Keeps (sizeJpegBuffer : Nat) (s : FtpResend) : Prop where
  sound : s.store.Sound fun r pic => pic = r.info.origin.pic ∧ pic.length ≤ sizeJpegBuffer
  rows : ∀ r ∈ s.store.rows, StoredAs r

section Steps

variable {s s' : FtpResend} {e : FtpEvent} {openOk sendOk : Bool} {passed : Option EpPicInfo}
  {p : EpPicInfo}

theorem FtpResend.Keeps.shrink (hs : s.Keeps sizeJpegBuffer) (h : s.store.Shrinks s'.store) :
    s'.Keeps sizeJpegBuffer :=
  ⟨h.sound hs.sound, fun r hr => hs.rows r (h.rows.subset hr)⟩

/-- A round takes rows and files away. -/
theorem ftpRound_shrinks (h : ftpResendRound sizeJpegBuffer openOk sendOk s = some (s', passed)) :
    s.store.Shrinks s'.store ∧ s'.resv = s.resv := by
  unfold ftpResendRound at h
  cases hsel : s.store.select with
  | none =>
    rw [hsel] at h
    cases h
    exact ⟨ResendStore.Shrinks.refl _, rfl⟩
  | some item =>
    simp only [hsel] at h
    generalize hstore : (if (s.store.read sizeJpegBuffer openOk item.name).isSome then s.store
      else s.store.delId item.id) = store at h
    have hstored : s.store.Shrinks store := by
      rw [← hstore]
      split
      · exact ResendStore.Shrinks.refl _
      · exact ResendStore.Shrinks.delId _ _
    have hdel := hstored.trans (ResendStore.Shrinks.delId store item.id)
    split at h
    · cases h
      exact ⟨hdel, rfl⟩
    · obtain ⟨path, -, h⟩ := Option.bind_eq_some_iff.mp h
      cases sendOk with
      | true =>
        cases h
        exact ⟨hdel.trans (ResendStore.Shrinks.remove _ _), rfl⟩
      | false =>
        cases h
        exact ⟨hstored, rfl⟩

/-- What a round hands over is made of the newest row, its file and what the round before left. -/
theorem ftpRound_hands
    (h : ftpResendRound sizeJpegBuffer openOk sendOk s = some (s', some p)) :
    ∃ item, s.store.select = some item ∧ p.name = item.name ∧ p.pic ≠ [] ∧
      p.pic = (s.store.read sizeJpegBuffer openOk item.name).getD s.picinfo.pic ∧
      splitPath 0 [] s.picinfo.path item.info.path = some p.path := by
  unfold ftpResendRound at h
  cases hsel : s.store.select with
  | none =>
    rw [hsel] at h
    cases h
  | some item =>
    simp only [hsel] at h
    split at h
    · cases h
    · obtain ⟨path, hpath, h⟩ := Option.bind_eq_some_iff.mp h
      refine ⟨item, rfl, ?_⟩
      cases sendOk with
      | true =>
        cases h
        exact ⟨rfl, ‹_›, rfl, hpath⟩
      | false =>
        cases h
        exact ⟨rfl, ‹_›, rfl, hpath⟩

/-- An upload that could not be sent becomes a row of its own. -/
theorem FtpResend.Keeps.send {u : EpPicInfo} {uninit : List UInt8} (hs : s.Keeps sizeJpegBuffer)
    (he : KeepsApart sizeJpegBuffer s (.send u uninit sendOk openOk))
    (h : ftpSendPic sizeJpegBuffer u uninit sendOk openOk s = some s') :
    s'.Keeps sizeJpegBuffer := by
  rcases ftpSendPic_spec h with ⟨-, rfl⟩ | ⟨hfail, hname, hlen, -, -, hput⟩
  · exact hs
  · rcases he with hsent | ⟨rfl, hreg, hown⟩
    · exact absurd (hsent.symm.trans hfail) (by simp)
    · constructor
      · apply hs.sound.put hput (fits_of_name hname)
        · rintro rfl t ht
          refine ⟨fun _ => ⟨rfl, hlen⟩, fun r hr hrname => ?_⟩
          exact ⟨(hown t ht r hr hrname).symm, hlen⟩
        · rintro rfl t ht b hb _
          have hb' : b = u.pic := hown t ht b hb
          exact ⟨hb', hb' ▸ hlen⟩
      · intro r hr
        rcases ResendStore.mem_rows_put hput hr with hr | ⟨hrname, hrinfo⟩
        · exact hs.rows r hr
        · exact ⟨by rw [hrname, hrinfo], by rw [hrinfo]; rfl, by rw [hrinfo]; exact hreg⟩

theorem ftpStep_keeps (hs : s.Keeps sizeJpegBuffer) (he : KeepsApart sizeJpegBuffer s e)
    (h : ftpStep sizeJpegBuffer s e = some s') : s'.Keeps sizeJpegBuffer := by
  cases e with
  | send u uninit sendOk openOk => exact hs.send he h
  | round openOk sendOk =>
    obtain ⟨⟨t, passed⟩, hround, rfl⟩ := Option.map_eq_some_iff.mp h
    exact hs.shrink (ftpRound_shrinks hround).1

/-- A round under the condition hands over the upload of the newest row. -/
theorem ftpStep_sendsStored (hs : s.Keeps sizeJpegBuffer) (he : KeepsApart sizeJpegBuffer s e) :
    SendsStored sizeJpegBuffer s e := by
  intro p hp
  cases e with
  | send => cases hp
  | round openOk sendOk =>
    obtain ⟨⟨t, passed⟩, hround, hpassed⟩ := Option.bind_eq_some_iff.mp hp
    have hpassed : passed = some p := hpassed
    subst hpassed
    obtain ⟨item, hsel, hname, hne, hpic, hpath⟩ := ftpRound_hands hround
    have hitem := ResendStore.mem_rows_of_select hsel
    have hstored := hs.rows item hitem
    have hfinds := he item hsel
    unfold FindsOwn at hfinds
    rw [← hpic] at hfinds
    obtain ⟨hstale, hbehind⟩ := hfinds.resolve_left hne
    have hpic' : item.info.origin.pic = p.pic := by
      cases hread : s.store.read sizeJpegBuffer openOk item.name with
      | none =>
        rw [hread, Option.getD_none] at hpic
        rw [hpic, hstale hread]
      | some pic =>
        obtain ⟨b, ⟨hb, hlen⟩, hread'⟩ := ResendStore.read_of_sound hs.sound hitem hread
        rw [hread, Option.getD_some] at hpic
        rw [hpic, hread', List.take_of_length_le hlen, hb]
    rw [hstored.path, splitPath_flatten hstored.regular hbehind] at hpath
    have hpath' : item.info.origin.path = p.path := Option.some.inj hpath
    have hname' : item.info.origin.name = p.name := hstored.name.symm.trans hname.symm
    exact ⟨item, hitem, EpPicInfo.ext hpath' hname' hpic'⟩

end Steps

/-- In a run whose steps keep the uploads apart every picture sent again is the one that failed. -/
theorem ftpResend_sendsStored (picDir : List UInt8) (hdir : picDir.length < 256) (resv : Int)
    (picinfo : EpPicInfo) (es : List FtpEvent)
    (hrun : Along (ftpStep sizeJpegBuffer) (KeepsApart sizeJpegBuffer)
      (tabitcomFtpResendRamInit picDir hdir resv picinfo) es) :
    Along (ftpStep sizeJpegBuffer) (SendsStored sizeJpegBuffer)
      (tabitcomFtpResendRamInit picDir hdir resv picinfo) es := by
  have hinit : (tabitcomFtpResendRamInit picDir hdir resv picinfo).Keeps sizeJpegBuffer :=
    ⟨ResendStore.empty_sound, fun _ hr => absurd hr List.not_mem_nil⟩
  apply Along.of_invariant hinit hrun
  · intro s e s' hs he h
    exact ftpStep_keeps hs he h
  · intro s e hs he
    exact ftpStep_sendsStored hs he

/-- A path of two levels of one letter each, as `rg_parse_pic_name` makes them. -/
def twoLevels (a b : UInt8) : FtpPath where
  levels := [[slash, a], [slash, b], [], [], [], []]
  depth := rfl
  len := by simp [FTP_PATH_LEN]

/-- A path of one level. -/
def oneLevel (a : UInt8) : FtpPath where
  levels := [[slash, a], [], [], [], [], []]
  depth := rfl
  len := by simp [FTP_PATH_LEN]

theorem ftpResend_sendsStored_twoLevels :
    Along (ftpStep 4) (SendsStored 4)
      (tabitcomFtpResendRamInit [] (by decide) 8 ⟨oneLevel 97, [], []⟩)
      [.send ⟨twoLevels 97 98, [110], [10]⟩ [] false true,
        .send ⟨twoLevels 99 100, [111], [20]⟩ [] false true, .round true false,
        .round true true, .round true true] :=
  ftpResend_sendsStored [] (by decide) 8 ⟨oneLevel 97, [], []⟩ _ (by decide)

/-- The second upload has one level, and is sent again with the second level of the first one. -/
theorem ftpResend_not_sendsStored :
    ¬ Along (ftpStep 4) (SendsStored 4)
      (tabitcomFtpResendRamInit [] (by decide) 8 ⟨oneLevel 97, [], []⟩)
      [.send ⟨twoLevels 97 98, [110], [10]⟩ [] false true, .round true true,
        .send ⟨oneLevel 99, [111], [20]⟩ [] false true, .round true true] := by
  decide

end VdCamera.Platform
