import VdCamera.Park.FileHandler

/-!
# Pictures read as saved

A piece that comes short leaves a gap in the buffer that no later piece fills, so the bytes are those of
the file exactly when every piece is full.
-/

namespace VdCamera.Park

open Misc

variable {answers : Nat → Option Nat} {fuel i n x : Nat} {rest content bytes : List UInt8} {ret : Int}
  {buf : PicBuf} {r : PictureRead} {name : List UInt8} {pic : Picture} {files files' : Files}
  {stored opened : Bool}

theorem fullReads_zero : FullReads 0 answers ↔ answers 0 ≠ none :=
  ⟨fun h => h.2, fun h => ⟨fun _ hi => absurd hi (Nat.not_lt_zero _), h⟩⟩

theorem fullReads_pos (hn : 0 < n) : FullReads n answers ↔
    (∃ k ∈ answers 0, min 1024 n ≤ k + 1) ∧ FullReads (n - 1024) fun j => answers (j + 1) := by
  have hend : (n - 1024 + 1023) / 1024 + 1 = (n + 1023) / 1024 := by omega
  constructor
  · rintro ⟨hall, hlast⟩
    refine ⟨hall 0 hn, fun j hj => ?_, by simpa only [hend] using hlast⟩
    have hj' := hall (j + 1) (by omega)
    rwa [show n - 1024 * (j + 1) = n - 1024 - 1024 * j by omega] at hj'
  · rintro ⟨hfirst, hall, hlast⟩
    refine ⟨fun j hj => ?_, by simpa only [hend] using hlast⟩
    cases j with
    | zero => exact hfirst
    | succ j =>
      have hj' := hall j (by omega)
      rwa [show n - 1024 - 1024 * j = n - 1024 * (j + 1) by omega] at hj'

/-! ## The loop -/

theorem readLoop_none (h : answers i = none) :
    parkReadLoop answers (fuel + 1) i rest ret buf = some ⟨ret + -1, buf, true⟩ := by
  rw [parkReadLoop, readCall, h]
  rfl

theorem readLoop_nil {k : Nat} (h : answers i = some k) :
    parkReadLoop answers (fuel + 1) i [] ret buf = some ⟨ret + 0, buf, false⟩ := by
  rw [parkReadLoop, readCall, h, Option.map_some, List.take_nil]

theorem readLoop_cons {k : Nat} {b : UInt8} (h : answers i = some k) :
    parkReadLoop answers (fuel + 1) i (b :: rest) ret buf
      = parkReadLoop answers fuel (i + 1) ((b :: rest).drop (min (k + 1) 1024))
        (ret + ((b :: rest).take (min (k + 1) 1024)).length)
        (buf.write (1024 * i) ((b :: rest).take (min (k + 1) 1024))) := by
  obtain ⟨m, hm⟩ : ∃ m, min (k + 1) 1024 = m + 1 := ⟨min (k + 1) 1024 - 1, by omega⟩
  rw [parkReadLoop, readCall, h, Option.map_some, hm, List.take_succ_cons]
  simp only [List.drop_succ_cons, List.length_cons, List.length_take]
  congr 1
  rw [← List.drop_eq_drop_min]

theorem readLoop_isSome (h : rest.length < fuel) :
    ∃ r, parkReadLoop answers fuel i rest ret buf = some r := by
  induction fuel generalizing i rest ret buf with
  | zero => omega
  | succ fuel ih =>
    cases ha : answers i with
    | none => exact ⟨_, readLoop_none ha⟩
    | some k =>
      cases rest with
      | nil => exact ⟨_, readLoop_nil ha⟩
      | cons b rest =>
        rw [readLoop_cons ha]
        refine ih ?_
        rw [List.length_drop]
        simp only [List.length_cons] at h ⊢
        omega

/-- What the loop leaves alone, and what it returns. -/
structure ReadOn (i : Nat) (rest : List UInt8) (ret : Int) (buf : PicBuf) (r : PictureRead) : Prop where
  frame : ∀ x < 1024 * i, r.buf.mem x = buf.mem x
  low : ret - 1 ≤ r.ret
  all : r.failed = false → r.ret = ret + rest.length

theorem readLoop_readOn (h : parkReadLoop answers fuel i rest ret buf = some r) :
    ReadOn i rest ret buf r := by
  induction fuel generalizing i rest ret buf with
  | zero => cases h
  | succ fuel ih =>
    cases ha : answers i with
    | none =>
      rw [readLoop_none ha, Option.some.injEq] at h
      subst h
      exact ⟨fun _ _ => rfl, Int.le_refl _, fun hf => by cases hf⟩
    | some k =>
      cases rest with
      | nil =>
        rw [readLoop_nil ha, Option.some.injEq] at h
        subst h
        exact ⟨fun _ _ => rfl, by show ret - 1 ≤ ret + 0; omega, fun _ => rfl⟩
      | cons b rest =>
        rw [readLoop_cons ha] at h
        obtain ⟨hframe, hlow, hall⟩ := ih h
        refine ⟨fun x hx => ?_, by omega, fun hf => ?_⟩
        · rw [hframe x (by omega)]
          exact overwrite_of_lt hx
        · have := hall hf
          rw [List.length_drop, List.length_take] at this
          rw [this]
          omega

theorem shift_answers :
    (fun j => answers (i + 1 + j)) = fun j => (fun j => answers (i + j)) (j + 1) := by
  funext j
  exact congrArg answers (by omega)

/-- Full pieces lie one behind the other. -/
theorem readLoop_full (h : parkReadLoop answers fuel i rest ret buf = some r)
    (hfull : FullReads rest.length fun j => answers (i + j)) :
    r.failed = false
      ∧ (∀ e, buf.extent ≤ e → (rest ≠ [] → 1024 * i + rest.length ≤ e) → r.buf.extent ≤ e)
      ∧ ∀ x < rest.length, rest[x]? = some (r.buf.mem (1024 * i + x)) := by
  induction fuel generalizing i rest ret buf with
  | zero => cases h
  | succ fuel ih =>
    cases rest with
    | nil =>
      obtain ⟨k, ha⟩ := Option.ne_none_iff_exists'.1 (fullReads_zero.1 hfull)
      have ha : answers i = some k := ha
      rw [readLoop_nil ha, Option.some.injEq] at h
      subst h
      exact ⟨rfl, fun e he _ => he, fun x hx => absurd hx (Nat.not_lt_zero x)⟩
    | cons b rest =>
      have hpos : 0 < (b :: rest).length := Nat.succ_pos _
      obtain ⟨⟨k, ha, hk⟩, hnext⟩ := (fullReads_pos hpos).1 hfull
      have ha : answers i = some k := ha
      rw [readLoop_cons ha] at h
      generalize b :: rest = rest at h hpos hk hnext ⊢
      have htake : (rest.take (min (k + 1) 1024)).length = min 1024 rest.length := by
        rw [List.length_take]
        omega
      have hdrop : (rest.drop (min (k + 1) 1024)).length = rest.length - 1024 := by
        rw [List.length_drop]
        omega
      have hnext' : FullReads (rest.drop (min (k + 1) 1024)).length
          fun j => answers (i + 1 + j) := by
        rw [hdrop, shift_answers]
        exact hnext
      obtain ⟨hok, hext, hbytes⟩ := ih h hnext'
      refine ⟨hok, fun e he hle => hext e ?_ fun hne => ?_, fun x hx => ?_⟩
      · have hle := hle (List.ne_nil_of_length_pos hpos)
        rw [PicBuf.write, htake]
        exact Nat.max_le.2 ⟨he, by omega⟩
      · have hle := hle (List.ne_nil_of_length_pos hpos)
        have := List.length_pos_iff.2 hne
        omega
      · rcases Nat.lt_or_ge x (min (k + 1) 1024) with hlt | hge
        · rw [(readLoop_readOn h).frame _ (by omega)]
          have hget : (rest.take (min (k + 1) 1024))[1024 * i + x - 1024 * i]?
              = some (overwrite buf.mem (1024 * i) (rest.take (min (k + 1) 1024)) (1024 * i + x)) :=
            getElem?_overwrite (by omega) (by omega)
          rw [Nat.add_sub_cancel_left, List.getElem?_take_of_lt hlt] at hget
          exact hget
        · have hk1024 : min (k + 1) 1024 = 1024 := by omega
          have hx' : 1024 + (x - 1024) = x := by omega
          have hplace : 1024 * (i + 1) + (x - 1024) = 1024 * i + x := by omega
          have hget := hbytes (x - 1024) (by omega)
          rwa [List.getElem?_drop, hk1024, hx', hplace] at hget

/-- Where the bytes are right although none of them was there before, the pieces were full. -/
theorem readLoop_full_of_right (h : parkReadLoop answers fuel i rest ret buf = some r)
    (hok : r.failed = false)
    (hbytes : ∀ x < rest.length, rest[x]? = some (r.buf.mem (1024 * i + x)))
    (hfresh : ∀ x < rest.length, rest[x]? ≠ some (buf.mem (1024 * i + x))) :
    FullReads rest.length fun j => answers (i + j) := by
  induction fuel generalizing i rest ret buf with
  | zero => cases h
  | succ fuel ih =>
    cases ha : answers i with
    | none =>
      rw [readLoop_none ha, Option.some.injEq] at h
      subst h
      cases hok
    | some k =>
      cases rest with
      | nil => exact fullReads_zero.2 (by simp [ha])
      | cons b rest =>
        rw [readLoop_cons ha] at h
        have hpos : 0 < (b :: rest).length := Nat.succ_pos _
        generalize b :: rest = rest at h hbytes hfresh hpos ⊢
        have hlen : (rest.take (min (k + 1) 1024)).length = min (min (k + 1) 1024) rest.length :=
          List.length_take
        have hk : min 1024 rest.length ≤ k + 1 := by
          by_contra hshort
          -- the place behind the piece
          have hright := hbytes (k + 1) (by omega)
          rw [(readLoop_readOn h).frame _ (by omega)] at hright
          refine hfresh (k + 1) (by omega) (hright.trans ?_)
          exact congrArg some (overwrite_of_le (by omega))
        refine (fullReads_pos hpos).2 ⟨⟨k, ha, hk⟩, ?_⟩
        have hdrop : (rest.drop (min (k + 1) 1024)).length = rest.length - 1024 := by
          rw [List.length_drop]
          omega
        have hplace (x : Nat) (hx : x < rest.length - 1024) :
            (rest.drop (min (k + 1) 1024))[x]? = rest[1024 + x]?
              ∧ 1024 * (i + 1) + x = 1024 * i + (1024 + x) := by
          rw [List.getElem?_drop, show min (k + 1) 1024 = 1024 by omega]
          exact ⟨rfl, by omega⟩
        have hrec := ih h
          (fun x hx => by
            rw [hdrop] at hx
            obtain ⟨hget, hx'⟩ := hplace x hx
            rw [hget, hx']
            exact hbytes _ (by omega))
          (fun x hx => by
            rw [hdrop] at hx
            obtain ⟨hget, hx'⟩ := hplace x hx
            have hkept : (buf.write (1024 * i) (rest.take (min (k + 1) 1024))).mem
                (1024 * i + (1024 + x)) = buf.mem (1024 * i + (1024 + x)) :=
              overwrite_of_le (by omega)
            rw [hget, hx', hkept]
            exact hfresh _ (by omega))
        rwa [hdrop, shift_answers] at hrec

/-! ## The file -/

theorem picPath_absolute {dir : List UInt8} (habs : name.head? = some 47)
    (hlen : name.length < PIC_PATH_SIZE) : picPath dir name = some name := by
  simp only [picPath, if_pos habs, if_pos hlen]

/-- The file after the picture was saved over it. -/
def savedOver (pic : Picture) (path : List UInt8) (files : Files) : List UInt8 :=
  pic.bytes ++ ((files path).getD []).drop pic.bytes.length

theorem save_iff {path : List UInt8} {opens : Bool} {wrote : Int}
    (hpath : picPath pictureDir name = some path) :
    parkSavePicture name pic.bytes opens wrote files = some ((pic.bytes.length : Int), files')
      ↔ opens = true ∧ wrote = pic.bytes.length
        ∧ files' = Function.update files path (some (savedOver pic path files)) := by
  have hne : pic.bytes ≠ [] := List.ne_nil_of_length_pos pic.pos
  simp only [parkSavePicture, if_neg hne, hpath, Option.map_some, Option.some.injEq]
  cases opens with
  | false =>
    simp only [if_true, Prod.mk.injEq, Bool.false_eq_true, false_and, iff_false, not_and]
    intro h
    omega
  | true =>
    simp only [Bool.true_eq_false, if_false, true_and]
    by_cases hw : wrote = pic.bytes.length
    · subst hw
      simp [writeFile, savedOver, eq_comm]
    · simp only [if_pos hw, hw, false_and, iff_false, Prod.mk.injEq, not_and]
      intro h
      omega

/-- What the read gives of the file that was saved. -/
theorem read_saved (hpath : picPath pictureDir name = some name) (mem : Nat → UInt8) :
    parkReadPicture name (pic.size stored) opened answers
        (Function.update files name (some (savedOver pic name files))) { mem }
      = if opened = false then some ⟨-1, { mem }, true⟩
        else if stored then
          match readCall (answers 0) pic.bytes.length (savedOver pic name files) with
          | none => some ⟨-1, { mem }, true⟩
          | some bytes => some ⟨bytes.length, PicBuf.write { mem } 0 bytes, false⟩
        else parkReadLoop answers ((savedOver pic name files).length + 1) 0
          (savedOver pic name files) 0 { mem } := by
  have hpos := pic.pos
  rw [parkReadPicture, hpath, Option.bind_some, Function.update_self]
  cases opened with
  | false => rfl
  | true =>
    cases stored with
    | false =>
      simp [Picture.size]
    | true =>
      cases hr : readCall (answers 0) pic.bytes.length (savedOver pic name files) with
      | none => simp [Picture.size, hpos, hr]
      | some bytes => simp [Picture.size, hpos, hr]

theorem readAs_failed {mem : Nat → UInt8} : pic.ReadAs ⟨-1, { mem }, true⟩ :=
  ⟨Nat.zero_le _, by show (-1 : Int) < 0; omega⟩

theorem length_savedOver {path : List UInt8} : (savedOver pic path files).length
    = max pic.bytes.length ((files path).getD []).length := by
  rw [savedOver, List.length_append, List.length_drop]
  omega

/-- One call of the stored size. -/
theorem readAs_stored {k : Nat} {mem : Nat → UInt8} :
    pic.ReadAs ⟨((savedOver pic name files).take (min (k + 1) pic.bytes.length)).length,
        PicBuf.write { mem } 0 ((savedOver pic name files).take (min (k + 1) pic.bytes.length)), false⟩
      ↔ pic.bytes.length ≤ k + 1 := by
  have hlen : ((savedOver pic name files).take (min (k + 1) pic.bytes.length)).length
      = min (k + 1) pic.bytes.length := by
    rw [List.length_take, length_savedOver]
    omega
  constructor
  · rintro ⟨-, hret, -⟩
    rw [hlen] at hret
    have hret : ((min (k + 1) pic.bytes.length : Nat) : Int) = pic.bytes.length := hret
    omega
  · intro hk
    have hmin : min (k + 1) pic.bytes.length = pic.bytes.length := by omega
    rw [hmin] at hlen ⊢
    have htake : (savedOver pic name files).take pic.bytes.length = pic.bytes :=
      List.take_left
    rw [htake]
    refine ⟨?_, rfl, fun i hi => ?_⟩
    · show max 0 (0 + pic.bytes.length) ≤ PIC_BUF_SIZE
      have := pic.fits
      omega
    · exact getElem?_overwrite (Nat.zero_le i) (by omega)

/-- The loop up to the end of the file. -/
theorem readAs_loop (hfirst : answers 0 ≠ none) :
    (∀ mem, ∃ r, parkReadLoop answers ((savedOver pic name files).length + 1) 0
        (savedOver pic name files) 0 { mem } = some r ∧ pic.ReadAs r)
      ↔ ((files name).getD []).length ≤ pic.bytes.length
        ∧ FullReads pic.bytes.length answers := by
  have hshift : (fun j => answers (0 + j)) = answers := by
    funext j
    rw [Nat.zero_add]
  constructor
  · intro h
    -- a memory that has none of the bytes already
    obtain ⟨r, hr, -, hread⟩ := h fun x => ((savedOver pic name files)[x]?).getD 0 + 1
    have hon := readLoop_readOn hr
    have hok : r.failed = false := by
      cases hf : r.failed with
      | false => rfl
      | true =>
        rw [hf, if_pos rfl] at hread
        obtain ⟨k, hk⟩ := Option.ne_none_iff_exists'.1 hfirst
        cases hc : savedOver pic name files with
        | nil =>
          have hpos := pic.pos
          have hlen : (savedOver pic name files).length = max pic.bytes.length _ :=
            length_savedOver
          rw [hc, List.length_nil] at hlen
          omega
        | cons b rest =>
          rw [hc, readLoop_cons hk] at hr
          have hlow := (readLoop_readOn hr).low
          rw [List.length_take, List.length_cons] at hlow
          omega
    rw [hok, if_neg Bool.false_ne_true] at hread
    obtain ⟨hret, hbytes⟩ := hread
    have hall := hon.all hok
    rw [hret, length_savedOver] at hall
    have hold : ((files name).getD []).length ≤ pic.bytes.length := by omega
    have hsame : savedOver pic name files = pic.bytes := by
      rw [savedOver, List.drop_eq_nil_of_le hold, List.append_nil]
    rw [hsame] at hr
    have hfull := readLoop_full_of_right hr hok (by simpa using hbytes) (by
      intro x hx
      rw [List.getElem?_eq_getElem hx]
      simp [List.getElem?_eq_getElem hx])
    rw [hshift] at hfull
    exact ⟨hold, hfull⟩
  · rintro ⟨hold, hfull⟩ mem
    have hsame : savedOver pic name files = pic.bytes := by
      rw [savedOver, List.drop_eq_nil_of_le hold, List.append_nil]
    rw [hsame]
    have hsome : ∃ r, parkReadLoop answers (pic.bytes.length + 1) 0 pic.bytes 0 { mem } = some r :=
      readLoop_isSome (Nat.lt_succ_self _)
    obtain ⟨r, hr⟩ := hsome
    obtain ⟨hok, hext, hbytes⟩ := readLoop_full hr (by rwa [hshift])
    refine ⟨r, hr, hext _ (Nat.zero_le _) fun _ => ?_, ?_⟩
    · have := pic.fits
      omega
    · rw [hok, if_neg Bool.false_ne_true]
      have hall := (readLoop_readOn hr).all hok
      exact ⟨by omega, by simpa using hbytes⟩

theorem delete_iff {path : List UInt8} (hpath : picPath pictureDir name = some path)
    (hfile : files' path ≠ none) :
    parkDeletePicture name files' = some (0, Function.update files' path none)
      ↔ name.head? = some 47 := by
  constructor
  · intro h
    by_contra habs
    have hpath' : path = pictureDir ++ name := by
      rw [picPath, if_neg habs] at hpath
      split at hpath
      · exact (Option.some.inj hpath).symm
      · cases hpath
    rw [parkDeletePicture, if_neg habs] at h
    obtain ⟨path₂, hpath₂, hres⟩ := Option.map_eq_some_iff.1 h
    have hne : path ≠ path₂ := by
      rw [picPath, if_neg habs] at hpath₂
      split at hpath₂
      · rw [hpath', ← Option.some.inj hpath₂]
        intro heq
        exact absurd (List.append_cancel_right heq) (by decide)
      · cases hpath₂
    cases hf : files' path₂ with
    | none =>
      rw [hf] at hres
      cases hres
    | some c =>
      rw [hf] at hres
      have hupd : Function.update files' path₂ none path = Function.update files' path none path :=
        congrFun (congrArg Prod.snd hres) path
      rw [Function.update_of_ne hne, Function.update_self] at hupd
      exact hfile hupd
  · intro habs
    have hname : path = name := by
      rw [picPath, if_pos habs] at hpath
      split at hpath
      · exact (Option.some.inj hpath).symm
      · cases hpath
    subst hname
    obtain ⟨c, hc⟩ := Option.ne_none_iff_exists'.1 hfile
    rw [parkDeletePicture, if_pos habs, Option.map_some, hc]

/-- A picture that is saved is read and deleted as it was saved exactly when its name is an absolute path
and, of a file that was not longer, no piece comes short. -/
theorem saved_read_deleted_iff (name : List UInt8) (pic : Picture) (files : Files)
    (stored opened : Bool) (answers : Nat → Option Nat) :
    SavedReadDeleted name pic files stored opened answers
      ↔ SavedReadDeletedWhen name pic files stored opened answers := by
  constructor
  · rintro ⟨path, hpath, h⟩
    obtain ⟨hread, hdelete⟩ := h _ _ _ ((save_iff hpath).2 ⟨rfl, rfl, rfl⟩)
    have habs : name.head? = some 47 :=
      (delete_iff hpath (by rw [Function.update_self]; simp)).1 hdelete
    have hlen : name.length < PIC_PATH_SIZE := by
      rw [picPath, if_pos habs] at hpath
      split at hpath
      · assumption
      · cases hpath
    rw [picPath_absolute habs hlen, Option.some.injEq] at hpath
    subst hpath
    refine ⟨habs, hlen, ?_⟩
    simp only [read_saved (picPath_absolute habs hlen)] at hread
    cases opened with
    | false => exact .inl rfl
    | true =>
      cases ha : answers 0 with
      | none => exact .inr (.inl rfl)
      | some k =>
        refine .inr (.inr ?_)
        cases stored with
        | true =>
          obtain ⟨r, hr, hread⟩ := hread fun _ => 0
          rw [readCall, ha] at hr
          cases hr
          exact ⟨k, rfl, readAs_stored.1 hread⟩
        | false =>
          rw [← ha]
          exact (readAs_loop (by simp [ha])).1 hread
  · rintro ⟨habs, hlen, hwhen⟩
    have hpath : picPath pictureDir name = some name := picPath_absolute habs hlen
    refine ⟨name, hpath, fun opens wrote files' hsave => ?_⟩
    obtain ⟨-, -, rfl⟩ := (save_iff hpath).1 hsave
    refine ⟨fun mem => ?_, (delete_iff hpath (by rw [Function.update_self]; simp)).2 habs⟩
    rw [read_saved hpath]
    cases opened with
    | false => exact ⟨_, rfl, readAs_failed⟩
    | true =>
      cases ha : answers 0 with
      | none =>
        cases stored with
        | true => exact ⟨_, rfl, readAs_failed⟩
        | false => exact ⟨_, readLoop_none ha, readAs_failed⟩
      | some k =>
        rcases hwhen with h | h | h
        · cases h
        · rw [ha] at h
          cases h
        · cases stored with
          | true =>
            obtain ⟨k', hk', hle⟩ := h
            rw [ha, Option.mem_some_iff] at hk'
            subst hk'
            exact ⟨_, rfl, readAs_stored.2 hle⟩
          | false => exact (readAs_loop (by simp [ha])).2 h mem

/-- A picture of one byte over a file of two, with full pieces: two bytes are read. -/
theorem not_saved_read_deleted_longer : ¬ ∀ name pic files stored opened answers,
    SavedReadDeleted name pic files stored opened answers := by
  intro h
  let name := ascii "/mnt/mmc/a.jpg"
  obtain ⟨path, hpath, h⟩ := h name ⟨[1], by decide, by decide⟩ (fun _ => some [2, 3]) false true
    fun _ => some 1023
  have hname : picPath pictureDir name = some name := by decide
  cases hname.symm.trans hpath
  obtain ⟨hread, -⟩ := h _ _ _ ((save_iff hname).2 ⟨rfl, rfl, rfl⟩)
  simp only [read_saved hname, Bool.true_eq_false, Bool.false_eq_true, if_false] at hread
  have hfirst : (fun _ => some 1023 : Nat → Option Nat) 0 ≠ none := by simp
  obtain ⟨hold, -⟩ := (readAs_loop hfirst).1 hread
  exact absurd hold (by decide)

end VdCamera.Park
