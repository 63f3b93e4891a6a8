import VdCamera.Park.PicturePath

/-!
# Resent pictures

When a picture that is sent again goes where the live upload put it.
-/

namespace VdCamera.Park

open Misc

variable {texts : LevelTexts} {n : Nat}

/-- What the levels of a configuration are called, empty where a kind has no text. -/
def LevelTexts.levels (texts : LevelTexts) (kinds : List Int) : List (List UInt8) :=
  kinds.map fun kind => (texts.text kind).getD []

/-- Level `i`, with all further levels empty. -/
def levelAt (levels : List (List UInt8)) (i : Nat) : List UInt8 := (levels[i]?).getD []

theorem noSlash_levels {kinds : List Int} : ∀ l ∈ texts.levels kinds, 47 ∉ l := by
  intro l hl
  obtain ⟨kind, _, rfl⟩ := List.mem_map.mp hl
  cases h : texts.text kind with
  | none => simp
  | some level => exact texts.noSlash kind level h

/-! ## Arrays of levels -/

section Arrays

variable {a : Fin n → List UInt8} {sep : List UInt8}

theorem catLevels_take {levels : List (List UInt8)} {count : Nat} (hn : count ≤ n)
    (hcount : count ≤ levels.length) (h : ∀ i : Fin n, i < count → a i = levelAt levels i) :
    catLevels a sep count = some ((levels.take count).flatMap fun l => l ++ sep) := by
  induction count with
  | zero => rfl
  | succ count ih =>
    have hlt : count < n := hn
    have hlevel : a ⟨count, hlt⟩ = levels[count] := by
      rw [h ⟨count, hlt⟩ (Nat.lt_succ_self count), levelAt, List.getElem?_eq_getElem hcount]
      rfl
    rw [catLevels, ih (by omega) (by omega) fun i hi => h i (by omega),
      List.take_succ_eq_append_getElem hcount, List.flatMap_append]
    simp [hlt, hlevel]

theorem catLevels_eq {levels : List (List UInt8)} (hn : levels.length ≤ n)
    (h : ∀ i : Fin n, i < levels.length → a i = levelAt levels i) :
    catLevels a sep levels.length = some (levels.flatMap fun l => l ++ sep) := by
  rw [catLevels_take hn (Nat.le_refl _) h, List.take_length]

theorem catLevels_some (a : Fin n → List UInt8) (sep : List UInt8) {count : Nat} (h : count ≤ n) :
    ∃ s, catLevels a sep count = some s := by
  induction count with
  | zero => exact ⟨[], rfl⟩
  | succ count ih =>
    obtain ⟨s, hs⟩ := ih (by omega)
    rw [catLevels, hs]
    exact ⟨_, dif_pos h⟩

theorem catLevels_eq_none {count : Nat} (h : n < count) : catLevels a sep count = none := by
  induction count with
  | zero => omega
  | succ count ih =>
    have hout : ¬ count < n := by omega
    rw [catLevels]
    cases catLevels a sep count with
    | none => rfl
    | some s => exact dif_neg hout

end Arrays

/-! ## The live upload -/

/-- Item `i` where `items` are those from `j` on. -/
def itemAt {α : Type} (items : List α) (j i : Nat) : Option α :=
  if i < j then none else items[i - j]?

theorem itemAt_nil {α : Type} (j i : Nat) : itemAt ([] : List α) j i = none := by
  simp [itemAt]

theorem itemAt_cons {α : Type} (item : α) (items : List α) (j i : Nat) :
    itemAt (item :: items) j i = if i = j then some item else itemAt items (j + 1) i := by
  unfold itemAt
  by_cases heq : i = j
  · subst heq
    simp
  · by_cases hlt : i < j
    · simp [heq, hlt, show i < j + 1 by omega]
    · obtain ⟨k, rfl⟩ : ∃ k, i = j + 1 + k := ⟨i - (j + 1), by omega⟩
      rw [if_neg hlt, if_neg heq, if_neg (by omega), show j + 1 + k - j = k + 1 by omega,
        List.getElem?_cons_succ, Nat.add_sub_cancel_left]

theorem itemAt_before {α : Type} (items : List α) (j : Nat) : itemAt items (j + 1) j = none := by
  simp [itemAt]

/-- The text of level `i` where `kinds` are the levels from `j` on. -/
def textAt (texts : LevelTexts) (kinds : List Int) (j i : Nat) : Option (List UInt8) :=
  (itemAt kinds j i).bind texts.text

theorem textAt_nil (j i : Nat) : textAt texts [] j i = none := by
  rw [textAt, itemAt_nil]
  rfl

theorem textAt_cons (kind : Int) (kinds : List Int) (j i : Nat) :
    textAt texts (kind :: kinds) j i
      = if i = j then texts.text kind else textAt texts kinds (j + 1) i := by
  rw [textAt, itemAt_cons]
  split <;> rfl

theorem textAt_zero (kinds : List Int) (i : Nat) :
    (textAt texts kinds 0 i).getD [] = levelAt (texts.levels kinds) i := by
  unfold textAt itemAt levelAt LevelTexts.levels
  rw [List.getElem?_map]
  cases hkind : kinds[i]? with
  | none => simp
  | some kind => simp

/-- What the loop leaves of the levels from `j` on: those with a text are written. -/
theorem analyzeLevels_eq (pic : PicPlaces) {j : Nat} {kinds : List Int}
    (h : ∀ i, (textAt texts kinds j i).isSome → i < FTP_PATH_DEPTH) :
    analyzeLevels texts j kinds pic = some { pic with
      path := fun i => (textAt texts kinds j i).getD (pic.path i)
      alipath := fun i =>
        ((textAt texts kinds j i).map fun l => l ++ [47]).getD (pic.alipath i) } := by
  induction kinds generalizing j pic with
  | nil => simp [analyzeLevels, textAt_nil]
  | cons kind kinds ih =>
    have hrest : ∀ i, (textAt texts kinds (j + 1) i).isSome → i < FTP_PATH_DEPTH := by
      intro i hi
      apply h
      rw [textAt_cons, if_neg]
      · exact hi
      · rintro rfl
        simp [textAt, itemAt_before] at hi
    have hj : textAt texts kinds (j + 1) j = none := by
      simp [textAt, itemAt_before]
    rw [analyzeLevels]
    cases hkind : texts.text kind with
    | none =>
      simp only
      rw [ih _ hrest]
      congr 2
      · funext i
        rw [textAt_cons]
        split
        · next heq => rw [heq, hj, hkind]
        · rfl
      · funext i
        rw [textAt_cons]
        split
        · next heq => rw [heq, hj, hkind]
        · rfl
    | some level =>
      have hlt : j < FTP_PATH_DEPTH := by
        apply h
        simp [textAt_cons, hkind]
      have hlt' : j < 10 := Nat.lt_trans hlt (by decide)
      simp only [putAt, hlt, hlt', dif_pos, Option.bind_eq_bind, Option.bind_some]
      rw [ih _ hrest]
      congr 2
      · funext i
        rw [textAt_cons]
        by_cases heq : (i : Nat) = j
        · subst heq
          simp [hj, hkind]
        · have hne : i ≠ ⟨j, hlt⟩ := fun h => heq (congrArg Fin.val h)
          simp [heq, hne]
      · funext i
        rw [textAt_cons]
        by_cases heq : (i : Nat) = j
        · subst heq
          simp [hj, hkind]
        · have hne : i ≠ ⟨j, hlt'⟩ := fun h => heq (congrArg Fin.val h)
          simp [heq, hne]

/-- A level with a text that has no place is not written. -/
theorem analyzeLevels_eq_none {j i : Nat} {kinds : List Int} {pic : PicPlaces}
    (hi : FTP_PATH_DEPTH ≤ i) (h : (textAt texts kinds j i).isSome) :
    analyzeLevels texts j kinds pic = none := by
  induction kinds generalizing j pic with
  | nil => simp [textAt_nil] at h
  | cons kind kinds ih =>
    rw [textAt_cons] at h
    rw [analyzeLevels]
    split at h
    · next heq =>
      obtain ⟨level, hlevel⟩ := Option.isSome_iff_exists.mp h
      simp [hlevel, putAt, show ¬ j < FTP_PATH_DEPTH by omega]
    · cases texts.text kind with
      | none => exact ih h
      | some level =>
        simp only
        cases putAt pic.path j level with
        | none => rfl
        | some path =>
          cases putAt pic.alipath j (level ++ [47]) with
          | none => rfl
          | some alipath => exact ih h

/-! ## Pictures of parking records -/

section Parking

variable {levels : FtpUrlLevel} {name : List UInt8} {pic : PicPlaces}

/-- Every level that has a text has a place in `path`, and the name has one in `alipath`. -/
def InPlace (levels : FtpUrlLevel) (texts : LevelTexts) : Prop :=
  levels.urlLevel.length < 10
    ∧ ∀ i kind, levels.urlLevel[i]? = some kind → FTP_PATH_DEPTH ≤ i → texts.text kind = none

theorem textAt_isSome (h : InPlace levels texts) (i : Nat)
    (hi : (textAt texts levels.urlLevel 0 i).isSome) : i < FTP_PATH_DEPTH := by
  by_contra hge
  obtain ⟨level, hlevel⟩ := Option.isSome_iff_exists.mp hi
  rw [textAt, itemAt, if_neg (Nat.not_lt_zero i), Option.bind_eq_some_iff] at hlevel
  obtain ⟨kind, hkind, htext⟩ := hlevel
  rw [h.2 i kind hkind (by omega)] at htext
  cases htext

/-- The analysis stays inside the arrays if and only if everything has its place; then each level
is in its place, and the whole name is the levels of `alipath` and the file name. -/
theorem analyze_some (name : List UInt8) (h : InPlace levels texts) : ∃ pic s,
    analyzeParkRecordPicture levels texts name = some pic
      ∧ (∀ i, pic.path i = levelAt (texts.levels levels.urlLevel) i)
      ∧ pic.name = name
      ∧ catLevels pic.alipath [] levels.urlLevel.length = some s ∧ pic.aliname = s ++ name := by
  have hloop := analyzeLevels_eq { name } (textAt_isSome h)
  set alipath : Fin 10 → List UInt8 := Function.update
    (fun i => ((textAt texts levels.urlLevel 0 i).map fun l => l ++ [47]).getD [])
    ⟨levels.urlLevel.length, h.1⟩ name with halipath
  obtain ⟨s, hs⟩ := catLevels_some alipath [] (Nat.le_of_lt h.1)
  have hname : catLevels alipath [] (levels.urlLevel.length + 1) = some (s ++ name) := by
    rw [catLevels, hs]
    simp [h.1, halipath]
  refine ⟨⟨fun i => (textAt texts levels.urlLevel 0 i).getD [], alipath, s ++ name, name⟩, s,
    ?_, ?_, rfl, hs, rfl⟩
  · rw [analyzeParkRecordPicture, hloop]
    simp only [Option.bind_eq_bind, Option.bind_some, putAt, h.1, dif_pos]
    show (catLevels alipath [] (levels.urlLevel.length + 1)).bind _ = _
    rw [hname]
    rfl
  · intro i
    exact textAt_zero _ _

theorem inPlace_of_analyze (h : analyzeParkRecordPicture levels texts name = some pic) :
    InPlace levels texts := by
  unfold analyzeParkRecordPicture at h
  constructor
  · by_contra hge
    have hput : ∀ a : Fin 10 → List UInt8, putAt a levels.urlLevel.length name = none :=
      fun a => dif_neg hge
    cases hloop : analyzeLevels texts 0 levels.urlLevel { name } with
    | none => simp [hloop] at h
    | some pic' => simp [hloop, hput] at h
  · intro i kind hkind hi
    cases htext : texts.text kind with
    | none => rfl
    | some level =>
      have hat : (textAt texts levels.urlLevel 0 i).isSome := by
        simp [textAt, itemAt, hkind, htext]
      rw [analyzeLevels_eq_none hi hat] at h
      cases h

/-- The levels are read up to the first empty one. -/
theorem getElem?_takeWhile (ls : List (List UInt8)) (i : Nat) :
    (ls.takeWhile (· ≠ []))[i]?
      = if ∃ k ≤ i, levelAt ls k = [] then none else some (levelAt ls i) := by
  induction ls generalizing i with
  | nil => rw [if_pos ⟨0, Nat.zero_le i, rfl⟩]; rfl
  | cons l ls ih =>
    by_cases hl : l = []
    · subst hl
      rw [if_pos ⟨0, Nat.zero_le i, rfl⟩]
      simp
    · rw [List.takeWhile_cons_of_pos (by simpa using hl)]
      cases i with
      | zero => simp [levelAt, hl]
      | succ i =>
        have hshift : (∃ k ≤ i + 1, levelAt (l :: ls) k = []) ↔ ∃ k ≤ i, levelAt ls k = [] := by
          constructor
          · rintro ⟨k, hk, hempty⟩
            cases k with
            | zero => exact absurd hempty (by simpa [levelAt] using hl)
            | succ k => exact ⟨k, by omega, by simpa [levelAt] using hempty⟩
          · rintro ⟨k, hk, hempty⟩
            exact ⟨k + 1, by omega, by simpa [levelAt] using hempty⟩
        rw [List.getElem?_cons_succ, ih, if_congr hshift rfl rfl]
        simp [levelAt]

theorem scanPath_join {ls : List (List UInt8)} (hlen : ls.length ≤ FTP_PATH_DEPTH)
    (hslash : ∀ l ∈ ls, 47 ∉ l) (path : Fin FTP_PATH_DEPTH → List UInt8)
    (i : Fin FTP_PATH_DEPTH) :
    scanPath (joinLevels ls) path i
      = if ∃ k ≤ i.val, levelAt ls k = [] then path i else levelAt ls i := by
  rw [scanPath, scanLevels_join _ hslash, List.take_of_length_le hlen, getElem?_takeWhile]
  split <;> rfl

/-- What `rebuild` makes of the path and the name that were stored for the picture has, for the
source `src`, what the analysis of the picture made. -/
def Rebuilt (src : PicSrc) (levels : FtpUrlLevel) (texts : LevelTexts) (name : List UInt8)
    (rebuild : List UInt8 → List UInt8 → PicPlaces) : Prop :=
  ∃ pic picPath, analyzeParkRecordPicture levels texts name = some pic
    ∧ savedPicPath src levels pic = some picPath
    ∧ match src with
      | .ftp => (rebuild picPath pic.name).path = pic.path
      | .aliyun => (rebuild picPath pic.name).aliname = pic.aliname

/-- The name for OSS needs no splitting. -/
theorem rebuilt_aliyun : Rebuilt .aliyun levels texts name (songliRetransPicture .aliyun)
    ↔ InPlace levels texts := by
  constructor
  · rintro ⟨pic, _, hpic, _⟩
    exact inPlace_of_analyze hpic
  · intro h
    obtain ⟨pic, s, hpic, _, hname, hs, haliname⟩ := analyze_some name h
    refine ⟨pic, s, hpic, hs, ?_⟩
    show [] ++ s ++ pic.name = pic.aliname
    rw [hname, haliname, List.nil_append]

/-- The levels of a path that is scanned over `old`. -/
theorem rebuilt_ftp {rebuild : List UInt8 → List UInt8 → PicPlaces}
    (old : Fin FTP_PATH_DEPTH → List UInt8)
    (hrebuild : ∀ picPath picName, (rebuild picPath picName).path = scanPath picPath old) :
    Rebuilt .ftp levels texts name rebuild
      ↔ levels.urlLevel.length ≤ FTP_PATH_DEPTH
        ∧ ∀ i : Fin FTP_PATH_DEPTH,
          (∃ k ≤ i.val, levelAt (texts.levels levels.urlLevel) k = []) →
            old i = levelAt (texts.levels levels.urlLevel) i := by
  have hlength : (texts.levels levels.urlLevel).length = levels.urlLevel.length :=
    List.length_map ..
  by_cases hlen : levels.urlLevel.length ≤ FTP_PATH_DEPTH
  · have hplace : InPlace levels texts := by
      refine ⟨Nat.lt_of_le_of_lt hlen (by decide), ?_⟩
      intro i kind hkind hi
      have := (List.getElem?_eq_some_iff.mp hkind).1
      omega
    obtain ⟨pic, _, hpic, hpath, _⟩ := analyze_some name hplace
    have hsaved : savedPicPath .ftp levels pic
        = some (joinLevels (texts.levels levels.urlLevel)) := by
      show catLevels pic.path [47] levels.urlLevel.length = _
      rw [← hlength]
      exact catLevels_eq (by omega) fun i _ => hpath i
    have hscan : Rebuilt .ftp levels texts name rebuild
        ↔ ∀ i, scanPath (joinLevels (texts.levels levels.urlLevel)) old i = pic.path i := by
      rw [← funext_iff]
      constructor
      · rintro ⟨pic', picPath, hpic', hsaved', hsame⟩
        cases hpic.symm.trans hpic'
        cases hsaved.symm.trans hsaved'
        rw [← hrebuild]
        exact hsame
      · intro hsame
        exact ⟨pic, _, hpic, hsaved, (hrebuild _ _).trans hsame⟩
    rw [hscan, and_iff_right hlen]
    refine forall_congr' fun i => ?_
    rw [scanPath_join (by omega) noSlash_levels, hpath]
    split
    · next h => simp [h]
    · next h => simp [h]
  · refine iff_of_false ?_ fun h => hlen h.1
    rintro ⟨pic, picPath, _, hsaved, _⟩
    rw [show savedPicPath .ftp levels pic = none from catLevels_eq_none (by omega)] at hsaved
    cases hsaved

/-- The empty levels are the last ones. -/
theorem rebuilt_songli : Rebuilt .ftp levels texts name (songliRetransPicture .ftp)
    ↔ levels.urlLevel.length ≤ FTP_PATH_DEPTH
      ∧ ∀ i k, k ≤ i → levelAt (texts.levels levels.urlLevel) k = [] →
        levelAt (texts.levels levels.urlLevel) i = [] := by
  rw [rebuilt_ftp (fun _ => []) fun _ _ => rfl]
  refine and_congr_right fun hlen => ?_
  constructor
  · intro h i k hk hempty
    by_cases hi : i < FTP_PATH_DEPTH
    · exact (h ⟨i, hi⟩ ⟨k, hk, hempty⟩).symm
    · have hout : (texts.levels levels.urlLevel)[i]? = none := by
        rw [List.getElem?_eq_none_iff, LevelTexts.levels, List.length_map]
        omega
      rw [levelAt, hout]
      rfl
  · rintro h i ⟨k, hk, hempty⟩
    exact (h i k hk hempty).symm

/-- After any pictures before, in any memory. -/
theorem rebuilt_bitcom (picinfo : PicPlaces) (before : List (List UInt8 × List UInt8)) :
    Rebuilt .ftp levels texts name (bitcomRegetPicture (bitcomRegetPictures picinfo before))
      ↔ levels.urlLevel.length ≤ FTP_PATH_DEPTH
        ∧ ∀ i : Fin FTP_PATH_DEPTH,
          (∃ k ≤ i.val, levelAt (texts.levels levels.urlLevel) k = []) →
            (bitcomRegetPictures picinfo before).path i
              = levelAt (texts.levels levels.urlLevel) i :=
  rebuilt_ftp _ fun _ _ => rfl

end Parking

/-! ## Pictures of traffic records -/

section Traffic

variable {levels : List (List UInt8)} {name : List UInt8}

/-- What `get_ftp_path` writes is levels without a slash, each with one behind it. -/
theorem getFtpPath_join {dir : List UInt8} (hdir : 47 ∉ dir) (kinds : List Int) :
    ∃ levels, getFtpPath texts dir kinds = joinLevels levels ∧ levels.length = kinds.length
      ∧ ∀ l ∈ levels, 47 ∉ l := by
  induction kinds generalizing dir with
  | nil => exact ⟨[], rfl, rfl, by simp⟩
  | cons kind kinds ih =>
    have hnext : 47 ∉ (texts.text kind).getD dir := by
      cases h : texts.text kind with
      | none => exact hdir
      | some level => exact texts.noSlash kind level h
    obtain ⟨levels, hlevels, hlength, hslash⟩ := ih hnext
    refine ⟨(texts.text kind).getD dir :: levels, ?_, ?_, ?_⟩
    · rw [getFtpPath, hlevels, joinLevels_cons]
      simp
    · simp [hlength]
    · intro l hl
      rcases List.mem_cons.mp hl with rfl | hl
      · exact hnext
      · exact hslash l hl

/-- The loop from level `i` on, with as many levels left as the array has. -/
theorem analysisLevels_join (n : Nat) {i : Nat} (pic : PicPlaces) (hn : i + n = FTP_PATH_DEPTH)
    (hslash : ∀ l ∈ levels, 47 ∉ l) (hname : 47 ∉ name) :
    analysisLevels n i (joinLevels levels ++ name) pic
      = if ∀ l ∈ levels.take n, l.length < FTP_PATH_LEN then
          some (joinLevels (levels.drop n) ++ name,
            { pic with path := fun k => (itemAt levels i k).getD (pic.path k) })
        else none := by
  induction n generalizing i levels pic with
  | zero =>
    have hpath : (fun k : Fin FTP_PATH_DEPTH => (itemAt levels i k).getD (pic.path k))
        = pic.path := by
      funext k
      simp [itemAt, show k.val < i by omega]
    simp [analysisLevels, hpath]
  | succ n ih =>
    cases levels with
    | nil => simp [analysisLevels, cutLevel_eq_none hname, itemAt_nil]
    | cons level levels =>
      have hlevel := hslash level (List.mem_cons_self ..)
      have hi : i < FTP_PATH_DEPTH := by omega
      rw [joinLevels_cons, List.append_assoc, List.cons_append, analysisLevels,
        cutLevel_level hlevel]
      by_cases hlong : FTP_PATH_LEN ≤ level.length
      · rw [if_neg fun h => absurd (h level (by simp)) (by omega)]
        exact if_pos hlong
      · have hpath : (fun k : Fin FTP_PATH_DEPTH => (itemAt levels (i + 1) k).getD
              (Function.update pic.path ⟨i, hi⟩ level k))
            = fun k : Fin FTP_PATH_DEPTH =>
              (itemAt (level :: levels) i k).getD (pic.path k) := by
          funext k
          rw [itemAt_cons]
          by_cases heq : k.val = i
          · have hk : k = ⟨i, hi⟩ := Fin.ext heq
            rw [if_pos heq, heq, itemAt_before, hk, Function.update_self]
            rfl
          · have hk : k ≠ ⟨i, hi⟩ := fun h => heq (congrArg Fin.val h)
            rw [if_neg heq, Function.update_of_ne hk]
        simp only [hlong, if_false, putAt, hi, dif_pos, Option.bind_eq_bind, Option.bind_some]
        rw [ih _ (by omega) fun l hl => hslash l (List.mem_cons_of_mem _ hl)]
        simp [hpath, Nat.lt_of_not_le hlong]

/-- The levels and the name are found if and only if there are as many levels as places, each fits,
and so does the name of the file with its partition. -/
theorem analysisTrafficFilePath_iff (partitionPath : List UInt8) (hslash : ∀ l ∈ levels, 47 ∉ l)
    (hname : 47 ∉ name) :
    analysisTrafficFilePath partitionPath (joinLevels levels ++ name) {}
        = some { path := fun i => levelAt levels i, name }
      ↔ levels.length ≤ FTP_PATH_DEPTH ∧ (∀ l ∈ levels, l.length < FTP_PATH_LEN)
        ∧ (partitionPath ++ [47] ++ ascii "record" ++ [47]
          ++ (joinLevels levels ++ name)).length < 256 := by
  have hloop := analysisLevels_join FTP_PATH_DEPTH {} (Nat.zero_add _) hslash hname
  unfold analysisTrafficFilePath
  by_cases hlong : 256 ≤ (partitionPath ++ [47] ++ ascii "record" ++ [47]
      ++ (joinLevels levels ++ name)).length
  · rw [if_pos hlong]
    refine iff_of_false nofun ?_
    rintro ⟨_, _, hshort⟩
    omega
  · have hshort := Nat.lt_of_not_le hlong
    rw [if_neg hlong, hloop]
    by_cases hfit : ∀ l ∈ levels.take FTP_PATH_DEPTH, l.length < FTP_PATH_LEN
    · have hrest : (joinLevels (levels.drop FTP_PATH_DEPTH) ++ name).length < NAME_MAX_LEN := by
        rw [← List.take_append_drop FTP_PATH_DEPTH levels, joinLevels_append] at hshort
        simp only [List.length_append] at hshort ⊢
        exact Nat.lt_of_le_of_lt (by omega) hshort
      rw [if_pos hfit, Option.bind_eq_bind, Option.bind_some]
      simp only [Nat.not_le_of_lt hrest, if_false]
      constructor
      · intro h
        have hname := congrArg PicPlaces.name (Option.some.inj h)
        have hlen : levels.length ≤ FTP_PATH_DEPTH := by
          by_contra hmore
          have hempty := List.append_left_eq_self.mp hname
          cases hdrop : levels.drop FTP_PATH_DEPTH with
          | nil => exact hmore (List.drop_eq_nil_iff.mp hdrop)
          | cons l ls => simp [hdrop, joinLevels_cons] at hempty
        exact ⟨hlen, by rwa [List.take_of_length_le hlen] at hfit, hshort⟩
      · rintro ⟨hlen, _, _⟩
        rw [List.drop_of_length_le hlen]
        rfl
    · rw [if_neg hfit]
      refine iff_of_false nofun ?_
      rintro ⟨_, hall, _⟩
      exact hfit fun l hl => hall l (List.mem_of_mem_take hl)

end Traffic

/-! ## The main results -/

/-- A picture of the songli platform, or of the bitcom platform after any others, is sent again to
the place that its analysis made: over OSS if and only if everything had its place in the analysis,
over FTP if and only if there are at most six levels and, from the first empty one on, the levels
are what the structure held before. A traffic record's path is taken apart as it was put together if
and only if there are at most six levels and nothing is too long. -/
theorem resent_where_uploaded (levels : FtpUrlLevel) (texts : LevelTexts) (name : List UInt8)
    (picinfo : PicPlaces) (before : List (List UInt8 × List UInt8)) (partitionPath : List UInt8)
    (dirs : List (List UInt8)) :
    (Rebuilt .aliyun levels texts name (songliRetransPicture .aliyun) ↔ InPlace levels texts)
      ∧ (Rebuilt .ftp levels texts name (songliRetransPicture .ftp)
        ↔ levels.urlLevel.length ≤ FTP_PATH_DEPTH
          ∧ ∀ i k, k ≤ i → levelAt (texts.levels levels.urlLevel) k = [] →
            levelAt (texts.levels levels.urlLevel) i = [])
      ∧ (Rebuilt .ftp levels texts name (bitcomRegetPicture (bitcomRegetPictures picinfo before))
        ↔ levels.urlLevel.length ≤ FTP_PATH_DEPTH
          ∧ ∀ i : Fin FTP_PATH_DEPTH,
            (∃ k ≤ i.val, levelAt (texts.levels levels.urlLevel) k = []) →
              (bitcomRegetPictures picinfo before).path i
                = levelAt (texts.levels levels.urlLevel) i)
      ∧ ((∀ l ∈ dirs, 47 ∉ l) → 47 ∉ name →
          (analysisTrafficFilePath partitionPath (joinLevels dirs ++ name) {}
              = some { path := fun i => levelAt dirs i, name }
            ↔ dirs.length ≤ FTP_PATH_DEPTH ∧ (∀ l ∈ dirs, l.length < FTP_PATH_LEN)
              ∧ (partitionPath ++ [47] ++ ascii "record" ++ [47]
                ++ (joinLevels dirs ++ name)).length < 256)) :=
  ⟨rebuilt_aliyun, rebuilt_songli, rebuilt_bitcom picinfo before, fun hslash hname =>
    analysisTrafficFilePath_iff partitionPath hslash hname⟩

/-- The texts of a device with the spot 3 and no number, on the first of October 2014. -/
def spotTexts : LevelTexts :=
  parkTexts (ascii "3") [] ⟨2014, 10, 1, 8⟩ (by decide) (by decide)

theorem resent_where_uploaded_spot :
    Rebuilt .ftp ⟨[0, 2, 4], by decide⟩ spotTexts (ascii "a.jpg") (songliRetransPicture .ftp)
      ∧ analysisTrafficFilePath (ascii "/mnt/1") (joinLevels [ascii "IPNC", []] ++ ascii "a.jpg") {}
        = some { path := fun i => levelAt [ascii "IPNC", []] i, name := ascii "a.jpg" } := by
  obtain ⟨_, hsongli, _, htraffic⟩ := resent_where_uploaded ⟨[0, 2, 4], by decide⟩ spotTexts
    (ascii "a.jpg") {} [] (ascii "/mnt/1") [ascii "IPNC", []]
  constructor
  · refine hsongli.mpr ⟨by decide, ?_⟩
    intro i k hk hempty
    match k with
    | 0 => exact absurd hempty (by decide)
    | 1 => exact absurd hempty (by decide)
    | 2 => exact absurd hempty (by decide)
    | k + 3 =>
      obtain ⟨i, rfl⟩ : ∃ i', i = i' + 3 := ⟨i - 3, by omega⟩
      rfl
  · exact (htraffic (by decide) (by decide)).mpr (by decide)

/-- The device number, which is empty, stands before the month; and a picture with one level comes
after one with two. -/
theorem not_resent_where_uploaded :
    ¬ Rebuilt .ftp ⟨[1, 2], by decide⟩ spotTexts (ascii "a.jpg") (songliRetransPicture .ftp)
      ∧ ¬ Rebuilt .ftp ⟨[0], by decide⟩ spotTexts (ascii "b.jpg")
        (bitcomRegetPicture (bitcomRegetPictures {} [(ascii "3/201410/", ascii "a.jpg")])) := by
  constructor
  · rw [rebuilt_songli]
    rintro ⟨_, h⟩
    exact absurd (h 1 0 (by decide) (by decide)) (by decide)
  · rw [rebuilt_bitcom]
    rintro ⟨_, h⟩
    exact absurd (h 1 ⟨1, by decide, by decide⟩) (by decide)

end VdCamera.Park
