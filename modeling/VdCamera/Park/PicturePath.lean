import VdCamera.Misc.Levels
import VdCamera.Misc.Decimal
import Mathlib.Logic.Function.Basic

/-!
# Where pictures are put

`analyze_park_record_picture` of `storage/park_records_process.cpp`, the pictures that the songli and
the bitcom platform store and send again, `analysis_traffic_file_path` of
`storage/data_process_traffic.cpp` and `get_ftp_path` of `commonfuncs.c`. Texts stand without their
terminator. An access beyond an array is `none`; the texts of a level are too short to overrun one
(an id has at most 15 bytes), apart from those of a stored traffic record.
-/

namespace VdCamera.Park

open Misc

abbrev FTP_PATH_DEPTH : Nat := 6
abbrev FTP_PATH_LEN : Nat := 80
abbrev STORAGE_PATH_DEPTH : Nat := 6
abbrev NAME_MAX_LEN : Nat := 256

/-- The places in `EP_PicInfo`. -/
structure PicPlaces where
  path : Fin FTP_PATH_DEPTH → List UInt8 := fun _ => []
  alipath : Fin 10 → List UInt8 := fun _ => []
  aliname : List UInt8 := []
  name : List UInt8 := []

/-- `FTP_URL_Level`: as many levels as `levelNum` says. -/
structure FtpUrlLevel where
  urlLevel : List Int
  length_le : urlLevel.length ≤ 10

/-- What a picture's levels are called, by their kind; a kind without a text leaves its level as it
is. -/
structure LevelTexts where
  text : Int → Option (List UInt8)
  noSlash : ∀ kind level, text kind = some level → 47 ∉ level

section Texts

/-- `%0wd`. -/
def fmtPad (w : Nat) (n : Int) : List UInt8 :=
  (if n < 0 then [45] else [])
    ++ (List.replicate (w - (digits n.natAbs).length - if n < 0 then 1 else 0) 48
      ++ digits n.natAbs)

structure PicTime where
  year : Int
  month : Int
  day : Int
  hour : Int

/-- The switch over `SPORT_ID`, `DEV_ID`, `YEAR_MONTH`, `DAY`, `EVENT_NAME`, `HOUR`,
`FACTORY_NAME`. -/
def levelText (pointId devId event : List UInt8) (tm : PicTime) : Int → Option (List UInt8)
  | 0 => some pointId
  | 1 => some devId
  | 2 => some (fmtPad 4 tm.year ++ fmtPad 2 tm.month)
  | 4 => some (fmtPad 2 tm.day)
  | 5 => some event
  | 6 => some (fmtPad 2 tm.hour)
  | 7 => some (ascii "IPNC")
  | _ => none

theorem slash_not_mem_digits (n : Nat) : (47 : UInt8) ∉ digits n := by
  intro h
  exact absurd (isDigit_of_mem_digits h) (by decide)

theorem slash_not_mem_fmtPad (w : Nat) (n : Int) : (47 : UInt8) ∉ fmtPad w n := by
  have := slash_not_mem_digits n.natAbs
  unfold fmtPad
  split <;> simp [List.mem_replicate, this]

/-- The texts of a device whose ids have no slash in them. -/
def parkTexts (pointId devId : List UInt8) (tm : PicTime) (hpoint : 47 ∉ pointId)
    (hdev : 47 ∉ devId) : LevelTexts where
  text := levelText pointId devId (ascii "Park") tm
  noSlash := by
    intro kind level h
    unfold levelText at h
    split at h <;> cases h
    · exact hpoint
    · exact hdev
    · simp [slash_not_mem_fmtPad]
    · exact slash_not_mem_fmtPad 2 tm.day
    · decide
    · exact slash_not_mem_fmtPad 2 tm.hour
    · decide

end Texts

variable {n : Nat}

/-- `a[i] = v`. -/
def putAt (a : Fin n → List UInt8) (i : Nat) (v : List UInt8) : Option (Fin n → List UInt8) :=
  if h : i < n then some (Function.update a ⟨i, h⟩ v) else none

/-- `a[0]` to `a[count - 1]`, each with `sep` behind it, by `strcat`. -/
def catLevels (a : Fin n → List UInt8) (sep : List UInt8) : (count : Nat) → Option (List UInt8)
  | 0 => some []
  | count + 1 => do
    let s ← catLevels a sep count
    if h : count < n then some (s ++ (a ⟨count, h⟩ ++ sep)) else none

/-- The loop over the levels, from level `j` on. -/
def analyzeLevels (texts : LevelTexts) : Nat → List Int → PicPlaces → Option PicPlaces
  | _, [], pic => some pic
  | j, kind :: kinds, pic =>
    match texts.text kind with
    | none => analyzeLevels texts (j + 1) kinds pic
    | some level => do
      let path ← putAt pic.path j level
      let alipath ← putAt pic.alipath j (level ++ [47])
      analyzeLevels texts (j + 1) kinds { pic with path, alipath }

/-- `analyze_park_record_picture`: the places of a picture in a cleared record; `name` is the file
name that the first two pictures get. -/
def analyzeParkRecordPicture (levels : FtpUrlLevel) (texts : LevelTexts) (name : List UInt8) :
    Option PicPlaces := do
  let pic ← analyzeLevels texts 0 levels.urlLevel { name }
  let alipath ← putAt pic.alipath levels.urlLevel.length name
  let aliname ← catLevels alipath [] (levels.urlLevel.length + 1)
  return { pic with alipath, aliname }

/-- `SONGLI_PIC_SRC`. -/
inductive PicSrc
  | ftp
  | aliyun
deriving DecidableEq

/-- The `pic_path` that is stored: by `CParkSongli::save_picture4retrans` for either source, and by
`tpbitcom_picture_pthread` as for FTP. -/
def savedPicPath (src : PicSrc) (levels : FtpUrlLevel) (pic : PicPlaces) : Option (List UInt8) :=
  match src with
  | .ftp => catLevels pic.path [47] levels.urlLevel.length
  | .aliyun => catLevels pic.alipath [] levels.urlLevel.length

/-- `sscanf` with `"%[^/]/%[^/]/%[^/]/%[^/]/%[^/]/%[^/]"`. -/
def scanPath (picPath : List UInt8) (path : Fin FTP_PATH_DEPTH → List UInt8) :
    Fin FTP_PATH_DEPTH → List UInt8 :=
  fun i => ((scanLevels FTP_PATH_DEPTH picPath)[i.val]?).getD (path i)

/-- `CParkSongli::retrans_thread`: the structure is cleared for each picture. -/
def songliRetransPicture (src : PicSrc) (picPath picName : List UInt8) : PicPlaces :=
  let picinfo : PicPlaces := {}
  match src with
  | .ftp => { picinfo with path := scanPath picPath picinfo.path, name := picName }
  | .aliyun => { picinfo with aliname := picinfo.aliname ++ picPath ++ picName, name := picName }

/-- `tpbitcom_recordsreget_pthread`: the structure is the one of the pictures before. -/
def bitcomRegetPicture (picinfo : PicPlaces) (picPath picName : List UInt8) : PicPlaces :=
  { picinfo with path := scanPath picPath picinfo.path, name := picName }

/-- The structure after the pictures that were stored with these paths and names. -/
def bitcomRegetPictures (picinfo : PicPlaces) (stored : List (List UInt8 × List UInt8)) :
    PicPlaces :=
  stored.foldl (fun picinfo row => bitcomRegetPicture picinfo row.1 row.2) picinfo

/-- `get_ftp_path`; `dir` is what the buffer holds before, and a kind without a text leaves it. -/
def getFtpPath (texts : LevelTexts) : List UInt8 → List Int → List UInt8
  | _, [] => []
  | dir, kind :: kinds =>
    let dir := (texts.text kind).getD dir
    dir ++ [47] ++ getFtpPath texts dir kinds

/-- The loop of `analysis_traffic_file_path`, from level `i` on, at most `n` times. -/
def analysisLevels : Nat → Nat → List UInt8 → PicPlaces → Option (List UInt8 × PicPlaces)
  | 0, _, str, pic => some (str, pic)
  | n + 1, i, str, pic =>
    match cutLevel str with
    | none => some (str, pic)
    | some (level, str) => do
      if FTP_PATH_LEN ≤ level.length then none
      else
        let path ← putAt pic.path i level
        analysisLevels n (i + 1) str { pic with path }

/-- `analysis_traffic_file_path`; `file_name_pic` has 256 bytes, and `DISK_RECORD_PATH` is
`record`. -/
def analysisTrafficFilePath (partitionPath imagePath : List UInt8) (pic : PicPlaces) :
    Option PicPlaces :=
  if 256 ≤ (partitionPath ++ [47] ++ ascii "record" ++ [47] ++ imagePath).length then none
  else do
    let (str, pic) ← analysisLevels STORAGE_PATH_DEPTH 0 imagePath pic
    if NAME_MAX_LEN ≤ str.length then none else some { pic with name := str }

end VdCamera.Park
