import VdCamera.Park.PlatformThread

/-!
# What a dumped list of platforms is loaded as

Each platform reads its own JSON as itself, but for what its writer and its reader do differently:
`reread` says what comes out. The list is then loaded entry by entry.
-/

namespace VdCamera.Park

open Misc JsonCpp
open JsonCpp.Value (cut cut_eq_self_iff)

/-- What has a result goes on with it; for long chains, in which rewriting under the binders is slow. -/
theorem some_bind_eq {α β : Type} (a : α) (f : α → Option β) : (some a >>= f) = f a := rfl

theorem sprintfInto_eq_some {size : Nat} {text out : List UInt8} :
    sprintfInto size text = some out ↔ text.length < size ∧ text = out := by
  unfold sprintfInto
  split <;> simp_all

theorem zero_not_mem_fmtUInt (n : UInt32) : 0 ∉ fmtUInt n := by
  have hdigit : ∀ b, isDigit b = true → b ≠ 0 := by
    rintro b hb rfl
    exact absurd hb (by decide)
  intro h
  exact forall_mem_fmtInt (P := fun b => b ≠ 0) (by decide) hdigit _ 0 h rfl

@[simp]
theorem atoui_fmtUInt (n : UInt32) : atoui (fmtUInt n) = n := by
  simp [atoui, fmtUInt]

@[simp] theorem cut_fmtUInt (n : UInt32) : cut (fmtUInt n) = fmtUInt n :=
  cut_eq_self_iff.mpr (zero_not_mem_fmtUInt n)

@[simp]
theorem asString_yesNo (b : Bool) : (yesNo b).asString = some (ascii (if b then "yes" else "no")) := by
  cases b
  · decide
  · decide

@[simp] theorem isNull_yesNo (b : Bool) : (yesNo b).isNull = false := (rfl)

@[simp]
theorem isYes_yesNo (b : Bool) : isYes (ascii (if b then "yes" else "no")) = b := by
  cases b
  · decide
  · decide

theorem fmtUInt_ne_nil (n : UInt32) : fmtUInt n ≠ [] := fmtInt_ne_nil _

theorem yesNo_ne_nil (b : Bool) : ascii (if b then "yes" else "no") ≠ [] := by
  cases b
  · decide
  · decide

section PlatformJson

variable {platformType : String} {enable : Bool} {attrs : List (String × Value)}

@[simp]
theorem platformJson_type :
    (platformJson platformType enable attrs).text "platform_type"
      = some (cut (ascii platformType)) := by
  simp [platformJson, List.lookup_cons]

@[simp]
theorem platformJson_enable :
    (platformJson platformType enable attrs).text "enable"
      = some (ascii (if enable then "yes" else "no")) := by
  simp [platformJson, List.lookup_cons]

@[simp]
theorem platformJson_attribute :
    (platformJson platformType enable attrs).index "attribute" = some (.object attrs) := by
  simp [platformJson]

end PlatformJson

/-! ## One platform -/

/-- The text of the count has at most three bytes; a negative number is one from the upper half. -/
def RotateCountFits (n : UInt32) : Prop := -100 < n.toInt32.toInt ∧ n.toInt32.toInt < 1000

/-- The text of the port has at most five bytes. -/
def PortFits (n : UInt32) : Prop := -10000 < n.toInt32.toInt ∧ n.toInt32.toInt < 100000

instance (n : UInt32) : Decidable (RotateCountFits n) := inferInstanceAs (Decidable (_ ∧ _))

instance (n : UInt32) : Decidable (PortFits n) := inferInstanceAs (Decidable (_ ∧ _))

theorem length_rotateCount {n : UInt32} : (fmtUInt n).length < 4 ↔ RotateCountFits n := by
  have h := length_fmtInt_le_iff (n := n.toInt32.toInt) 1
  rw [fmtUInt, RotateCountFits]
  omega

theorem length_port {n : UInt32} : (fmtUInt n).length < 6 ↔ PortFits n := by
  have h := length_fmtInt_le_iff (n := n.toInt32.toInt) 3
  rw [fmtUInt, PortFits]
  omega

namespace ZehinPlatformInfo

def reread (info : ZehinPlatformInfo) : ZehinPlatformInfo :=
  { info with deviceId := cut info.deviceId, centerIp := cut info.centerIp, sfIp := cut info.sfIp }

variable {info : ZehinPlatformInfo}

theorem isSome_json : info.getPlatformInfoJson.isSome = true ↔
    PortFits info.cmdPort ∧ PortFits info.heartbeatPort ∧ PortFits info.sfPort
      ∧ RotateCountFits info.rotateCount := by
  simp [getPlatformInfoJson, Option.isSome_iff_exists, Option.bind_eq_some_iff,
    sprintfInto_eq_some, length_rotateCount, length_port]

theorem setPlatformInfo_own {root : Value} (h : info.getPlatformInfoJson = some root)
    (old : ZehinPlatformInfo) : old.setPlatformInfo root = some (0, info.reread) := by
  have htype : cut (ascii "zehin") = ascii "zehin" := by decide
  simp only [getPlatformInfoJson, Option.bind_eq_bind, Option.bind_eq_some_iff,
    sprintfInto_eq_some] at h
  obtain ⟨_, ⟨_, rfl⟩, _, ⟨_, rfl⟩, _, ⟨_, rfl⟩, _, ⟨_, rfl⟩, h⟩ := h
  cases h
  simp only [setPlatformInfo, platformJson_type, htype, ne_eq, not_true, if_false, some_bind_eq,
    Option.pure_def, platformJson_attribute, platformJson_enable, isYes_yesNo, Value.index_object,
    List.lookup_cons, String.reduceBEq, Option.getD_some, Value.text_object,
    asString_yesNo, Value.asString_string, cut_fmtUInt, atoui_fmtUInt, isNull_yesNo, Bool.false_eq_true,
    Option.map_some, reread]

end ZehinPlatformInfo

namespace BitcomPlatformInfo

variable {info : BitcomPlatformInfo}

theorem isSome_json : info.getPlatformInfoJson.isSome = true ↔ RotateCountFits info.rotateCount := by
  simp [getPlatformInfoJson, Option.isSome_iff_exists, Option.bind_eq_some_iff,
    sprintfInto_eq_some, length_rotateCount]

theorem setPlatformInfo_own {root : Value} (h : info.getPlatformInfoJson = some root)
    (old : BitcomPlatformInfo) : old.setPlatformInfo root = some (0, info) := by
  have htype : cut (ascii "bitcom") = ascii "bitcom" := by decide
  simp only [getPlatformInfoJson, Option.bind_eq_bind, Option.bind_eq_some_iff,
    sprintfInto_eq_some] at h
  obtain ⟨_, ⟨_, rfl⟩, h⟩ := h
  cases h
  simp [setPlatformInfo, htype, List.lookup_cons]

end BitcomPlatformInfo

namespace SongliPlatformInfo

def reread (info : SongliPlatformInfo) : SongliPlatformInfo :=
  { info with picSrc := if info.picSrc = .FTP then .FTP else .ALIYUN }

variable {info : SongliPlatformInfo}

theorem isSome_json : info.getPlatformInfoJson.isSome = true ↔ RotateCountFits info.rotateCount := by
  simp [getPlatformInfoJson, Option.isSome_iff_exists, Option.bind_eq_some_iff,
    sprintfInto_eq_some, length_rotateCount]

theorem setPlatformInfo_own {root : Value} (h : info.getPlatformInfoJson = some root)
    (old : SongliPlatformInfo) : old.setPlatformInfo root = some (0, info.reread) := by
  have htype : cut (ascii "songli") = ascii "songli" := by decide
  have hftp : cut (ascii "ftp") = ascii "ftp" := by decide
  have haliyun : cut (ascii "aliyun") = ascii "aliyun" := by decide
  have hne : ascii "aliyun" ≠ ascii "ftp" := by decide
  have hno : ascii "no" ≠ ascii "yes" := by decide
  simp only [getPlatformInfoJson, Option.bind_eq_bind, Option.bind_eq_some_iff,
    sprintfInto_eq_some] at h
  obtain ⟨_, ⟨_, rfl⟩, h⟩ := h
  cases h
  cases hupload : info.uploadLightAction <;> by_cases hsrc : info.picSrc = .FTP <;>
    simp [setPlatformInfo, reread, htype, hftp, haliyun, hne, hno, hupload, hsrc, List.lookup_cons]

end SongliPlatformInfo

namespace HttpPlatformInfo

/-- What `old` is after it has read the JSON of `info`. -/
def reread (old info : HttpPlatformInfo) : HttpPlatformInfo where
  enable := info.enable
  retransmitionEnable := info.retransmitionEnable
  rotateCount := info.rotateCount
  deviceId :=
    if cut info.password ≠ [] then cut info.password
    else if cut info.deviceId ≠ [] then cut info.deviceId
    else old.deviceId
  password := old.password
  url := if cut info.url ≠ [] then cut info.url else old.url
  hbInterval := if info.hbInterval ≠ 0 then info.hbInterval else old.hbInterval

variable {info : HttpPlatformInfo}

theorem isSome_json : info.getPlatformInfoJson.isSome = true ↔ RotateCountFits info.rotateCount := by
  simp [getPlatformInfoJson, Option.isSome_iff_exists, Option.bind_eq_some_iff,
    sprintfInto_eq_some, length_rotateCount]

theorem setPlatformInfo_own {root : Value} (h : info.getPlatformInfoJson = some root)
    (old : HttpPlatformInfo) : old.setPlatformInfo root = some (0, old.reread info) := by
  have htype : cut (ascii "http") = ascii "http" := by decide
  simp only [getPlatformInfoJson, Option.bind_eq_bind, Option.bind_eq_some_iff,
    sprintfInto_eq_some] at h
  obtain ⟨_, ⟨_, rfl⟩, h⟩ := h
  cases h
  simp [setPlatformInfo, reread, htype, List.lookup_cons, yesNo_ne_nil, fmtUInt_ne_nil]
  split <;> split <;> split <;> split <;> rfl

end HttpPlatformInfo

namespace KtetcInfo

def reread (info : KtetcInfo) : KtetcInfo :=
  { info with
    comType := cut info.comType
    parkCode := cut info.parkCode
    devCode := cut info.devCode
    psCode := cut info.psCode
    url := cut info.url }

theorem setPlatformInfo_own (info old : KtetcInfo) :
    old.setPlatformInfo info.getPlatformInfoJson = some (0, info.reread) := by
  have htype : cut (ascii "ktetc") = ascii "ktetc" := by decide
  simp [setPlatformInfo, getPlatformInfoJson, reread, htype, List.lookup_cons]

end KtetcInfo

namespace Platform

/-- All numbers have room in their buffers. -/
def Fits : Platform → Prop
  | zehin i =>
    PortFits i.cmdPort ∧ PortFits i.heartbeatPort ∧ PortFits i.sfPort
      ∧ RotateCountFits i.rotateCount
  | bitcom i => RotateCountFits i.rotateCount
  | songli i => RotateCountFits i.rotateCount
  | http i => RotateCountFits i.rotateCount
  | ktetc _ => True

/-- No text has a terminator inside, songli's source of pictures is one of the two, and http has no
password and a heartbeat interval. -/
def Kept : Platform → Prop
  | zehin i => 0 ∉ i.deviceId ∧ 0 ∉ i.centerIp ∧ 0 ∉ i.sfIp
  | bitcom _ => True
  | songli i => i.picSrc = .FTP ∨ i.picSrc = .ALIYUN
  | http i => i.password = [] ∧ 0 ∉ i.deviceId ∧ 0 ∉ i.url ∧ i.hbInterval ≠ 0
  | ktetc i => 0 ∉ i.comType ∧ 0 ∉ i.parkCode ∧ 0 ∉ i.devCode ∧ 0 ∉ i.psCode ∧ 0 ∉ i.url

/-- What a platform of the same type is after it has read the JSON; `old` says what the http one was
before. -/
def reread (old : HttpPlatformInfo → HttpPlatformInfo) : Platform → Platform
  | zehin i => zehin i.reread
  | bitcom i => bitcom i
  | songli i => songli i.reread
  | http i => http ((old i).reread i)
  | ktetc i => ktetc i.reread

end Platform

/-- A new http platform. -/
def NewMemory.http (mem : NewMemory) : HttpPlatformInfo :=
  ⟨mem.httpEnable, mem.httpRetransmitionEnable, mem.httpRotateCount, [], [], [], mem.httpHbInterval⟩

namespace Platform

variable {p : Platform} {root : Value} {mem : NewMemory}

theorem isSome_json : p.getPlatformInfoJson.isSome = true ↔ p.Fits := by
  cases p with
  | zehin i => exact ZehinPlatformInfo.isSome_json
  | bitcom i => exact BitcomPlatformInfo.isSome_json
  | songli i => exact SongliPlatformInfo.isSome_json
  | http i => exact HttpPlatformInfo.isSome_json
  | ktetc i => exact iff_of_true rfl trivial

@[simp]
theorem getPlatformTypeStr_reread (old : HttpPlatformInfo → HttpPlatformInfo) :
    (p.reread old).getPlatformTypeStr = p.getPlatformTypeStr := by
  cases p <;> rfl

theorem setPlatformInfo_self (h : p.getPlatformInfoJson = some root) :
    p.setPlatformInfo root = some (0, p.reread id) := by
  cases p with
  | zehin i => simp [setPlatformInfo, i.setPlatformInfo_own h, reread]
  | bitcom i => simp [setPlatformInfo, i.setPlatformInfo_own h, reread]
  | songli i => simp [setPlatformInfo, i.setPlatformInfo_own h, reread]
  | http i => simp [setPlatformInfo, i.setPlatformInfo_own h, reread]
  | ktetc i =>
    cases h
    simp [setPlatformInfo, i.setPlatformInfo_own, reread]

/-- The platform that is made for the JSON of `p` reads it. -/
theorem creator_own (h : p.getPlatformInfoJson = some root) :
    ∃ q, creator mem p.getPlatformTypeStr .PARK = some q
      ∧ q.setPlatformInfo root = some (0, p.reread fun _ => mem.http) := by
  cases p with
  | zehin i =>
    refine ⟨.zehin .init, rfl, ?_⟩
    simp [setPlatformInfo, i.setPlatformInfo_own h, reread]
  | bitcom i =>
    refine ⟨.bitcom mem.bitcom, rfl, ?_⟩
    simp [setPlatformInfo, i.setPlatformInfo_own h, reread]
  | songli i =>
    refine ⟨.songli mem.songli, rfl, ?_⟩
    simp [setPlatformInfo, i.setPlatformInfo_own h, reread]
  | http i =>
    refine ⟨.http mem.http, rfl, ?_⟩
    simp [setPlatformInfo, i.setPlatformInfo_own h, reread]
  | ktetc i =>
    cases h
    refine ⟨.ktetc ⟨mem.ktetcEnable, [], [], [], [], []⟩, rfl, ?_⟩
    simp [setPlatformInfo, i.setPlatformInfo_own, reread]

theorem text_type (h : p.getPlatformInfoJson = some root) :
    root.text "platform_type" = some p.getPlatformTypeStr := by
  have htype : ∀ {platformType enable attrs}, cut (ascii platformType) = p.getPlatformTypeStr →
      platformJson platformType enable attrs = root →
      root.text "platform_type" = some p.getPlatformTypeStr := by
    rintro _ _ _ hcut rfl
    rw [platformJson_type, hcut]
  cases p with
  | zehin i =>
    simp only [getPlatformInfoJson, ZehinPlatformInfo.getPlatformInfoJson, Option.bind_eq_bind,
      Option.bind_eq_some_iff] at h
    obtain ⟨_, _, _, _, _, _, _, _, h⟩ := h
    exact htype (show cut (ascii "zehin") = ascii "zehin" by decide) (Option.some.inj h)
  | bitcom i =>
    obtain ⟨_, _, h⟩ := Option.bind_eq_some_iff.mp h
    exact htype (show cut (ascii "bitcom") = ascii "bitcom" by decide) (Option.some.inj h)
  | songli i =>
    obtain ⟨_, _, h⟩ := Option.bind_eq_some_iff.mp h
    exact htype (show cut (ascii "songli") = ascii "songli" by decide) (Option.some.inj h)
  | http i =>
    obtain ⟨_, _, h⟩ := Option.bind_eq_some_iff.mp h
    exact htype (show cut (ascii "http") = ascii "http" by decide) (Option.some.inj h)
  | ktetc i => exact htype (show cut (ascii "ktetc") = ascii "ktetc" by decide) (Option.some.inj h)

/-- The memory of new objects where `m_platform_info.hb_interval` is `hbInterval`. -/
def memory (hbInterval : Int32) : NewMemory where
  bitcom := ⟨false, false, 0⟩
  songli := ⟨false, false, false, 0, .FTP⟩
  httpEnable := false
  httpRetransmitionEnable := false
  httpRotateCount := 0
  httpHbInterval := hbInterval
  ktetcEnable := false

theorem if_ne_nil (s : List UInt8) : (if s ≠ [] then s else []) = s := by
  cases s <;> rfl

/-- Whatever is in the memory of a new object, the JSON of a kept platform gives it back; that of
another does not always. -/
theorem forall_reread_eq_iff : (∀ mem : NewMemory, p.reread (fun _ => mem.http) = p) ↔ p.Kept := by
  have hnonempty : Nonempty NewMemory := ⟨memory 1⟩
  cases p with
  | zehin i =>
    cases i
    simp [reread, ZehinPlatformInfo.reread, Kept, cut_eq_self_iff]
  | bitcom i => simp [reread, Kept]
  | songli i =>
    cases i with
    | mk _ _ _ _ picSrc =>
      cases picSrc <;> simp [reread, SongliPlatformInfo.reread, Kept]
  | http i =>
    cases i with
    | mk enable retransmition rotateCount deviceId password url hbInterval =>
      constructor
      · intro h
        have h₁ := h (memory 1)
        simp only [reread, HttpPlatformInfo.reread, NewMemory.http, memory, Platform.http.injEq,
          HttpPlatformInfo.mk.injEq, true_and] at h₁
        obtain ⟨hdev, rfl, hurl, hhb⟩ := h₁
        refine ⟨rfl, ?_, ?_, ?_⟩
        · rw [← cut_eq_self_iff]
          rwa [Value.cut_nil, if_neg (by simp), if_ne_nil] at hdev
        · rw [← cut_eq_self_iff]
          rwa [if_ne_nil] at hurl
        · rintro rfl
          simp at hhb
      · rintro ⟨rfl, hdev, hurl, hhb⟩ mem
        simp only [reread, HttpPlatformInfo.reread, NewMemory.http, cut_eq_self_iff.mpr hdev,
          cut_eq_self_iff.mpr hurl, Value.cut_nil, if_ne_nil, if_pos hhb, ne_eq, not_true_eq_false,
          if_false]
  | ktetc i =>
    cases i
    simp [reread, KtetcInfo.reread, Kept, cut_eq_self_iff]

theorem reread_self (h : p.Kept) : p.reread id = p := by
  cases p with
  | zehin i =>
    obtain ⟨hdev, hcenter, hsf⟩ := h
    simp [reread, ZehinPlatformInfo.reread, cut_eq_self_iff.mpr, hdev, hcenter, hsf]
  | bitcom i => rfl
  | songli i =>
    cases i with
    | mk _ _ _ _ picSrc =>
      rcases h with rfl | rfl
      · rfl
      · rfl
  | http i =>
    obtain ⟨hpass, hdev, hurl, hhb⟩ := h
    cases i
    cases hpass
    simp [reread, HttpPlatformInfo.reread, cut_eq_self_iff.mpr, *]
  | ktetc i =>
    obtain ⟨hcom, hpark, hdev, hps, hurl⟩ := h
    simp [reread, KtetcInfo.reread, cut_eq_self_iff.mpr, hcom, hpark, hdev, hps, hurl]

end Platform

/-! ## The list -/

section List

variable {mem : NewMemory} {deviceType : EDeviceType} {p : Platform} {ps : List Platform} {root : Value}

/-- The platform of the list with the same type is given its own JSON. -/
theorem setPlatformInfoFromJson_own (hps : (ps.map Platform.getPlatformTypeStr).Nodup) (hp : p ∈ ps)
    (h : p.getPlatformInfoJson = some root) (hkept : p.Kept) :
    setPlatformInfoFromJson mem deviceType root ps = some (0, ps) := by
  have hany : ∃ l ∈ ps, l.getPlatformTypeStr = p.getPlatformTypeStr := ⟨p, hp, rfl⟩
  have hself : updateFirst (fun l => decide (l.getPlatformTypeStr = p.getPlatformTypeStr))
      (fun l => (l.setPlatformInfo root).map (·.2)) ps = some ps := by
    apply updateFirst_self
    intro q hq hfound
    rw [eq_of_key_eq hps hq hp (of_decide_eq_true hfound), Platform.setPlatformInfo_self h,
      Option.map_some, Platform.reread_self hkept]
  simp [setPlatformInfoFromJson, Platform.text_type h, hany, hself]

/-- A platform whose type is not there is put to the end. -/
theorem loadStep_new (h : p.getPlatformInfoJson = some root)
    (hnew : p.getPlatformTypeStr ∉ ps.map Platform.getPlatformTypeStr) :
    loadStep mem .PARK ps root = some (ps ++ [p.reread fun _ => mem.http]) := by
  have hany : ¬ ∃ l ∈ ps, l.getPlatformTypeStr = p.getPlatformTypeStr := by
    rintro ⟨l, hl, heq⟩
    exact hnew (List.mem_map.mpr ⟨l, hl, heq⟩)
  obtain ⟨q, hq, hset⟩ : ∃ q, creator mem p.getPlatformTypeStr .PARK = some q
      ∧ q.setPlatformInfo root = some (0, p.reread fun _ => mem.http) := Platform.creator_own h
  simp [loadStep, setPlatformInfoFromJson, Platform.text_type h, hany, hq, hset]

/-- A device of another type makes no platform. -/
theorem loadStep_other (h : p.getPlatformInfoJson = some root) (hdev : deviceType ≠ .PARK) :
    loadStep mem deviceType [] root = some [] := by
  have hcreator : creator mem p.getPlatformTypeStr deviceType = none := by
    cases deviceType with
    | PARK => exact absurd rfl hdev
    | VP => rfl
    | VM => rfl
  simp [loadStep, setPlatformInfoFromJson, Platform.text_type h, hcreator]

/-- What the platform writes, where it can be written. -/
def written (p : Platform) : Value := p.getPlatformInfoJson.getD .null

theorem written_eq (h : p.Fits) : p.getPlatformInfoJson = some (written p) := by
  obtain ⟨root, hroot⟩ := Option.isSome_iff_exists.mp (Platform.isSome_json.mpr h)
  rw [written, hroot]
  rfl

/-- The list is dumped where all its platforms can be written. -/
theorem dumpConfiguration_eq_some :
    dumpConfiguration deviceType ps = some root ↔
      (∀ p ∈ ps, p.Fits) ∧ Value.object [("device_type", .string deviceType.str),
        ("platform_list", if ps.isEmpty then .null else .array (ps.map written))] = root := by
  unfold dumpConfiguration
  simp only [Option.bind_eq_bind, Option.bind_eq_some_iff, mapM_eq_some_iff Value.null,
    Platform.isSome_json, Option.pure_def, Option.some.injEq]
  constructor
  · rintro ⟨_, ⟨hfits, rfl⟩, rfl⟩
    refine ⟨hfits, ?_⟩
    rw [List.isEmpty_map]
    rfl
  · rintro ⟨hfits, rfl⟩
    refine ⟨_, ⟨hfits, rfl⟩, ?_⟩
    rw [List.isEmpty_map]
    rfl

/-- The file says the type of the device, and its values are taken one after another. -/
theorem loadConfiguration_dumped (deviceType₀ : EDeviceType) :
    loadConfiguration mem (some (.object [("device_type", .string deviceType.str),
        ("platform_list", if ps.isEmpty then .null else .array (ps.map written))])) deviceType₀ []
      = ((ps.map written).foldlM (loadStep mem deviceType) []).map fun l => (0, deviceType, l) := by
  have hitems : (if ps = [] then Value.null else .array (ps.map written)).items
      = some (ps.map written) := by
    cases ps with
    | nil => rfl
    | cons p ps => rfl
  have htype : cut deviceType.str = deviceType.str := by
    cases deviceType <;> decide
  have hdevice : (if deviceType.str = ascii "PARK" then EDeviceType.PARK
      else if deviceType.str = ascii "VP" then .VP
      else if deviceType.str = ascii "VM" then .VM else deviceType₀) = deviceType := by
    cases deviceType
    · exact if_pos (by decide)
    · exact (if_neg (by decide)).trans (if_pos (by decide))
    · exact (if_neg (by decide)).trans ((if_neg (by decide)).trans (if_pos (by decide)))
  cases hload : (ps.map written).foldlM (loadStep mem deviceType) [] with
  | none => simp [loadConfiguration, List.lookup_cons, hitems, htype, hdevice, hload]
  | some l => simp [loadConfiguration, List.lookup_cons, hitems, htype, hdevice, hload]

end List

/-! ## The main result -/

/-- The file that is dumped is there, and loaded into an empty list it gives the platforms, whatever
the memory of the new objects holds and whatever the type of the device was. -/
def SurvivesReload (deviceType : EDeviceType) (ps : List Platform) : Prop :=
  ∃ root, dumpConfiguration deviceType ps = some root ∧
    ∀ mem deviceType₀, loadConfiguration mem (some root) deviceType₀ [] = some (0, deviceType, ps)

/-- The JSON of each platform of the list changes nothing of the list. -/
def UnchangedByOwn (deviceType : EDeviceType) (ps : List Platform) : Prop :=
  ∀ p ∈ ps, ∃ root, p.getPlatformInfoJson = some root ∧
    ∀ mem, setPlatformInfoFromJson mem deviceType root ps = some (0, ps)

theorem unchangedByOwn {deviceType : EDeviceType} {ps : List Platform}
    (hps : (ps.map Platform.getPlatformTypeStr).Nodup) (h : ∀ p ∈ ps, p.Fits ∧ p.Kept) :
    UnchangedByOwn deviceType ps := by
  intro p hp
  obtain ⟨hfits, hkept⟩ := h p hp
  exact ⟨written p, written_eq hfits, fun mem =>
    setPlatformInfoFromJson_own hps hp (written_eq hfits) hkept⟩

/-- On a parking device the platforms are read back one by one. -/
theorem foldlM_written {mem : NewMemory} {ps : List Platform}
    (hps : (ps.map Platform.getPlatformTypeStr).Nodup) (hfits : ∀ p ∈ ps, p.Fits) :
    (ps.map written).foldlM (loadStep mem .PARK) []
      = some (ps.map fun p => p.reread fun _ => mem.http) := by
  apply foldlM_rebuild _ _ hps
  · intro p hp qs hnew
    exact loadStep_new (written_eq (hfits p hp)) hnew
  · intro p _
    exact p.getPlatformTypeStr_reread _

/-- A list of platforms of different types survives a dump and a load, and each of its platforms its
own JSON, if and only if the device is one that has platforms, all numbers have room in their buffers
and nothing is read back as something else. -/
theorem platform_list_survives (deviceType : EDeviceType) (ps : List Platform)
    (hps : (ps.map Platform.getPlatformTypeStr).Nodup) :
    SurvivesReload deviceType ps ∧ UnchangedByOwn deviceType ps ↔
      (ps = [] ∨ deviceType = .PARK) ∧ ∀ p ∈ ps, p.Fits ∧ p.Kept := by
  constructor
  · rintro ⟨⟨root, hdump, hload⟩, _⟩
    obtain ⟨hfits, rfl⟩ := dumpConfiguration_eq_some.mp hdump
    have hlist : ∀ mem, (ps.map written).foldlM (loadStep mem deviceType) [] = some ps := by
      intro mem
      have h := hload mem .PARK
      rw [loadConfiguration_dumped, Option.map_eq_some_iff] at h
      obtain ⟨qs, hqs, heq⟩ := h
      rw [hqs]
      cases heq
      rfl
    by_cases hdev : deviceType = .PARK
    · subst hdev
      refine ⟨Or.inr rfl, fun p hp => ⟨hfits p hp, Platform.forall_reread_eq_iff.mp fun mem => ?_⟩⟩
      have hmap := Option.some.inj ((foldlM_written hps hfits).symm.trans (hlist mem))
      exact List.map_eq_map_iff.mp (hmap.trans (List.map_id ps).symm) p hp
    · have hnone : (ps.map written).foldlM (loadStep (Platform.memory 0) deviceType) [] = some [] := by
        apply foldlM_nothing
        intro root hroot
        obtain ⟨p, hp, rfl⟩ := List.mem_map.mp hroot
        exact loadStep_other (written_eq (hfits p hp)) hdev
      have hnil : ps = [] := Option.some.inj ((hlist (Platform.memory 0)).symm.trans hnone)
      subst hnil
      exact ⟨Or.inl rfl, by simp⟩
  · rintro ⟨hdev, h⟩
    refine ⟨⟨_, dumpConfiguration_eq_some.mpr ⟨fun p hp => (h p hp).1, rfl⟩, ?_⟩,
      unchangedByOwn hps h⟩
    intro mem deviceType₀
    rw [loadConfiguration_dumped]
    rcases hdev with rfl | rfl
    · rfl
    · rw [foldlM_written hps fun p hp => (h p hp).1]
      have hmap : (ps.map fun p => p.reread fun _ => mem.http) = ps.map id :=
        List.map_eq_map_iff.mpr fun p hp => Platform.forall_reread_eq_iff.mpr (h p hp).2 mem
      rw [hmap, List.map_id]
      rfl

/-- A zehin platform that keeps `rotateCount` records. -/
def zehinPlatform (rotateCount : UInt32) : Platform :=
  .zehin { ZehinPlatformInfo.init with
    enable := true, rotateCount, deviceId := ascii "3", cmdPort := 5678, sfPort := 1234 }

theorem platform_list_survives_zehin :
    SurvivesReload .PARK [zehinPlatform 999] ∧ UnchangedByOwn .PARK [zehinPlatform 999] := by
  apply (platform_list_survives .PARK [zehinPlatform 999] (by simp)).mpr
  refine ⟨Or.inr rfl, ?_⟩
  intro p hp
  rw [List.mem_singleton.mp hp]
  exact ⟨⟨by decide, by decide, by decide, by decide⟩, by decide, by decide, by decide⟩

/-- The text of 1000 and its terminator are written into four bytes. -/
theorem not_platform_list_survives :
    dumpConfiguration .PARK [zehinPlatform 1000] = none
      ∧ (zehinPlatform 1000).getPlatformInfoJson = none := by
  constructor
  · rfl
  · rfl

end VdCamera.Park
