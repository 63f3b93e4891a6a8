import VdCamera.Dev.Proofs.Led
import VdCamera.Platform.LedControl

/-!
# Where the lines of a control frame land

The line number of a frame is compared with the number of lines of the model from above only, cut to
eight bits, and compared with the number of queues, where one too many passes. So a line gets behind
the queues if its number is negative and 16 is what is left of it.
-/

namespace VdCamera.Platform

open Dev JsonCpp
open Misc (ascii)

variable {env : LedEnv} {jsLed jsline root : Value} {jslines : List Value} {volume : Int32}
variable {mode : UInt8} {line stale : LedLine} {lines : List LedLine} {led : VeLed} {i k n : Nat}

/-! ## The check of a line -/

theorem intMember_eq {v : Value} {key : String} {r : Int32} :
    intMember v key = some (some r) ↔ v.index key = some (.int r) := by
  rw [intMember]
  cases hindex : v.index key with
  | none => simp
  | some w => cases w <;> simp

/-- What the members of a line are that was checked. -/
structure Checked (jsline : Value) (max : Nat) (number action : Int32) : Prop where
  isNumber : jsline.index "LineNumber" = some (.int number)
  lt : number.toInt < max
  isAction : jsline.index "Action" = some (.int action)
  isText : action ≠ 2 → ∃ s, jsline.index "Text" = some (.string s)

theorem checked_of_chk (h : ledLineJsonChk jsline n = some true) :
    ∃ number action, Checked jsline n number action := by
  obtain ⟨number, hnumber, h⟩ := Option.bind_eq_some_iff.mp h
  cases number with
  | none => cases h
  | some number =>
    dsimp only at h
    split at h
    · cases h
    · next hlt =>
      obtain ⟨action, haction, h⟩ := Option.bind_eq_some_iff.mp h
      cases action with
      | none => cases h
      | some action =>
        refine ⟨number, action, intMember_eq.mp hnumber, by omega, intMember_eq.mp haction, ?_⟩
        intro hne
        dsimp only at h
        split at h
        · cases h
        · obtain ⟨ledMode, _, h⟩ := Option.bind_eq_some_iff.mp h
          cases ledMode with
          | none => cases h
          | some ledMode =>
            dsimp only at h
            split at h
            · cases h
            · obtain ⟨speed, _, h⟩ := Option.bind_eq_some_iff.mp h
              cases speed with
              | none => cases h
              | some speed =>
                obtain ⟨text, htext, h⟩ := Option.bind_eq_some_iff.mp h
                cases text with
                | string s => exact ⟨s, htext⟩
                | _ => cases h

/-! ## A decoded line -/

/-- The fields of a line besides its number pass the check: those that the memory held before, for a line
that clears; the volume, the text and the audio of the frame otherwise. -/
def RestAccepted (env : LedEnv) (volume : Int32) (jsline : Value) (stale : LedLine) : Prop :=
  (jsline.index "Action" = some (.int 2) ∧ stale.style < LED_STYLE_END ∧ stale.volume ≤ 100
    ∧ stale.mode < LED_MODE_END)
  ∨ (jsline.index "Action" ≠ some (.int 2) ∧ toUInt8 volume ≤ 100
    ∧ (∃ s, jsline.index "Text" = some (.string s) ∧ ledText env (Value.cut s) ≠ [])
    ∧ ∀ s, jsline.index "Audio" = some (.string s) → Value.cut s ≠ [])

theorem ledLineParamChk_iff : ledLineParamChk line = true ↔
    line.idx.toNat ≤ LED_MAX_LINES_NUM ∧ line.style < LED_STYLE_END ∧ line.volume ≤ 100
      ∧ line.mode < LED_MODE_END
      ∧ (ledLineHaveAction line LED_ACTION_AUDIO = true → line.audio ≠ [])
      ∧ (ledLineHaveAction line LED_ACTION_DISP = true → line.text ≠ []) := by
  simp only [ledLineParamChk, Bool.not_eq_true', Bool.or_eq_false_iff, decide_eq_false_iff_not,
    Bool.and_eq_false_imp, List.isEmpty_eq_false_iff, not_lt, ge_iff_le, gt_iff_lt, UInt8.not_le, UInt8.not_lt, and_assoc]

theorem take_ne_nil_iff {s : List UInt8} (hn : 0 < n) : s.take n ≠ [] ↔ s ≠ [] := by
  rw [Ne, List.take_eq_nil_iff]
  simp [hn.ne']

/-- The line that `parse_led_v10` makes of one that clears. -/
theorem parseLedLine_clear {number : Int32}
    (hnumber : jsline.index "LineNumber" = some (.int number))
    (haction : jsline.index "Action" = some (.int 2)) :
    parseLedLine env volume mode jsline stale
      = some { ledLineMalloc stale with idx := toUInt8 number, action := LED_ACTION_CLR } := by
  simp [parseLedLine, hnumber, haction]

/-- A line that shows a text. -/
structure Shown (env : LedEnv) (volume : Int32) (mode : UInt8) (jsline : Value) (number : Int32)
    (line : LedLine) : Prop where
  idx : line.idx = toUInt8 number
  volume : line.volume = toUInt8 volume
  mode : line.mode = mode
  style : line.style < LED_STYLE_END
  text : ∃ s, jsline.index "Text" = some (.string s) ∧ line.text = ledText env (Value.cut s)
  action : ledLineHaveAction line LED_ACTION_DISP = true
  audio : (jsline.index "Audio" = some .null ∧ ledLineHaveAction line LED_ACTION_AUDIO = false)
    ∨ ∃ a, jsline.index "Audio" = some (.string a) ∧ ledLineHaveAction line LED_ACTION_AUDIO = true
      ∧ line.audio = (Value.cut a).take (LED_AUDIO_MAX_LEN - 1)

theorem shown_of_parseLedLine {number action : Int32} {s : List UInt8}
    (hnumber : jsline.index "LineNumber" = some (.int number))
    (haction : jsline.index "Action" = some (.int action)) (hne : action ≠ 2)
    (htext : jsline.index "Text" = some (.string s))
    (h : parseLedLine env volume mode jsline stale = some line) :
    Shown env volume mode jsline number line := by
  simp only [parseLedLine, hnumber, haction, htext, hne, Option.bind_eq_bind, Option.bind_some,
    Value.asInt_int, if_false] at h
  obtain ⟨ledMode, hledMode, h⟩ := Option.bind_eq_some_iff.mp h
  obtain ⟨ledModeInt, _, h⟩ := Option.bind_eq_some_iff.mp h
  obtain ⟨duration, _, h⟩ := Option.bind_eq_some_iff.mp h
  obtain ⟨cover, _, h⟩ := Option.bind_eq_some_iff.mp h
  simp only [Value.isNull, Bool.false_eq_true, if_false, Value.asCString, Option.bind_some] at h
  obtain ⟨audio, haudio, h⟩ := Option.bind_eq_some_iff.mp h
  have hstyle : (if ledModeInt = 1 then LED_STYLE_IMMEDIATE else LED_STYLE_SHIFT_LEFT)
      < LED_STYLE_END := by
    split <;> decide
  cases audio with
  | null =>
    cases h
    have hdisp : (0 ||| LED_ACTION_DISP) &&& LED_ACTION_DISP ≠ 0 := by decide
    have hno : (0 ||| LED_ACTION_DISP) &&& LED_ACTION_AUDIO = 0 := by decide
    exact ⟨rfl, rfl, rfl, hstyle, ⟨s, htext, rfl⟩, decide_eq_true hdisp,
      .inl ⟨haudio, decide_eq_false (not_not_intro hno)⟩⟩
  | string a =>
    cases h
    have hdisp : (0 ||| LED_ACTION_DISP ||| LED_ACTION_AUDIO) &&& LED_ACTION_DISP ≠ 0 := by decide
    have hyes : (0 ||| LED_ACTION_DISP ||| LED_ACTION_AUDIO) &&& LED_ACTION_AUDIO ≠ 0 := by decide
    exact ⟨rfl, rfl, rfl, hstyle, ⟨s, htext, rfl⟩, decide_eq_true hdisp,
      .inr ⟨a, haudio, decide_eq_true hyes, rfl⟩⟩
  | _ => cases h

/-- A line that shows a text is checked as the frame has it. -/
theorem Shown.restAccepted_iff {number : Int32} (h : Shown env volume mode jsline number line)
    (haction : jsline.index "Action" ≠ some (.int 2)) (hmode : mode < LED_MODE_END) :
    ledLineParamChk line = true ↔
      line.idx.toNat ≤ LED_MAX_LINES_NUM ∧ RestAccepted env volume jsline stale := by
  obtain ⟨s, htext, hs⟩ := h.text
  rw [ledLineParamChk_iff]
  apply and_congr_right
  intro _
  simp only [RestAccepted, haction, false_and, not_false_eq_true, true_and, false_or, h.style, h.volume,
    h.mode, hmode, h.action, htext, hs, forall_true_left, Option.some.injEq, Value.string.injEq,
    exists_eq_left', Ne]
  apply and_congr_right
  intro _
  rw [and_comm]
  apply and_congr_right
  intro _
  rcases h.audio with ⟨hnull, hno⟩ | ⟨a, hstring, hyes, ha⟩
  · simp [hnull, hno]
  · simp only [hstring, hyes, ha, forall_true_left, Option.some.injEq, Value.string.injEq,
      forall_eq']
    exact take_ne_nil_iff (by decide)

theorem parseLedLine_spec (hc : ∃ number action, Checked jsline n number action)
    (hmode : mode < LED_MODE_END) (h : parseLedLine env volume mode jsline stale = some line) :
    (∃ number, jsline.index "LineNumber" = some (.int number) ∧ line.idx = toUInt8 number)
      ∧ (ledLineParamChk line = true ↔
        line.idx.toNat ≤ LED_MAX_LINES_NUM ∧ RestAccepted env volume jsline stale) := by
  obtain ⟨number, action, hnumber, _, haction, htext⟩ := hc
  by_cases hclear : action = 2
  · subst hclear
    rw [parseLedLine_clear hnumber haction, Option.some.injEq] at h
    subst h
    refine ⟨⟨number, hnumber, rfl⟩, ?_⟩
    rw [ledLineParamChk_iff]
    apply and_congr_right
    intro _
    have haudio : (LED_ACTION_CLR &&& LED_ACTION_AUDIO) = 0 := by decide
    have hdisp : (LED_ACTION_CLR &&& LED_ACTION_DISP) = 0 := by decide
    simp [RestAccepted, haction, ledLineMalloc, ledLineHaveAction, haudio, hdisp]
  · obtain ⟨s, hs⟩ := htext hclear
    have hshown := shown_of_parseLedLine hnumber haction hclear hs h
    refine ⟨⟨number, hnumber, hshown.idx⟩, hshown.restAccepted_iff ?_ hmode⟩
    rw [haction]
    simpa using hclear

theorem toNat_toUInt8 (number : Int32) : (toUInt8 number).toNat = (number.toInt % 256).toNat := by
  rw [toUInt8, UInt8.ofInt, UInt8.toNat_ofNat']
  omega

/-! ## The loops -/

theorem length_parseLedLines_le (h : parseLedLines env volume mode i jslines = some lines) :
    lines.length ≤ jslines.length := by
  induction jslines generalizing i lines with
  | nil =>
    cases h
    exact le_rfl
  | cons jsline jslines ih =>
    rw [parseLedLines] at h
    obtain ⟨ok, _, h⟩ := Option.bind_eq_some_iff.mp h
    cases ok with
    | false => exact (ih h).trans (Nat.le_succ _)
    | true =>
      cases halloc : env.alloc i with
      | none =>
        rw [if_pos rfl, halloc] at h
        exact (ih h).trans (Nat.le_succ _)
      | some stale =>
        rw [if_pos rfl, halloc] at h
        obtain ⟨line, _, h⟩ := Option.bind_eq_some_iff.mp h
        obtain ⟨rest, hrest, h⟩ := Option.bind_eq_some_iff.mp h
        cases h
        exact Nat.succ_le_succ (ih hrest)

/-- The element `k` of the array becomes the line. -/
def Becomes (env : LedEnv) (volume : Int32) (mode : UInt8) (i : Nat) (jslines : List Value) (k : Nat)
    (line : LedLine) : Prop :=
  ∃ jsline stale, jslines[k]? = some jsline
    ∧ ledLineJsonChk jsline (veLedGetMaxLineNum (env.model (i + k + 1))) = some true
    ∧ env.alloc (i + k) = some stale ∧ parseLedLine env volume mode jsline stale = some line

theorem becomes_zero {jsline : Value} :
    Becomes env volume mode i (jsline :: jslines) 0 line
      ↔ ∃ stale, ledLineJsonChk jsline (veLedGetMaxLineNum (env.model (i + 1))) = some true
        ∧ env.alloc i = some stale ∧ parseLedLine env volume mode jsline stale = some line := by
  simp [Becomes]

theorem becomes_succ {jsline : Value} :
    Becomes env volume mode i (jsline :: jslines) (k + 1) line
      ↔ Becomes env volume mode (i + 1) jslines k line := by
  rw [Becomes, Becomes, List.getElem?_cons_succ, show i + (k + 1) = i + 1 + k by omega]

theorem mem_parseLedLines (h : parseLedLines env volume mode i jslines = some lines) :
    line ∈ lines ↔ ∃ k, Becomes env volume mode i jslines k line := by
  induction jslines generalizing i lines with
  | nil =>
    cases h
    simp [Becomes]
  | cons jsline jslines ih =>
    rw [parseLedLines] at h
    obtain ⟨ok, hok, h⟩ := Option.bind_eq_some_iff.mp h
    rw [← Nat.or_exists_add_one]
    simp only [becomes_zero, becomes_succ]
    cases ok with
    | false =>
      rw [ih h, hok]
      simp
    | true =>
      cases halloc : env.alloc i with
      | none =>
        rw [if_pos rfl, halloc] at h
        rw [ih h]
        simp
      | some stale =>
        rw [if_pos rfl, halloc] at h
        obtain ⟨first, hfirst, h⟩ := Option.bind_eq_some_iff.mp h
        obtain ⟨rest, hrest, h⟩ := Option.bind_eq_some_iff.mp h
        cases h
        rw [List.mem_cons, ih hrest]
        apply or_congr_left
        simp [hok, hfirst, eq_comm]

/-- The decoding of a line that was checked and has its memory does not end the program. -/
theorem parseLedLine_isSome (h : parseLedLines env volume mode i jslines = some lines)
    (hget : jslines[k]? = some jsline)
    (hchk : ledLineJsonChk jsline (veLedGetMaxLineNum (env.model (i + k + 1))) = some true)
    (halloc : env.alloc (i + k) = some stale) :
    ∃ line, parseLedLine env volume mode jsline stale = some line := by
  induction jslines generalizing i k lines with
  | nil => simp at hget
  | cons first jslines ih =>
    rw [parseLedLines] at h
    obtain ⟨ok, hok, h⟩ := Option.bind_eq_some_iff.mp h
    cases k with
    | zero =>
      obtain rfl : first = jsline := by simpa using hget
      rw [Nat.add_zero] at hchk halloc
      obtain rfl : ok = true := by simpa [hok] using hchk
      rw [if_pos rfl, halloc] at h
      obtain ⟨line, hline, _⟩ := Option.bind_eq_some_iff.mp h
      exact ⟨line, hline⟩
    | succ k =>
      rw [List.getElem?_cons_succ] at hget
      rw [show i + (k + 1) = i + 1 + k by omega] at hchk halloc
      have hrest : ∃ rest, parseLedLines env volume mode (i + 1) jslines = some rest := by
        cases ok with
        | false => exact ⟨lines, h⟩
        | true =>
          rw [if_pos rfl] at h
          split at h
          · exact ⟨lines, h⟩
          · obtain ⟨_, _, h⟩ := Option.bind_eq_some_iff.mp h
            obtain ⟨rest, hrest, _⟩ := Option.bind_eq_some_iff.mp h
            exact ⟨rest, hrest⟩
      obtain ⟨rest, hrest⟩ := hrest
      exact ih hrest hget hchk halloc

/-- Lines whose queues exist are appended to them, those that fail the check dropped. -/
theorem queueLines_spec (cnt : Int) (led : VeLed)
    (h : ∀ line ∈ lines.filter ledLineParamChk, line.idx.toNat < LED_MAX_LINES_NUM) :
    ∃ r, queueLines lines cnt led = some r ∧ ∀ i, (r.2.lines i).ls
      = (led.lines i).ls ++ (lines.filter ledLineParamChk).filter (·.idx.toNat = i.val) := by
  induction lines generalizing cnt led with
  | nil => exact ⟨(cnt, led), rfl, by simp⟩
  | cons line lines ih =>
    rw [queueLines]
    by_cases hchk : ledLineParamChk line = true
    · rw [List.filter_cons_of_pos hchk, List.forall_mem_cons] at h
      obtain ⟨hlt, hrest⟩ := h
      rw [if_pos hchk, dif_pos hlt]
      obtain ⟨r, hr, hlines⟩ := ih (cnt + 1) _ hrest
      refine ⟨r, hr, fun i => ?_⟩
      rw [hlines i, List.filter_cons_of_pos hchk]
      by_cases hi : line.idx.toNat = i.val
      · obtain rfl : (⟨line.idx.toNat, hlt⟩ : Fin LED_MAX_LINES_NUM) = i := Fin.ext hi
        simp
      · have hne : i ≠ ⟨line.idx.toNat, hlt⟩ := fun heq => hi (congrArg Fin.val heq).symm
        rw [List.filter_cons_of_neg (by simpa using hi)]
        simp [Function.update_of_ne hne]
    · rw [if_neg hchk, List.filter_cons_of_neg hchk]
      rw [List.filter_cons_of_neg hchk] at h
      exact ih cnt led h

/-! ## A frame -/

/-- A frame of version 1.0, its lines and its volume. -/
def FrameV10 (root : Value) (items : List Value) (volume : Int32) : Prop :=
  ∃ jsLed jslines count, root.index "Led" = some jsLed ∧ jsLed.index "Lines" = some jslines
    ∧ (jsLed.index "LinesNumber").bind Value.asUInt = some count ∧ jslines.size = count.toNat
    ∧ jslines.items = some items ∧ (jsLed.index "Volume").bind Value.asInt = some volume

theorem FrameV10.unique {items items' : List Value} {volume' : Int32}
    (h : FrameV10 root items volume) (h' : FrameV10 root items' volume') :
    items = items' ∧ volume = volume' := by
  obtain ⟨jsLed, jslines, _, hled, hlines, _, _, hitems, hvolume⟩ := h
  obtain ⟨_, _, _, hled', hlines', _, _, hitems', hvolume'⟩ := h'
  obtain rfl := Option.some.inj (hled.symm.trans hled')
  obtain rfl := Option.some.inj (hlines.symm.trans hlines')
  exact ⟨Option.some.inj (hitems.symm.trans hitems'), Option.some.inj (hvolume.symm.trans hvolume')⟩

theorem parseLedV09_spec {ret : Int} (h : parseLedV09 env jsLed = some (ret, lines)) :
    lines.length ≤ 1 ∧ ∀ line ∈ lines, line.idx = 0 := by
  unfold parseLedV09 at h
  split at h
  · split at h
    · cases h
      simp
    · obtain ⟨_, _, h⟩ := Option.bind_eq_some_iff.mp h
      obtain ⟨_, _, h⟩ := Option.bind_eq_some_iff.mp h
      obtain ⟨_, _, h⟩ := Option.bind_eq_some_iff.mp h
      obtain ⟨_, _, h⟩ := Option.bind_eq_some_iff.mp h
      obtain ⟨content, _, h⟩ := Option.bind_eq_some_iff.mp h
      cases hnull : content.isNull with
      | true =>
        rw [hnull] at h
        cases h
        simp
      | false =>
        rw [hnull] at h
        dsimp only at h
        rw [if_neg Bool.false_ne_true] at h
        obtain ⟨_, _, h⟩ := Option.bind_eq_some_iff.mp h
        cases h
        simp
  · cases h
    simp

theorem take_min_size {jslines : Value} {items : List Value} (h : jslines.items = some items) :
    items.take (min n jslines.size) = items.take n := by
  cases jslines with
  | array vs =>
    cases h
    rw [List.take_eq_take_iff, Value.size, Nat.min_assoc, Nat.min_self]
  | object ms =>
    cases ms with
    | nil =>
      cases h
      rw [List.take_nil, List.take_nil]
    | cons => cases h
  | _ =>
    cases h
    rw [List.take_nil, List.take_nil]

/-- What becomes of the member `Led` of a frame. -/
inductive Decoded (env : LedEnv) (major : Int32) (root : Value) (valid : Bool) (lines : List LedLine) :
    Prop
  | v09 (old : major < 1) (few : lines.length ≤ 1) (first : ∀ line ∈ lines, line.idx = 0)
  | none (empty : lines = []) (frame : ∀ items volume, FrameV10 root items volume →
      items.take (veLedGetMaxLineNum (env.model 0)) = [])
  | v10 {items : List Value} {volume : Int32} {mode : UInt8} (new : 1 ≤ major) (isValid : valid = true)
      (frame : FrameV10 root items volume) (isMode : mode < LED_MODE_END)
      (parsed : parseLedLines env volume mode 0 (items.take (veLedGetMaxLineNum (env.model 0)))
        = some lines)

theorem decoded_of_parseLedV10 {major : Int32} {ret : Int} (hled : root.index "Led" = some jsLed)
    (hnew : 1 ≤ major) (h : parseLedV10 env jsLed = some (ret, lines)) :
    Decoded env major root (ret = 0) lines := by
  obtain ⟨jslines, hlines, h⟩ := Option.bind_eq_some_iff.mp h
  obtain ⟨number, hnumber, h⟩ := Option.bind_eq_some_iff.mp h
  obtain ⟨count, hcount, h⟩ := Option.bind_eq_some_iff.mp h
  have hlinesNumber : (jsLed.index "LinesNumber").bind Value.asUInt = some count := by
    rw [hnumber, Option.bind_some, hcount]
  split at h
  · next hsize =>
    cases h
    refine .none rfl fun items volume hframe => ?_
    obtain ⟨_, _, _, hled', hlines', hcount', hsize', _⟩ := hframe
    obtain rfl := Option.some.inj (hled.symm.trans hled')
    obtain rfl := Option.some.inj (hlines.symm.trans hlines')
    obtain rfl := Option.some.inj (hlinesNumber.symm.trans hcount')
    exact absurd hsize' hsize
  · next hsize =>
    have hsize : jslines.size = count.toNat := not_not.mp hsize
    dsimp only at h
    split at h
    · next hzero =>
      cases h
      refine .none rfl fun items volume hframe => ?_
      obtain ⟨_, _, _, hled', hlines', _, _, hitems, _⟩ := hframe
      obtain rfl := Option.some.inj (hled.symm.trans hled')
      obtain rfl := Option.some.inj (hlines.symm.trans hlines')
      rw [← take_min_size hitems, hzero, List.take_zero]
    · obtain ⟨jsVolume, hjsVolume, h⟩ := Option.bind_eq_some_iff.mp h
      obtain ⟨volume, hvolume, h⟩ := Option.bind_eq_some_iff.mp h
      obtain ⟨_, _, h⟩ := Option.bind_eq_some_iff.mp h
      obtain ⟨jsMode, _, h⟩ := Option.bind_eq_some_iff.mp h
      obtain ⟨items, hitems, h⟩ := Option.bind_eq_some_iff.mp h
      obtain ⟨parsed, hparsed, h⟩ := Option.bind_eq_some_iff.mp h
      cases h
      rw [take_min_size hitems] at hparsed
      have hvolume : (jsLed.index "Volume").bind Value.asInt = some volume := by
        rw [hjsVolume, Option.bind_some, hvolume]
      refine .v10 hnew rfl
        ⟨jsLed, jslines, count, hled, hlines, hlinesNumber, hsize, hitems, hvolume⟩ ?_ hparsed
      split <;> decide

theorem decoded_of_proDecodeLed {major : Int32} {valid : Bool}
    (h : proDecodeLed env major root = some (valid, lines)) : Decoded env major root valid lines := by
  obtain ⟨jsLed, hled, h⟩ := Option.bind_eq_some_iff.mp h
  split at h
  · next hnull =>
    cases h
    refine .none rfl fun items volume hframe => ?_
    obtain ⟨jsLed', jslines, _, hled', hlines, _, _, hitems, _⟩ := hframe
    obtain rfl := Option.some.inj (hled.symm.trans hled')
    cases jsLed with
    | null =>
      cases hlines
      cases hitems
      exact List.take_nil
    | _ => cases hnull
  · dsimp only at h
    split at h
    · next hold =>
      obtain ⟨⟨ret, _⟩, hparse, h⟩ := Option.bind_eq_some_iff.mp h
      cases h
      obtain ⟨hfew, hfirst⟩ := parseLedV09_spec hparse
      exact .v09 hold hfew hfirst
    · next hnew =>
      obtain ⟨⟨ret, _⟩, hparse, h⟩ := Option.bind_eq_some_iff.mp h
      cases h
      exact decoded_of_parseLedV10 hled (Int32.not_lt.mp hnew) hparse

/-! ## Where the lines land -/

/-- The lines of a frame that are queued. -/
def accepted (type : Int32) (locked valid : Bool) (lines : List LedLine) (led : VeLed) : List LedLine :=
  if type = VE_DTS_TYPE_CRTL ∧ valid = true ∧ led.lock = false ∧ locked = true then
    lines.filter ledLineParamChk
  else []

/-- There are not more lines than queues, and each line that is accepted is appended to the queue of its
index, which there is. -/
def Lands (type : Int32) (locked valid : Bool) (lines : List LedLine) (led : VeLed) : Prop :=
  lines.length ≤ LED_MAX_LINES_NUM
    ∧ (∀ line ∈ accepted type locked valid lines led, line.idx.toNat < LED_MAX_LINES_NUM)
    ∧ ∃ led', tabitcomControlLed type locked valid lines led = some led' ∧ ∀ i, (led'.lines i).ls
      = (led.lines i).ls ++ (accepted type locked valid lines led).filter (·.idx.toNat = i.val)

theorem lands_iff {type : Int32} {locked valid : Bool} : Lands type locked valid lines led
    ↔ lines.length ≤ LED_MAX_LINES_NUM
      ∧ ∀ line ∈ accepted type locked valid lines led, line.idx.toNat < LED_MAX_LINES_NUM := by
  rw [Lands, ← and_assoc]
  apply and_iff_left_of_imp
  rintro ⟨_, h⟩
  unfold tabitcomControlLed ledAddLines
  unfold accepted at h ⊢
  split
  · next hcontrol =>
    obtain ⟨htype, hvalid, _⟩ := hcontrol
    simp only [htype, hvalid, true_and] at h ⊢
    cases hlock : led.lock with
    | true => simp
    | false =>
      cases locked with
      | false => simp
      | true =>
        simp only [hlock, and_self, if_true] at h
        obtain ⟨r, hr, hqueued⟩ := queueLines_spec 0 led h
        refine ⟨r.2, ?_, ?_⟩
        · simp [hr]
        · simpa using hqueued
  · next hno =>
    refine ⟨led, rfl, fun i => ?_⟩
    split
    · next hcontrol =>
      obtain rfl : lines = [] := by
        by_contra hne
        exact hno ⟨hcontrol.1, hcontrol.2.1, List.length_pos_iff.mpr hne⟩
      simp
    · simp

/-- A frame of version 1.0 has a checked line with a negative number of which 16 is left in eight bits,
which nothing but the index can keep out of the queues. -/
def Overflow (env : LedEnv) (type : Int32) (locked : Bool) (major : Int32) (root : Value)
    (led : VeLed) : Prop :=
  (type = VE_DTS_TYPE_CRTL ∧ led.lock = false ∧ locked = true) ∧ 1 ≤ major
    ∧ ∃ items volume k jsline stale number, FrameV10 root items volume
      ∧ (items.take (veLedGetMaxLineNum (env.model 0)))[k]? = some jsline
      ∧ ledLineJsonChk jsline (veLedGetMaxLineNum (env.model (k + 1))) = some true
      ∧ env.alloc k = some stale ∧ jsline.index "LineNumber" = some (.int number)
      ∧ number.toInt % 256 = LED_MAX_LINES_NUM ∧ RestAccepted env volume jsline stale

/-- Of a frame of version 1.0 that is taken, a line gets behind the queues if one of its members says so. -/
theorem overflows_iff {items : List Value}
    (h : parseLedLines env volume mode 0 items = some lines) (hmode : mode < LED_MODE_END) :
    (∃ line ∈ lines.filter ledLineParamChk, LED_MAX_LINES_NUM ≤ line.idx.toNat)
      ↔ ∃ k jsline stale number, items[k]? = some jsline
        ∧ ledLineJsonChk jsline (veLedGetMaxLineNum (env.model (k + 1))) = some true
        ∧ env.alloc k = some stale ∧ jsline.index "LineNumber" = some (.int number)
        ∧ number.toInt % 256 = LED_MAX_LINES_NUM ∧ RestAccepted env volume jsline stale := by
  have hindex : ∀ number : Int32, (toUInt8 number).toNat = LED_MAX_LINES_NUM
      ↔ number.toInt % 256 = LED_MAX_LINES_NUM := by
    intro number
    rw [toNat_toUInt8]
    omega
  constructor
  · rintro ⟨line, hline, hle⟩
    obtain ⟨hmem, hchk⟩ := List.mem_filter.mp hline
    obtain ⟨k, jsline, stale, hget, hjson, halloc, hparse⟩ := (mem_parseLedLines h).mp hmem
    rw [Nat.zero_add] at hjson halloc
    obtain ⟨⟨number, hnumber, hidx⟩, hiff⟩ := parseLedLine_spec (checked_of_chk hjson) hmode hparse
    obtain ⟨hidxLe, hrest⟩ := hiff.mp hchk
    have heq : (toUInt8 number).toNat = LED_MAX_LINES_NUM := by
      rw [← hidx]
      exact le_antisymm hidxLe hle
    exact ⟨k, jsline, stale, number, hget, hjson, halloc, hnumber, (hindex number).mp heq, hrest⟩
  · rintro ⟨k, jsline, stale, number, hget, hjson, halloc, hnumber, hmod, hrest⟩
    have hjson' : ledLineJsonChk jsline (veLedGetMaxLineNum (env.model (0 + k + 1))) = some true := by
      rwa [Nat.zero_add]
    have halloc' : env.alloc (0 + k) = some stale := by
      rwa [Nat.zero_add]
    obtain ⟨line, hparse⟩ := parseLedLine_isSome h hget hjson' halloc'
    obtain ⟨⟨number', hnumber', hidx⟩, hiff⟩ :=
      parseLedLine_spec (checked_of_chk hjson) hmode hparse
    obtain rfl : number = number' := by simpa [hnumber] using hnumber'
    have heq : line.idx.toNat = LED_MAX_LINES_NUM := by
      rw [hidx]
      exact (hindex number).mpr hmod
    refine ⟨line, List.mem_filter.mpr ⟨?_, hiff.mpr ⟨heq.le, hrest⟩⟩, heq.ge⟩
    exact (mem_parseLedLines h).mpr ⟨k, jsline, stale, hget, hjson', halloc', hparse⟩

theorem length_take_le {items : List Value} {model : LedModel}
    (h : parseLedLines env volume mode 0 (items.take (veLedGetMaxLineNum model)) = some lines) :
    lines.length ≤ LED_MAX_LINES_NUM := by
  calc lines.length
      ≤ (items.take (veLedGetMaxLineNum model)).length := length_parseLedLines_le h
    _ ≤ veLedGetMaxLineNum model := List.length_take_le _ _
    _ ≤ LED_MAX_LINES_NUM := min_le_right _ _

/-- The lines of a frame land in the queues exactly when it has no accepted line with a negative number
of which 16 is left in eight bits. -/
theorem led_lines_land (type : Int32) (locked : Bool) (led : VeLed) {major : Int32} {valid : Bool}
    (h : proDecodeLed env major root = some (valid, lines)) :
    Lands type locked valid lines led ↔ ¬ Overflow env type locked major root led := by
  rw [lands_iff]
  rcases decoded_of_proDecodeLed h with ⟨hold, hfew, hfirst⟩ | ⟨hempty, hframe⟩ |
    ⟨hnew, hvalid, hframe, hmode, hparsed⟩
  · apply iff_of_true
    · refine ⟨hfew.trans (by decide), fun line hline => ?_⟩
      have hmem : line ∈ lines := by
        unfold accepted at hline
        split at hline
        · exact (List.mem_filter.mp hline).1
        · cases hline
      rw [hfirst line hmem]
      decide
    · rintro ⟨_, hnew, _⟩
      exact absurd hold (Int32.not_lt.mpr hnew)
  · subst hempty
    apply iff_of_true
    · simp [accepted]
    · rintro ⟨_, _, items, volume, k, jsline, _, _, hv10, hget, _⟩
      rw [hframe items volume hv10] at hget
      cases hget
  · rw [and_iff_right (length_take_le hparsed)]
    by_cases htaken : type = VE_DTS_TYPE_CRTL ∧ led.lock = false ∧ locked = true
    · have hiff := overflows_iff hparsed hmode
      rw [accepted, if_pos ⟨htaken.1, hvalid, htaken.2⟩, ← not_iff_not, not_not]
      simp only [not_forall, not_lt, exists_prop]
      rw [hiff]
      constructor
      · rintro ⟨k, jsline, stale, number, hline⟩
        exact ⟨htaken, hnew, _, _, k, jsline, stale, number, hframe, hline⟩
      · rintro ⟨_, _, items, volume, k, jsline, stale, number, hv10, hline⟩
        obtain ⟨rfl, rfl⟩ := hv10.unique hframe
        exact ⟨k, jsline, stale, number, hline⟩
    · apply iff_of_true
      · rw [accepted, if_neg (fun hall => htaken ⟨hall.1, hall.2.2⟩)]
        simp
      · rintro ⟨hall, _⟩
        exact htaken hall

/-- A frame of version 1.0 that clears a line. -/
def clearFrame (number : Int32) : Value :=
  .object [("Led", .object [("LinesNumber", .int 1), ("Lines", .array [.object
    [("LineNumber", .int number), ("Action", .int 2)]])])]

/-- A screen of four lines, whose new lines are zeroed. -/
def a4Env : LedEnv where
  model _ := .LISTEN_A4
  alloc _ := some ⟨0, 0, 0, 0, 0, 0, false, [], []⟩
  gbk s := some s
  stack := []

theorem led_lines_land_clear :
    proDecodeLed a4Env 1 (clearFrame 3) = some (true, [⟨3, 0, LED_ACTION_CLR, 0, 0, 0, false, [], []⟩])
      ∧ (Lands VE_DTS_TYPE_CRTL true true [⟨3, 0, LED_ACTION_CLR, 0, 0, 0, false, [], []⟩] {}
        ↔ ¬ Overflow a4Env VE_DTS_TYPE_CRTL true 1 (clearFrame 3) {}) :=
  ⟨rfl, led_lines_land VE_DTS_TYPE_CRTL true {} rfl⟩

/-- The line -240 is linked into what lies behind the queues. -/
theorem not_led_lines_land :
    ∃ valid lines, proDecodeLed a4Env 1 (clearFrame (-240)) = some (valid, lines)
      ∧ ¬ Lands VE_DTS_TYPE_CRTL true valid lines {}
      ∧ tabitcomControlLed VE_DTS_TYPE_CRTL true valid lines {} = none := by
  refine ⟨true, [⟨16, 0, LED_ACTION_CLR, 0, 0, 0, false, [], []⟩], rfl, ?_, rfl⟩
  rw [lands_iff]
  rintro ⟨_, hlt⟩
  have hle := hlt ⟨16, 0, LED_ACTION_CLR, 0, 0, 0, false, [], []⟩ List.mem_cons_self
  exact absurd hle (by decide)

end VdCamera.Platform
