import VdCamera.Park.ParkLockCram

/-!
# Which messages of the gateway are handled safely
-/

namespace VdCamera.Park

open Misc JsonCpp
open JsonCpp.Value (cut)

variable {env : LockEnv} {payload : List UInt8}

/-- The payload has the characters that are looked at, with digits of the tables, and the file can be
opened. -/
def StateOk (env : LockEnv) (payload : List UInt8) : Prop :=
  env.opened = true ∧ ∃ lastErrorCode x resetSrc alarmCode rockerPosition rest,
    payload = ascii "[4"
        ++ lastErrorCode :: x :: resetSrc :: alarmCode :: rockerPosition :: rest
      ∧ (48 ≤ lastErrorCode ∧ lastErrorCode ≤ 49) ∧ (48 ≤ resetSrc ∧ resetSrc ≤ 51)
      ∧ (48 ≤ alarmCode ∧ alarmCode ≤ 49) ∧ (48 ≤ rockerPosition ∧ rockerPosition ≤ 51)

/-- Behind the first `node` and three more characters there is a quote, and a character before it that
is no comma. -/
def LockListOk (env : LockEnv) (payload : List UInt8) : Prop :=
  ∃ rest, strstr (ascii "node") payload = some (ascii "node" ++ rest)
    ∧ 39 ∈ rest.drop 3
    ∧ ((∃ b ∈ (rest.drop 3).takeWhile (· ≠ 39), b ≠ 44) ∨ env.logsNull = true)

theorem tableText_isSome {table : List String} {c : UInt8} (h : table.length ≤ 208) :
    (tableText table c).isSome = true ↔ 48 ≤ c.toNat ∧ c.toNat < 48 + table.length := by
  have hc := c.toNat_lt
  rw [tableText, isSome_getElem?, UInt8.toNat_sub]
  show (2 ^ 8 - 48 + c.toNat) % 2 ^ 8 < table.length ↔ _
  omega

theorem digit_iff {c last : UInt8} {n : Nat} (h : last.toNat + 1 = 48 + n) :
    48 ≤ c ∧ c ≤ last ↔ 48 ≤ c.toNat ∧ c.toNat < 48 + n := by
  rw [UInt8.le_iff_toNat_le, UInt8.le_iff_toNat_le, ← h, Nat.lt_succ_iff]
  rfl

/-- A payload of fewer than seven characters is read beyond its end. -/
theorem respState_short (h : payload.length < 7) : parkLockCramRespState env payload = none := by
  have hadvance : strncpyFrom payload 7 4 = none := by
    rw [strncpyFrom, advance, if_neg (by omega)]
    rfl
  simp [parkLockCramRespState, hadvance]

theorem respState_isSome (h : ascii "[4" <+: payload) :
    (parkLockCramRespState env payload).isSome = true ↔ StateOk env payload := by
  obtain ⟨rest, rfl⟩ := h
  by_cases hlen : (ascii "[4" ++ rest).length < 7
  · rw [respState_short hlen]
    refine iff_of_false (by simp) ?_
    rintro ⟨_, _, _, _, _, _, _, heq, _⟩
    rw [heq] at hlen
    simp [ascii] at hlen
    omega
  · have hrest : 5 ≤ rest.length := by
      have : (ascii "[4").length = 2 := rfl
      rw [List.length_append] at hlen
      omega
    obtain ⟨e, x, r, a, k, tail, rfl⟩ : ∃ e x r a k tail, rest = e :: x :: r :: a :: k :: tail := by
      match rest, hrest with
      | e :: x :: r :: a :: k :: tail, _ => exact ⟨e, x, r, a, k, tail, rfl⟩
    have hreads : parkLockCramRespState env (ascii "[4" ++ e :: x :: r :: a :: k :: tail)
        = (tableText lastErrorCodeStr e).bind fun error =>
          (tableText resetSrcStr r).bind fun reset =>
          (tableText alarmCodeStr a).bind fun alarm =>
          (tableText rockerPositionStr k).bind fun rocker =>
          if env.opened then
            some (.state error reset alarm rocker (tail.take 4)
              (ascii "[4" ++ e :: x :: r :: a :: k :: tail))
          else none := by
      have hadvance : strncpyFrom (ascii "[4" ++ e :: x :: r :: a :: k :: tail) 7 4
          = some (tail.take 4) := by
        rw [strncpyFrom, advance, if_pos (by omega)]
        rfl
      simp only [parkLockCramRespState, hadvance]
      rfl
    have hopened : ∀ {s : LockResp},
        (if env.opened then some s else none).isSome = true ↔ env.opened = true := by
      intro s
      cases env.opened <;> simp
    rw [hreads, isSome_bind_iff fun _ => isSome_bind_iff fun _ => isSome_bind_iff fun _ =>
      isSome_bind_iff fun _ => hopened, tableText_isSome (by decide), tableText_isSome (by decide),
      tableText_isSome (by decide), tableText_isSome (by decide)]
    constructor
    · rintro ⟨he, hr, ha, hk, henv⟩
      exact ⟨henv, e, x, r, a, k, tail, rfl, (digit_iff rfl).mpr he, (digit_iff rfl).mpr hr,
        (digit_iff rfl).mpr ha, (digit_iff rfl).mpr hk⟩
    · rintro ⟨henv, e', x', r', a', k', tail', heq, he, hr, ha, hk⟩
      obtain ⟨rfl, rfl, rfl, rfl, rfl, rfl⟩ : e' = e ∧ x' = x ∧ r' = r ∧ a' = a ∧ k' = k
          ∧ tail' = tail := by
        simpa [eq_comm] using List.append_cancel_left heq
      exact ⟨(digit_iff rfl).mp he, (digit_iff rfl).mp hr, (digit_iff rfl).mp ha,
        (digit_iff rfl).mp hk, henv⟩

theorem respLockList_isSome (h0 : 0 ∉ payload) :
    (parkLockCramRespLockList env payload).isSome = true ↔ LockListOk env payload := by
  unfold parkLockCramRespLockList LockListOk
  cases hnode : strstr (ascii "node") payload with
  | none => simp
  | some p =>
    obtain ⟨rest, rfl⟩ := strstr_eq_append hnode
    have hrest : 0 ∉ rest.drop 3 := by
      intro h
      apply h0
      apply (strstr_suffix hnode).subset
      exact List.mem_append_right _ (List.mem_of_mem_drop h)
    simp only [Option.bind_eq_bind, Option.bind_some, advance_append]
    have hquote : (strstr (ascii "'") (rest.drop 3)).isSome = true ↔ 39 ∈ rest.drop 3 :=
      isSome_strstr_singleton hrest
    have hlog : ∀ locks : List (List UInt8),
        (if locks ≠ [] ∨ env.logsNull = true then pure (LockResp.lockList locks)
          else none : Option LockResp).isSome = true ↔ locks ≠ [] ∨ env.logsNull = true := by
      intro locks
      split <;> simp_all
    have hfound : ∀ {P : List UInt8 → Prop},
        (∃ rest', some (ascii "node" ++ rest) = some (ascii "node" ++ rest') ∧ P rest') ↔ P rest := by
      intro P
      simp
    rw [hfound, ← tokens_ne_nil]
    by_cases hlen : 3 ≤ rest.length
    · rw [advance, if_pos hlen, Option.bind_some, isSome_bind_iff fun _ => hlog _, hquote]
    · have hnil : rest.drop 3 = [] := List.drop_eq_nil_of_le (by omega)
      rw [advance, if_neg hlen, hnil]
      simp

theorem length_fmtPad_two {n : Int} : (fmtPad 2 n).length ≤ 2 ↔ -9 ≤ n ∧ n ≤ 99 := by
  have hlen := length_fmtInt_le_iff (n := n) 0
  have hpos := List.length_pos_iff.mpr (digits_ne_nil n.natAbs)
  rw [fmtInt_eq] at hlen
  unfold fmtPad
  split at hlen
  · next hn =>
    simp only [hn, if_true, List.length_append, List.length_cons, List.length_replicate,
      List.length_nil] at hlen ⊢
    omega
  · next hn =>
    simp only [hn, if_false, List.length_append, List.length_replicate, List.length_nil] at hlen ⊢
    omega

/-! ## The main result -/

/-- What a payload has to be like. -/
def PayloadOk (env : LockEnv) (payload : List UInt8) : Prop :=
  (ascii "[4" <+: payload → StateOk env payload)
    ∧ (ascii "[F1:" <+: payload → LockListOk env payload)

theorem dispatch_isSome (h0 : 0 ∉ payload) :
    (parkLockCramDispatch env payload).isSome = true ↔ PayloadOk env payload := by
  unfold parkLockCramDispatch PayloadOk
  simp only [List.isPrefixOf_iff_prefix]
  by_cases hstate : ascii "[4" <+: payload
  · have hlist : ¬ ascii "[F1:" <+: payload := by
      intro h
      exact absurd (List.prefix_of_prefix_length_le hstate h (by decide)) (by decide)
    rw [if_pos hstate, respState_isSome hstate]
    exact ⟨fun h => ⟨fun _ => h, fun h => absurd h hlist⟩, fun h => h.1 hstate⟩
  · rw [if_neg hstate]
    by_cases hlist : ascii "[F1:" <+: payload
    · have hne : ∀ t : List UInt8, ¬ ascii "[F1:" <+: t → payload ≠ t := by
        rintro t ht rfl
        exact ht hlist
      rw [if_neg (hne _ (by decide)), if_neg (hne _ (by decide)), if_neg (hne _ (by decide)),
        if_pos hlist, respLockList_isSome h0]
      exact ⟨fun h => ⟨fun h => absurd h hstate, fun _ => h⟩, fun h => h.2 hlist⟩
    · rw [if_neg hlist]
      refine iff_of_true ?_ ⟨fun h => absurd h hstate, fun h => absurd h hlist⟩
      split
      · rfl
      · split
        · rfl
        · split
          · rfl
          · rfl

theorem ctrl_isSome {beepTime : Int32} :
    (parkLockCramCtrl 1 beepTime).isSome = true ↔ -9 ≤ beepTime.toInt ∧ beepTime.toInt ≤ 99 := by
  have hpad := length_fmtPad_two (n := beepTime.toInt)
  have hlen : (ascii "[0A:" ++ fmtPad 2 beepTime.toInt ++ ascii "]").length
      = (fmtPad 2 beepTime.toInt).length + 5 := by
    have hstart : (ascii "[0A:").length = 4 := rfl
    have hend : (ascii "]").length = 1 := rfl
    rw [List.length_append, List.length_append]
    omega
  rw [parkLockCramCtrl, if_pos rfl, sprintfInto, hlen]
  split
  · next h => exact iff_of_true rfl (hpad.mp (by omega))
  · next h => exact iff_of_false (by simp) fun hbeep => h (by have := hpad.mpr hbeep; omega)

/-- A message with any string for its payload is handled within the tables and the string and without
a null pointer if and only if the bytes of the string outlive its statement and the payload is as its
handler takes it to be; the command to beep fits if and only if its time has two characters. -/
theorem gateway_messages_safe (env : LockEnv) (ms : List (String × Value)) (s : List UInt8)
    (beepTime : Int32) (h : ms.lookup "payload" = some (.string s)) :
    ((parkLockCramDecodeData env (some (.object ms))).isSome = true
        ↔ env.kept = true ∧ PayloadOk env (cut s))
      ∧ ((parkLockCramCtrl 1 beepTime).isSome = true
        ↔ -9 ≤ beepTime.toInt ∧ beepTime.toInt ≤ 99) := by
  refine ⟨?_, ctrl_isSome⟩
  have h0 : 0 ∉ cut s := by
    intro hmem
    simpa using List.mem_takeWhile_imp hmem
  rw [← dispatch_isSome h0]
  cases hkept : env.kept with
  | false => simp [parkLockCramDecodeData, h, hkept]
  | true =>
    cases hdispatch : parkLockCramDispatch env (cut s) <;>
      simp [parkLockCramDecodeData, h, hkept, hdispatch]

/-- Memory and log as they should be. -/
def goodEnv : LockEnv := ⟨true, true, true⟩

theorem gateway_messages_safe_locked :
    (parkLockCramDecodeData goodEnv
        (some (.object [("payload", .string (ascii "[40:0111234]"))]))).isSome = true
      ∧ (parkLockCramCtrl 1 60).isSome = true := by
  obtain ⟨hdecode, hctrl⟩ := gateway_messages_safe goodEnv
    [("payload", .string (ascii "[40:0111234]"))] (ascii "[40:0111234]") 60 (by simp)
  refine ⟨hdecode.mpr ⟨rfl, ?_, ?_⟩, hctrl.mpr (by decide)⟩
  · intro _
    refine ⟨rfl, 48, 58, 48, 49, 49, ascii "1234]", by decide, ?_⟩
    decide
  · intro h
    exact absurd h (by decide)

/-- The payload `[4` is read beyond its terminator, the digit 9 is no index of a table, a list without
`node` is searched from the address 7, and 100 seconds take nine bytes. -/
theorem not_gateway_messages_safe :
    (∀ s ∈ [ascii "[4", ascii "[49:0111234]", ascii "[F1:]"],
      parkLockCramDecodeData goodEnv (some (.object [("payload", .string s)])) = none)
      ∧ parkLockCramCtrl 1 100 = none := by
  constructor
  · simp only [List.forall_mem_cons, List.not_mem_nil, false_implies, implies_true, and_true]
    exact ⟨by decide, by decide, by decide⟩
  · decide

end VdCamera.Park
