import VdCamera.JsonCpp.Proofs.Converted
import VdCamera.Park.MessageStore

/-!
# Stored messages get their turn

In a run whose records fit, what is stored is what was to be sent, it is read as JSON, and the thread
stays in its loop and sends the messages in their order.
-/

namespace VdCamera.Park

open Misc

variable {enc : DoubleByte} {serialNum : List UInt8} {s s' : MessageStore}

/-! ## The invariant -/

/-- A row that the thread can read: it fits the buffer and is JSON. -/
def Readable (row : List UInt8) : Prop := row.length < MSG_LENGTH ∧ JsonCpp.parse row = true

/-- The thread is in its loop, what was to be sent is what it has sent and then the rows, and it can
read them all. -/
structure MessageStore.Inv (s : MessageStore) : Prop where
  running : s.running = true
  order : s.toResend = s.resent ++ s.rows
  readable : ∀ row ∈ s.rows, Readable row

/-- The claim on a state: the thread is in its loop, the messages that were to be sent are there byte
for byte, and so many rounds whose sends succeed send as many of them, the oldest first. -/
def MessageStore.InTurn (s : MessageStore) : Prop :=
  s.running = true ∧ s.toResend = s.resent ++ s.rows
    ∧ (∀ row ∈ s.rows, JsonCpp.parse row = true)
    ∧ ∀ k ≤ s.rows.length, runFrom retransRound s (List.replicate k 0)
      = some { s with rows := s.rows.drop k, resent := s.resent ++ s.rows.take k }

theorem MessageStore.Inv.init : ({} : MessageStore).Inv := ⟨rfl, rfl, by simp⟩

/-- A round with a row to send. -/
theorem retransRound_cons {msg : List UInt8} {rest : List (List UInt8)}
    (hrunning : s.running = true) (hrows : s.rows = msg :: rest) (hmsg : Readable msg) (ret : Int) :
    retransRound s ret
      = some (if ret = 0 then { s with rows := rest, resent := s.resent ++ [msg] } else s) := by
  rw [retransRound, if_pos hrunning, hrows]
  simp only [Nat.not_le_of_lt hmsg.1, if_false, hmsg.2, if_true]
  split <;> rfl

theorem MessageStore.Inv.round (h : s.Inv) (ret : Int) :
    ∃ s', retransRound s ret = some s' ∧ s'.Inv ∧ s'.overread = s.overread := by
  cases hrows : s.rows with
  | nil =>
    refine ⟨s, ?_, h, rfl⟩
    rw [retransRound, if_pos h.running, hrows]
  | cons msg rest =>
    have hmsg : Readable msg := h.readable msg (by rw [hrows]; exact List.mem_cons_self ..)
    refine ⟨_, retransRound_cons h.running hrows hmsg ret, ?_, ?_⟩
    · by_cases hret : ret = 0
      · rw [if_pos hret]
        refine ⟨h.running, ?_, ?_⟩
        · show s.toResend = s.resent ++ [msg] ++ rest
          rw [h.order, hrows, List.append_assoc]
          rfl
        · intro row hrow
          exact h.readable row (by rw [hrows]; exact List.mem_cons_of_mem _ hrow)
      · rw [if_neg hret]
        exact h
    · split <;> rfl

/-- A message that is stored as it was to be sent. -/
theorem MessageStore.Inv.store (h : s.Inv) {text : List UInt8} (htext : Readable text)
    (overread : Bool) : ({ s with
      rows := s.rows ++ [text], toResend := s.toResend ++ [text], overread } : MessageStore).Inv := by
  refine ⟨h.running, ?_, ?_⟩
  · show s.toResend ++ [text] = s.resent ++ (s.rows ++ [text])
    rw [h.order, List.append_assoc]
  · intro row hrow
    rcases List.mem_append.mp hrow with hrow | hrow
    · exact h.readable row hrow
    · rw [List.mem_singleton.mp hrow]
      exact htext

/-- Rounds whose sends succeed take the rows one after another. -/
theorem MessageStore.Inv.rounds (h : s.Inv) (k : Nat) (hk : k ≤ s.rows.length) :
    runFrom retransRound s (List.replicate k 0)
      = some { s with rows := s.rows.drop k, resent := s.resent ++ s.rows.take k } := by
  induction k generalizing s with
  | zero => simp
  | succ k ih =>
    cases hrows : s.rows with
    | nil =>
      rw [hrows] at hk
      exact absurd hk (by simp)
    | cons msg rest =>
      have hmsg : Readable msg := h.readable msg (by rw [hrows]; exact List.mem_cons_self ..)
      have hround := retransRound_cons h.running hrows hmsg 0
      rw [if_pos rfl] at hround
      obtain ⟨s', hs', hinv, _⟩ := h.round 0
      rw [hround] at hs'
      cases hs'
      rw [List.replicate_succ, runFrom_cons, hround, Option.bind_some, ih hinv]
      · simp
      · rw [hrows] at hk
        simpa using hk

theorem MessageStore.Inv.inTurn (h : s.Inv) : s.InTurn :=
  ⟨h.running, h.order, fun row hrow => (h.readable row hrow).2, h.rounds⟩

/-! ## The http platform -/

/-- The texts that the message is made of. -/
def httpTexts (serialNum : List UInt8) (r : ParkRecord) : List (List UInt8) :=
  [r.dbParkRecord.time, r.dbParkRecord.plateNum, photoName r 0, photoName r 1, serialNum,
    r.dbParkRecord.pointId]

/-- The colour has two characters; and where the message has to be stored, its texts are whole
characters without a backslash for a second byte, and the converted message has fewer than 1024
bytes. -/
def HttpOp.Fits (enc : DoubleByte) (serialNum : List UInt8) : HttpOp → Prop
  | .record r _ ret =>
    (fmtPad 2 r.dbParkRecord.plateColor).length < 3
      ∧ (ret = -1 → (∀ t ∈ httpTexts serialNum r, enc.plain t = true ∧ 0 ∉ t)
        ∧ (enc.toUtf8 (JsonCpp.fastWrite (httpJson serialNum r))).length < MSG_LENGTH)
  | .round _ => True

/-- Before its conversion the message has 512 bytes or more. -/
def HttpOp.Long (serialNum : List UInt8) : HttpOp → Prop
  | .record r _ ret => ret = -1 → 512 ≤ (JsonCpp.fastWrite (httpJson serialNum r)).length
  | .round _ => True

/-- Every byte is one of ASCII, and none is a terminator. -/
def AsciiText (t : List UInt8) : Prop := ∀ x ∈ t, x ≠ 0 ∧ x < 128

theorem AsciiText.plain {t : List UInt8} (h : AsciiText t) : enc.plain t = true ∧ 0 ∉ t :=
  ⟨DoubleByte.plain_of_ascii fun x hx => (h x hx).2, fun h0 => (h 0 h0).1 rfl⟩

theorem AsciiText.append {t u : List UInt8} (ht : AsciiText t) (hu : AsciiText u) :
    AsciiText (t ++ u) := by
  intro x hx
  rcases List.mem_append.mp hx with hx | hx
  · exact ht x hx
  · exact hu x hx

theorem AsciiText.of_all {t : List UInt8} (h : t.all (fun x => x ≠ 0 && x < 128) = true) :
    AsciiText t := by
  intro x hx
  simpa using List.all_eq_true.mp h x hx

theorem asciiByte_of_isDigit (x : UInt8) (h : isDigit x = true) : x ≠ 0 ∧ x < 128 := by
  simp only [isDigit, Bool.and_eq_true, decide_eq_true_eq] at h
  refine ⟨?_, UInt8.lt_of_le_of_lt h.2 (by decide)⟩
  rintro rfl
  exact absurd h.1 (by decide)

theorem asciiText_digits (n : Nat) : AsciiText (digits n) :=
  fun x hx => asciiByte_of_isDigit x (isDigit_of_mem_digits hx)

theorem asciiText_fmtInt (n : Int) : AsciiText (fmtInt n) :=
  forall_mem_fmtInt (by decide) asciiByte_of_isDigit n

theorem asciiText_fmtPad (w : Nat) (n : Int) : AsciiText (fmtPad w n) := by
  have hsign : AsciiText (if n < 0 then [45] else []) := by
    split
    · exact .of_all rfl
    · exact .of_all rfl
  have hzeros : ∀ k, AsciiText (List.replicate k 48) := by
    intro k x hx
    rw [List.eq_of_mem_replicate hx]
    decide
  exact hsign.append ((hzeros _).append (asciiText_digits _))

theorem asciiText_plateFeature (db : DbParkRecord) : AsciiText (plateFeature db) := by
  have hnext : ∀ t n, AsciiText t → AsciiText (t ++ ascii "/" ++ fmtInt n) :=
    fun _ n ht => (ht.append (.of_all (by decide))).append (asciiText_fmtInt n)
  exact hnext _ _ (hnext _ _ (hnext _ _ (hnext _ _ (hnext _ _ (hnext _ _ (hnext _ _
    (asciiText_fmtInt _)))))))

theorem plainMembers_of {ms : List (String × Json)}
    (h : ∀ m ∈ ms, AsciiText (ascii m.1) ∧ JsonCpp.PlainValue enc m.2) :
    JsonCpp.PlainMembers enc (membersOf ms) := by
  induction ms with
  | nil => trivial
  | cons m ms ih =>
    have hm := h m (List.mem_cons_self ..)
    exact ⟨hm.1.plain, hm.2, ih fun m' hm' => h m' (List.mem_cons_of_mem _ hm')⟩

theorem plainValue_httpJson {r : ParkRecord}
    (h : ∀ t ∈ httpTexts serialNum r, enc.plain t = true ∧ 0 ∉ t) :
    JsonCpp.PlainValue enc (httpJson serialNum r) := by
  have hnames : ∀ name ∈ ["cmdCode", "data", "devId", "psId", "color", "confidence", "dataTime",
      "numplate", "photo", "photo1", "plateFeature", "status"], AsciiText (ascii name) := by
    simp only [List.forall_mem_cons, List.not_mem_nil, false_implies, implies_true, and_true]
    refine ⟨?_, ?_, ?_, ?_, ?_, ?_, ?_, ?_, ?_, ?_, ?_, ?_⟩
    all_goals exact .of_all (by decide)
  have hcmd : ∀ m ∈ cmdCode r.dbParkRecord.objectState,
      AsciiText (ascii m.1) ∧ JsonCpp.PlainValue enc m.2 := by
    intro m hm
    unfold cmdCode at hm
    split at hm
    · rw [List.mem_singleton.mp hm]
      exact ⟨hnames _ (by simp), trivial⟩
    · split at hm
      · rw [List.mem_singleton.mp hm]
        exact ⟨hnames _ (by simp), trivial⟩
      · cases hm
  have htext : ∀ t ∈ httpTexts serialNum r, JsonCpp.PlainValue enc (.str t) := h
  have hnumber : ∀ t, AsciiText t → JsonCpp.PlainValue enc (.str t) := fun t ht => ht.plain
  have hdata : ∀ m ∈ [("color", Json.str (fmtPad 2 r.dbParkRecord.plateColor)),
      ("confidence", .int (r.dbParkRecord.confidence 0)), ("dataTime", .str r.dbParkRecord.time),
      ("numplate", .str r.dbParkRecord.plateNum), ("photo", .str (photoName r 0)),
      ("photo1", .str (photoName r 1)), ("plateFeature", .str (plateFeature r.dbParkRecord)),
      ("status", .int r.dbParkRecord.status)],
      AsciiText (ascii m.1) ∧ JsonCpp.PlainValue enc m.2 := by
    simp only [List.forall_mem_cons, List.not_mem_nil, false_implies, implies_true, and_true]
    exact ⟨⟨hnames _ (by simp), hnumber _ (asciiText_fmtPad 2 _)⟩, ⟨hnames _ (by simp), trivial⟩,
      ⟨hnames _ (by simp), htext _ (by simp [httpTexts])⟩,
      ⟨hnames _ (by simp), htext _ (by simp [httpTexts])⟩,
      ⟨hnames _ (by simp), htext _ (by simp [httpTexts])⟩,
      ⟨hnames _ (by simp), htext _ (by simp [httpTexts])⟩,
      ⟨hnames _ (by simp), hnumber _ (asciiText_plateFeature _)⟩, ⟨hnames _ (by simp), trivial⟩⟩
  apply plainMembers_of
  intro m hm
  rcases List.mem_append.mp hm with hm | hm
  · exact hcmd m hm
  · simp only [List.mem_cons, List.not_mem_nil, or_false] at hm
    rcases hm with rfl | rfl | rfl
    · exact ⟨hnames _ (by simp), plainMembers_of hdata⟩
    · exact ⟨hnames _ (by simp), htext _ (by simp [httpTexts])⟩
    · exact ⟨hnames _ (by simp), htext _ (by simp [httpTexts])⟩

/-- The field holds the text when it has room for it and its memory for a terminator. -/
theorem cstr_messageField {content : List UInt8} {cap : Nat} (beyond : Nat → UInt8)
    (h0 : 0 ∉ content) (hlen : content.length < MSG_LENGTH) (hcap : content.length < cap) :
    cstr (messageField content cap beyond) = some content := by
  have htake : (messageField content cap beyond).take content.length = content := by
    refine List.ext_getElem (by simp [messageField]; omega) ?_
    intro i hi hi'
    simp [messageField, show i < cap by omega, hi']
  have hend : (messageField content cap beyond)[content.length]? = some 0 := by
    simp [messageField, hlen, hcap]
  obtain ⟨rest, hfield⟩ : ∃ rest, messageField content cap beyond = content ++ 0 :: rest := by
    refine ⟨(messageField content cap beyond).drop (content.length + 1), ?_⟩
    obtain ⟨hlt, hget⟩ := List.getElem?_eq_some_iff.mp hend
    calc messageField content cap beyond
        = (messageField content cap beyond).take content.length
          ++ (messageField content cap beyond).drop content.length :=
          (List.take_append_drop ..).symm
      _ = _ := by rw [htake, List.drop_eq_getElem_cons hlt, hget]
  have hwhile : (content ++ 0 :: rest).takeWhile (· ≠ 0) = content := by
    rw [List.takeWhile_append_of_pos]
    · simp
    · intro b hb
      simpa using ne_of_mem_of_not_mem hb h0
  rw [hfield, cstr, if_pos (by simp), hwhile]

theorem MessageStore.Inv.record (h : s.Inv) {r : ParkRecord} {beyond : Nat → UInt8} {ret : Int}
    (hfits : (HttpOp.record r beyond ret).Fits enc serialNum) :
    ∃ s', httpRecordHandler enc serialNum s r beyond ret = some s' ∧ s'.Inv
      ∧ ((HttpOp.record r beyond ret).Long serialNum → s'.overread = s.overread) := by
  obtain ⟨hcolor, hstored⟩ := hfits
  rw [httpRecordHandler, if_neg (by omega)]
  by_cases hret : ret = -1
  · obtain ⟨htexts, hlen⟩ := hstored hret
    have hplain := plainValue_httpJson htexts
    have hpos : 0 < (JsonCpp.fastWrite (httpJson serialNum r)).length := by
      rw [JsonCpp.fastWrite, List.length_append]
      exact Nat.lt_of_lt_of_le Nat.zero_lt_one (Nat.le_add_left 1 _)
    have hle := DoubleByte.length_toUtf8_le enc (JsonCpp.fastWrite (httpJson serialNum r))
    have h0 : 0 ∉ enc.toUtf8 (JsonCpp.fastWrite (httpJson serialNum r)) :=
      DoubleByte.not_mem_toUtf8 (by decide) (JsonCpp.zero_not_mem_fastWrite _)
    have hmessage := cstr_messageField beyond h0 hlen
      (show _ < (JsonCpp.fastWrite (httpJson serialNum r)).length * 2 by omega)
    have hreadable : Readable (enc.toUtf8 (JsonCpp.fastWrite (httpJson serialNum r))) :=
      ⟨hlen, JsonCpp.parse_toUtf8_fastWrite hplain⟩
    refine ⟨_, ?_, h.store hreadable (s.overread
      || decide ((JsonCpp.fastWrite (httpJson serialNum r)).length * 2 < MSG_LENGTH)), ?_⟩
    · simp only [hret, if_true, hmessage]
      rfl
    · intro hlong
      have hle512 := hlong hret
      have hmsg : MSG_LENGTH = 1024 := rfl
      simp [show ¬ (JsonCpp.fastWrite (httpJson serialNum r)).length * 2 < MSG_LENGTH by omega]
  · simp only [hret, if_false]
    exact ⟨s, rfl, h, fun _ => rfl⟩

theorem http_run {ops : List HttpOp} (hs : s.Inv)
    (hfits : ∀ op ∈ ops, op.Fits enc serialNum) :
    ∃ s', runFrom (httpStep enc serialNum) s ops = some s' ∧ s'.Inv
      ∧ ((∀ op ∈ ops, op.Long serialNum) → s'.overread = s.overread) := by
  induction ops generalizing s with
  | nil => exact ⟨s, rfl, hs, fun _ => rfl⟩
  | cons op ops ih =>
    have hstep : ∃ s', httpStep enc serialNum s op = some s' ∧ s'.Inv
        ∧ (op.Long serialNum → s'.overread = s.overread) := by
      cases op with
      | record r beyond ret => exact hs.record (hfits _ (List.mem_cons_self ..))
      | round ret =>
        obtain ⟨s', hs', hinv, hover⟩ := hs.round ret
        exact ⟨s', hs', hinv, fun _ => hover⟩
    obtain ⟨s₁, hs₁, hinv, hover⟩ := hstep
    obtain ⟨s₂, hs₂, hinv₂, hover₂⟩ := ih hinv fun op' hop => hfits op' (List.mem_cons_of_mem _ hop)
    refine ⟨s₂, ?_, hinv₂, ?_⟩
    · rw [runFrom_cons, hs₁]
      exact hs₂
    · intro hlong
      rw [hover₂ fun op' hop => hlong op' (List.mem_cons_of_mem _ hop),
        hover (hlong op (List.mem_cons_self ..))]

/-! ## The ktetc platform -/

/-- The message has fewer than 1024 bytes. -/
def KtetcOp.Fits (enc : DoubleByte) : KtetcOp → Prop
  | .record k _ => (JsonCpp.fastWrite (ktetcJson enc k)).length < MSG_LENGTH
  | .round _ => True

theorem ktetc_step {op : KtetcOp} (hs : s.Inv) (hfits : op.Fits enc) :
    ∃ s', ktetcStep enc s op = some s' ∧ s'.Inv := by
  cases op with
  | record k rets =>
    have hstored := hs.store ⟨hfits, JsonCpp.parse_fastWrite (ktetcJson enc k)⟩ s.overread
    refine ⟨_, rfl, ?_⟩
    unfold ktetcSendRecord
    split
    · exact hstored
    · split
      · exact hstored
      · exact hs
  | round ret =>
    obtain ⟨s', hs', hinv, _⟩ := hs.round ret
    exact ⟨s', hs', hinv⟩

theorem ktetc_run {ops : List KtetcOp} (hs : s.Inv) (hfits : ∀ op ∈ ops, op.Fits enc) :
    ∃ s', runFrom (ktetcStep enc) s ops = some s' ∧ s'.Inv := by
  induction ops generalizing s with
  | nil => exact ⟨s, rfl, hs⟩
  | cons op ops ih =>
    obtain ⟨s₁, hs₁, hinv⟩ := ktetc_step hs (hfits op (List.mem_cons_self ..))
    obtain ⟨s₂, hs₂, hinv₂⟩ := ih hinv fun op' hop => hfits op' (List.mem_cons_of_mem _ hop)
    refine ⟨s₂, ?_, hinv₂⟩
    rw [runFrom_cons, hs₁]
    exact hs₂

/-! ## The main results -/

/-- In every run of either platform whose records fit, no step leaves its buffers, the stored messages
are those that were to be sent, and all get their turn; and a message of the http platform is copied
from its own memory where its text has 512 bytes or more. -/
theorem stored_messages_get_their_turn (enc : DoubleByte) :
    (∀ (serialNum : List UInt8) (ops : List HttpOp), (∀ op ∈ ops, op.Fits enc serialNum) →
        ∃ s, runFrom (httpStep enc serialNum) {} ops = some s ∧ s.InTurn
          ∧ ((∀ op ∈ ops, op.Long serialNum) → s.overread = false))
      ∧ ∀ ops : List KtetcOp, (∀ op ∈ ops, op.Fits enc) →
        ∃ s, runFrom (ktetcStep enc) {} ops = some s ∧ s.InTurn := by
  constructor
  · intro serialNum ops hfits
    obtain ⟨s, hs, hinv, hover⟩ := http_run .init hfits
    exact ⟨s, hs, hinv.inTurn, hover⟩
  · intro ops hfits
    obtain ⟨s, hs, hinv⟩ := ktetc_run .init hfits
    exact ⟨s, hs, hinv.inTurn⟩

/-- An encoding with the one character that a plate of Beijing begins with. -/
def jingEncoding : DoubleByte where
  char a b := if a = 190 ∧ b = 169 then some [228, 186, 172] else none
  high a b u h x hx := by
    split at h
    · cases h
      have hall : [228, 186, 172].all (fun y : UInt8 => 128 ≤ y) = true := by decide
      simpa using List.all_eq_true.mp hall x hx
    · cases h
  short a b u h := by
    split at h
    · cases h
      decide
    · cases h
  trail a b u h := by
    split at h
    · next hab =>
      rw [hab.2]
      decide
    · cases h

/-- A car that comes. -/
def comingRecord (plateNum : List UInt8) : ParkRecord where
  dbParkRecord := { plateNum, time := ascii "2017-10-10 12:30:59", pointId := ascii "3",
                    objectState := 1 }

theorem stored_messages_get_their_turn_jing :
    ∃ s, runFrom (httpStep jingEncoding (ascii "7")) {}
        [.record (comingRecord ([190, 169] ++ ascii "A12345")) (fun _ => 1) (-1), .round (-1)] = some s
      ∧ s.InTurn := by
  obtain ⟨s, hs, hturn, _⟩ := (stored_messages_get_their_turn jingEncoding).1 (ascii "7")
    [.record (comingRecord ([190, 169] ++ ascii "A12345")) (fun _ => 1) (-1), .round (-1)] (by
      intro op hop
      simp only [List.mem_cons, List.not_mem_nil, or_false] at hop
      rcases hop with rfl | rfl
      · exact ⟨by decide, fun _ => ⟨by decide, by decide +kernel⟩⟩
      · trivial)
  exact ⟨s, hs, hturn⟩

/-- A plate that ends within a character: its message is cut there, was copied from beyond its memory
and ends the thread. A message of the ktetc platform with a long code does not fit the buffer. -/
theorem not_stored_messages_get_their_turn :
    (runFrom (httpStep jingEncoding (ascii "7")) {}
        [.record (comingRecord [190]) (fun _ => 1) (-1), .round 0]).map
          (fun s => (s.running, s.overread)) = some (false, true)
      ∧ (runFrom (ktetcStep jingEncoding) {}
        [.record ⟨⟨ascii "101", ascii "899", ascii "1", List.replicate 1024 65⟩, {}, 1,
          ascii "20171010123059", ascii "20171010123059", ascii "0", []⟩ (fun _ => -1),
          .round 0]).isNone = true := by
  constructor
  · decide +kernel
  · decide +kernel

end VdCamera.Park
