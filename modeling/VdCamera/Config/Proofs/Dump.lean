import VdCamera.Config.Proofs.VeCfg

/-!
# A dump that is interrupted

What the profile holds after any part of a dump, whatever its calls return.
-/

namespace VdCamera.Config

open Misc

/-! ## What has happened so far -/

/-- The profile has been neither renamed nor opened. -/
def Untouched (tr : List DumpEvent) : Prop := .backup true ∉ tr ∧ .create true ∉ tr

/-- Every byte of a text of `len` bytes was taken by the stream and has reached the file. -/
def Complete (len : Nat) (tr : List DumpEvent) : Prop :=
  (.format none ∈ tr ∨ ∃ room, .format (some room) ∈ tr ∧ len ≤ room)
    ∧ ∃ n, .reach n ∈ tr ∧ len ≤ n

/-- There was no memory, or the stream did not take every byte. -/
def Failed (len : Nat) (tr : List DumpEvent) : Prop :=
  .alloc none ∈ tr ∨ ∃ room, .format (some room) ∈ tr ∧ room < len

/-- The old profile has been renamed back. -/
def Restored (len : Nat) (tr : List DumpEvent) : Prop :=
  .backup true ∈ tr ∧ Failed len tr ∧ .settle true ∈ tr

/-- A backup from before the dump has been renamed to the profile. -/
def Stale (len : Nat) (bak : Option (List UInt8)) (tr : List DumpEvent) : Prop :=
  bak.isSome ∧ .backup false ∈ tr ∧ .create true ∈ tr ∧ Failed len tr ∧ .settle true ∈ tr

/-- The profile is whole. -/
def Kept (len : Nat) (tr : List DumpEvent) : Prop :=
  Untouched tr ∨ Complete len tr ∨ Restored len tr

/-! ## The steps -/

variable {L : JsonLibrary} {c : VeCfg}

/-- What the backup is good for at the end: nothing when the text was written, else it comes
back. -/
def Disk.settle (disk : Disk) (len : Int) : Disk :=
  if disk.bak.isSome then if 0 < len then { disk with bak := none } else disk.restore else disk

/-- The last step of a dump. -/
theorem settle_run {s s' : DumpState} {len : Int} {tr : List DumpEvent} (hpc : s.pc = .settle len)
    (h : runFrom (dumpStep L) s tr = some s') :
    (tr = [] ∧ s'.disk = s.disk) ∨ (tr = [.settle false] ∧ s'.disk = s.disk)
      ∨ (tr = [.settle true] ∧ s'.disk = s.disk.settle len) := by
  cases tr with
  | nil =>
    cases h
    exact .inl ⟨rfl, rfl⟩
  | cons e tr =>
    rw [runFrom_cons] at h
    obtain ⟨s₁, hstep, hrun⟩ := Option.bind_eq_some_iff.mp h
    unfold dumpStep at hstep
    rw [hpc] at hstep
    cases e with
    | settle ok =>
      cases hstep
      have hend : tr = [] := by
        cases tr with
        | nil => rfl
        | cons e tr => cases hrun
      subst hend
      cases hrun
      cases ok with
      | true =>
        refine .inr (.inr ⟨rfl, ?_⟩)
        simp only [Bool.and_true]
        rfl
      | false =>
        refine .inr (.inl ⟨rfl, ?_⟩)
        simp only [Bool.and_false]
        rfl
    | _ => cases hstep

/-- Bytes on their way to the file, the stream closed behind them and the backup dealt with. -/
theorem flush_run {s s' : DumpState} {len : Int} {data : List UInt8} {tr : List DumpEvent} {m : Nat}
    (hpc : s.pc = .flush len data) (hp : s.disk.profile = some (data.take m)) (hm : m ≤ data.length)
    (h : runFrom (dumpStep L) s tr = some s') :
    ∃ m', m' ≤ data.length
      ∧ (m' = data.length ↔ m = data.length ∨ ∃ n, .reach n ∈ tr ∧ data.length ≤ n)
      ∧ (∀ e ∈ tr, (∃ n, e = .reach n) ∨ e = .close ∨ ∃ ok, e = .settle ok)
      ∧ s'.disk = if .settle true ∈ tr then
          Disk.settle { s.disk with profile := some (data.take m') } len
        else { s.disk with profile := some (data.take m') } := by
  induction tr generalizing s m with
  | nil =>
    cases h
    refine ⟨m, hm, by simp, by simp, ?_⟩
    rw [← hp]
    rfl
  | cons e tr ih =>
    rw [runFrom_cons] at h
    obtain ⟨s₁, hstep, hrun⟩ := Option.bind_eq_some_iff.mp h
    unfold dumpStep at hstep
    rw [hpc] at hstep
    cases e with
    | reach n =>
      simp only [hp, Option.getD_some, List.length_take] at hstep
      split at hstep
      · rename_i hle
        have htake : data.take n = data.take (min n data.length) := by
          rw [List.take_eq_take_iff]
          omega
        cases hstep
        obtain ⟨m', hm', hiff, hev, hdisk⟩ := ih (m := min n data.length) rfl
          (congrArg some htake) (Nat.min_le_right _ _) hrun
        refine ⟨m', hm', hiff.trans ?_, ?_, ?_⟩
        · simp only [List.mem_cons, DumpEvent.reach.injEq]
          constructor
          · rintro (heq | ⟨k, hk, hlek⟩)
            · exact .inr ⟨n, .inl rfl, by omega⟩
            · exact .inr ⟨k, .inr hk, hlek⟩
          · rintro (heq | ⟨k, rfl | hk, hlek⟩)
            · exact .inl (by omega)
            · exact .inl (by omega)
            · exact .inr ⟨k, hk, hlek⟩
        · intro e he
          rcases List.mem_cons.mp he with rfl | he
          · exact .inl ⟨n, rfl⟩
          · exact hev e he
        · rw [hdisk]
          simp only [List.mem_cons, reduceCtorEq, false_or]
      · cases hstep
    | close =>
      cases hstep
      have hcase := settle_run rfl hrun
      refine ⟨m, hm, ?_, ?_, ?_⟩
      · rcases hcase with ⟨rfl, -⟩ | ⟨rfl, -⟩ | ⟨rfl, -⟩
        · simp
        · simp
        · simp
      · rcases hcase with ⟨rfl, -⟩ | ⟨rfl, -⟩ | ⟨rfl, -⟩
        · simp
        · simp
        · simp
      · rw [← hp]
        rcases hcase with ⟨rfl, hdisk⟩ | ⟨rfl, hdisk⟩ | ⟨rfl, hdisk⟩
        · exact hdisk
        · exact hdisk
        · exact hdisk
    | _ => cases hstep

theorem run_cons {s s' : DumpState} {e : DumpEvent} {tr : List DumpEvent}
    (h : runFrom (dumpStep L) s (e :: tr) = some s') :
    ∃ s₁, dumpStep L s e = some s₁ ∧ runFrom (dumpStep L) s₁ tr = some s' := by
  rw [runFrom_cons] at h
  exact Option.bind_eq_some_iff.mp h

/-- A dump that has ended takes no step. -/
theorem done_run {s s' : DumpState} {r : Int} {tr : List DumpEvent} (hpc : s.pc = .done r)
    (h : runFrom (dumpStep L) s tr = some s') : tr = [] ∧ s' = s := by
  cases tr with
  | nil =>
    cases h
    exact ⟨rfl, rfl⟩
  | cons e tr =>
    obtain ⟨s₁, hstep, -⟩ := run_cons h
    unfold dumpStep at hstep
    rw [hpc] at hstep
    cases e <;> cases hstep

/-- The files after the first call of a dump. -/
def backedUp (old : List UInt8) (bak : Option (List UInt8)) (ok : Bool) : Disk :=
  if ok then ⟨none, some old⟩ else ⟨some old, bak⟩

/-- How far a dump may have come. -/
inductive Course (L : JsonLibrary) (c : VeCfg) (old : List UInt8) (bak : Option (List UInt8)) :
    List DumpEvent → Disk → Prop
  | start : Course L c old bak [] ⟨some old, bak⟩
  | moved (ok : Bool) : Course L c old bak [.backup ok] (backedUp old bak ok)
  | closed (ok : Bool) : Course L c old bak [.backup ok, .create false] (backedUp old bak ok)
  | opened (ok : Bool) :
      Course L c old bak [.backup ok, .create true] { backedUp old bak ok with profile := some [] }
  | starved (ok : Bool) : Course L c old bak [.backup ok, .create true, .alloc none]
      { backedUp old bak ok with profile := some [] }
  | starvedEnd (ok settled : Bool) :
      Course L c old bak [.backup ok, .create true, .alloc none, .settle settled]
        (if settled then Disk.settle { backedUp old bak ok with profile := some [] } (-1)
          else { backedUp old bak ok with profile := some [] })
  | ready (ok : Bool) (junk : List UInt8) :
      Course L c old bak [.backup ok, .create true, .alloc (some junk)]
        { backedUp old bak ok with profile := some [] }
  | written (ok : Bool) (junk : List UInt8) (room : Option Nat) {tr : List DumpEvent} {m : Nat}
      {f : File} {taken : Bool} (hf : File.put (dumped L c) ⟨[], room⟩ = (taken, f))
      (hm : m ≤ f.data.length)
      (hiff : m = f.data.length ↔ 0 = f.data.length ∨ ∃ n, .reach n ∈ tr ∧ f.data.length ≤ n)
      (hev : ∀ e ∈ tr, (∃ n, e = .reach n) ∨ e = .close ∨ ∃ ok, e = .settle ok) :
      Course L c old bak
        (.backup ok :: .create true :: .alloc (some junk) :: .format room :: tr)
        (if .settle true ∈ tr then
          Disk.settle { backedUp old bak ok with profile := some (f.data.take m) }
            (if taken then (dumped L c).length else -1)
        else { backedUp old bak ok with profile := some (f.data.take m) })

theorem course_of_run {old : List UInt8} {bak : Option (List UInt8)} (hL : L.Lawful)
    (hr : c.InRange) (hp : c.Printable) {tr : List DumpEvent} {s : DumpState}
    (h : runFrom (dumpStep L) (dumpStart ⟨some old, bak⟩ c) tr = some s) :
    Course L c old bak tr s.disk := by
  cases tr with
  | nil =>
    cases h
    exact .start
  | cons e tr =>
    obtain ⟨s₁, hstep, h₁⟩ := run_cons h
    cases e with
    | backup ok =>
      have hs₁ : s₁ = ⟨backedUp old bak ok, c, .create⟩ := by
        cases ok <;> (cases hstep; rfl)
      subst hs₁
      cases tr with
      | nil =>
        cases h₁
        exact .moved ok
      | cons e tr =>
        obtain ⟨s₂, hstep, h₂⟩ := run_cons h₁
        cases e with
        | create opened =>
          cases opened with
          | false =>
            cases hstep
            obtain ⟨rfl, rfl⟩ := done_run rfl h₂
            exact .closed ok
          | true =>
            cases hstep
            cases tr with
            | nil =>
              cases h₂
              exact .opened ok
            | cons e tr =>
              obtain ⟨s₃, hstep, h₃⟩ := run_cons h₂
              cases e with
              | alloc buf =>
                cases buf with
                | none =>
                  cases hstep
                  rcases settle_run rfl h₃ with ⟨rfl, hdisk⟩ | ⟨rfl, hdisk⟩ | ⟨rfl, hdisk⟩
                  · rw [hdisk]
                    exact .starved ok
                  · rw [hdisk]
                    exact .starvedEnd ok false
                  · rw [hdisk]
                    exact .starvedEnd ok true
                | some junk =>
                  cases hstep
                  cases tr with
                  | nil =>
                    cases h₃
                    exact .ready ok junk
                  | cons e tr =>
                    obtain ⟨s₄, hstep, h₄⟩ := run_cons h₃
                    cases e with
                    | format room =>
                      rcases hput : File.put (dumped L c) ⟨[], room⟩ with ⟨taken, f⟩
                      have hformat := format_ve hL hr hp junk ⟨[], room⟩
                      simp only [hput] at hformat
                      simp only [dumpStep, if_true, hformat] at hstep
                      cases hstep
                      obtain ⟨m, hm, hiff, hev, hdisk⟩ := flush_run (m := 0) rfl rfl
                        (Nat.zero_le _) h₄
                      rw [hdisk]
                      exact .written ok junk room hput hm hiff hev
                    | _ => cases hstep
              | _ => cases hstep
        | _ => cases hstep
    | _ => cases hstep

/-- What the stream does with a text, by whether it takes every byte of it. -/
theorem put_fits {t : List UInt8} {room : Option Nat} {taken : Bool} {f : File}
    (hf : File.put t ⟨[], room⟩ = (taken, f)) :
    (room = none ∨ ∃ r, room = some r ∧ t.length ≤ r) ∧ taken = true ∧ f.data = t
      ∨ ∃ r, room = some r ∧ r < t.length ∧ taken = false ∧ f.data = t.take r := by
  cases room with
  | none =>
    cases hf
    exact .inl ⟨.inl rfl, rfl, rfl⟩
  | some r =>
    by_cases hr : t.length ≤ r
    · simp only [File.put, if_pos hr, List.nil_append, Prod.mk.injEq] at hf
      exact .inl ⟨.inr ⟨r, rfl, hr⟩, hf.1.symm, by rw [← hf.2]⟩
    · simp only [File.put, if_neg hr, List.nil_append, Prod.mk.injEq] at hf
      exact .inr ⟨r, rfl, by omega, hf.1.symm, by rw [← hf.2]⟩

/-- The last part of a dump decides which part of the profile is there. -/
theorem written_profile {old : List UInt8} {bak : Option (List UInt8)} {ok : Bool}
    {junk : List UInt8} {room : Option Nat} {tr : List DumpEvent} {m : Nat} {f : File}
    {taken : Bool} (hpos : 0 < (dumped L c).length)
    (hf : File.put (dumped L c) ⟨[], room⟩ = (taken, f))
    (hm : m ≤ f.data.length)
    (hiff : m = f.data.length ↔ 0 = f.data.length ∨ ∃ n, .reach n ∈ tr ∧ f.data.length ≤ n)
    (hev : ∀ e ∈ tr, (∃ n, e = .reach n) ∨ e = .close ∨ ∃ ok, e = .settle ok)
    {disk : Disk} (hdisk : disk = if .settle true ∈ tr then
        Disk.settle { backedUp old bak ok with profile := some (f.data.take m) }
          (if taken then (dumped L c).length else -1)
      else { backedUp old bak ok with profile := some (f.data.take m) })
    {all : List DumpEvent}
    (hall : all = .backup ok :: .create true :: .alloc (some junk) :: .format room :: tr) :
    (Kept (dumped L c).length all → disk.profile = some old ∨ disk.profile = some (dumped L c))
      ∧ (Stale (dumped L c).length bak all → disk.profile = bak)
      ∧ (¬ Kept (dumped L c).length all → ¬ Stale (dumped L c).length bak all →
        disk.profile = none
          ∨ ∃ m < (dumped L c).length, disk.profile = some ((dumped L c).take m)) := by
  have hno : ∀ e, (∀ n, e ≠ .reach n) → e ≠ .close → (∀ ok, e ≠ .settle ok) → e ∉ tr := by
    intro e h₁ h₂ h₃ he
    rcases hev e he with ⟨n, h⟩ | h | ⟨ok, h⟩
    · exact h₁ n h
    · exact h₂ h
    · exact h₃ ok h
  have hbackup : ∀ b, DumpEvent.backup b ∉ tr := fun b => hno _ (by simp) (by simp) (by simp)
  have hcreate : DumpEvent.create true ∉ tr := hno _ (by simp) (by simp) (by simp)
  have halloc : DumpEvent.alloc none ∉ tr := hno _ (by simp) (by simp) (by simp)
  have hformat : ∀ r, DumpEvent.format r ∉ tr := fun r => hno _ (by simp) (by simp) (by simp)
  have huntouched : ¬ Untouched all := by
    rw [hall]
    simp [Untouched]
  rcases put_fits hf with ⟨hroom, rfl, hdata⟩ | ⟨r, rfl, hr, rfl, hdata⟩
  · -- the text was written: it is whole once all of it has reached the file
    have hfailed : ¬ Failed (dumped L c).length all := by
      rw [hall]
      rcases hroom with rfl | ⟨r, rfl, hle⟩
      · simp [Failed, halloc, hformat]
      · simpa [Failed, halloc, hformat] using hle
    have hcomplete : Complete (dumped L c).length all ↔ m = (dumped L c).length := by
      rw [hdata] at hiff
      rw [hiff, hall]
      rcases hroom with rfl | ⟨r, rfl, hle⟩
      · simp [Complete, hpos.ne]
      · simp [Complete, hpos.ne, hformat, hle]
    have hlen : (0 : Int) < (dumped L c).length := Int.natCast_pos.mpr hpos
    have hprofile : disk.profile = some ((dumped L c).take m) := by
      rw [hdisk, hdata]
      simp only [Disk.settle, if_true, hlen]
      split
      · split
        · rfl
        · rfl
      · rfl
    refine ⟨?_, fun h => absurd h.2.2.2.1 hfailed, fun h _ => .inr ⟨m, ?_, hprofile⟩⟩
    · rintro (h | h | h)
      · exact absurd h huntouched
      · rw [hprofile, hcomplete.mp h, List.take_length]
        exact .inr rfl
      · exact absurd h.2.1 hfailed
    · rw [hdata] at hm
      exact Nat.lt_of_le_of_ne hm fun hm => h (.inr (.inl (hcomplete.mpr hm)))
  · -- it was not: the old profile or an older backup comes back, if there is one
    have hfailed : Failed (dumped L c).length all := by
      rw [hall]
      exact .inr ⟨r, by simp, hr⟩
    have hcomplete : ¬ Complete (dumped L c).length all := by
      rw [hall]
      rintro ⟨h | ⟨r', h, hle⟩, -⟩
      · simp [hformat] at h
      · simp [hformat] at h
        omega
    have hpart : ∃ k < (dumped L c).length, f.data.take m = (dumped L c).take k := by
      refine ⟨min m r, by omega, ?_⟩
      rw [hdata, List.take_take]
    have hsettle : DumpEvent.settle true ∈ all ↔ DumpEvent.settle true ∈ tr := by simp [hall]
    have hmoved : ∀ b, DumpEvent.backup b ∈ all ↔ ok = b := by
      intro b
      simp [hall, hbackup, eq_comm]
    have hkept : Kept (dumped L c).length all ↔ ok = true ∧ DumpEvent.settle true ∈ tr := by
      simp [Kept, huntouched, hcomplete, Restored, hfailed, hsettle, hmoved]
    have hstale : Stale (dumped L c).length bak all
        ↔ bak.isSome = true ∧ ok = false ∧ DumpEvent.settle true ∈ tr := by
      have hopened : DumpEvent.create true ∈ all := by simp [hall]
      simp [Stale, hfailed, hsettle, hmoved, hopened]
    rw [hkept, hstale]
    by_cases hend : DumpEvent.settle true ∈ tr
    · rw [if_pos hend] at hdisk
      cases ok with
      | true =>
        simp [hdisk, hend, Disk.settle, Disk.restore, backedUp]
      | false =>
        cases bak with
        | some b => simp [hdisk, hend, Disk.settle, Disk.restore, backedUp]
        | none => simpa [hdisk, hend, Disk.settle, backedUp] using hpart
    · rw [if_neg hend] at hdisk
      simpa [hdisk, hend] using hpart

/-- What is whole, what is an old backup and what is left of the profile otherwise. -/
theorem course_profile {old : List UInt8} {bak : Option (List UInt8)} {tr : List DumpEvent}
    {disk : Disk} (hpos : 0 < (dumped L c).length) (h : Course L c old bak tr disk) :
    (Kept (dumped L c).length tr → disk.profile = some old ∨ disk.profile = some (dumped L c))
      ∧ (Stale (dumped L c).length bak tr → disk.profile = bak)
      ∧ (¬ Kept (dumped L c).length tr → ¬ Stale (dumped L c).length bak tr →
        disk.profile = none
          ∨ ∃ m < (dumped L c).length, disk.profile = some ((dumped L c).take m)) := by
  cases h with
  | start => simp [Kept, Untouched, Stale]
  | moved ok => cases ok <;> simp [Kept, Untouched, Complete, Restored, Stale, backedUp]
  | closed ok => cases ok <;> simp [Kept, Untouched, Complete, Restored, Stale, backedUp]
  | opened ok =>
    have hempty : ∃ m < (dumped L c).length, (some [] : Option (List UInt8))
        = some ((dumped L c).take m) := ⟨0, hpos, rfl⟩
    simpa [Kept, Untouched, Complete, Restored, Stale] using hempty
  | starved ok =>
    have hempty : ∃ m < (dumped L c).length, (some [] : Option (List UInt8))
        = some ((dumped L c).take m) := ⟨0, hpos, rfl⟩
    simpa [Kept, Untouched, Complete, Restored, Stale] using hempty
  | starvedEnd ok settled =>
    have hempty : ∃ m < (dumped L c).length, (some [] : Option (List UInt8))
        = some ((dumped L c).take m) := ⟨0, hpos, rfl⟩
    cases settled with
    | false => simpa [Kept, Untouched, Complete, Restored, Stale] using hempty
    | true =>
      cases ok with
      | true => simp [Kept, Untouched, Complete, Restored, Stale, Failed, backedUp, Disk.settle,
          Disk.restore]
      | false =>
        cases bak with
        | none =>
          simpa [Kept, Untouched, Complete, Restored, Stale, Failed, backedUp, Disk.settle]
            using hempty
        | some b => simp [Kept, Untouched, Complete, Restored, Stale, Failed, backedUp,
            Disk.settle, Disk.restore]
  | ready ok junk =>
    have hempty : ∃ m < (dumped L c).length, (some [] : Option (List UInt8))
        = some ((dumped L c).take m) := ⟨0, hpos, rfl⟩
    simpa [Kept, Untouched, Complete, Restored, Stale, Failed] using hempty
  | written ok junk room hf hm hiff hev => exact written_profile hpos hf hm hiff hev rfl rfl

/-! ## Loading what an interrupted dump has left -/

/-- The text of a configuration that is cut is refused. -/
theorem parse_dumped_cut (hL : L.Lawful) (hr : c.InRange) (hp : c.Printable) {m : Nat}
    (hm : m < (dumped L c).length) : L.parse ((dumped L c).take m) = none := by
  obtain ⟨prov, city, content, id, -, -, -, -, hraw⟩ := dumped_spelled hL hr hp
  rw [ve_json (hr.withTexts prov city content id)] at hraw
  apply hL.parse_cut _ _ _ hraw (List.take_prefix m _)
  intro heq
  have hlen := congrArg List.length heq
  rw [List.length_take] at hlen
  omega

/-- After any part of a dump, whatever its calls have returned, a load reads the old or the new
file when the profile has not been touched, or the new text has reached it to its last byte, or the
old profile has been renamed back. Otherwise it reads a backup from before the dump or nothing. -/
theorem load_interrupted {old : List UInt8} {bak : Option (List UInt8)} (hL : L.Lawful)
    (hr : c.InRange) (hp : c.Printable) {tr : List DumpEvent} {s : DumpState}
    (h : runFrom (dumpStep L) (dumpStart ⟨some old, bak⟩ c) tr = some s) (c₀ : VeCfg) :
    (Kept (dumped L c).length tr →
        veCfgLoad L s.disk c₀ = veCfgReadNew L old c₀
          ∨ veCfgLoad L s.disk c₀ = veCfgReadNew L (dumped L c) c₀)
      ∧ (¬ Kept (dumped L c).length tr → veCfgLoad L s.disk c₀ = (-1, c₀)
        ∨ Stale (dumped L c).length bak tr
          ∧ veCfgLoad L s.disk c₀ = veCfgLoad L ⟨bak, none⟩ c₀) := by
  obtain ⟨hkept, hstale, hlost⟩ :=
    course_profile (dumped_pos hL hr hp) (course_of_run hL hr hp h)
  constructor
  · intro hk
    rcases hkept hk with hprofile | hprofile
    · left
      rw [veCfgLoad, hprofile]
    · right
      rw [veCfgLoad, hprofile]
  · intro hk
    by_cases hst : Stale (dumped L c).length bak tr
    · refine .inr ⟨hst, ?_⟩
      rw [veCfgLoad, veCfgLoad, hstale hst]
    · left
      rcases hlost hk hst with hprofile | ⟨m, hm, hprofile⟩
      · rw [veCfgLoad, hprofile]
      · rw [veCfgLoad, hprofile]
        simp only [veCfgReadNew, parse_dumped_cut hL hr hp hm]

/-- A configuration that the profile may hold before. -/
def oldCfg : VeCfg :=
  commaCfg.withTexts (ascii "Shandong") (ascii "Jinan") (ascii "slow down") (ascii "3700009099")

def oldText : List UInt8 := dumped plainLibrary oldCfg

theorem oldCfg_printable : oldCfg.Printable where
  prov := ⟨by decide, List.all_eq_true.mp rfl⟩
  city := ⟨by decide, List.all_eq_true.mp rfl⟩
  content := ⟨by decide, List.all_eq_true.mp rfl⟩
  id := ⟨by decide, List.all_eq_true.mp rfl⟩

/-- A dump that has come as far as its first call. -/
def movedState : DumpState := ⟨⟨none, some oldText⟩, commaCfg, .create⟩

theorem load_interrupted_moved :
    (Kept (dumped plainLibrary commaCfg).length [.backup true] →
        veCfgLoad plainLibrary movedState.disk commaCfg = veCfgReadNew plainLibrary oldText commaCfg
        ∨ veCfgLoad plainLibrary movedState.disk commaCfg
          = veCfgReadNew plainLibrary (dumped plainLibrary commaCfg) commaCfg)
      ∧ (¬ Kept (dumped plainLibrary commaCfg).length [.backup true] →
        veCfgLoad plainLibrary movedState.disk commaCfg = (-1, commaCfg)
        ∨ Stale (dumped plainLibrary commaCfg).length none [.backup true]
          ∧ veCfgLoad plainLibrary movedState.disk commaCfg
            = veCfgLoad plainLibrary ⟨none, none⟩ commaCfg) :=
  load_interrupted (s := movedState) plainLibrary_lawful commaCfg_inRange commaCfg_printable rfl
    commaCfg

/-- After the first call of a dump nothing can be loaded. -/
theorem moved_loads_neither :
    runFrom (dumpStep plainLibrary) (dumpStart ⟨some oldText, none⟩ commaCfg) [.backup true]
      = some movedState
    ∧ ¬ (veCfgLoad plainLibrary movedState.disk commaCfg
          = veCfgReadNew plainLibrary oldText commaCfg
        ∨ veCfgLoad plainLibrary movedState.disk commaCfg
          = veCfgReadNew plainLibrary (dumped plainLibrary commaCfg) commaCfg) := by
  have hread : ∀ c : VeCfg, c.InRange → c.Printable →
      (veCfgReadNew plainLibrary (dumped plainLibrary c) commaCfg).1 = 0 := by
    intro c hr hp
    obtain ⟨prov, city, content, id, -, -, -, -, hraw⟩ := dumped_spelled plainLibrary_lawful hr hp
    rw [veCfgReadNew, parse_plainLibrary hraw]
  have hold := hread oldCfg (commaCfg_inRange.withTexts _ _ _ _) oldCfg_printable
  have hnew := hread commaCfg commaCfg_inRange commaCfg_printable
  refine ⟨rfl, ?_⟩
  rintro (h | h)
  · rw [← oldText, ← h] at hold
    exact absurd hold (by decide)
  · rw [← h] at hnew
    exact absurd hnew (by decide)

end VdCamera.Config
