import VdCamera.Park.BitcomRecords

/-!
# What the bitcom platform gets of the notices

A notice that is written when nobody has still to read the slot is read by both sending threads
before the next one is written.
-/

namespace VdCamera.Park

open Misc

variable {α : Type*} {gives : Notice → α → Prop} {fresh fresh' : Notice → List α → Prop}
  {u u' : Uploader α} {flag flag' enable : Bool} {notices extra : List Notice} {n : Notice}
  {attempted stored : α}

/-! ## A sending thread -/

/-- Where a thread is with the notice whose flag is raised; `fresh` is what it needs of the slot when
it has handed on so much. -/
inductive Uploader.Under (gives : Notice → α → Prop) (fresh : Notice → List α → Prop) :
    Uploader α → Bool → Option Notice → Prop
  | rest {handed : List (List α)} : Under gives fresh ⟨.idle, [], handed⟩ false none
  | raised {handed : List (List α)} {n : Notice} (hfresh : fresh n []) :
      Under gives fresh ⟨.idle, [], handed⟩ true (some n)
  | attempt {handed : List (List α)} {n : Notice} {failed : Nat} {current : List α}
      (hlen : current.length = failed) (hgives : ∀ x ∈ current, gives n x)
      (hfresh : fresh n current) :
      Under gives fresh ⟨.attempt failed, current, handed⟩ true (some n)
  | finished {handed : List (List α)} {n : Notice} {current : List α}
      (hfor : HandedFor gives n current) :
      Under gives fresh ⟨.finished, current, handed⟩ true (some n)

/-- The thread has handed on the notices before the one whose flag is raised. -/
def Uploader.Serves (gives : Notice → α → Prop) (fresh : Notice → List α → Prop) (flag : Bool)
    (notices : List Notice) (u : Uploader α) : Prop :=
  ∃ done cur, notices = done ++ cur.toList ∧ List.Forall₂ (HandedFor gives) done u.handed
    ∧ u.Under gives fresh flag cur

theorem handedFor_append {xs : List α} {x : α} (hxs : ∀ y ∈ xs, gives n y) (hx : gives n x) :
    HandedFor gives n (xs ++ [x]) := by
  refine ⟨by simp, ?_⟩
  intro y hy
  rcases List.mem_append.mp hy with hy | hy
  · exact hxs y hy
  · rwa [List.mem_singleton.mp hy]

/-- One step of a thread. -/
theorem Uploader.Serves.step {op : UploadOp} (h : u.Serves gives fresh flag notices)
    (hattempted : ∀ n xs, fresh n xs → gives n attempted)
    (hstored : ∀ n xs, fresh n xs → xs ≠ [] → gives n stored)
    (hkept : ∀ n xs, op = .start → fresh n xs → fresh' n xs)
    (hnext : ∀ n xs ok, op = .attempt ok → fresh n xs → fresh' n (xs ++ [attempted]))
    (hstep : u.step enable attempted stored flag op = some (u', flag')) :
    u'.Serves gives fresh' flag' notices := by
  obtain ⟨done, cur, hnotices, hdone, hunder⟩ := h
  cases op with
  | start =>
    rw [Uploader.step] at hstep
    split at hstep
    · rename_i hplace
      cases hstep
      cases hunder with
      | rest => exact absurd hplace.2 (by decide)
      | raised hfresh =>
        exact ⟨done, _, hnotices, hdone, .attempt rfl nofun (hkept _ _ rfl hfresh)⟩
      | attempt hlen hgives hfresh => exact absurd hplace.1 (by simp)
      | finished hfor => exact absurd hplace.1 (by simp)
    · cases hstep
  | attempt ok =>
    cases hunder with
    | rest => cases hstep
    | raised hfresh => cases hstep
    | finished hfor => cases hstep
    | attempt hlen hgives hfresh =>
      simp only [Uploader.step] at hstep
      split at hstep
      · cases hstep
        have hfor := handedFor_append hgives (hattempted _ _ hfresh)
        refine ⟨done, _, hnotices, hdone, ?_⟩
        cases ok with
        | true => exact .finished hfor
        | false =>
          exact .attempt (by simp [hlen]) hfor.2 (hnext _ _ _ rfl hfresh)
      · cases hstep
  | store =>
    rw [Uploader.step] at hstep
    split at hstep
    · rename_i hplace
      cases hstep
      cases hunder with
      | rest => cases hplace
      | raised hfresh => cases hplace
      | finished hfor => cases hplace
      | attempt hlen hgives hfresh =>
        -- three attempts have been made, so something was handed on
        cases hplace
        rename_i current
        have hne : current ≠ [] := by
          intro hnil
          rw [hnil] at hlen
          cases hlen
        refine ⟨done, _, hnotices, hdone, .finished ?_⟩
        split
        · exact handedFor_append hgives (hstored _ _ hfresh hne)
        · exact ⟨hne, hgives⟩
    · cases hstep
  | clear =>
    rw [Uploader.step] at hstep
    split at hstep
    · rename_i hplace
      cases hstep
      cases hunder with
      | rest => cases hplace
      | raised hfresh => cases hplace
      | attempt hlen hgives hfresh => cases hplace
      | finished hfor =>
        refine ⟨done ++ [_], none, ?_, List.rel_append hdone (.cons hfor .nil), .rest⟩
        rw [hnotices, Option.toList_none, List.append_nil]
        rfl
    · cases hstep

/-- A thread that has not to read the slot does not mind what is in it. -/
theorem Uploader.Serves.of_not_reads (h : u.Serves gives fresh flag notices)
    (hreads : ¬ u.Reads flag) : u.Serves gives fresh' flag notices := by
  obtain ⟨done, cur, hnotices, hdone, hunder⟩ := h
  refine ⟨done, cur, hnotices, hdone, ?_⟩
  cases hunder with
  | rest => exact .rest
  | raised hfresh => exact absurd ⟨rfl, by simp⟩ hreads
  | attempt hlen hgives hfresh => exact absurd ⟨rfl, by simp⟩ hreads
  | finished hfor => exact .finished hfor

theorem Uploader.Serves.mono (h : u.Serves gives fresh flag notices)
    (hfresh : ∀ n xs, fresh n xs → fresh' n xs) : u.Serves gives fresh' flag notices := by
  obtain ⟨done, cur, hnotices, hdone, hunder⟩ := h
  refine ⟨done, cur, hnotices, hdone, ?_⟩
  cases hunder with
  | rest => exact .rest
  | raised h => exact .raised (hfresh _ _ h)
  | attempt hlen hgives h => exact .attempt hlen hgives (hfresh _ _ h)
  | finished hfor => exact .finished hfor

/-- Without its flag a thread stands still; with nothing to read it can only clear the flag. -/
theorem Uploader.Serves.flag_of_step {op : UploadOp} (h : u.Serves gives fresh flag notices)
    (hreads : ¬ u.Reads flag) (hstep : u.step enable attempted stored flag op = some (u', flag')) :
    flag = true ∧ flag' = false := by
  obtain ⟨done, cur, -, -, hunder⟩ := h
  cases hunder with
  | rest => cases op <;> simp [Uploader.step] at hstep
  | raised hfresh => exact absurd ⟨rfl, by simp⟩ hreads
  | attempt hlen hgives hfresh => exact absurd ⟨rfl, by simp⟩ hreads
  | finished hfor =>
    cases op with
    | start => simp [Uploader.step] at hstep
    | attempt ok => simp [Uploader.step] at hstep
    | store => simp [Uploader.step] at hstep
    | clear =>
      simp only [Uploader.step, if_true, Option.some.injEq, Prod.mk.injEq] at hstep
      exact ⟨rfl, hstep.2.symm⟩

/-- The flag of a thread at rest is raised for a notice. -/
theorem Uploader.Serves.raise (h : u.Serves gives fresh false notices) (hfresh : fresh' n []) :
    u.Serves gives fresh' true (notices ++ [n]) := by
  obtain ⟨done, cur, hnotices, hdone, hunder⟩ := h
  cases hunder
  refine ⟨done, some n, ?_, hdone, .raised hfresh⟩
  rw [hnotices, Option.toList_none, List.append_nil]
  rfl

theorem Uploader.Serves.conveys {rest : Prop} (h : u.Serves gives fresh flag notices)
    (hrest : rest → flag = false ∧ extra = []) : u.Conveys gives (notices ++ extra) rest := by
  obtain ⟨done, cur, hnotices, hdone, hunder⟩ := h
  have hlen := hdone.length_eq
  -- what has been handed on is for the notices that are done, with the present one if it has some
  have hgeneral : ∀ (cs : List Notice) (es : List (List α)), u.entries = u.handed ++ es →
      cs <+: cur.toList → List.Forall₂ (HandedFor gives) cs es →
      (rest → cs = cur.toList) → u.Conveys gives (notices ++ extra) rest := by
    intro cs es hes hcs hall hend
    obtain ⟨more, hmore⟩ := hcs
    have htotal : u.entries.length = (done ++ cs).length := by
      rw [hes, List.length_append, List.length_append, hlen, hall.length_eq]
    refine ⟨?_, ?_⟩
    · rw [htotal, hnotices, ← hmore, ← List.append_assoc, List.append_assoc (done ++ cs),
        List.take_left, hes]
      exact List.rel_append hdone hall
    · intro hr
      rw [htotal, hnotices, hend hr, (hrest hr).2, List.append_nil]
  cases hunder with
  | rest => exact hgeneral [] [] rfl (List.nil_prefix) .nil fun _ => rfl
  | raised hfresh =>
    apply hgeneral [] [] rfl List.nil_prefix .nil
    intro hr
    exact absurd (hrest hr).1 (by decide)
  | attempt hcount hgives hfresh =>
    rename_i n failed current
    cases current with
    | nil =>
      apply hgeneral [] [] rfl List.nil_prefix .nil
      intro hr
      exact absurd (hrest hr).1 (by decide)
    | cons x xs =>
      exact hgeneral [n] [x :: xs] rfl (List.prefix_refl _) (.cons ⟨by simp, hgives⟩ .nil) fun _ => rfl
  | finished hfor =>
    rename_i n current
    refine hgeneral [n] [current] ?_ (List.prefix_refl _) (.cons hfor .nil) fun _ => rfl
    simp [Uploader.entries, hfor.1]

/-! ## The slot -/

/-- The slot holds the notice, written to its end. -/
structure TpbitcomRecords.Holds (records : TpbitcomRecords) (n : Notice) : Prop where
  field : records.field = n.parkRecord.dbParkRecord
  picFlag : records.picFlag = n.pictured
  picture : n.pictured = true → ∀ i, records.picture i = (n.parkRecord.picInfo i).buf
  pictureInfo : n.pictured = true → records.pictureInfo = n.parkRecord.picInfo

/-- The two slots are the same but for the flags of the threads and the message. -/
structure TpbitcomRecords.Same (r r' : TpbitcomRecords) : Prop where
  field : r'.field = r.field
  picFlag : r'.picFlag = r.picFlag
  picture : r'.picture = r.picture
  pictureInfo : r'.pictureInfo = r.pictureInfo

variable {records r r' : TpbitcomRecords} {s s' : BitcomLine} {op : BitcomOp}

theorem TpbitcomRecords.Holds.of_same (hn : r.Holds n) (h : r.Same r') : r'.Holds n := by
  refine ⟨h.field.trans hn.field, h.picFlag.trans hn.picFlag, ?_, ?_⟩
  · rw [h.picture]
    exact hn.picture
  · rw [h.pictureInfo]
    exact hn.pictureInfo

theorem TpbitcomRecords.Same.write (h : r.Same r') (w : BitcomWrite) :
    (r.write w).Same (r'.write w) := by
  obtain ⟨h1, h2, h3, h4⟩ := h
  cases w with
  | field f => exact ⟨rfl, h2, h3, h4⟩
  | picture i p =>
    refine ⟨h1, h2, ?_, ?_⟩
    · show Function.update r'.picture i _ = Function.update r.picture i _
      rw [h3]
    · show Function.update r'.pictureInfo i _ = Function.update r.pictureInfo i _
      rw [h4]
  | picFlag b => exact ⟨h1, rfl, h3, h4⟩

theorem TpbitcomRecords.Same.foldl (h : r.Same r') (ws : List BitcomWrite) :
    (ws.foldl TpbitcomRecords.write r).Same (ws.foldl TpbitcomRecords.write r') := by
  induction ws generalizing r r' with
  | nil => exact h
  | cons w ws ih => exact ih (h.write w)

/-- The writes of a call of `notify` leave its notice in the slot. -/
theorem holds_writes (records : TpbitcomRecords) (n : Notice) :
    (n.writes.foldl TpbitcomRecords.write records).Holds n := by
  cases n with
  | info r => exact ⟨rfl, rfl, nofun, nofun⟩
  | record r =>
    have hall : ∀ {β : Type} (f : Fin PARK_PIC_NUM → β) (g : Fin PARK_PIC_NUM → β),
        Function.update (Function.update f 0 (g 0)) 1 (g 1) = g := by
      intro β f g
      funext i
      match i with
      | 0 => rfl
      | 1 => rfl
    refine ⟨rfl, rfl, fun _ i => ?_, fun _ => ?_⟩
    · show Function.update (Function.update records.picture 0 _) 1 _ i = _
      exact congrFun (hall records.picture fun i => (r.picInfo i).buf) i
    · exact hall records.pictureInfo r.picInfo

@[simp] theorem msgexistFlag_write (w : BitcomWrite) :
    (records.write w).msgexistFlag = records.msgexistFlag := by cases w <;> rfl

@[simp] theorem picexistFlag_write (w : BitcomWrite) :
    (records.write w).picexistFlag = records.picexistFlag := by cases w <;> rfl

/-- What the message thread needs of the slot: the fields, and after an attempt the text. -/
def TpbitcomRecords.FreshField (records : TpbitcomRecords) (n : Notice) (xs : List DbParkRecord) :
    Prop :=
  records.field = n.parkRecord.dbParkRecord
    ∧ (xs ≠ [] → records.message = n.parkRecord.dbParkRecord)

/-- What the picture thread needs of the slot. -/
def TpbitcomRecords.FreshPictures (records : TpbitcomRecords) (n : Notice)
    (_ : List BitcomPictures) : Prop :=
  records.Holds n ∧ n.pictured = true

theorem saves_of_holds (h : records.Holds n) (hn : n.pictured = true) :
    records.saves = n.bitcomPictures := by
  funext i
  simp only [TpbitcomRecords.saves, Notice.bitcomPictures, h.picture hn i, h.pictureInfo hn, h.field]

/-! ## Runs -/

/-- The notice whose message no flag says yet, and where it is; meanwhile nobody has to read the
slot. -/
def BitcomLine.Waits (s : BitcomLine) : Option Notice → Prop
  | none => s.notifying = none ∧ s.park = 0 ∧ s.received = false
  | some n => ¬ s.msg.Reads s.records.msgexistFlag ∧ ¬ s.pic.Reads s.records.picexistFlag
      ∧ ((s.notifying.getD []).foldl TpbitcomRecords.write s.records).Holds n
      ∧ s.notifying.isSome.toNat + s.park + s.received.toNat = 1
      ∧ (s.received = true → s.records.msgexistFlag = false ∧ s.records.picexistFlag = false)

def BitcomLine.Inv (s : BitcomLine) : Prop :=
  ∃ raised wait, s.notified = raised ++ wait.toList
    ∧ s.msg.Serves (fun n f => f = n.parkRecord.dbParkRecord) s.records.FreshField
        s.records.msgexistFlag raised
    ∧ s.pic.Serves Notice.GivesPictures s.records.FreshPictures s.records.picexistFlag
        (raised.filter (·.pictured))
    ∧ s.Waits wait

theorem BitcomLine.Inv.conveys (h : s.Inv) : s.Conveys := by
  obtain ⟨raised, wait, hnotified, hmsg, hpic, hwait⟩ := h
  have hnone : s.AtRest → wait = none := by
    rintro ⟨h1, h2, h3, -, -⟩
    cases wait with
    | none => rfl
    | some n =>
      have hsum := hwait.2.2.2.1
      simp [h1, h2, h3] at hsum
  unfold BitcomLine.Conveys
  rw [hnotified, List.filter_append]
  refine ⟨hmsg.conveys fun hrest => ⟨hrest.2.2.2.1, ?_⟩,
    hpic.conveys fun hrest => ⟨hrest.2.2.2.2, ?_⟩⟩
  · rw [hnone hrest]
    rfl
  · rw [hnone hrest]
    rfl

theorem BitcomLine.Inv.step (h : s.Inv) (hu : BitcomUndisturbed s op)
    (hstep : bitcomStep enable s op = some s') : s'.Inv := by
  obtain ⟨raised, wait, hnotified, hmsg, hpic, hwait⟩ := h
  cases op with
  | notify n =>
    rw [bitcomStep] at hstep
    split at hstep
    · cases hstep
    · rename_i hidle
      cases hstep
      obtain ⟨hpark, hreceived, hm, hp⟩ := hu
      have hnone : wait = none := by
        cases wait with
        | none => rfl
        | some n =>
          have hsum := hwait.2.2.2.1
          simp [hidle, hpark, hreceived] at hsum
      refine ⟨raised, some n, ?_, hmsg, hpic, hm, hp, holds_writes _ _, ?_, ?_⟩
      · rw [hnotified, hnone, Option.toList_none, List.append_nil]
        rfl
      · simp [hpark, hreceived]
      · intro hr
        rw [hreceived] at hr
        cases hr
  | write =>
    rw [bitcomStep] at hstep
    split at hstep
    · rename_i w ws hws
      cases hstep
      cases wait with
      | none => exact absurd hwait.1 (by simp [hws])
      | some n =>
        obtain ⟨hm, hp, hholds, hsum, hflags⟩ := hwait
        rw [hws] at hholds hsum
        refine ⟨raised, some n, hnotified, ?_, ?_, ?_, ?_, hholds, hsum, ?_⟩
        · rw [msgexistFlag_write]
          exact hmsg.of_not_reads hm
        · rw [picexistFlag_write]
          exact hpic.of_not_reads hp
        · rwa [msgexistFlag_write]
        · rwa [picexistFlag_write]
        · rwa [msgexistFlag_write, picexistFlag_write]
    · cases hstep
  | queue =>
    rw [bitcomStep] at hstep
    split at hstep
    · rename_i hws
      cases hstep
      cases wait with
      | none => exact absurd hwait.1 (by simp [hws])
      | some n =>
        obtain ⟨hm, hp, hholds, hsum, hflags⟩ := hwait
        rw [hws] at hholds hsum
        refine ⟨raised, some n, hnotified, hmsg, hpic, hm, hp, hholds, ?_, hflags⟩
        rw [Option.isSome_some, Bool.toNat_true] at hsum
        show 0 + (s.park + 1) + s.received.toNat = 1
        omega
    · cases hstep
  | receive =>
    rw [bitcomStep] at hstep
    split at hstep
    · rename_i hguard
      obtain ⟨hreceived, hmflag, hpflag, hpark⟩ := hguard
      cases hstep
      cases wait with
      | none => exact absurd hwait.2.1 (by omega)
      | some n =>
        obtain ⟨hm, hp, hholds, hsum, -⟩ := hwait
        refine ⟨raised, some n, hnotified, hmsg, hpic, hm, hp, hholds, ?_, fun _ => ⟨hmflag, hpflag⟩⟩
        rw [hreceived, Bool.toNat_false] at hsum
        show s.notifying.isSome.toNat + (s.park - 1) + 1 = 1
        omega
    · cases hstep
  | raise =>
    rw [bitcomStep] at hstep
    split at hstep
    · rename_i hreceived
      cases hstep
      cases wait with
      | none => exact absurd hwait.2.2 (by simp [hreceived])
      | some n =>
        obtain ⟨-, -, hholds, hsum, hflags⟩ := hwait
        obtain ⟨hmflag, hpflag⟩ := hflags hreceived
        rw [hreceived, Bool.toNat_true] at hsum
        have hidle : s.notifying = none := by
          cases hn : s.notifying with
          | none => rfl
          | some ws => simp [hn] at hsum
        rw [hidle] at hholds
        rw [hmflag] at hmsg
        rw [hpflag] at hpic
        refine ⟨raised ++ [n], none, ?_, ?_, ?_, hidle, ?_, rfl⟩
        · rw [hnotified, Option.toList_none, List.append_nil]
          rfl
        · exact hmsg.raise ⟨hholds.field, fun hne => absurd rfl hne⟩
        · have hpicFlag : s.records.picFlag = n.pictured := hholds.picFlag
          rw [List.filter_append]
          show s.pic.Serves _ _ s.records.picFlag _
          rw [hpicFlag]
          cases hn : n.pictured with
          | true =>
            rw [List.filter_singleton, hn]
            exact hpic.raise ⟨hholds.of_same ⟨rfl, rfl, rfl, rfl⟩, hn⟩
          | false =>
            rw [List.filter_singleton, hn]
            show s.pic.Serves _ _ false (_ ++ [])
            rw [List.append_nil]
            exact hpic.of_not_reads (fun hr => absurd hr.1 (by decide))
        · show s.park = 0
          omega
    · cases hstep
  | message op =>
    obtain ⟨⟨u, flag⟩, hu, rfl⟩ := Option.map_eq_some_iff.mp hstep
    refine ⟨raised, wait, hnotified, ?_, ?_, ?_⟩
    · apply hmsg.step ?_ ?_ ?_ ?_ hu
      · exact fun n xs hf => hf.1
      · exact fun n xs hf hne => hf.2 hne
      · rintro n xs rfl hf
        exact hf
      · rintro n xs ok rfl hf
        exact ⟨hf.1, fun _ => hf.1⟩
    · exact hpic.mono fun n xs hf => ⟨hf.1.of_same ⟨rfl, rfl, rfl, rfl⟩, hf.2⟩
    · cases wait with
      | none => exact hwait
      | some n =>
        obtain ⟨hm, hp, hholds, hsum, hflags⟩ := hwait
        obtain ⟨hbefore, hafter⟩ := hmsg.flag_of_step hm hu
        refine ⟨fun hr => ?_, hp, ?_, hsum, fun hr => ?_⟩
        · exact absurd hr.1 (by simp [hafter])
        · apply hholds.of_same
          apply TpbitcomRecords.Same.foldl
          exact ⟨rfl, rfl, rfl, rfl⟩
        · exact absurd (hflags hr).1 (by simp [hbefore])
  | picture op =>
    obtain ⟨⟨u, flag⟩, hu, rfl⟩ := Option.map_eq_some_iff.mp hstep
    refine ⟨raised, wait, hnotified, ?_, ?_, ?_⟩
    · exact hmsg
    · apply hpic.step ?_ ?_ ?_ ?_ hu
      · exact fun n xs hf => hf.1.pictureInfo hf.2
      · exact fun n xs hf _ => saves_of_holds hf.1 hf.2
      · rintro n xs - hf
        exact ⟨hf.1.of_same ⟨rfl, rfl, rfl, rfl⟩, hf.2⟩
      · rintro n xs ok - hf
        exact ⟨hf.1.of_same ⟨rfl, rfl, rfl, rfl⟩, hf.2⟩
    · cases wait with
      | none => exact hwait
      | some n =>
        obtain ⟨hm, hp, hholds, hsum, hflags⟩ := hwait
        obtain ⟨hbefore, hafter⟩ := hpic.flag_of_step hp hu
        refine ⟨hm, fun hr => ?_, ?_, hsum, fun hr => ?_⟩
        · exact absurd hr.1 (by simp [hafter])
        · apply hholds.of_same
          apply TpbitcomRecords.Same.foldl
          exact ⟨rfl, rfl, rfl, rfl⟩
        · exact absurd (hflags hr).2 (by simp [hbefore])

theorem bitcomLine_inv_init : ({} : BitcomLine).Inv :=
  ⟨[], none, rfl, ⟨[], none, rfl, .nil, .rest⟩, ⟨[], none, rfl, .nil, .rest⟩, rfl, rfl, rfl⟩

/-- In a run in which every notice finds that the slot has been read the platform gets the notices.
-/
theorem bitcom_conveys_along {ops : List BitcomOp}
    (hu : Along (bitcomStep enable) BitcomUndisturbed {} ops) :
    Along (bitcomStep enable) (After (bitcomStep enable) BitcomLine.Conveys) {} ops := by
  apply hu.of_invariant bitcomLine_inv_init
  · intro s op s' h hu hstep
    exact h.step hu hstep
  · intro s op h hu s' hstep
    exact (h.step hu hstep).conveys

end VdCamera.Park
