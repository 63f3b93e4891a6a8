import VdCamera.Ftp.Replies

/-!
# What the steps of an upload decide on

A step that receives exactly one reply decides on it, and leaves nothing but what the server still owes.
-/

namespace VdCamera.Ftp

open Misc (ascii crlf overwrite overwrite_of_lt overwrite_of_le runFrom Along After)

variable {iconv : Iconv} {dir : List (List UInt8)} {filename : List UInt8} {s s' : Upload} {i : Input}
  {is : List Input} {len : Nat} {command reply answer rest : List UInt8}
  {r : Option (List UInt8) × Upload} {codes : List (List UInt8)} {p : Phase}

/-! ## The buffer -/

/-- The contents of a buffer of `len` bytes that holds a text and zeros. -/
def padded (len : Nat) (text : List UInt8) : List UInt8 :=
  text ++ List.replicate (len - text.length) 0

/-- A place that is not in the `len` bytes at `buf`. -/
def Outside (buf len q : Nat) : Prop := q < buf ∨ buf + len ≤ q

theorem overwrite_outside {mem : Nat → UInt8} {buf q : Nat} {bytes : List UInt8}
    (hq : Outside buf len q) (hlen : bytes.length ≤ len) : overwrite mem buf bytes q = mem q := by
  rcases hq with hq | hq
  · exact overwrite_of_lt hq
  · exact overwrite_of_le (by omega)

/-- `ftp_recv_cmd_response` writes into its buffer only. -/
theorem ftpRecvCmdResponse_outside (iconv : Iconv) {buf q : Nat} (hq : Outside buf len q)
    (response : Option (List UInt8)) (mem : Nat → UInt8) :
    (ftpRecvCmdResponse iconv buf len response mem).2 q = mem q := by
  cases response with
  | none => rfl
  | some response =>
    have hout := iconv.room len response
    have hzeros : (List.replicate len (0 : UInt8)).length ≤ len := (List.length_replicate ..).le
    show overwrite (overwrite mem buf (List.replicate len 0)) buf (iconv.out len response) q = mem q
    rw [overwrite_outside hq hout, overwrite_outside hq hzeros]

theorem length_window (mem : Nat → UInt8) (buf len : Nat) : (window mem buf len).length = len := by
  rw [window, List.length_map, List.length_range]

/-- What the buffer holds after bytes were received. -/
theorem window_ftpRecvCmdResponse (iconv : Iconv) (buf len : Nat) (response : List UInt8)
    (mem : Nat → UInt8) :
    window (ftpRecvCmdResponse iconv buf len (some response) mem).2 buf len
      = padded len (iconv.out len response) := by
  have hout := iconv.room len response
  apply List.ext_getElem
  · rw [length_window, padded, List.length_append, List.length_replicate]
    omega
  intro k hk hk'
  rw [length_window] at hk
  simp only [window, List.getElem_map, List.getElem_range, ftpRecvCmdResponse, overwrite, padded,
    Nat.le_add_right, if_true, Nat.add_sub_cancel_left]
  by_cases hlt : k < (iconv.out len response).length
  · rw [List.getElem?_eq_getElem hlt, List.getElem_append_left hlt]
    rfl
  · rw [List.getElem?_eq_none (Nat.not_lt.mp hlt), List.getElem_append_right (Nat.not_lt.mp hlt),
      List.getElem_replicate, List.getElem?_replicate, if_pos hk]
    rfl

/-! ## Receiving -/

/-- The text is the complete reply. -/
def Decision.Paired (iconv : Iconv) (d : Decision) : Prop :=
  d.text = padded d.len (iconv.whole d.reply)

instance (iconv : Iconv) (d : Decision) : Decidable (d.Paired iconv) :=
  inferInstanceAs (Decidable (_ = _))

/-- So far every step has decided on the reply to its command. -/
def Upload.Paired (iconv : Iconv) (s : Upload) : Prop := ∀ d ∈ s.decisions, d.Paired iconv

/-- `recv` fails, or returns one reply that has room in the buffer. -/
def OneReply (len : Nat) (reply : List UInt8) (i : Input) : Prop :=
  i.got = none ∨ i.got = some reply.length ∧ reply.length ≤ len

namespace Upload

/-- What `receive` does. -/
theorem receive_eq (h : s.receive iconv len command reply i = some r) :
    (i.got = none ∧ r = (none, { s with status := .fail })) ∨
    ∃ n text mem, i.got = some n ∧ text = padded len (iconv.out len (s.inbox.take n)) ∧
      mem = (ftpRecvCmdResponse iconv i.buf len (some (s.inbox.take n)) s.mem).2 ∧
      r = (some text, { s with
        inbox := s.inbox.drop n
        decisions := s.decisions ++ [{ command, len, text, reply }]
        mem }) := by
  unfold receive at h
  cases hgot : i.got with
  | none =>
    rw [hgot] at h
    exact .inl ⟨rfl, (Option.some.inj h).symm⟩
  | some n =>
    rw [hgot] at h
    dsimp only at h
    split at h
    · refine .inr ⟨n, _, _, rfl, rfl, rfl, ?_⟩
      rw [← window_ftpRecvCmdResponse iconv i.buf len (s.inbox.take n) s.mem]
      exact (Option.some.inj h).symm
    · cases h

theorem receive_outside (h : s.receive iconv len command reply i = some r) {q : Nat}
    (hq : Outside i.buf len q) : r.2.mem q = s.mem q := by
  obtain ⟨-, rfl⟩ | ⟨n, text, mem, -, -, rfl, rfl⟩ := receive_eq h
  · rfl
  · exact ftpRecvCmdResponse_outside iconv hq (some (s.inbox.take n)) s.mem

theorem receive_owed (h : s.receive iconv len command reply i = some r) :
    r.2.final = s.final ∧ r.2.early = s.early := by
  obtain ⟨-, rfl⟩ | ⟨n, text, mem, -, -, -, rfl⟩ := receive_eq h
  · exact ⟨rfl, rfl⟩
  · exact ⟨rfl, rfl⟩

/-- Receiving the reply at the front of the stream. -/
theorem receive_paired (h : s.receive iconv len command reply i = some r) (hs : s.Paired iconv)
    (hone : OneReply len reply i) (hin : i.got ≠ none → s.inbox = reply ++ rest) :
    r.2.Paired iconv ∧ (r.1.isSome → r.2.inbox = rest) := by
  obtain ⟨-, rfl⟩ | ⟨n, text, mem, hgot, rfl, rfl, rfl⟩ := receive_eq h
  · exact ⟨hs, by simp⟩
  rcases hone with hnone | ⟨hn, hlen⟩
  · rw [hgot] at hnone
    cases hnone
  have hn : n = reply.length := by
    rw [hgot] at hn
    exact Option.some.inj hn
  have hin : s.inbox = reply ++ rest := hin (by simp [hgot])
  subst hn
  refine ⟨?_, fun _ => ?_⟩
  · intro d hd
    rcases List.mem_append.mp hd with hd | hd
    · exact hs d hd
    · rw [List.mem_singleton.mp hd, Decision.Paired, Iconv.whole, hin, List.take_left,
        iconv.fits len reply hlen]
  · show s.inbox.drop reply.length = rest
    rw [hin, List.drop_left]

/-- What a step does to the phase, the status and `full` alone. -/
structure SameStream (s s' : Upload) : Prop where
  inbox : s'.inbox = s.inbox
  final : s'.final = s.final
  early : s'.early = s.early
  decisions : s'.decisions = s.decisions
  mem : s'.mem = s.mem

theorem SameStream.paired (h : SameStream s s') (hs : s.Paired iconv) : s'.Paired iconv := by
  rw [Upload.Paired, h.decisions]
  exact hs

theorem sameStream_goto (s : Upload) (p : Phase) : SameStream s (s.goto p) := ⟨rfl, rfl, rfl, rfl, rfl⟩

theorem sameStream_decideOn (codes : List (List UInt8)) (p : Phase)
    (r : Option (List UInt8) × Upload) : SameStream r.2 (decideOn codes p r) := by
  unfold decideOn
  split
  · exact sameStream_goto ..
  · exact sameStream_goto ..

theorem sameStream_conclude (r : Option (List UInt8) × Upload) : SameStream r.2 (conclude r) := by
  unfold conclude
  split
  · exact sameStream_goto ..
  · split
    · exact sameStream_goto ..
    · split
      · exact ⟨rfl, rfl, rfl, rfl, rfl⟩
      · exact ⟨rfl, rfl, rfl, rfl, rfl⟩

/-! ## Commands -/

/-- The exchange of a command and its reply: nothing is left from before, the command is sent and the
reply received as a whole; or nothing is received. -/
def Exchange (len : Nat) (s : Upload) (i : Input) : Prop :=
  i.got = none ∨ s.inbox.length ≤ i.dropped ∧ i.sent = .whole ∧ i.got = some i.reply.length
    ∧ i.reply.length ≤ len

instance (len : Nat) (s : Upload) (i : Input) : Decidable (Exchange len s i) :=
  inferInstanceAs (Decidable (_ ∨ _))

theorem Exchange.oneReply (h : Exchange len s i) : OneReply len i.reply i := by
  rcases h with h | ⟨-, -, hgot, hlen⟩
  · exact .inl h
  · exact .inr ⟨hgot, hlen⟩

/-- The answer is all there is to receive. -/
theorem Exchange.inbox (h : Exchange len s i) (hgot : i.got ≠ none) :
    (s.ftpSendCmd i answer).inbox = answer := by
  rcases h with h | ⟨hdropped, hsent, -, -⟩
  · exact absurd h hgot
  · rw [ftpSendCmd, if_pos hsent]
    show s.inbox.drop i.dropped ++ answer = answer
    rw [List.drop_of_length_le hdropped, List.nil_append]

theorem ftpSendCmd_same (s : Upload) (i : Input) (answer : List UInt8) :
    (s.ftpSendCmd i answer).decisions = s.decisions ∧ (s.ftpSendCmd i answer).mem = s.mem
      ∧ (s.ftpSendCmd i answer).final = s.final ∧ (s.ftpSendCmd i answer).early = s.early := by
  unfold ftpSendCmd
  split
  · exact ⟨rfl, rfl, rfl, rfl⟩
  · exact ⟨rfl, rfl, rfl, rfl⟩

theorem ftpSendCmd_paired (hs : s.Paired iconv) : (s.ftpSendCmd i answer).Paired iconv := by
  rw [Upload.Paired, (ftpSendCmd_same s i answer).1]
  exact hs

/-- A request that is not sent as a whole receives nothing. -/
theorem request_eq (h : s.request iconv len command reply i answer = some r) :
    r = (none, s.ftpSendCmd i answer) ∨
      (s.ftpSendCmd i answer).receive iconv len command reply i = some r := by
  unfold request at h
  dsimp only at h
  split at h
  · exact .inr h
  · exact .inl (Option.some.inj h).symm

theorem request_outside (h : s.request iconv len command reply i answer = some r) {q : Nat}
    (hq : Outside i.buf len q) : r.2.mem q = s.mem q := by
  have hsame := (ftpSendCmd_same s i answer).2.1
  rcases request_eq h with rfl | hr
  · rw [hsame]
  · rw [receive_outside hr hq, hsame]

theorem request_owed (h : s.request iconv len command reply i answer = some r) :
    r.2.final = s.final ∧ r.2.early = s.early := by
  have hsame := (ftpSendCmd_same s i answer).2.2
  rcases request_eq h with rfl | hr
  · exact hsame
  · exact ⟨(receive_owed hr).1.trans hsame.1, (receive_owed hr).2.trans hsame.2⟩

/-- After an exchange what follows the reply is left. -/
theorem request_paired (h : s.request iconv len command i.reply i answer = some r)
    (hs : s.Paired iconv) (hx : Exchange len s i) (hanswer : answer = i.reply ++ rest) :
    r.2.Paired iconv ∧ (r.1.isSome → r.2.inbox = rest) := by
  rcases request_eq h with rfl | hr
  · exact ⟨ftpSendCmd_paired hs, by simp⟩
  · refine receive_paired hr (ftpSendCmd_paired hs) hx.oneReply fun hgot => ?_
    rw [hx.inbox hgot, hanswer]

end Upload

/-! ## Steps -/

open Upload

/-- No step writes outside the buffer that its phase has for the reply. -/
theorem step_outside (h : step iconv dir filename s i = some s') {q : Nat}
    (hq : Outside i.buf s.phase.bufLen q) : s'.mem q = s.mem q := by
  unfold step at h
  cases hp : s.phase with
  | start =>
    rw [hp] at h
    cases h
    split
    · rfl
    · rfl
  | cdRoot =>
    rw [hp] at h
    obtain ⟨r, hr, rfl⟩ := Option.map_eq_some_iff.mp h
    exact request_outside hr (hp ▸ hq)
  | mkd k =>
    rw [hp] at h
    dsimp only at h
    split at h
    · obtain ⟨r, hr, rfl⟩ := Option.map_eq_some_iff.mp h
      exact request_outside hr (hp ▸ hq)
    · cases h
      rfl
  | pasv =>
    rw [hp] at h
    have hsame := (ftpSendCmd_same s i i.reply).2.1
    dsimp only at h
    split at h
    · cases h
      exact congrFun hsame q
    · obtain ⟨r, hr, rfl⟩ := Option.map_eq_some_iff.mp h
      rw [(sameStream_decideOn ..).mem, receive_outside hr (hp ▸ hq), hsame]
  | socket =>
    rw [hp] at h
    cases h
    rfl
  | cdDir =>
    rw [hp] at h
    obtain ⟨r, hr, rfl⟩ := Option.map_eq_some_iff.mp h
    rw [(sameStream_decideOn ..).mem, request_outside hr (hp ▸ hq)]
  | stor =>
    rw [hp] at h
    obtain ⟨r, hr, rfl⟩ := Option.map_eq_some_iff.mp h
    rw [(sameStream_decideOn ..).mem, request_outside hr (hp ▸ hq)]
  | data =>
    rw [hp] at h
    cases h
    rfl
  | response =>
    rw [hp] at h
    obtain ⟨r, hr, rfl⟩ := Option.map_eq_some_iff.mp h
    rw [(sameStream_conclude r).mem, receive_outside hr (hp ▸ hq)]
  | done ret =>
    rw [hp] at h
    cases h

/-- Each command finds nothing left from before, and what is received is one whole reply. -/
def Clean (s : Upload) (i : Input) : Prop :=
  match s.phase with
  | .response => i.got = none ∨ i.got = some s.final.length ∧ s.final.length ≤ s.phase.bufLen
  | .cdRoot | .mkd _ | .pasv | .cdDir | .stor => Exchange s.phase.bufLen s i
  | .start | .socket | .data | .done _ => True

instance (s : Upload) (i : Input) : Decidable (Clean s i) := by
  unfold Clean
  split <;> infer_instance

/-- Besides the decisions: what is left of the two replies to `STOR` while they are used. -/
structure Inv (iconv : Iconv) (s : Upload) : Prop where
  paired : s.Paired iconv
  owed : s.phase = .data → s.inbox = if s.early then s.final else []
  last : s.phase = .response → s.inbox = s.final

theorem Inv.of_phase (hs : s.Paired iconv) (hdata : s.phase ≠ .data) (hresponse : s.phase ≠ .response) :
    Inv iconv s := ⟨hs, fun h => absurd h hdata, fun h => absurd h hresponse⟩

theorem Inv.goto (hs : s.Paired iconv) (hdata : p ≠ .data) (hresponse : p ≠ .response) :
    Inv iconv (s.goto p) := Inv.of_phase hs hdata hresponse

/-- A step goes on only with a text that it has read. -/
theorem decideOn_phase (codes : List (List UInt8)) (p : Phase) (r : Option (List UInt8) × Upload) :
    (decideOn codes p r).phase = .done FAILURE ∨
      (decideOn codes p r).phase = p ∧ r.1.isSome := by
  unfold decideOn
  split
  · next text ht =>
    by_cases hcode : codes.any (·.isPrefixOf text)
    · rw [if_pos hcode, ht]
      exact .inr ⟨rfl, rfl⟩
    · rw [if_neg hcode]
      exact .inl rfl
  · exact .inl rfl

theorem Inv.decideOn (hr : r.2.Paired iconv) (hdata : p ≠ .data) (hresponse : p ≠ .response) :
    Inv iconv (decideOn codes p r) := by
  apply Inv.of_phase ((sameStream_decideOn codes p r).paired hr)
  · rcases decideOn_phase codes p r with h | ⟨h, -⟩
    · simp [h]
    · rwa [h]
  · rcases decideOn_phase codes p r with h | ⟨h, -⟩
    · simp [h]
    · rwa [h]

theorem conclude_phase (r : Option (List UInt8) × Upload) : ∃ ret, (conclude r).phase = .done ret := by
  unfold conclude
  split
  · exact ⟨_, rfl⟩
  · split
    · exact ⟨_, rfl⟩
    · split
      · exact ⟨_, rfl⟩
      · exact ⟨_, rfl⟩

/-- A clean step keeps the invariant. -/
theorem step_inv (hs : Inv iconv s) (hc : Clean s i) (h : step iconv dir filename s i = some s') :
    Inv iconv s' := by
  unfold step at h
  unfold Clean at hc
  cases hp : s.phase with
  | start =>
    rw [hp] at h
    cases h
    split
    · exact Inv.goto hs.paired (by simp) (by simp)
    · exact Inv.goto hs.paired (by simp) (by simp)
  | cdRoot =>
    rw [hp] at h hc
    obtain ⟨r, hr, rfl⟩ := Option.map_eq_some_iff.mp h
    have hpaired := (request_paired hr hs.paired hc (List.append_nil _).symm).1
    exact Inv.goto hpaired (by simp) (by simp)
  | mkd k =>
    rw [hp] at h hc
    dsimp only at h
    split at h
    · obtain ⟨r, hr, rfl⟩ := Option.map_eq_some_iff.mp h
      have hpaired := (request_paired hr hs.paired hc (List.append_nil _).symm).1
      apply Inv.goto hpaired
      · split <;> simp
      · split <;> simp
    · cases h
      exact Inv.goto hs.paired (by simp) (by simp)
  | pasv =>
    rw [hp] at h hc
    have hsent : (s.ftpSendCmd i i.reply).Paired iconv := ftpSendCmd_paired hs.paired
    dsimp only at h
    split at h
    · cases h
      exact Inv.goto hsent (by simp) (by simp)
    · obtain ⟨r, hr, rfl⟩ := Option.map_eq_some_iff.mp h
      have hin : i.got ≠ none → (s.ftpSendCmd i i.reply).inbox = i.reply ++ [] := fun hgot => by
        rw [Exchange.inbox hc hgot, List.append_nil]
      have hpaired := (receive_paired hr hsent (Exchange.oneReply hc) hin).1
      exact Inv.decideOn hpaired (by simp) (by simp)
  | socket =>
    rw [hp] at h
    cases h
    apply Inv.goto hs.paired
    · split <;> simp
    · split <;> simp
  | cdDir =>
    rw [hp] at h hc
    obtain ⟨r, hr, rfl⟩ := Option.map_eq_some_iff.mp h
    have hpaired := (request_paired hr hs.paired hc (List.append_nil _).symm).1
    exact Inv.decideOn hpaired (by simp) (by simp)
  | stor =>
    rw [hp] at h hc
    obtain ⟨r, hr, rfl⟩ := Option.map_eq_some_iff.mp h
    -- behind the first reply there is the second one, if it came early
    have hanswer : (if i.early then i.reply ++ i.final else i.reply)
        = i.reply ++ if i.early then i.final else [] := by
      split
      · rfl
      · rw [List.append_nil]
    obtain ⟨hpaired, hrest⟩ := request_paired hr hs.paired hc hanswer
    obtain ⟨hfinal, hearly⟩ := request_owed hr
    have hsame := sameStream_decideOn [ascii "125", ascii "150", ascii "110"] .data r
    refine ⟨hsame.paired hpaired, fun hdata => ?_, fun hresponse => ?_⟩
    · rcases decideOn_phase [ascii "125", ascii "150", ascii "110"] .data r with hd | ⟨-, hsome⟩
      · rw [hd] at hdata
        cases hdata
      · rw [hsame.inbox, hsame.final, hsame.early, hrest hsome, hfinal, hearly]
    · rcases decideOn_phase [ascii "125", ascii "150", ascii "110"] .data r with hd | ⟨hd, -⟩
      · rw [hd] at hresponse
        cases hresponse
      · rw [hd] at hresponse
        cases hresponse
  | data =>
    rw [hp] at h
    cases h
    refine ⟨hs.paired, fun hdata => ?_, fun _ => ?_⟩
    · simp only [goto] at hdata
      split at hdata <;> cases hdata
    · have howed := hs.owed hp
      show (if s.early then s.inbox else s.inbox ++ s.final) = s.final
      rw [howed]
      split
      · rfl
      · exact List.nil_append _
  | response =>
    rw [hp] at h hc
    obtain ⟨r, hr, rfl⟩ := Option.map_eq_some_iff.mp h
    have hin : i.got ≠ none → s.inbox = s.final ++ [] := fun _ => by
      rw [hs.last hp, List.append_nil]
    have hpaired := (receive_paired hr hs.paired hc hin).1
    obtain ⟨ret, hret⟩ := conclude_phase r
    exact Inv.of_phase ((sameStream_conclude r).paired hpaired) (by simp [hret]) (by simp [hret])
  | done ret =>
    rw [hp] at h
    cases h

/-! ## Runs -/

/-- The step leaves every text that was decided on a complete reply to its own command, and the memory
outside the buffer as it was. -/
def Proper (iconv : Iconv) (dir : List (List UInt8)) (filename : List UInt8) (s : Upload)
    (i : Input) : Prop :=
  ∀ s', step iconv dir filename s i = some s' →
    s'.Paired iconv ∧ ∀ q, Outside i.buf s.phase.bufLen q → s'.mem q = s.mem q

/-- Along an upload in which every command finds the stream empty and receives one whole reply, every
step decides on the reply to its own command. -/
theorem replies_paired (iconv : Iconv) (dir : List (List UInt8)) (filename : List UInt8)
    {s : Upload} {is : List Input} (hs : s.phase = .start) (hd : s.decisions = [])
    (h : Along (step iconv dir filename) Clean s is) :
    Along (step iconv dir filename) (Proper iconv dir filename) s is := by
  have hstart : Inv iconv s := by
    apply Inv.of_phase
    · intro d hmem
      rw [hd] at hmem
      cases hmem
    · simp [hs]
    · simp [hs]
  apply Along.of_invariant hstart h
  · intro s i s' hJ hc hstep
    exact step_inv hJ hc hstep
  · intro s i hJ hc s' hstep
    exact ⟨(step_inv hJ hc hstep).paired, fun q hq => step_outside hstep hq⟩

/-- For texts that are the same in both encodings. -/
def asciiIconv : Iconv where
  out n s := s.take n
  room n s := List.length_take_le n s
  fits n s h := by rw [List.take_of_length_le h, List.take_length]

/-- An upload with one level that receives every reply as a whole, the last one sent early. -/
theorem replies_paired_upload :
    Along (step asciiIconv [ascii "a"] (ascii "f")) (Proper asciiIconv [ascii "a"] (ascii "f"))
      { inbox := ascii "221 Bye\r\n" }
      [{ dropped := 3 },
        { dropped := 6, reply := ascii "250 /\r\n", got := some 7 },
        { reply := ascii "257 a\r\n", got := some 7 },
        {},
        { reply := ascii "227 (1,2,3,4,5,6)\r\n", got := some 19 },
        {},
        { reply := ascii "250 /a\r\n", got := some 8 },
        { reply := ascii "150 Go\r\n", final := ascii "226 Ok\r\n", early := true,
          got := some 8 },
        {},
        { got := some 8 }] :=
  replies_paired asciiIconv [ascii "a"] (ascii "f") rfl rfl (by decide +kernel)

/-- The reply to `PASV` comes in two pieces. -/
theorem not_replies_paired :
    ¬ ∀ (iconv : Iconv) (dir : List (List UInt8)) (filename : List UInt8) (s : Upload)
        (is : List Input), s.phase = .start → s.decisions = [] →
        Along (step iconv dir filename) (Proper iconv dir filename) s is := by
  intro h
  have hrun := h asciiIconv [] (ascii "f") {} [{},
    { reply := ascii "250 /\r\n", got := some 7 },
    {},
    { reply := ascii "227 (1,2,3,4,5,6)\r\n", got := some 2 }] rfl rfl
  have hpaired := hrun.mono (Q := After _ (Upload.Paired asciiIconv)) fun s i hp s' hs => (hp s' hs).1
  revert hpaired
  unfold Upload.Paired
  decide +kernel

end VdCamera.Ftp
