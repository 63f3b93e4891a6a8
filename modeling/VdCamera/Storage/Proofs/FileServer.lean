import VdCamera.Storage.FileServer

/-!
# When the commands arrive as they were sent

The bytes of a sequence of commands, received by a connection. Each command takes one `recv` for its
head and one for its body; a short one is not completed. So the commands are handed over as they
were sent if and only if no `recv` is short, but for the last body, whose missing bytes may be
zeros: the buffer holds zeros before the `recv`.
-/

namespace VdCamera.Storage

open Misc

/-- A command as a client sends it: what the server accepts, with as many bytes as the head says. -/
structure Command (mallocOk : Nat → Bool) where
  head : FileServCmdHead
  body : List UInt8
  flag_eq : head.flag = FS_CMD_HEAD_FLAG
  length_eq : head.bodyLength.toNat = body.length
  fits : body.length + 1 < 2 ^ 32
  accepted : body ≠ [] → mallocOk (body.length + 1) = true

variable {seg : Segmentation} {mallocOk : Nat → Bool} {c c' : Conn} {h : FileServCmdHead}
variable {cmd : Command mallocOk} {cmds : List (Command mallocOk)} {bs rest : List UInt8} {i : Nat}

/-- The bytes of a command. -/
def Command.bytes (cmd : Command mallocOk) : List UInt8 := cmd.head.bytes ++ cmd.body

/-- What is to be handed to `fs_server_process_cmd`. -/
def Command.pair (cmd : Command mallocOk) : FileServCmdHead × List UInt8 := (cmd.head, cmd.body)

/-- The bytes of a sequence of commands. -/
def streamOf (cmds : List (Command mallocOk)) : List UInt8 := cmds.flatMap Command.bytes

/-! ## Heads -/

@[simp] theorem length_headBytes (h : FileServCmdHead) : h.bytes.length = sizeofHead := by
  simp [FileServCmdHead.bytes, sizeofHead]

theorem ofBytes_bytes (h : FileServCmdHead) : FileServCmdHead.ofBytes h.bytes = h := by
  have h4 (n : UInt32) : leNat (leBytes 4 n.toNat) = n.toNat :=
    leNat_leBytes (Nat.lt_of_lt_of_eq n.toNat_lt (by decide))
  have h8 (n : UInt64) : leNat (leBytes 8 n.toNat) = n.toNat :=
    leNat_leBytes (Nat.lt_of_lt_of_eq n.toNat_lt (by decide))
  cases h
  simp [FileServCmdHead.ofBytes, FileServCmdHead.bytes, List.drop_append, List.take_of_length_le,
    List.drop_eq_nil_of_le, h4, h8]

/-- The second byte of the flag. -/
theorem flag_ne_of_second (hlen : bs.length = sizeofHead) (hsecond : bs[1]? ≠ some 0x6d) :
    (FileServCmdHead.ofBytes bs).flag ≠ FS_CMD_HEAD_FLAG := by
  match bs, hlen with
  | b₀ :: b₁ :: bs, _ =>
    intro hflag
    apply hsecond
    have hnat : UInt64.ofNat (leNat (b₀ :: b₁ :: bs.take 6)) = FS_CMD_HEAD_FLAG := hflag
    have hlow := congrArg (fun n : UInt64 => n.toNat / 256 % 256) hnat
    simp only [UInt64.toNat_ofNat'] at hlow
    have hmod : leNat (b₀ :: b₁ :: bs.take 6) % 2 ^ 64 / 256 % 256 = b₁.toNat := by
      rw [← leNat_mod b₁ (bs.take 6), ← leNat_div b₀ (b₁ :: bs.take 6)]
      omega
    rw [hmod] at hlow
    simp only [List.getElem?_cons_succ, List.getElem?_cons_zero, Option.some.injEq]
    exact UInt8.toNat_inj.mp (hlow.trans (by decide))

/-! ## One command -/

/-- A `recv` that finds enough. -/
theorem recv_full (hs : c.stream = bs ++ rest) (hn : bs.length ≤ seg.size c.recvs) :
    recv seg bs.length c = (bs, { c with stream := rest, recvs := c.recvs + 1 }) := by
  simp [recv, hs, Nat.min_eq_left hn]

theorem length_recv_le (seg : Segmentation) (n : Nat) (c : Conn) :
    (recv seg n c).1.length ≤ n ∧ (recv seg n c).1.length ≤ seg.size c.recvs := by
  simp only [recv, List.length_take]
  omega

theorem recv_getElem? {n j : Nat} (hj : j < (recv seg n c).1.length) :
    (recv seg n c).1[j]? = c.stream[j]? := by
  simp only [recv, List.length_take] at hj ⊢
  rw [List.getElem?_take_of_lt (by omega)]

/-- A head that is short or is none ends the connection. -/
theorem fsServerStep_eq_none (h : seg.size c.recvs < sizeofHead ∨ c.stream[1]? ≠ some 0x6d) :
    fsServerStep seg mallocOk c = none := by
  have hlen := length_recv_le seg sizeofHead c
  have hread : ∀ head c', fsServerReadCmdHead seg c ≠ (.received head, c') := by
    intro head c' hread
    unfold fsServerReadCmdHead at hread
    dsimp only at hread
    split_ifs at hread with h0 hshort hflag
    · cases hread
    · cases hread
    · cases hread
    · have hfull : (recv seg sizeofHead c).1.length = sizeofHead := by omega
      rcases h with h | h
      · omega
      · apply hflag
        apply flag_ne_of_second hfull
        rwa [recv_getElem? (by rw [hfull]; decide)]
  unfold fsServerStep fsServerProcessConnection
  rcases hr : fsServerReadCmdHead seg c with ⟨result, c'⟩
  cases result with
  | received head => exact absurd hr (hread head c')
  | shutdown => rfl
  | sizeWrong => rfl
  | flagWrong => rfl

/-- The bytes of the body that the second `recv` of a command leaves in the buffer. -/
def bodyReceived (k : Nat) (body : List UInt8) : List UInt8 :=
  body.take k ++ List.replicate (body.length - k) 0

theorem fsServerReadCmdBody_eq (seg : Segmentation) {body : List UInt8}
    (hs : c.stream = body ++ rest)
    (hbody : body ≠ []) :
    fsServerReadCmdBody seg body.length c = (0, bodyReceived (seg.size c.recvs) body,
      { c with
        stream := body.drop (seg.size c.recvs) ++ rest
        recvs := c.recvs + 1 }) := by
  have hone := seg.pos c.recvs
  have hlen := List.length_pos_iff.mpr hbody
  have htake : c.stream.take (min body.length (seg.size c.recvs)) = body.take (seg.size c.recvs) := by
    rw [hs, List.take_append_of_le_length (Nat.min_le_left _ _), List.take_eq_take_iff]
    omega
  have hdrop : c.stream.drop (min body.length (seg.size c.recvs)) =
      body.drop (seg.size c.recvs) ++ rest := by
    rw [hs, List.drop_append_of_le_length (Nat.min_le_left _ _)]
    congr 1
    rcases Nat.le_total body.length (seg.size c.recvs) with hle | hle
    · rw [Nat.min_eq_left hle, List.drop_length, List.drop_eq_nil_of_le hle]
    · rw [Nat.min_eq_right hle]
  have hzeros : body.length - min (seg.size c.recvs) body.length =
      body.length - seg.size c.recvs := by omega
  unfold fsServerReadCmdBody recv
  simp only [htake, hdrop, List.length_take, hzeros]
  rw [if_neg (by omega), bodyReceived]

/-- A command whose head arrives whole is handed over with the bytes of its body that its second
`recv` finds; what it does not find stays in the stream. -/
theorem fsServerStep_command (hs : c.stream = cmd.bytes ++ rest)
    (hhead : sizeofHead ≤ seg.size c.recvs) :
    fsServerStep seg mallocOk c = some
      (if cmd.body = [] then
        { stream := rest, recvs := c.recvs + 1, handed := c.handed ++ [cmd.pair] }
      else
        { stream := cmd.body.drop (seg.size (c.recvs + 1)) ++ rest
          recvs := c.recvs + 2
          handed := c.handed ++ [(cmd.head, bodyReceived (seg.size (c.recvs + 1)) cmd.body)] }) := by
  rw [Command.bytes, List.append_assoc] at hs
  have hrecv := recv_full hs (by rwa [length_headBytes])
  rw [length_headBytes] at hrecv
  have hread : fsServerReadCmdHead seg c = (.received cmd.head,
      { c with stream := cmd.body ++ rest, recvs := c.recvs + 1 }) := by
    unfold fsServerReadCmdHead
    rw [hrecv]
    simp [ofBytes_bytes, cmd.flag_eq, sizeofHead]
  have hpos : cmd.head.bodyLength > 0 ↔ cmd.body ≠ [] := by
    rw [gt_iff_lt, UInt64.lt_iff_toNat_lt, cmd.length_eq]
    exact List.length_pos_iff
  unfold fsServerStep fsServerProcessConnection
  rw [hread]
  by_cases hbody : cmd.body = []
  · simp [hpos, hbody, hand, Command.pair]
  · have hlt := cmd.fits
    have hread := fsServerReadCmdBody_eq seg
      (c := { c with stream := cmd.body ++ rest, recvs := c.recvs + 1 }) rfl hbody
    simp only [hpos, ne_eq, hbody, not_false_eq_true, if_true, cmd.length_eq, Nat.mod_eq_of_lt hlt,
      Nat.mod_eq_of_lt (Nat.lt_of_succ_lt hlt), cmd.accepted hbody, Bool.not_true,
      Bool.false_eq_true, if_false, hread]
    rfl

theorem bodyReceived_of_le {body : List UInt8} {k : Nat} (h : body.length ≤ k) :
    bodyReceived k body = body := by
  simp [bodyReceived, List.take_of_length_le h, Nat.sub_eq_zero_of_le h]

theorem bodyReceived_eq_iff {body : List UInt8} {k : Nat} :
    bodyReceived k body = body ↔ ∀ b ∈ body.drop k, b = 0 := by
  conv_lhs => rhs; rw [← List.take_append_drop k body]
  rw [bodyReceived, List.append_right_inj, eq_comm, List.eq_replicate_iff, List.length_drop]
  simp

/-! ## All commands -/

/-- Counting the calls of `recv` from `i` on, each head arrives whole, and so does each body, but
that of the last body zeros may be missing. -/
def WholeRecvs (seg : Segmentation) : Nat → List (Command mallocOk) → Prop
  | _, [] => True
  | i, cmd :: cmds =>
    sizeofHead ≤ seg.size i ∧
      if cmd.body = [] then WholeRecvs seg (i + 1) cmds
      else
        (cmd.body.length ≤ seg.size (i + 1) ∨
          cmds = [] ∧ ∀ b ∈ cmd.body.drop (seg.size (i + 1)), b = 0) ∧
        WholeRecvs seg (i + 2) cmds

/-- The connection ends with these commands handed over, and no others. -/
def HandsOver (seg : Segmentation) (cmds : List (Command mallocOk)) (c : Conn) : Prop :=
  ∃ c', ExitsIn (fsServerStep seg mallocOk) c c' ∧ c'.handed = c.handed ++ cmds.map Command.pair

theorem fsServerReadCmdHead_handed (seg : Segmentation) (c : Conn) :
    (fsServerReadCmdHead seg c).2.handed = c.handed := by
  unfold fsServerReadCmdHead recv
  dsimp only
  split_ifs <;> rfl

theorem fsServerReadCmdBody_handed (seg : Segmentation) (n : Nat) (c : Conn) :
    (fsServerReadCmdBody seg n c).2.2.handed = c.handed := by
  unfold fsServerReadCmdBody recv
  dsimp only
  split_ifs <;> rfl

theorem fsServerProcessConnection_handed (seg : Segmentation) (mallocOk : Nat → Bool) (c : Conn) :
    c.handed <+: (fsServerProcessConnection seg mallocOk c).2.handed := by
  have hhead := fsServerReadCmdHead_handed seg c
  unfold fsServerProcessConnection
  rcases hr : fsServerReadCmdHead seg c with ⟨result, c₁⟩
  rw [hr] at hhead
  dsimp only at hhead
  rw [← hhead]
  cases result with
  | received head =>
    dsimp only
    split_ifs
    · exact List.prefix_rfl
    · have hbody := fsServerReadCmdBody_handed seg (head.bodyLength.toNat % 2 ^ 32) c₁
      rcases hb : fsServerReadCmdBody seg (head.bodyLength.toNat % 2 ^ 32) c₁ with ⟨ret, body, c₂⟩
      rw [hb] at hbody
      dsimp only at hbody
      rw [← hbody]
      split
      · next h =>
        cases h
        exact List.prefix_append _ _
      · next h =>
        cases h
        exact List.prefix_rfl
    · exact List.prefix_append _ _
  | shutdown => exact List.prefix_rfl
  | sizeWrong => exact List.prefix_rfl
  | flagWrong => exact List.prefix_rfl

theorem fsServerStep_handed (h : fsServerStep seg mallocOk c = some c') :
    c.handed <+: c'.handed := by
  have hprefix := fsServerProcessConnection_handed seg mallocOk c
  unfold fsServerStep at h
  split at h
  · next hc =>
    rw [hc] at hprefix
    cases h
    exact hprefix
  · cases h

/-- What has been handed over stays the beginning of what is. -/
theorem exits_handed (h : ExitsIn (fsServerStep seg mallocOk) c c') : c.handed <+: c'.handed :=
  h.reaches.invariant (I := fun c'' => c.handed <+: c''.handed) List.prefix_rfl
    fun _ _ hpre hstep => hpre.trans (fsServerStep_handed hstep)

theorem handsOver_of_exit (h : fsServerStep seg mallocOk c = none) :
    HandsOver seg cmds c ↔ cmds = [] := by
  unfold HandsOver
  simp only [exitsIn_iff_of_exit h]
  constructor
  · rintro ⟨c', rfl, hcmds⟩
    simpa using hcmds
  · rintro rfl
    exact ⟨c, rfl, by simp⟩

/-- A step that hands a command over as it was sent leaves the others. -/
theorem handsOver_cons_of_step (h : fsServerStep seg mallocOk c = some c')
    (hhanded : c'.handed = c.handed ++ [cmd.pair]) :
    HandsOver seg (cmd :: cmds) c ↔ HandsOver seg cmds c' := by
  unfold HandsOver
  simp only [exitsIn_iff_of_step h, hhanded, List.map_cons, List.append_assoc,
    List.singleton_append]

/-- A step that hands over something else cannot be made good. -/
theorem not_handsOver_of_step {p : FileServCmdHead × List UInt8}
    (h : fsServerStep seg mallocOk c = some c') (hhanded : c'.handed = c.handed ++ [p])
    (hp : p ≠ cmd.pair) : ¬ HandsOver seg (cmd :: cmds) c := by
  rintro ⟨c'', hexit, hcmds⟩
  rw [exitsIn_iff_of_step h] at hexit
  have hpre := exits_handed hexit
  rw [hhanded, hcmds, List.prefix_append_right_inj, List.map_cons, List.cons_prefix_cons] at hpre
  exact hp hpre.1

/-- The lowest byte of the flag is zero. -/
theorem headBytes_eq_cons (cmd : Command mallocOk) : ∃ bs, cmd.head.bytes = 0 :: bs := by
  refine ⟨leBytes 7 (FS_CMD_HEAD_FLAG.toNat / 256) ++ (cmd.head.bytes.drop 8), ?_⟩
  rw [FileServCmdHead.bytes, cmd.flag_eq]
  rfl

/-- Zeros in front of a head make it none. -/
theorem second_ne_of_zeros {zeros : List UInt8} (hne : zeros ≠ []) (hz : ∀ b ∈ zeros, b = 0) :
    (zeros ++ streamOf cmds)[1]? ≠ some 0x6d := by
  match zeros, hne with
  | [z], _ =>
    cases cmds with
    | nil => simp [streamOf]
    | cons cmd cmds =>
      obtain ⟨bs, hbs⟩ := headBytes_eq_cons cmd
      simp [streamOf, Command.bytes, hbs]
  | z :: z' :: zs, _ =>
    have hz' := hz z' (by simp)
    simp [hz']

/-- From any point of the stream where a command begins. -/
theorem handsOver_iff_whole (hs : c.stream = streamOf cmds) :
    HandsOver seg cmds c ↔ WholeRecvs seg c.recvs cmds := by
  induction cmds generalizing c with
  | nil =>
    have hexit : fsServerStep seg mallocOk c = none :=
      fsServerStep_eq_none (Or.inr (by simp [hs, streamOf]))
    simp [handsOver_of_exit hexit, WholeRecvs]
  | cons cmd cmds ih =>
    have hs' : c.stream = cmd.bytes ++ streamOf cmds := hs
    rw [WholeRecvs]
    by_cases hhead : sizeofHead ≤ seg.size c.recvs
    · have hstep := fsServerStep_command hs' hhead
      rw [and_iff_right hhead]
      by_cases hbody : cmd.body = []
      · rw [if_pos hbody] at hstep ⊢
        rw [handsOver_cons_of_step hstep rfl, ih rfl]
      · rw [if_neg hbody] at hstep ⊢
        by_cases hlen : cmd.body.length ≤ seg.size (c.recvs + 1)
        · rw [List.drop_eq_nil_of_le hlen, bodyReceived_of_le hlen] at hstep
          rw [handsOver_cons_of_step hstep rfl, ih rfl]
          simp [hlen]
        · by_cases hzeros : ∀ b ∈ cmd.body.drop (seg.size (c.recvs + 1)), b = 0
          · rw [bodyReceived_eq_iff.mpr hzeros] at hstep
            have hne : cmd.body.drop (seg.size (c.recvs + 1)) ≠ [] := by
              rw [ne_eq, List.drop_eq_nil_iff]
              exact hlen
            rw [handsOver_cons_of_step hstep rfl,
              handsOver_of_exit (fsServerStep_eq_none (Or.inr (second_ne_of_zeros hne hzeros)))]
            constructor
            · rintro rfl
              exact ⟨Or.inr ⟨rfl, hzeros⟩, trivial⟩
            · rintro ⟨h | ⟨h, -⟩, -⟩
              · exact absurd h hlen
              · exact h
          · constructor
            · intro h
              refine absurd h (not_handsOver_of_step hstep rfl ?_)
              intro hp
              exact hzeros (bodyReceived_eq_iff.mp (congrArg Prod.snd hp))
            · rintro ⟨h | ⟨-, h⟩, -⟩
              · exact absurd h hlen
              · exact absurd h hzeros
    · have hexit : fsServerStep seg mallocOk c = none :=
        fsServerStep_eq_none (Or.inl (by omega))
      rw [handsOver_of_exit hexit]
      simp [hhead]

/-- A client's commands are handed over as it sent them if and only if no `recv` is short, the last
one apart when zeros are missing. -/
theorem commands_handedOver_iff (seg : Segmentation) (mallocOk : Nat → Bool)
    (cmds : List (Command mallocOk)) :
    HandsOver seg cmds { stream := streamOf cmds } ↔ WholeRecvs seg 0 cmds :=
  handsOver_iff_whole rfl

/-- A command without a body, numbered `n`. -/
def plainCommand (n : UInt32) : Command fun _ => true where
  head := { flag := FS_CMD_HEAD_FLAG, cmd := 0, cmdIndex := n, reply := 0, bodyLength := 0 }
  body := []
  flag_eq := rfl
  length_eq := rfl
  fits := by decide
  accepted := fun _ => rfl

/-- A head that arrives in two segments of sixteen bytes closes the connection. -/
theorem not_handsOver_split_head :
    ¬ HandsOver ⟨fun _ => 16, fun _ => by decide⟩ [plainCommand 1]
      { stream := streamOf [plainCommand 1] } := by
  rw [handsOver_of_exit (fsServerStep_eq_none (Or.inl (by decide)))]
  exact List.cons_ne_nil _ _

/-! ## The buffer of a command body

What is received, and the zero behind it, fit the memory that is allocated for every length but those of
which the low 32 bits are all ones.
-/

variable {mallocOk : Nat → Bool} {head : FileServCmdHead} {b : BodyBuffer}

theorem allocated_eq (n : UInt64) : (n + 1).toUInt32.toNat = (n.toNat + 1) % 2 ^ 32 := by
  rw [UInt64.toNat_toUInt32, UInt64.toNat_add]
  exact Nat.mod_mod_of_dvd _ ⟨2 ^ 32, rfl⟩

theorem asked_eq (n : UInt64) : n.toUInt32.toNat = n.toNat % 2 ^ 32 := UInt64.toNat_toUInt32 n

theorem bodyBuffer_of_pos (h : head.bodyLength > 0) :
    bodyBuffer head = some ⟨(head.bodyLength.toNat + 1) % 2 ^ 32, (head.bodyLength.toNat + 1) % 2 ^ 32,
      head.bodyLength.toNat % 2 ^ 32⟩ := by
  rw [bodyBuffer, if_pos h, allocated_eq, asked_eq]

theorem bodyBuffer_of_zero (h : ¬ head.bodyLength > 0) : bodyBuffer head = none := if_neg h

/-- The buffer is the one that the connection is processed with. -/
theorem fsServerProcessConnection_eq (seg : Segmentation) (mallocOk : Nat → Bool) (c : Conn) :
    fsServerProcessConnection seg mallocOk c =
      match fsServerReadCmdHead seg c with
      | (.received head, c) =>
        match bodyBuffer head with
        | none => (0, hand head [] c)
        | some b =>
          if !mallocOk b.allocated then (-2, c)
          else
            match fsServerReadCmdBody seg b.asked c with
            | (0, body, c) => (0, hand head body c)
            | (_, _, c) => (-2, c)
      | (_, c) => (-1, c) := by
  unfold fsServerProcessConnection
  rcases fsServerReadCmdHead seg c with ⟨result, c⟩
  cases result with
  | received head =>
    dsimp only
    by_cases hlen : head.bodyLength > 0
    · rewrite [if_pos hlen, bodyBuffer_of_pos hlen]
      rfl
    · rewrite [if_neg hlen, bodyBuffer_of_zero hlen]
      rfl
  | shutdown => rfl
  | sizeWrong => rfl
  | flagWrong => rfl

/-- Where the memory is there, what is set to zero and what is received stays inside of it, and behind
the last byte that can be received there is a zero. -/
structure BodyFits (mallocOk : Nat → Bool) (head : FileServCmdHead) : Prop where
  zeros : ∀ b, bodyBuffer head = some b → mallocOk b.allocated = true → b.zeroed ≤ b.allocated
  body : ∀ b, bodyBuffer head = some b → mallocOk b.allocated = true → b.asked ≤ b.allocated
  terminated : ∀ b, bodyBuffer head = some b → mallocOk b.allocated = true → b.asked < b.zeroed

theorem bodyBuffer_some (h : bodyBuffer head = some b) :
    b.zeroed = b.allocated ∧ b.allocated = (head.bodyLength.toNat + 1) % 2 ^ 32 ∧
      b.asked = head.bodyLength.toNat % 2 ^ 32 := by
  by_cases hpos : head.bodyLength > 0
  · rw [bodyBuffer_of_pos hpos] at h
    cases h
    exact ⟨rfl, rfl, rfl⟩
  · rw [bodyBuffer_of_zero hpos] at h
    cases h

theorem bodyBuffer_of_wrap (h : head.bodyLength.toNat % 2 ^ 32 = 2 ^ 32 - 1) :
    bodyBuffer head = some ⟨0, 0, 2 ^ 32 - 1⟩ := by
  have hpos : head.bodyLength > 0 := by
    show (0 : UInt64).toNat < head.bodyLength.toNat
    show 0 < _
    omega
  have hzero : (head.bodyLength.toNat + 1) % 2 ^ 32 = 0 := by omega
  unfold bodyBuffer
  rw [if_pos hpos, allocated_eq, asked_eq, h, hzero]

/-- The body fits if and only if the low 32 bits of its length are not all ones, or `malloc(0)` gives
nothing. -/
theorem body_fits_iff (mallocOk : Nat → Bool) (head : FileServCmdHead) :
    BodyFits mallocOk head ↔
      (head.bodyLength.toNat % 2 ^ 32 = 2 ^ 32 - 1 → mallocOk 0 = false) := by
  constructor
  · intro hfits hwrap
    by_contra hmalloc
    have := hfits.body _ (bodyBuffer_of_wrap hwrap) (Bool.eq_true_of_not_eq_false hmalloc)
    exact absurd this (by decide)
  · intro h
    have hlt : ∀ b, bodyBuffer head = some b → mallocOk b.allocated = true → b.asked < b.zeroed := by
      intro b hb hmalloc
      obtain ⟨hzeroed, hallocated, hasked⟩ := bodyBuffer_some hb
      have hne : head.bodyLength.toNat % 2 ^ 32 ≠ 2 ^ 32 - 1 := by
        intro hwrap
        have hzero : b.allocated = 0 := by omega
        rw [hzero, h hwrap] at hmalloc
        cases hmalloc
      omega
    have heq : ∀ b, bodyBuffer head = some b → b.zeroed = b.allocated := fun b hb =>
      (bodyBuffer_some hb).1
    exact ⟨fun b hb _ => (heq b hb).le, fun b hb hmalloc => (hlt b hb hmalloc).le.trans (heq b hb).le,
      hlt⟩

/-- A body of `2 ^ 32 - 1` bytes is received into a buffer of none. -/
theorem not_body_fits : ¬ BodyFits (fun _ => true) ⟨FS_CMD_HEAD_FLAG, 0, 0, 0, 0, 0xFFFFFFFF⟩ := by
  intro h
  have := h.body ⟨0, 0, 0xFFFFFFFF⟩ rfl rfl
  exact absurd this (by decide)

end VdCamera.Storage
