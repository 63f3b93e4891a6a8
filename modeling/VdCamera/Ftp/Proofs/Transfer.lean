import Mathlib.Data.List.Infix
import VdCamera.Ftp.Transfer

/-!
# What a successful transfer has transferred

A buffer goes out as a prefix of itself, the whole of it when it was sent with success. The uploads of one
and of two buffers keep every failure; the upload of segments keeps that of the last one only, and the
download keeps none.
-/

namespace VdCamera.Ftp

open Misc (ascii)

variable {send : Nat → Option Nat} {sends : Nat → Nat → Option Nat} {buf seg out : List UInt8}
  {segs : List (List UInt8)} {d d' : DataSocket} {r : Int × DataSocket} {env : PutEnv}
  {genv : GetEnv} {fwrite : Nat → Nat} {i j m n : Nat}

/-! ## One buffer -/

/-- A call takes all of `n` bytes. -/
def Took (result : Option Nat) (n : Nat) : Prop := ∃ k, result = some k ∧ n ≤ k

/-- Every packet but the last is taken. -/
def PacketsTaken (send : Nat → Option Nat) (buf : List UInt8) : Prop :=
  ∀ i < buf.length / MAX_SIZE_SEND, Took (send i) MAX_SIZE_SEND

/-- Every call for the buffer takes all it is given. -/
def Full (send : Nat → Option Nat) (buf : List UInt8) : Prop :=
  PacketsTaken send buf ∧ Took (send (buf.length / MAX_SIZE_SEND)) (buf.length % MAX_SIZE_SEND)

/-- Every byte is taken: the last call may fail when it is given none. -/
def Whole (send : Nat → Option Nat) (buf : List UInt8) : Prop :=
  PacketsTaken send buf ∧ (buf.length % MAX_SIZE_SEND = 0
    ∨ Took (send (buf.length / MAX_SIZE_SEND)) (buf.length % MAX_SIZE_SEND))

theorem Full.whole (h : Full send buf) : Whole send buf := ⟨h.1, .inr h.2⟩

theorem MAX_SIZE_SEND_pos : 0 < MAX_SIZE_SEND := by
  unfold MAX_SIZE_SEND
  omega

theorem FAILURE_ne_SUCCESS : FAILURE ≠ SUCCESS := by decide

theorem put_injective {a b : List UInt8} (h : d.put a = d.put b) : a = b :=
  List.append_cancel_left (congrArg DataSocket.sent h)

@[simp] theorem put_put (d : DataSocket) (a b : List UInt8) : (d.put a).put b = d.put (a ++ b) := by
  rw [DataSocket.put, DataSocket.put, DataSocket.put, List.append_assoc]

@[simp] theorem put_nil (d : DataSocket) : d.put [] = d := by
  rw [DataSocket.put, List.append_nil]

theorem sendOnce_of_took {bytes : List UInt8} {result : Option Nat} (h : Took result bytes.length)
    (d : DataSocket) : sendOnce result bytes d = ((bytes.length : Int), d.put bytes) := by
  obtain ⟨k, rfl, hk⟩ := h
  rw [sendOnce, Nat.min_eq_right hk, List.take_of_length_le hk]

/-- A call that does not take all takes a part, or fails. -/
theorem sendOnce_of_not_took {bytes : List UInt8} {result : Option Nat}
    (h : ¬ Took result bytes.length) (d : DataSocket) :
    (sendOnce result bytes d).1 ≠ bytes.length ∧ ∃ m, (m < bytes.length ∨ m = 0 ∧ bytes = []) ∧
      (sendOnce result bytes d).2 = d.put (bytes.take m) := by
  cases result with
  | none =>
    refine ⟨by rw [sendOnce]; omega, 0, ?_, ?_⟩
    · cases bytes with
      | nil => exact .inr ⟨rfl, rfl⟩
      | cons b bytes => exact .inl (Nat.succ_pos _)
    · rw [sendOnce, List.take_zero, put_nil]
  | some k =>
    have hk : k < bytes.length := by
      by_contra hle
      exact h ⟨k, rfl, Nat.not_lt.mp hle⟩
    refine ⟨?_, k, .inl hk, rfl⟩
    rw [sendOnce, Nat.min_eq_left hk.le]
    omega

/-- A packet that is not the last has its size. -/
theorem length_packet (h : i < buf.length / MAX_SIZE_SEND) :
    ((buf.drop (i * MAX_SIZE_SEND)).take MAX_SIZE_SEND).length = MAX_SIZE_SEND := by
  have hle : (i + 1) * MAX_SIZE_SEND ≤ buf.length :=
    (Nat.mul_le_mul_right _ h).trans (Nat.div_mul_le_self _ _)
  rw [Nat.add_mul, Nat.one_mul] at hle
  rw [List.length_take, List.length_drop]
  omega

/-- From packet `i` on, `n` packets behind each other. -/
theorem packets_succ (buf : List UInt8) (i m : Nat) :
    (buf.drop (i * MAX_SIZE_SEND)).take MAX_SIZE_SEND ++ (buf.drop ((i + 1) * MAX_SIZE_SEND)).take m
      = (buf.drop (i * MAX_SIZE_SEND)).take (MAX_SIZE_SEND + m) := by
  rw [Nat.add_mul, Nat.one_mul, ← List.drop_drop, ← List.take_add]

theorem sendPackets_of_took (h : ∀ j, i ≤ j → j < i + n → Took (send j) MAX_SIZE_SEND)
    (hlen : i + n ≤ buf.length / MAX_SIZE_SEND) (d : DataSocket) :
    sendPackets send buf n i d
      = (true, d.put ((buf.drop (i * MAX_SIZE_SEND)).take (n * MAX_SIZE_SEND))) := by
  induction n generalizing i d with
  | zero => rw [sendPackets, Nat.zero_mul, List.take_zero, put_nil]
  | succ n ih =>
    have hpacket := length_packet (show i < buf.length / MAX_SIZE_SEND by omega)
    have htook : Took (send i) ((buf.drop (i * MAX_SIZE_SEND)).take MAX_SIZE_SEND).length := by
      rw [hpacket]
      exact h i (Nat.le_refl i) (by omega)
    rw [sendPackets, sendOnce_of_took htook]
    dsimp only
    rw [if_neg (by rw [hpacket]; exact not_not_intro rfl),
      ih (fun j hj hj' => h j (by omega) (by omega)) (by omega), put_put, packets_succ,
      Nat.add_mul n 1, Nat.one_mul, Nat.add_comm MAX_SIZE_SEND]

/-- The first packet that is not taken ends the loop. -/
theorem sendPackets_of_not_took (h : ¬ ∀ j, i ≤ j → j < i + n → Took (send j) MAX_SIZE_SEND)
    (hlen : i + n ≤ buf.length / MAX_SIZE_SEND) (d : DataSocket) :
    ∃ m < n * MAX_SIZE_SEND, sendPackets send buf n i d
      = (false, d.put ((buf.drop (i * MAX_SIZE_SEND)).take m)) := by
  induction n generalizing i d with
  | zero =>
    exfalso
    apply h
    intro j hj hj'
    omega
  | succ n ih =>
    have hpacket := length_packet (show i < buf.length / MAX_SIZE_SEND by omega)
    have hmul : (n + 1) * MAX_SIZE_SEND = n * MAX_SIZE_SEND + MAX_SIZE_SEND := by
      rw [Nat.add_mul, Nat.one_mul]
    by_cases hi : Took (send i) ((buf.drop (i * MAX_SIZE_SEND)).take MAX_SIZE_SEND).length
    · have hrest : ¬ ∀ j, i + 1 ≤ j → j < i + 1 + n → Took (send j) MAX_SIZE_SEND := by
        intro hall
        apply h
        intro j hj hj'
        rcases Nat.eq_or_lt_of_le hj with rfl | hlt
        · rwa [hpacket] at hi
        · exact hall j hlt (by omega)
      obtain ⟨m, hm, heq⟩ := ih hrest (by omega)
        (d.put ((buf.drop (i * MAX_SIZE_SEND)).take MAX_SIZE_SEND))
      refine ⟨MAX_SIZE_SEND + m, by omega, ?_⟩
      rw [sendPackets, sendOnce_of_took hi]
      dsimp only
      rw [if_neg (by rw [hpacket]; exact not_not_intro rfl), heq, put_put, packets_succ]
    · obtain ⟨hne, m, hm, heq⟩ := sendOnce_of_not_took hi d
      have hpos := MAX_SIZE_SEND_pos
      rw [hpacket] at hne hm
      have hm' : m < MAX_SIZE_SEND := by omega
      refine ⟨m, by omega, ?_⟩
      rw [sendPackets, if_pos hne, heq, List.take_take, Nat.min_eq_left hm'.le]

/-- What `ftp_send_data` returns, and how much of the buffer it has sent. -/
theorem ftpSendData_spec (send : Nat → Option Nat) (buf : List UInt8) (d : DataSocket) :
    ((ftpSendData send buf d).1 = SUCCESS ∧ Full send buf
      ∨ (ftpSendData send buf d).1 = FAILURE ∧ ¬ Full send buf)
    ∧ ∃ m ≤ buf.length, (ftpSendData send buf d).2 = d.put (buf.take m)
      ∧ (m = buf.length ↔ Whole send buf) := by
  have hmod := Nat.div_add_mod' buf.length MAX_SIZE_SEND
  have hrest : (buf.drop (buf.length / MAX_SIZE_SEND * MAX_SIZE_SEND)).length
      = buf.length % MAX_SIZE_SEND := by
    rw [List.length_drop]
    omega
  by_cases hpackets : PacketsTaken send buf
  · have hloop := sendPackets_of_took
      (fun j (_ : 0 ≤ j) (hj : j < 0 + buf.length / MAX_SIZE_SEND) => hpackets j (by omega))
      (show 0 + buf.length / MAX_SIZE_SEND ≤ buf.length / MAX_SIZE_SEND by omega) d
    rw [Nat.zero_mul, List.drop_zero] at hloop
    by_cases hlast : Took (send (buf.length / MAX_SIZE_SEND))
        (buf.drop (buf.length / MAX_SIZE_SEND * MAX_SIZE_SEND)).length
    · have heq : ftpSendData send buf d = (SUCCESS, d.put buf) := by
        rw [ftpSendData, hloop]
        dsimp only
        rw [if_pos rfl, sendOnce_of_took hlast, hrest]
        dsimp only
        rw [if_neg (not_not_intro rfl), put_put, List.take_append_drop]
      rw [hrest] at hlast
      rw [heq]
      refine ⟨.inl ⟨rfl, hpackets, hlast⟩, buf.length, Nat.le_refl _, ?_, ?_⟩
      · rw [List.take_length]
      · exact ⟨fun _ => ⟨hpackets, .inr hlast⟩, fun _ => rfl⟩
    · obtain ⟨hne, m, hm, hsent⟩ := sendOnce_of_not_took hlast
        (d.put (buf.take (buf.length / MAX_SIZE_SEND * MAX_SIZE_SEND)))
      have heq : ftpSendData send buf d
          = (FAILURE, d.put (buf.take (buf.length / MAX_SIZE_SEND * MAX_SIZE_SEND + m))) := by
        rw [hrest] at hne
        rw [ftpSendData, hloop]
        dsimp only
        rw [if_pos rfl, if_pos hne, hsent, put_put, ← List.take_add]
      rw [hrest] at hlast
      rw [← List.length_eq_zero_iff, hrest] at hm
      rw [heq]
      refine ⟨.inr ⟨rfl, fun hfull => hlast hfull.2⟩, _, ?_, rfl, ?_⟩
      · omega
      · constructor
        · intro hall
          exact ⟨hpackets, .inl (by omega)⟩
        · intro hwhole
          have hzero := hwhole.2.resolve_right hlast
          omega
  · have hnot : ¬ ∀ j, 0 ≤ j → j < 0 + buf.length / MAX_SIZE_SEND → Took (send j) MAX_SIZE_SEND :=
      fun hall => hpackets fun j hj => hall j (Nat.zero_le j) (by omega)
    obtain ⟨m, hm, hloop⟩ := sendPackets_of_not_took hnot
      (show 0 + buf.length / MAX_SIZE_SEND ≤ buf.length / MAX_SIZE_SEND by omega) d
    rw [Nat.zero_mul, List.drop_zero] at hloop
    have heq : ftpSendData send buf d = (FAILURE, d.put (buf.take m)) := by
      rw [ftpSendData, hloop]
      rfl
    rw [heq]
    refine ⟨.inr ⟨rfl, fun hfull => hpackets hfull.1⟩, m, by omega, rfl, ?_⟩
    constructor
    · intro hall
      omega
    · intro hwhole
      exact absurd hwhole.1 hpackets

/-! ## Several buffers -/

/-- A prefix of one buffer and then less than others is the whole only if both are. -/
theorem take_append_eq_iff {rest : List UInt8} (hm : m ≤ seg.length)
    (hlen : out.length ≤ rest.length) :
    seg.take m ++ out = seg ++ rest ↔ m = seg.length ∧ out = rest := by
  constructor
  · intro h
    have hlength := congrArg List.length h
    rw [List.length_append, List.length_append, List.length_take_of_le hm] at hlength
    have heq : m = seg.length := by omega
    rw [heq, List.take_length, List.append_cancel_left_eq] at h
    exact ⟨heq, h⟩
  · rintro ⟨rfl, rfl⟩
    rw [List.take_length]

/-- The segments from the `i`-th on: what is sent of them, and that only the last one decides. -/
theorem sendSegments_spec (sends : Nat → Nat → Option Nat) (segs : List (List UInt8)) (i : Nat)
    (r : Int × DataSocket) :
    ((sendSegments sends i segs r).1 = SUCCESS ↔ segs = [] ∧ r.1 = SUCCESS
      ∨ ∃ seg, segs.getLast? = some seg ∧ Full (sends (i + (segs.length - 1))) seg)
    ∧ ∃ out, out.length ≤ segs.flatten.length
      ∧ (sendSegments sends i segs r).2 = r.2.put out
      ∧ (out = segs.flatten ↔ ∀ k seg, segs[k]? = some seg → Whole (sends (i + k)) seg) := by
  induction segs generalizing i r with
  | nil =>
    refine ⟨by simp [sendSegments], [], Nat.le_refl _, ?_, by simp⟩
    rw [put_nil]
    rfl
  | cons seg segs ih =>
    obtain ⟨hret, m, hm, hsent, hwhole⟩ := ftpSendData_spec (sends i) seg r.2
    obtain ⟨hlast, out, hlen, hput, hout⟩ := ih (i + 1) (ftpSendData (sends i) seg r.2)
    have hcut := take_append_eq_iff hm hlen
    refine ⟨?_, seg.take m ++ out, ?_, ?_, ?_⟩
    · rw [sendSegments, hlast]
      cases segs with
      | nil =>
        have hfull : (ftpSendData (sends i) seg r.2).1 = SUCCESS ↔ Full (sends i) seg := by
          rcases hret with ⟨hs, hf⟩ | ⟨hs, hf⟩
          · exact ⟨fun _ => hf, fun _ => hs⟩
          · exact ⟨fun h => absurd (hs.symm.trans h) (by decide), fun h => absurd h hf⟩
        simpa using hfull
      | cons seg' segs =>
        have hidx : i + 1 + ((seg' :: segs).length - 1) = i + ((seg :: seg' :: segs).length - 1) := by
          simp only [List.length_cons]
          omega
        rw [hidx, List.getLast?_cons_cons]
        simp
    · rw [List.length_append, List.flatten_cons, List.length_append]
      have hle := List.length_take_le m seg
      rw [List.length_take_of_le hm]
      omega
    · rw [sendSegments, hput, hsent, put_put]
    · rw [List.flatten_cons, hcut, hwhole, hout]
      constructor
      · rintro ⟨h0, hrest⟩ k seg' hk
        cases k with
        | zero =>
          rw [List.getElem?_cons_zero, Option.some.injEq] at hk
          rwa [← hk]
        | succ k =>
          rw [List.getElem?_cons_succ] at hk
          rw [Nat.add_comm k 1, ← Nat.add_assoc]
          exact hrest k seg' hk
      · intro h
        refine ⟨h 0 seg rfl, fun k seg' hk => ?_⟩
        rw [Nat.add_assoc, Nat.add_comm 1 k]
        exact h (k + 1) seg' hk

/-! ## Uploads -/

/-- An upload that succeeds has sent all of `bytes` and got 226 as its last reply; the data socket is
closed once if it was created. -/
def PutOk (env : PutEnv) (bytes : List UInt8) (r : PutResult) : Prop :=
  (r.ret = SUCCESS → r.data.sent = bytes
    ∧ ∃ text, env.response = some text ∧ ascii "226" <+: text)
  ∧ r.data.created ≤ 1 ∧ r.data.closed = r.data.created

/-- Whether all that comes before the data succeeds. -/
def PutEnv.Ready (env : PutEnv) (paramOk : Bool) : Prop :=
  paramOk = true ∧ env.statusOk = true ∧ env.mkDir = true ∧ env.pasv = true ∧ env.socket = true
    ∧ (List.range 3).any env.connect = true ∧ env.store = true

theorem putResponse_success {data : DataSocket} {response : Option (List UInt8)} :
    (putResponse data response).ret = SUCCESS ↔ ∃ text, response = some text ∧ ascii "226" <+: text := by
  cases response with
  | none => simp [putResponse]
  | some text =>
    have hstarts : (ascii "226").isPrefixOf text ↔ ascii "226" <+: text :=
      List.isPrefixOf_iff_prefix
    simp only [putResponse]
    split
    · next h => simpa using hstarts.mp h
    · next h =>
      have hnot : ¬ ascii "226" <+: text := fun h' => h (hstarts.mpr h')
      split <;> simpa using hnot

theorem putResponse_data (data : DataSocket) (response : Option (List UInt8)) :
    (putResponse data response).data = data := by
  cases response with
  | none => rfl
  | some text =>
    simp only [putResponse]
    split
    · rfl
    · split <;> rfl

/-- The data socket: connected, or closed again, or not there. -/
theorem ftpMkDataSocket_cases (socket : Bool) (connect : Nat → Bool) :
    (socket = true ∧ (List.range 3).any connect = true
      ∧ ftpMkDataSocket socket connect {} = (SUCCESS, { created := 1 }))
    ∨ ((socket = true → (List.range 3).any connect = false)
      ∧ ∃ d, ftpMkDataSocket socket connect {} = (SOCKET_ERR, d) ∧ d.created ≤ 1
        ∧ d.closed = d.created) := by
  cases socket with
  | false => exact .inr ⟨fun h => (Bool.false_ne_true h).elim, _, rfl, Nat.zero_le _, rfl⟩
  | true =>
    cases hconnect : (List.range 3).any connect with
    | false =>
      refine .inr ⟨fun _ => rfl, { created := 1, closed := 1 }, ?_, Nat.le_refl _, rfl⟩
      rw [ftpMkDataSocket, if_pos rfl]
      dsimp only
      rw [if_neg (by rw [hconnect]; exact Bool.false_ne_true)]
      rfl
    | true =>
      refine .inl ⟨rfl, rfl, ?_⟩
      rw [ftpMkDataSocket, if_pos rfl]
      dsimp only
      rw [if_pos hconnect]

/-- An upload, by what its data comes to on a fresh socket. -/
theorem ftpPut_spec (env : PutEnv) (paramOk : Bool) (sendAll : DataSocket → Int × DataSocket)
    (hsend : ∃ out, (sendAll { created := 1 }).2 = DataSocket.put { created := 1 } out) :
    ((ftpPut env paramOk sendAll).ret = SUCCESS ↔ env.Ready paramOk
      ∧ (sendAll { created := 1 }).1 = SUCCESS
      ∧ ∃ text, env.response = some text ∧ ascii "226" <+: text)
    ∧ (env.Ready paramOk →
      (ftpPut env paramOk sendAll).data.sent = (sendAll { created := 1 }).2.sent)
    ∧ (ftpPut env paramOk sendAll).data.created ≤ 1
    ∧ (ftpPut env paramOk sendAll).data.closed = (ftpPut env paramOk sendAll).data.created := by
  obtain ⟨out, hout⟩ := hsend
  by_cases hpre : (paramOk && env.statusOk && env.mkDir && env.pasv) = true
  · rw [ftpPut, if_pos hpre]
    simp only [Bool.and_eq_true] at hpre
    obtain ⟨⟨⟨hparam, hstatus⟩, hmkdir⟩, hpasv⟩ := hpre
    rcases ftpMkDataSocket_cases env.socket env.connect with
      ⟨hsocket, hconnect, heq⟩ | ⟨hnot, d, heq, hcreated, hclosed⟩
    · rw [heq]
      dsimp only
      rw [if_neg (by decide)]
      by_cases hstore : env.store = true
      · have hready : env.Ready paramOk :=
          ⟨hparam, hstatus, hmkdir, hpasv, hsocket, hconnect, hstore⟩
        rw [if_pos hstore, hout]
        by_cases hret : (sendAll { created := 1 }).1 = SUCCESS
        · rw [if_neg (not_not_intro hret), putResponse_data, putResponse_success]
          exact ⟨⟨fun h => ⟨hready, hret, h⟩, fun h => h.2.2⟩, fun _ => rfl, Nat.le_refl _, rfl⟩
        · rw [if_pos hret]
          refine ⟨⟨fun h => ?_, fun h => absurd h.2.1 hret⟩, fun _ => rfl, Nat.le_refl _, rfl⟩
          exact absurd h FAILURE_ne_SUCCESS
      · rw [if_neg hstore]
        refine ⟨⟨fun h => ?_, fun h => absurd h.1.2.2.2.2.2.2 hstore⟩,
          fun h => absurd h.2.2.2.2.2.2 hstore, Nat.le_refl _, rfl⟩
        exact absurd h FAILURE_ne_SUCCESS
    · rw [heq]
      dsimp only
      rw [if_pos rfl]
      have hnready : ¬ env.Ready paramOk := by
        intro h
        obtain ⟨_, _, _, _, hsocket, hconnect, _⟩ := h
        rw [hnot hsocket] at hconnect
        cases hconnect
      refine ⟨⟨fun h => ?_, fun h => absurd h.1 hnready⟩, fun h => absurd h hnready,
        hcreated, hclosed⟩
      exact absurd h FAILURE_ne_SUCCESS
  · rw [ftpPut, if_neg hpre]
    have hnready : ¬ env.Ready paramOk := by
      intro h
      obtain ⟨hparam, hstatus, hmkdir, hpasv, _⟩ := h
      apply hpre
      rw [hparam, hstatus, hmkdir, hpasv]
      rfl
    refine ⟨⟨fun h => ?_, fun h => absurd h.1 hnready⟩, fun h => absurd h hnready,
      Nat.zero_le _, rfl⟩
    exact absurd h FAILURE_ne_SUCCESS

/-- An upload is right exactly when, if it succeeds, all of its bytes went out. -/
theorem putOk_iff {paramOk : Bool} {sendAll : DataSocket → Int × DataSocket} {bytes : List UInt8}
    (hout : (sendAll { created := 1 }).2 = DataSocket.put { created := 1 } out) :
    PutOk env bytes (ftpPut env paramOk sendAll) ↔ (env.Ready paramOk
      → (sendAll { created := 1 }).1 = SUCCESS
      → (∃ text, env.response = some text ∧ ascii "226" <+: text) → out = bytes) := by
  obtain ⟨hret, hdata, hcreated, hclosed⟩ := ftpPut_spec env paramOk sendAll ⟨out, hout⟩
  constructor
  · rintro ⟨h, _⟩ hready hsend hresponse
    obtain ⟨hsent, _⟩ := h (hret.mpr ⟨hready, hsend, hresponse⟩)
    rwa [hdata hready, hout] at hsent
  · intro h
    refine ⟨fun hsuccess => ?_, hcreated, hclosed⟩
    obtain ⟨hready, hsend, hresponse⟩ := hret.mp hsuccess
    refine ⟨?_, hresponse⟩
    rw [hdata hready, hout]
    exact h hready hsend hresponse

theorem ftpSendData_success (h : (ftpSendData send buf d).1 = SUCCESS) :
    (ftpSendData send buf d).2 = d.put buf := by
  obtain ⟨hret, m, _, hsent, hwhole⟩ := ftpSendData_spec send buf d
  have hfull : Full send buf := by
    rcases hret with ⟨_, hfull⟩ | ⟨hfail, _⟩
    · exact hfull
    · rw [hfail] at h
      exact absurd h (by decide)
  rw [hsent, hwhole.mpr hfull.whole, List.take_length]

/-- The upload of one buffer. -/
theorem ftpPut_one (env : PutEnv) (paramOk : Bool) (bytes : List UInt8) :
    PutOk env bytes (ftpPut env paramOk fun d => ftpSendData (env.send 0) bytes d) := by
  obtain ⟨_, m, _, hsent, _⟩ := ftpSendData_spec (env.send 0) bytes { created := 1 }
  apply (putOk_iff hsent).mpr
  intro _ hsuccess _
  exact put_injective (hsent.symm.trans (ftpSendData_success hsuccess))

/-- The results of two buffers together are a success when both are. -/
theorem success_of_lor {send2 : Nat → Option Nat} {buf2 : List UInt8} {d2 : DataSocket}
    (h : Int.lor (ftpSendData send buf d).1 (ftpSendData send2 buf2 d2).1 = SUCCESS) :
    (ftpSendData send buf d).1 = SUCCESS ∧ (ftpSendData send2 buf2 d2).1 = SUCCESS := by
  obtain ⟨hret, -⟩ := ftpSendData_spec send buf d
  obtain ⟨hret2, -⟩ := ftpSendData_spec send2 buf2 d2
  rcases hret with ⟨h1, -⟩ | ⟨h1, -⟩ <;> rcases hret2 with ⟨h2, -⟩ | ⟨h2, -⟩ <;> rw [h1, h2] at h
  · exact ⟨h1, h2⟩
  · cases h
  · cases h
  · cases h

/-- The upload of two buffers keeps the failure of either. -/
theorem ftpPutTwo_ok (env : PutEnv) (dir0 filename : List UInt8) (buf buf2 : Option (List UInt8)) :
    PutOk env (buf.getD [] ++ buf2.getD []) (ftpPutTwo env dir0 filename buf buf2) := by
  unfold ftpPutTwo
  cases buf2 with
  | none =>
    rw [Option.getD_none, List.append_nil]
    exact ftpPut_one env _ _
  | some bytes2 =>
    obtain ⟨-, m, _, hsent, _⟩ := ftpSendData_spec (env.send 0) (buf.getD []) { created := 1 }
    obtain ⟨-, m2, _, hsent2, _⟩ := ftpSendData_spec (env.send 1) bytes2
      (ftpSendData (env.send 0) (buf.getD []) { created := 1 }).2
    apply (putOk_iff (show _ = DataSocket.put _ ((buf.getD []).take m ++ bytes2.take m2) by
      dsimp only
      rw [hsent2, hsent, put_put])).mpr
    intro _ hsuccess _
    obtain ⟨hone, htwo⟩ := success_of_lor hsuccess
    rw [put_injective (hsent.symm.trans (ftpSendData_success hone)),
      put_injective (hsent2.symm.trans (ftpSendData_success htwo))]
    rfl

/-- When the upload of segments comes to 226 with its last segment sent, all the others were taken. -/
def SegmentsTaken (env : PutEnv) (dir0 filename : List UInt8)
    (vidinfo : Option (List (List UInt8))) : Prop :=
  env.Ready (dir0 ≠ [] ∧ filename ≠ [] ∧ vidinfo.isSome) →
    (∃ seg, (vidinfo.getD []).getLast? = some seg
      ∧ Full (env.send ((vidinfo.getD []).length - 1)) seg) →
    (∃ text, env.response = some text ∧ ascii "226" <+: text) →
    ∀ k seg, (vidinfo.getD [])[k]? = some seg → Whole (env.send k) seg

theorem ftpPutH264_ok (env : PutEnv) (dir0 filename : List UInt8)
    (vidinfo : Option (List (List UInt8))) :
    PutOk env (vidinfo.getD []).flatten (ftpPutH264 env dir0 filename vidinfo)
      ↔ SegmentsTaken env dir0 filename vidinfo := by
  obtain ⟨hret, out, _, hsent, hall⟩ :=
    sendSegments_spec env.send (vidinfo.getD []) 0 (-1, { created := 1 })
  simp only [Nat.zero_add] at hret hall
  rw [ftpPutH264, putOk_iff hsent, SegmentsTaken, ← hall]
  constructor
  · intro h hready hlast
    exact h hready (hret.mpr (.inr hlast))
  · intro h hready hsuccess
    rcases hret.mp hsuccess with ⟨_, hneg⟩ | hlast
    · exact absurd hneg (show (-1 : Int) ≠ 0 by decide)
    · exact h hready hlast

/-! ## The download -/

/-- A download that succeeds has the whole file; the data socket is closed once if it was created. -/
def GetOk (env : GetEnv) (r : GetResult) : Prop :=
  (r.ret = SUCCESS → r.saved = env.file) ∧ r.data.created ≤ 1 ∧ r.data.closed = r.data.created

/-- The pieces from the `i`-th on, as far as they are written. -/
theorem receive_spec (fwrite : Nat → Nat) (pieces : List (List UInt8)) (i : Nat)
    (file : List UInt8) :
    ∃ out, out.length ≤ pieces.flatten.length ∧ receive fwrite i pieces file = file ++ out
      ∧ (out = pieces.flatten ↔ ∀ k piece, pieces[k]? = some piece → piece.length ≤ fwrite (i + k)) := by
  induction pieces generalizing i file with
  | nil => exact ⟨[], Nat.le_refl _, by simp [receive], by simp⟩
  | cons piece pieces ih =>
    obtain ⟨out, hlen, heq, hout⟩ := ih (i + 1) (file ++ piece.take (fwrite i))
    have hmin : piece.take (fwrite i) = piece.take (min (fwrite i) piece.length) :=
      List.take_eq_take_min
    have hcut := take_append_eq_iff (Nat.min_le_right (fwrite i) piece.length) hlen
    refine ⟨piece.take (fwrite i) ++ out, ?_, ?_, ?_⟩
    · have hle := List.length_take_le' (fwrite i) piece
      rw [List.length_append, List.flatten_cons, List.length_append]
      omega
    · rw [receive, heq, List.append_assoc]
    · rw [hmin, List.flatten_cons, hcut, hout]
      constructor
      · rintro ⟨h0, hrest⟩ k piece' hk
        cases k with
        | zero =>
          rw [List.getElem?_cons_zero, Option.some.injEq] at hk
          rw [← hk, ← h0]
          exact Nat.min_le_left _ _
        | succ k =>
          rw [List.getElem?_cons_succ] at hk
          rw [Nat.add_comm k 1, ← Nat.add_assoc]
          exact hrest k piece' hk
      · intro h
        refine ⟨Nat.min_eq_right (h 0 piece rfl), fun k piece' hk => ?_⟩
        rw [Nat.add_assoc, Nat.add_comm 1 k]
        exact h (k + 1) piece' hk

/-- The local file is opened when the data socket is there; and when everything before the data
succeeds, the whole file comes, and all of it is written. -/
def FileTaken (env : GetEnv) : Prop :=
  env.pasv = true → env.socket = true → (List.range 3).any env.connect = true →
    env.fopen = true ∧ (env.retr = true → env.malloc = true → env.pieces.flatten = env.file
      ∧ ∀ k piece, env.pieces[k]? = some piece → piece.length ≤ env.fwrite k)

theorem ftpGetFile_ok (env : GetEnv) : GetOk env (ftpGetFile env) ↔ FileTaken env := by
  obtain ⟨out, hlen, hreceive, hout⟩ := receive_spec env.fwrite env.pieces 0 []
  rw [List.nil_append] at hreceive
  simp only [Nat.zero_add] at hout
  -- What is written of a beginning of the file is the file only if it is all of both.
  have hfile : out = env.file ↔ env.pieces.flatten = env.file
      ∧ ∀ k piece, env.pieces[k]? = some piece → piece.length ≤ env.fwrite k := by
    have hle := env.stream.length_le
    rw [← hout]
    constructor
    · intro h
      rw [h] at hlen
      have hall := env.stream.eq_of_length (Nat.le_antisymm hle hlen)
      exact ⟨hall, h.trans hall.symm⟩
    · rintro ⟨hall, h⟩
      rw [h, hall]
  unfold ftpGetFile FileTaken
  by_cases hpasv : env.pasv = true
  · rw [if_pos hpasv]
    rcases ftpMkDataSocket_cases env.socket env.connect with
      ⟨hsocket, hconnect, heq⟩ | ⟨hnot, d, heq, hcreated, hclosed⟩
    · rw [heq]
      dsimp only
      rw [if_neg (by decide)]
      by_cases hfopen : env.fopen = true
      · rw [if_pos hfopen]
        by_cases hgo : (env.retr && env.malloc) = true
        · rw [if_pos hgo]
          rw [Bool.and_eq_true] at hgo
          constructor
          · rintro ⟨h, _⟩ _ _ _
            refine ⟨hfopen, fun _ _ => hfile.mp ?_⟩
            rw [← h rfl, hreceive]
          · intro h
            refine ⟨fun _ => ?_, Nat.le_refl _, rfl⟩
            exact hreceive.trans (hfile.mpr ((h hpasv hsocket hconnect).2 hgo.1 hgo.2))
        · rw [if_neg hgo]
          rw [Bool.and_eq_true] at hgo
          constructor
          · intro _ _ _ _
            exact ⟨hfopen, fun hretr hmalloc => absurd ⟨hretr, hmalloc⟩ hgo⟩
          · intro _
            exact ⟨fun h => absurd h FAILURE_ne_SUCCESS, Nat.le_refl _, rfl⟩
      · rw [if_neg hfopen]
        constructor
        · rintro ⟨_, _, hclosed⟩
          cases hclosed
        · intro h
          exact absurd (h hpasv hsocket hconnect).1 hfopen
    · rw [heq]
      dsimp only
      rw [if_pos rfl]
      constructor
      · intro _ _ hsocket hconnect
        rw [hnot hsocket] at hconnect
        cases hconnect
      · intro _
        exact ⟨fun h => absurd h FAILURE_ne_SUCCESS, hcreated, hclosed⟩
  · rw [if_neg hpasv]
    constructor
    · intro _ h
      exact absurd h hpasv
    · intro _
      exact ⟨fun h => absurd h FAILURE_ne_SUCCESS, Nat.zero_le _, rfl⟩

/-! ## All transfers -/

/-- The uploads of buffers are right. The upload of segments and the download are so exactly when no
segment but the last is lost, and no part of the file. -/
theorem transfers_complete (env : PutEnv) (genv : GetEnv) (dir0 filename : List UInt8)
    (buf buf2 destPath destName : Option (List UInt8)) (vidinfo : Option (List (List UInt8))) :
    (PutOk env (buf.getD [] ++ buf2.getD []) (ftpPutTwo env dir0 filename buf buf2)
      ∧ PutOk env (buf.getD []) (ftpPutData env filename buf)
      ∧ PutOk env (buf.getD []) (ftpPutPath env destPath destName buf)
      ∧ PutOk env (vidinfo.getD []).flatten (ftpPutH264 env dir0 filename vidinfo)
      ∧ GetOk genv (ftpGetFile genv))
    ↔ SegmentsTaken env dir0 filename vidinfo ∧ FileTaken genv := by
  rw [ftpPutH264_ok, ftpGetFile_ok]
  constructor
  · rintro ⟨_, _, _, hsegments, hfile⟩
    exact ⟨hsegments, hfile⟩
  · rintro ⟨hsegments, hfile⟩
    exact ⟨ftpPutTwo_ok env dir0 filename buf buf2, ftpPut_one env _ _, ftpPut_one env _ _,
      hsegments, hfile⟩

/-- The first buffer fails, the second is sent. -/
def brokenPut : PutEnv where
  statusOk := true
  mkDir := true
  pasv := true
  socket := true
  connect := fun _ => true
  store := true
  send := fun i _ => if i = 0 then none else some 1
  response := some (ascii "226 Transfer complete")

/-- The connection breaks behind the first byte. -/
def brokenGet : GetEnv where
  pasv := true
  socket := true
  connect := fun _ => true
  fopen := true
  retr := true
  malloc := true
  file := [1, 2]
  pieces := [[1]]
  fwrite := fun _ => 1
  response := some (ascii "426 Connection closed")
  nonempty := by decide
  stream := ⟨[2], rfl⟩

/-- An upload without its first segment succeeds, and a download that breaks off. -/
theorem not_transfers_complete :
    ¬ PutOk brokenPut [1, 2] (ftpPutH264 brokenPut [97] [98] (some [[1], [2]]))
      ∧ ¬ GetOk brokenGet (ftpGetFile brokenGet) := by
  constructor
  · intro h
    have hsent := (h.1 (by decide)).1
    exact absurd hsent (by decide)
  · intro h
    have hsaved := h.1 rfl
    exact absurd hsaved (by decide)

end VdCamera.Ftp
