import Mathlib.Data.Fintype.Basic
import VdCamera.Ftp.Shared
import VdCamera.Ftp.Proofs.Transfer

/-!
# When uploads on one channel do not mix

The mutex is taken command by command. An upload relies on the passive port, the data socket and the
current directory from its `PASV` on; what other threads do before their own `PASV` leaves these alone,
but for `CWD /` right before a `STOR`. So uploads do not mix in the runs in which none sends its `PASV`
while another is between its `PASV` and its end, and none sends `CWD /` while another is between the `CWD`
to its directory and its `STOR`. The form of `ftp_put_data` that takes a path is not among these uploads.
-/

namespace VdCamera.Ftp.Shared

/-! ## What is claimed -/

/-- From the answer to `PASV` on. -/
def Place.transfer : Place → Bool
  | .check | .clear | .cdRoot | .mkDirs | .pasv => false
  | .socket | .address | .connect _ _ | .cdDir | .stor | .send | .giveUp => true

/-- The step at the first place leaves an upload at the second one alone. -/
def Place.Apart : Place → Place → Prop
  | .check, _ | .clear, _ | .mkDirs, _ => True
  | .cdRoot, q => q ≠ .stor
  | .pasv, q | .socket, q | .address, q | .connect _ _, q | .cdDir, q | .stor, q | .send, q
  | .giveUp, q => q.transfer = false

/-- Where only the last segment decides, the others are taken when it is. -/
def Put.SegmentsTaken (send : Nat → Nat → Option Nat) : Put → Prop
  | data _ _ _ | data2 _ _ _ _ => True
  | h264 _ _ vidinfo =>
    (∃ seg, (vidinfo.getD []).getLast? = some seg
      ∧ Full (send ((vidinfo.getD []).length - 1)) seg) →
    ∀ k seg, (vidinfo.getD [])[k]? = some seg → Whole (send k) seg

variable {τ : Type}

/-- No upload makes a step that another one is not apart from, and none that sends segments loses one
before the last. -/
def Undisturbed (s : Channel τ) : ChannelOp τ → Prop
  | .go t e => ∀ x ∈ s.threads t,
    (∀ t' ≠ t, ∀ x' ∈ s.threads t', x.2.Apart x'.2)
      ∧ (x.2 = .send → x.1.SegmentsTaken e.send)
  | .call _ _ | .noop _ => True

/-- Every upload that returned success had exactly its bytes in its file, and no file has received bytes
of an upload to another one. -/
structure Unmixed (s : Channel τ) : Prop where
  returned : ∀ r ∈ s.returned, r.ret = SUCCESS → r.content = some r.put.bytes
  received : ∀ r ∈ s.link.server.received, r.1 = r.2.target

/-! ## What an upload relies on -/

/-- The data socket is not connected; the port waits. -/
structure Waits (l : Link) (p : Nat) : Prop where
  port : l.server.port = some p
  conn : l.server.conns p = {}
  socket : ∃ n, l.dataSocket = some n ∧ l.sockets n = .unconnected

/-- The data socket is connected to the port that waits. -/
structure Connected (l : Link) (n p : Nat) : Prop where
  dataSocket : l.dataSocket = some n
  socket : l.sockets n = .connected p
  port : l.server.port = some p
  conn : l.server.conns p = { accepted := true }

/-- What comes on the data socket is stored into the file of the upload. -/
structure Storing (u : Put) (l : Link) (n p : Nat) : Prop where
  dataSocket : l.dataSocket = some n
  socket : l.sockets n = .connected p
  conn : l.server.conns p = { accepted := true, file := some u.target }
  file : l.server.files u.target = some []
  inbox : ∀ r ∈ l.inbox, r.code ≠ 226

def Owns (u : Put) (l : Link) : Place → Prop
  | .check | .clear | .cdRoot | .mkDirs | .pasv | .giveUp => True
  | .socket => l.server.port = some l.dataPort ∧ l.server.conns l.dataPort = {}
  | .address => Waits l l.dataPort
  | .connect port _ => Waits l port
  | .cdDir => ∃ n p, Connected l n p
  | .stor => (∃ n p, Connected l n p) ∧ l.server.cwd = u.path
  | .send => ∃ n p, Storing u l n p

theorem owns_of_not_transfer {u : Put} {l : Link} {p : Place} (h : p.transfer = false) :
    Owns u l p := by
  cases p <;> trivial

/-- Ports that were not opened are new, and what was received was meant for its file. -/
structure Sound (l : Link) : Prop where
  fresh : ∀ p, l.server.ports ≤ p → l.server.conns p = {}
  port : ∀ p, l.server.port = some p → p < l.server.ports
  sockets : ∀ n p, l.sockets n = .connected p → p < l.server.ports
  received : ∀ r ∈ l.server.received, r.1 = r.2.target

section Link

variable {l l' : Link} {e : Meets} {u : Put} {cmd : Command} {p q : Place} {r : Reply}

/-! ## Steps that leave the others alone -/

/-- Only the current directory, the status and replies without 226 may change. -/
structure Kept (l l' : Link) : Prop where
  port : l'.server.port = l.server.port
  ports : l'.server.ports = l.server.ports
  conns : l'.server.conns = l.server.conns
  files : l'.server.files = l.server.files
  received : l'.server.received = l.server.received
  dataPort : l'.dataPort = l.dataPort
  dataSocket : l'.dataSocket = l.dataSocket
  sockets : l'.sockets = l.sockets
  inbox : ∀ r ∈ l'.inbox, r.code = 226 → r ∈ l.inbox

theorem Kept.refl (l : Link) : Kept l l := ⟨rfl, rfl, rfl, rfl, rfl, rfl, rfl, rfl, fun _ h _ => h⟩

theorem Kept.trans {l'' : Link} (h : Kept l l') (h' : Kept l' l'') : Kept l l'' where
  port := h'.port.trans h.port
  ports := h'.ports.trans h.ports
  conns := h'.conns.trans h.conns
  files := h'.files.trans h.files
  received := h'.received.trans h.received
  dataPort := h'.dataPort.trans h.dataPort
  dataSocket := h'.dataSocket.trans h.dataSocket
  sockets := h'.sockets.trans h.sockets
  inbox := fun r hr hcode => h.inbox r (h'.inbox r hr hcode) hcode

theorem Sound.kept (h : Sound l) (hk : Kept l l') : Sound l' where
  fresh := by rw [hk.ports, hk.conns]; exact h.fresh
  port := by rw [hk.ports, hk.port]; exact h.port
  sockets := by rw [hk.ports, hk.sockets]; exact h.sockets
  received := by rw [hk.received]; exact h.received

theorem Waits.kept {port : Nat} (h : Waits l port) (hk : Kept l l') : Waits l' port where
  port := hk.port.trans h.port
  conn := by rw [hk.conns]; exact h.conn
  socket := by rw [hk.dataSocket, hk.sockets]; exact h.socket

theorem Connected.kept {n port : Nat} (h : Connected l n port) (hk : Kept l l') :
    Connected l' n port where
  dataSocket := hk.dataSocket.trans h.dataSocket
  socket := by rw [hk.sockets]; exact h.socket
  port := hk.port.trans h.port
  conn := by rw [hk.conns]; exact h.conn

theorem Storing.kept {n port : Nat} (h : Storing u l n port) (hk : Kept l l') :
    Storing u l' n port where
  dataSocket := hk.dataSocket.trans h.dataSocket
  socket := by rw [hk.sockets]; exact h.socket
  conn := by rw [hk.conns]; exact h.conn
  file := by rw [hk.files]; exact h.file
  inbox := fun r hr hcode => h.inbox r (hk.inbox r hr hcode) hcode

theorem Owns.kept (h : Owns u l q) (hk : Kept l l')
    (hcwd : q = .stor → l'.server.cwd = l.server.cwd) : Owns u l' q := by
  cases q with
  | check | clear | cdRoot | mkDirs | pasv | giveUp => trivial
  | socket =>
    show l'.server.port = some l'.dataPort ∧ l'.server.conns l'.dataPort = {}
    rw [hk.port, hk.conns, hk.dataPort]
    exact h
  | address =>
    have hw : Waits l' l.dataPort := Waits.kept h hk
    rwa [← hk.dataPort] at hw
  | connect port tries => exact Waits.kept h hk
  | cdDir =>
    obtain ⟨n, port, hc⟩ := h
    exact ⟨n, port, hc.kept hk⟩
  | stor =>
    obtain ⟨⟨n, port, hc⟩, hdir⟩ := h
    exact ⟨⟨n, port, hc.kept hk⟩, (hcwd rfl).trans hdir⟩
  | send =>
    obtain ⟨n, port, hs⟩ := h
    exact ⟨n, port, hs.kept hk⟩

/-- A command is not sent, or it is answered and the reply is read or not. -/
theorem request_cases (l : Link) (e : Meets) (cmd : Command) :
    (∃ i b, (∀ r ∈ i, r ∈ l.inbox) ∧ l.request e cmd = (none, { l with inbox := i, statusOk := b }))
      ∨ (∃ b, l.request e cmd = (none, { l with
          inbox := (l.server.answer e cmd).1
          server := (l.server.answer e cmd).2
          statusOk := b }))
      ∨ ∃ r rs, (l.server.answer e cmd).1 = r :: rs ∧ l.request e cmd = (some r, { l with
          inbox := []
          server := (l.server.answer e cmd).2 }) := by
  unfold Link.request Link.ftpSendCmd
  by_cases hopen : l.ctlOpen = true
  · by_cases hsent : e.sent = true
    · simp only [hopen, hsent, Bool.not_true, Bool.false_eq_true, if_false, if_true,
        Link.ftpRecvCmdResponse, Bool.true_and]
      by_cases hgot : e.got = true
      · cases hanswer : (l.server.answer e cmd).1 with
        | nil => exact .inr (.inl ⟨false, by simp [hgot]⟩)
        | cons r rs => exact .inr (.inr ⟨r, rs, rfl, by simp [hgot]⟩)
      · exact .inr (.inl ⟨false, by simp [hgot]⟩)
    · exact .inl ⟨[], false, by simp, by simp [hopen, hsent]⟩
  · refine .inl ⟨l.inbox, l.statusOk, fun _ h => h, ?_⟩
    show _ = (none, l)
    simp [hopen]

/-- A command that is no `PASV` and no `STOR`. -/
def Command.Quiet : Command → Prop
  | .cwd _ | .mkd _ | .noop => True
  | .pasv | .stor _ => False

theorem answer_quiet (s : Server) (e : Meets) (hq : cmd.Quiet) :
    (∃ cwd, (s.answer e cmd).2 = { s with cwd }) ∧ ∀ r ∈ (s.answer e cmd).1, r.code ≠ 226 := by
  cases cmd with
  | cwd dir =>
    cases haccepts : e.accepts with
    | true => exact ⟨⟨dir, by simp [Server.answer, haccepts]⟩, by simp [Server.answer, haccepts]⟩
    | false => exact ⟨⟨s.cwd, by simp [Server.answer, haccepts]⟩, by simp [Server.answer, haccepts]⟩
  | mkd dir => exact ⟨⟨s.cwd, rfl⟩, by cases haccepts : e.accepts <;> simp [Server.answer, haccepts]⟩
  | noop => exact ⟨⟨s.cwd, rfl⟩, by cases haccepts : e.accepts <;> simp [Server.answer, haccepts]⟩
  | pasv => exact hq.elim
  | stor filename => exact hq.elim

theorem request_kept (l : Link) (e : Meets) (cmd : Command) (hq : cmd.Quiet) : Kept l (l.request e cmd).2 := by
  obtain ⟨⟨cwd, hserver⟩, hcodes⟩ := answer_quiet l.server e hq
  rcases request_cases l e cmd with ⟨i, b, hi, h⟩ | ⟨b, h⟩ | ⟨r, rs, -, h⟩
  · rw [h]
    exact ⟨rfl, rfl, rfl, rfl, rfl, rfl, rfl, rfl, fun r hr _ => hi r hr⟩
  · rw [h, hserver]
    exact ⟨rfl, rfl, rfl, rfl, rfl, rfl, rfl, rfl, fun r hr hcode => absurd hcode (hcodes r hr)⟩
  · rw [h, hserver]
    exact ⟨rfl, rfl, rfl, rfl, rfl, rfl, rfl, rfl, fun r hr => absurd hr List.not_mem_nil⟩

theorem request_cwd (l : Link) (e : Meets) (cmd : Command)
    (hq : (l.server.answer e cmd).2.cwd = l.server.cwd) :
    (l.request e cmd).2.server.cwd = l.server.cwd := by
  rcases request_cases l e cmd with ⟨i, b, -, h⟩ | ⟨b, h⟩ | ⟨r, rs, -, h⟩
  · rw [h]
  · rw [h]
    exact hq
  · rw [h]
    exact hq

theorem mkdLoop_kept (e : Meets) (dirs : List (List UInt8)) (n k : Nat) (l : Link) :
    Kept l (Link.mkdLoop e dirs n k l).2
      ∧ (Link.mkdLoop e dirs n k l).2.server.cwd = l.server.cwd := by
  induction n generalizing k l with
  | zero => exact ⟨Kept.refl l, rfl⟩
  | succ n ih =>
    rw [Link.mkdLoop]
    have hkept := request_kept l { e with sent := e.mkdSent k, got := e.mkdGot k }
      (.mkd (cmdDir dirs (k + 1))) trivial
    have hcwd := request_cwd l { e with sent := e.mkdSent k, got := e.mkdGot k }
      (.mkd (cmdDir dirs (k + 1))) rfl
    rcases hreq : l.request { e with sent := e.mkdSent k, got := e.mkdGot k }
      (.mkd (cmdDir dirs (k + 1))) with ⟨reply, l'⟩
    rw [hreq] at hkept hcwd
    cases reply with
    | none => exact ⟨hkept, hcwd⟩
    | some r =>
      obtain ⟨hkept', hcwd'⟩ := ih (k + 1) l'
      exact ⟨hkept.trans hkept', hcwd'.trans hcwd⟩

theorem ftpCheckFtpSta_kept (l : Link) (e : Meets) : Kept l (l.ftpCheckFtpSta e)
    ∧ (l.ftpCheckFtpSta e).server.cwd = l.server.cwd := by
  have hkept := request_kept l e .noop trivial
  have hcwd := request_cwd l e .noop rfl
  unfold Link.ftpCheckFtpSta
  rcases hreq : l.request e .noop with ⟨reply, l'⟩
  rw [hreq] at hkept hcwd
  obtain ⟨h1, h2, h3, h4, h5, h6, h7, h8, h9⟩ := hkept
  cases reply with
  | none => exact ⟨⟨h1, h2, h3, h4, h5, h6, h7, h8, h9⟩, hcwd⟩
  | some r =>
    dsimp only
    split
    · exact ⟨⟨h1, h2, h3, h4, h5, h6, h7, h8, h9⟩, hcwd⟩
    · exact ⟨⟨h1, h2, h3, h4, h5, h6, h7, h8, h9⟩, hcwd⟩

/-! ## The steps of an upload -/

/-- What a step has to leave: what the upload goes on with, or its bytes in its file. -/
structure StepOk (u : Put) (r : Link × Next) : Prop where
  sound : Sound r.1
  goto : ∀ p, r.2 = .goto p → Owns u r.1 p
  ret : r.2 = .ret SUCCESS → r.1.server.files u.target = some u.bytes

theorem StepOk.of_goto (hs : Sound l) (ho : Owns u l p) : StepOk u (l, .goto p) where
  sound := hs
  goto := by
    rintro p ⟨⟩
    exact ho
  ret := nofun

theorem StepOk.of_failure (hs : Sound l) : StepOk u (l, .ret FAILURE) where
  sound := hs
  goto := nofun
  ret h := absurd (Next.ret.inj h) FAILURE_ne_SUCCESS

theorem Sound.congr (h : Sound l) (hserver : l'.server = l.server)
    (hsockets : l'.sockets = l.sockets) : Sound l' where
  fresh := by rw [hserver]; exact h.fresh
  port := by rw [hserver]; exact h.port
  sockets := by rw [hserver, hsockets]; exact h.sockets
  received := by rw [hserver]; exact h.received

/-- The server opens a port. -/
def Server.opened (s : Server) : Server := { s with port := some s.ports, ports := s.ports + 1 }

theorem Sound.opened (h : Sound l) : Sound { l with server := l.server.opened } where
  fresh p hp := h.fresh p (Nat.le_of_succ_le hp)
  port p hp := by
    cases hp
    exact Nat.lt_succ_self _
  sockets n p hn := Nat.lt_succ_of_lt (h.sockets n p hn)
  received := h.received

theorem step_pasv (hs : Sound l) : StepOk u (l.step e u .pasv) := by
  have hanswer : l.server.answer e .pasv = ([⟨227, l.server.ports⟩], l.server.opened)
      ∨ l.server.answer e .pasv = ([⟨502, 0⟩], l.server) := by
    cases haccepts : e.accepts with
    | true => exact .inl (by simp [Server.answer, haccepts, Server.opened])
    | false => exact .inr (by simp [Server.answer, haccepts])
  rcases request_cases l e .pasv with ⟨i, b, -, h⟩ | ⟨b, h⟩ | ⟨r, rs, hr, h⟩
  · rw [Link.step, h]
    exact .of_failure (hs.congr rfl rfl)
  · rw [Link.step, h]
    rcases hanswer with hanswer | hanswer
    · rw [hanswer]
      exact .of_failure (hs.opened.congr rfl rfl)
    · rw [hanswer]
      exact .of_failure (hs.congr rfl rfl)
  · rw [Link.step, h]
    rcases hanswer with hanswer | hanswer
    · rw [hanswer] at hr ⊢
      cases hr
      exact .of_goto (hs.opened.congr rfl rfl) ⟨rfl, hs.fresh _ (Nat.le_refl _)⟩
    · rw [hanswer] at hr ⊢
      cases hr
      exact .of_failure (hs.congr rfl rfl)

theorem step_socket (hs : Sound l) (ho : Owns u l .socket) : StepOk u (l.step e u .socket) := by
  rw [Link.step]
  split
  · refine .of_goto ⟨hs.fresh, hs.port, ?_, hs.received⟩ ⟨ho.1, ho.2, l.created, rfl, ?_⟩
    · intro n p hn
      by_cases hcreated : n = l.created
      · rw [hcreated] at hn
        simp [Link.mkSocket] at hn
      · refine hs.sockets n p ?_
        simpa [Link.mkSocket, hcreated] using hn
    · simp [Link.mkSocket]
  · exact .of_failure (hs.congr rfl rfl)

theorem step_connect {port tries : Nat} (hs : Sound l) (ho : Waits l port) :
    StepOk u (l.step e u (.connect port tries)) := by
  obtain ⟨n, hn, hsock⟩ := ho.socket
  have hlt := hs.port port ho.port
  rw [Link.step]
  cases hconnects : e.connects with
  | false =>
    have hnone : l.connect e port = none := by simp [Link.connect, hn, hconnects]
    rw [hnone]
    dsimp only
    split
    · exact .of_goto hs trivial
    · exact .of_goto hs ho
  | true =>
    have hsome : l.connect e port = some { l with
        sockets := Function.update l.sockets n (.connected port)
        server := { l.server with
          conns := Function.update l.server.conns port { accepted := true } } } := by
      simp [Link.connect, hn, hconnects, hsock, ho.port, ho.conn]
    rw [hsome]
    refine .of_goto ⟨fun p hp => ?_, hs.port, fun m p hm => ?_, hs.received⟩
      ⟨n, port, hn, by simp, ho.port, by simp⟩
    · have hne : p ≠ port := Nat.ne_of_gt (Nat.lt_of_lt_of_le hlt hp)
      simpa [hne] using hs.fresh p hp
    · by_cases hmn : m = n
      · rw [hmn] at hm
        simp only [Function.update_self, Sock.connected.injEq] at hm
        rw [← hm]
        exact hlt
      · refine hs.sockets m p ?_
        simpa [hmn] using hm

theorem step_cdDir (hs : Sound l) (ho : Owns u l .cdDir) : StepOk u (l.step e u .cdDir) := by
  have hkept := request_kept l e (.cwd u.path) trivial
  rw [Link.step]
  rcases request_cases l e (.cwd u.path) with ⟨i, b, -, h⟩ | ⟨b, h⟩ | ⟨r, rs, hr, h⟩
  · rw [h] at hkept ⊢
    exact .of_goto (hs.kept hkept) trivial
  · rw [h] at hkept ⊢
    exact .of_goto (hs.kept hkept) trivial
  · obtain ⟨n, port, hc⟩ := ho
    rw [h] at hkept ⊢
    cases haccepts : e.accepts with
    | true =>
      have hanswer : l.server.answer e (.cwd u.path)
          = ([⟨250, 0⟩], { l.server with cwd := u.path }) := by simp [Server.answer, haccepts]
      rw [hanswer] at hr hkept ⊢
      cases hr
      exact .of_goto (hs.kept hkept) ⟨⟨n, port, hc.kept hkept⟩, rfl⟩
    | false =>
      have hanswer : l.server.answer e (.cwd u.path) = ([⟨550, 0⟩], l.server) := by
        simp [Server.answer, haccepts]
      rw [hanswer] at hr hkept ⊢
      cases hr
      exact .of_goto (hs.kept hkept) trivial

theorem Sound.stored {filename : List UInt8} {n port : Nat} (h : Sound l) (hc : Connected l n port) :
    Sound { l with server := l.server.store filename port } where
  fresh p hp := by
    have hne : p ≠ port := Nat.ne_of_gt (Nat.lt_of_lt_of_le (h.port port hc.port) hp)
    simpa [Server.store, hne] using h.fresh p hp
  port := nofun
  sockets := h.sockets
  received := by simpa [Server.store, hc.conn] using h.received

theorem step_stor (hs : Sound l) (ho : Owns u l .stor) : StepOk u (l.step e u .stor) := by
  obtain ⟨⟨n, port, hc⟩, hcwd⟩ := ho
  have hanswer : l.server.answer e (.stor u.filename)
        = ([⟨150, 0⟩], l.server.store u.filename port)
      ∨ l.server.answer e (.stor u.filename) = ([⟨425, 0⟩], l.server) := by
    cases haccepts : e.accepts with
    | true => exact .inl (by simp [Server.answer, haccepts, hc.port, hc.conn])
    | false => exact .inr (by simp [Server.answer, haccepts, hc.port])
  rw [Link.step]
  rcases request_cases l e (.stor u.filename) with ⟨i, b, -, h⟩ | ⟨b, h⟩ | ⟨r, rs, hr, h⟩
  · rw [h]
    exact .of_goto (hs.congr rfl rfl) trivial
  · rw [h]
    rcases hanswer with hanswer | hanswer
    · rw [hanswer]
      exact .of_goto ((hs.stored hc).congr rfl rfl) trivial
    · rw [hanswer]
      exact .of_goto (hs.congr rfl rfl) trivial
  · rw [h]
    rcases hanswer with hanswer | hanswer
    · rw [hanswer] at hr ⊢
      cases hr
      refine .of_goto ((hs.stored hc).congr rfl rfl) ⟨n, port, hc.dataSocket, hc.socket, ?_, ?_, nofun⟩
      · simp [Server.store, hc.conn, hcwd, Put.target]
      · simp [Server.store, hc.conn, hcwd, Put.target]
    · rw [hanswer] at hr ⊢
      cases hr
      exact .of_goto (hs.congr rfl rfl) trivial

theorem Sound.closed (h : Sound l) : Sound (l.ftpCloseDataSocket e) := by
  unfold Link.ftpCloseDataSocket
  cases hsocket : l.dataSocket with
  | none => exact h
  | some n =>
    have hsockets : ∀ m p, Function.update l.sockets n .closed m = .connected p →
        p < l.server.ports := by
      intro m p hm
      by_cases hmn : m = n
      · simp [hmn] at hm
      · exact h.sockets m p (by simpa [hmn] using hm)
    dsimp only
    cases hsock : l.sockets n with
    | closed => exact ⟨h.fresh, h.port, hsockets, h.received⟩
    | unconnected => exact ⟨h.fresh, h.port, hsockets, h.received⟩
    | connected port =>
      refine ⟨fun p hp => ?_, h.port, hsockets, h.received⟩
      have hne : p ≠ port := Nat.ne_of_gt (Nat.lt_of_lt_of_le (h.sockets n port hsock) hp)
      simpa [Server.hangUp, hne] using h.fresh p hp

/-- An upload that its sends let go on has sent its bytes. -/
theorem sent_of_success {send : Nat → Nat → Option Nat} (hseg : u.SegmentsTaken send)
    (h : (u.sendAll send {}).1 = SUCCESS) : (u.sendAll send {}).2.sent = u.bytes := by
  cases u with
  | data dir filename buf =>
    rw [Put.sendAll, ftpSendData_success h]
    rfl
  | data2 dir filename buf buf2 =>
    cases buf2 with
    | none =>
      rw [Put.sendAll] at h ⊢
      rw [ftpSendData_success h]
      exact (List.append_nil _).symm
    | some bytes2 =>
      rw [Put.sendAll] at h ⊢
      dsimp only at h ⊢
      obtain ⟨hone, htwo⟩ := success_of_lor h
      rw [ftpSendData_success htwo, ftpSendData_success hone]
      rfl
  | h264 dir filename vidinfo =>
    obtain ⟨hret, out, -, hsent, hall⟩ :=
      sendSegments_spec send (vidinfo.getD []) 0 (-1, {})
    simp only [Nat.zero_add] at hret hall
    rw [Put.sendAll] at h ⊢
    rcases hret.mp h with ⟨-, hneg⟩ | hlast
    · exact absurd hneg (show (-1 : Int) ≠ 0 by decide)
    · rw [hsent, hall.mpr (hseg hlast)]
      rfl

/-- The server stores what arrives and ends the transfer. -/
def Server.served (s : Server) (e : Meets) (u : Put) (bytes : List UInt8) (p : Nat) : Server :=
  { s with
    conns := Function.update s.conns p { accepted := true, ended := true, file := some u.target }
    files := Function.update s.files u.target
      (some (if e.final = 226 then bytes else bytes.take e.keeps))
    received := s.received ++ [(u.target, u)] }

theorem sendBytes_eq {n port : Nat} (h : Storing u l n port) :
    l.sendBytes e u = ((u.sendAll e.send {}).1, { l with
      sockets := Function.update l.sockets n .closed
      inbox := l.inbox ++ [⟨e.final, 0⟩]
      server := l.server.served e u (u.sendAll e.send {}).2.sent port }) := by
  have hconnected : l.connectedTo = some port := by
    simp [Link.connectedTo, h.dataSocket, h.socket]
  simp [Link.sendBytes, hconnected, Link.ftpCloseDataSocket, h.dataSocket, h.socket, Server.hangUp,
    Server.arrive, h.conn, h.file, Server.served]

theorem Sound.served {n port : Nat} (h : Sound l) (hst : Storing u l n port) (e : Meets)
    (bytes : List UInt8) :
    Sound { l with
      sockets := Function.update l.sockets n .closed
      server := l.server.served e u bytes port } where
  fresh p hp := by
    have hne : p ≠ port :=
      Nat.ne_of_gt (Nat.lt_of_lt_of_le (h.sockets n port hst.socket) hp)
    simpa [Server.served, hne] using h.fresh p hp
  port := h.port
  sockets m p hm := by
    by_cases hmn : m = n
    · simp [hmn] at hm
    · exact h.sockets m p (by simpa [hmn] using hm)
  received r hr := by
    rcases List.mem_append.mp hr with hr | hr
    · exact h.received r hr
    · rw [List.mem_singleton.mp hr]

/-- An upload that reads 226 has got it for its own data. -/
theorem conclude_ok (hs : Sound l) {final : Nat} {inbox : List Reply}
    (hinbox : l.inbox = inbox ++ [⟨final, 0⟩]) (hcodes : ∀ r ∈ inbox, r.code ≠ 226)
    (hfile : final = 226 → l.server.files u.target = some u.bytes) : StepOk u (l.conclude e) := by
  have hread : ∃ r rs, l.inbox = r :: rs ∧ (r.code = 226 → final = 226) := by
    rw [hinbox]
    cases inbox with
    | nil => exact ⟨_, _, rfl, fun hcode => hcode⟩
    | cons r rs => exact ⟨r, _, rfl, fun hcode => absurd hcode (hcodes r List.mem_cons_self)⟩
  obtain ⟨r, rs, hcons, hfinal⟩ := hread
  unfold Link.conclude Link.ftpRecvCmdResponse
  by_cases hgot : (l.ctlOpen && e.got) = true
  · rw [if_pos hgot, hcons]
    dsimp only
    by_cases hcode : r.code = 226
    · rw [if_pos hcode]
      exact ⟨hs.congr rfl rfl, nofun, fun _ => hfile (hfinal hcode)⟩
    · rw [if_neg hcode]
      split
      · exact .of_failure (hs.congr rfl rfl)
      · exact .of_failure (hs.congr rfl rfl)
  · rw [if_neg hgot]
    exact .of_failure (hs.congr rfl rfl)

theorem step_send (hs : Sound l) (ho : Owns u l .send) (hseg : u.SegmentsTaken e.send) :
    StepOk u (l.step e u .send) := by
  obtain ⟨n, port, hst⟩ := ho
  have hserved := hs.served hst e (u.sendAll e.send {}).2.sent
  rw [Link.step, sendBytes_eq hst]
  dsimp only
  by_cases hret : (u.sendAll e.send {}).1 = SUCCESS
  · rw [if_neg (not_not_intro hret)]
    refine conclude_ok (hserved.congr rfl rfl) rfl hst.inbox fun hfinal => ?_
    simp [Server.served, hfinal, sent_of_success hseg hret]
  · rw [if_pos hret]
    exact .of_failure (hserved.congr rfl rfl)

/-- What an upload relies on is there at its next place. -/
theorem step_ok (hs : Sound l) (ho : Owns u l p) (hseg : p = .send → u.SegmentsTaken e.send) :
    StepOk u (l.step e u p) := by
  cases p with
  | check =>
    rw [Link.step]
    split
    · exact .of_goto hs trivial
    · exact .of_failure hs
  | clear => exact .of_goto (hs.congr rfl rfl) trivial
  | cdRoot => exact .of_goto (hs.kept (request_kept l e _ trivial)) trivial
  | mkDirs =>
    have hkept := (mkdLoop_kept e (levels u.dir) (levels u.dir).length 0 l).1
    rw [Link.step]
    split
    · exact .of_goto (hs.kept hkept) trivial
    · exact .of_failure (hs.kept hkept)
  | pasv => exact step_pasv hs
  | socket => exact step_socket hs ho
  | address => exact .of_goto hs ho
  | connect port tries => exact step_connect hs ho
  | cdDir => exact step_cdDir hs ho
  | stor => exact step_stor hs ho
  | send => exact step_send hs ho (hseg rfl)
  | giveUp => exact .of_failure hs.closed

/-- A step leaves the uploads alone that it is apart from. -/
theorem step_apart (hpq : p.Apart q) (hq : q.transfer = true) :
    Kept l (l.step e u p).1 ∧ (q = .stor → (l.step e u p).1.server.cwd = l.server.cwd) := by
  have hnot : ¬ q.transfer = false := by simp [hq]
  cases p with
  | check => exact ⟨Kept.refl l, fun _ => rfl⟩
  | clear =>
    exact ⟨⟨rfl, rfl, rfl, rfl, rfl, rfl, rfl, rfl, fun r hr => absurd hr List.not_mem_nil⟩,
      fun _ => rfl⟩
  | cdRoot => exact ⟨request_kept l e _ trivial, fun hstor => absurd hstor hpq⟩
  | mkDirs =>
    obtain ⟨hkept, hcwd⟩ := mkdLoop_kept e (levels u.dir) (levels u.dir).length 0 l
    exact ⟨hkept, fun _ => hcwd⟩
  | pasv | socket | address | connect | cdDir | stor | send | giveUp => exact absurd hpq hnot

theorem step_transfer {p' : Place} (h : (l.step e u p).2 = .goto p') (hp' : p'.transfer = true)
    (hpq : p.Apart q) : q.transfer = false := by
  cases p with
  | check =>
    rw [Link.step] at h
    dsimp only at h
    split at h <;> cases h
    cases hp'
  | clear => cases h; cases hp'
  | cdRoot => cases h; cases hp'
  | mkDirs =>
    rw [Link.step] at h
    dsimp only at h
    split at h <;> cases h
    cases hp'
  | pasv | socket | address | connect | cdDir | stor | send | giveUp => exact hpq

end Link

/-! ## Runs -/

section Run

variable {s s' : Channel τ} {i : ChannelOp τ}

/-- At most one upload is between its `PASV` and its end; it has what it relies on. -/
structure Inv (s : Channel τ) : Prop where
  sound : Sound s.link
  exclusive : ∀ t t' u u' p p', s.threads t = some (u, p) → s.threads t' = some (u', p') →
    p.transfer = true → p'.transfer = true → t = t'
  owns : ∀ t u p, s.threads t = some (u, p) → Owns u s.link p
  returned : ∀ r ∈ s.returned, r.ret = SUCCESS → r.content = some r.put.bytes

theorem inv_init (cwd : List UInt8) (files : File → Option (List UInt8)) :
    Inv (channelInit cwd files : Channel τ) where
  sound := ⟨fun _ _ => rfl, nofun, nofun, nofun⟩
  exclusive _ _ _ _ _ _ h := by cases h
  owns _ _ _ h := by cases h
  returned := nofun

theorem Inv.noop (h : Inv s) (e : Meets) : Inv { s with link := s.link.ftpCheckFtpSta e } where
  sound := h.sound.kept (ftpCheckFtpSta_kept _ e).1
  exclusive := h.exclusive
  owns t u p ht := (h.owns t u p ht).kept (ftpCheckFtpSta_kept _ e).1
    fun _ => (ftpCheckFtpSta_kept _ e).2
  returned := h.returned

variable [DecidableEq τ]

/-- A thread goes to another place, or is through, with a link that suits the others. -/
theorem Inv.update {t : τ} {link : Link} {x : Option (Put × Place)} {returned : List Returned}
    (h : Inv s) (hsound : Sound link)
    (hothers : ∀ t' u q, t' ≠ t → s.threads t' = some (u, q) → Owns u link q)
    (howns : ∀ u p, x = some (u, p) → Owns u link p)
    (halone : ∀ u p, x = some (u, p) → p.transfer = true →
      ∀ t' u' q, t' ≠ t → s.threads t' = some (u', q) → q.transfer = false)
    (hreturned : ∀ r ∈ returned, r.ret = SUCCESS → r.content = some r.put.bytes) :
    Inv { link, threads := Function.update s.threads t x, returned } where
  sound := hsound
  exclusive t₁ t₂ u₁ u₂ p₁ p₂ h₁ h₂ hp₁ hp₂ := by
    dsimp only at h₁ h₂
    by_cases ht₁ : t₁ = t
    · by_cases ht₂ : t₂ = t
      · exact ht₁.trans ht₂.symm
      · rw [ht₁, Function.update_self] at h₁
        rw [Function.update_of_ne ht₂] at h₂
        rw [halone _ _ h₁ hp₁ _ _ _ ht₂ h₂] at hp₂
        cases hp₂
    · rw [Function.update_of_ne ht₁] at h₁
      by_cases ht₂ : t₂ = t
      · rw [ht₂, Function.update_self] at h₂
        rw [halone _ _ h₂ hp₂ _ _ _ ht₁ h₁] at hp₁
        cases hp₁
      · rw [Function.update_of_ne ht₂] at h₂
        exact h.exclusive t₁ t₂ u₁ u₂ p₁ p₂ h₁ h₂ hp₁ hp₂
  owns t' u p ht' := by
    dsimp only at ht'
    by_cases ht : t' = t
    · rw [ht, Function.update_self] at ht'
      exact howns u p ht'
    · rw [Function.update_of_ne ht] at ht'
      exact hothers t' u p ht ht'
  returned := hreturned

theorem Inv.step (h : Inv s) (hfree : Undisturbed s i) (hstep : channelStep s i = some s') :
    Inv s' := by
  cases i with
  | call t u =>
    rw [channelStep] at hstep
    cases ht : s.threads t with
    | some x =>
      rw [ht] at hstep
      cases hstep
    | none =>
      rw [ht] at hstep
      cases hstep
      refine h.update h.sound (fun t' u q _ ht' => h.owns t' u q ht') ?_ ?_ h.returned
      · rintro u p ⟨⟩
        trivial
      · rintro u p ⟨⟩ hp
        cases hp
  | noop e =>
    cases hstep
    exact h.noop e
  | go t e =>
    rw [channelStep] at hstep
    cases ht : s.threads t with
    | none =>
      rw [ht] at hstep
      cases hstep
    | some x =>
      obtain ⟨u, p⟩ := x
      obtain ⟨hapart, hseg⟩ := hfree (u, p) ht
      have hok : StepOk u (s.link.step e u p) := step_ok h.sound (h.owns t u p ht) hseg
      have hothers : ∀ t' u' q, t' ≠ t → s.threads t' = some (u', q) →
          Owns u' (s.link.step e u p).1 q := by
        intro t' u' q hne ht'
        cases hq : q.transfer with
        | true =>
          obtain ⟨hkept, hcwd⟩ := step_apart (l := s.link) (e := e) (u := u)
            (hapart t' hne (u', q) ht') hq
          exact (h.owns t' u' q ht').kept hkept hcwd
        | false => exact owns_of_not_transfer hq
      rw [ht] at hstep
      dsimp only at hstep
      rcases hres : s.link.step e u p with ⟨link, next⟩
      rw [hres] at hok hothers hstep
      cases next with
      | goto p' =>
        cases hstep
        refine h.update hok.sound hothers ?_ ?_ h.returned
        · rintro u p ⟨⟩
          exact hok.goto p' rfl
        · rintro u₁ p₁ ⟨⟩ hp' t' u' q hne ht'
          exact step_transfer (congrArg Prod.snd hres) hp' (hapart t' hne (u', q) ht')
      | ret n =>
        cases hstep
        refine h.update hok.sound hothers nofun nofun fun r hr hsuccess => ?_
        rcases List.mem_append.mp hr with hr | hr
        · exact h.returned r hr hsuccess
        · rw [List.mem_singleton.mp hr] at hsuccess ⊢
          cases hsuccess
          exact hok.ret rfl

instance (result : Option Nat) (n : Nat) : Decidable (Took result n) :=
  match result with
  | none => isFalse (by rintro ⟨k, hk, -⟩; cases hk)
  | some k => decidable_of_iff (n ≤ k)
    ⟨fun hle => ⟨k, rfl, hle⟩, by rintro ⟨k', ⟨⟩, hle⟩; exact hle⟩

instance (send : Nat → Option Nat) (buf : List UInt8) : Decidable (PacketsTaken send buf) :=
  inferInstanceAs (Decidable (∀ i < _, _))

instance (send : Nat → Option Nat) (buf : List UInt8) : Decidable (Full send buf) :=
  inferInstanceAs (Decidable (_ ∧ _))

instance (send : Nat → Option Nat) (buf : List UInt8) : Decidable (Whole send buf) :=
  inferInstanceAs (Decidable (_ ∧ _))

instance (send : Nat → Nat → Option Nat) (u : Put) : Decidable (u.SegmentsTaken send) :=
  match u with
  | .data _ _ _ | .data2 _ _ _ _ => isTrue trivial
  | .h264 _ _ vidinfo => decidable_of_iff
    ((∃ seg ∈ (vidinfo.getD []).getLast?, Full (send ((vidinfo.getD []).length - 1)) seg) →
      ∀ k < (vidinfo.getD []).length, ∀ seg ∈ (vidinfo.getD [])[k]?, Whole (send k) seg)
    ⟨fun h hlast k seg hk => h hlast k (List.getElem?_eq_some_iff.mp hk).1 seg hk,
      fun h hlast k _ seg hk => h hlast k seg hk⟩

instance (p q : Place) : Decidable (p.Apart q) := by
  cases p <;> unfold Place.Apart <;> infer_instance

instance [Fintype τ] (s : Channel τ) (i : ChannelOp τ) : Decidable (Undisturbed s i) :=
  match i with
  | .call _ _ | .noop _ => isTrue trivial
  | .go t e => inferInstanceAs (Decidable (∀ x ∈ s.threads t,
    (∀ t' ≠ t, ∀ x' ∈ s.threads t', x.2.Apart x'.2) ∧ (x.2 = .send → x.1.SegmentsTaken e.send)))

/-- A picture of the thread, in a directory of its own. -/
def picture (t : Bool) : Put :=
  .data [if t then [97] else [98]] [112] (some (if t then [1, 2, 3] else [4, 5]))

/-- A thread takes so many steps, which all succeed. -/
def steps (t : Bool) (n : Nat) : List (ChannelOp Bool) := List.replicate n (.go t {})

/-- A thread goes to the root between `CWD` and `STOR` of the other one. -/
def mixedRun : List (ChannelOp Bool) :=
  .call true (picture true) :: steps true 9 ++ .call false (picture false) :: steps false 3
    ++ steps true 2

/-- The upload returns success, and its file is not there. -/
theorem not_uploads_unmixed : ∃ s : Channel Bool,
    Misc.runFrom channelStep (channelInit [] fun _ => none) mixedRun = some s ∧ ¬ Unmixed s := by
  have hreturned : (Misc.runFrom channelStep (channelInit [] fun _ => none) mixedRun).map
      Channel.returned = some [⟨picture true, SUCCESS, none⟩] := by decide +kernel
  obtain ⟨s, hrun, hs⟩ := Option.map_eq_some_iff.mp hreturned
  refine ⟨s, hrun, fun h => ?_⟩
  have hcontent := h.returned ⟨picture true, SUCCESS, none⟩ (by rw [hs]; decide) rfl
  cases hcontent

end Run

end VdCamera.Ftp.Shared
