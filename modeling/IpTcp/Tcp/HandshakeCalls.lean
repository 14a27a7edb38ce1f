import IpTcp.Tcp.Handshake

/-! `VAccept` and `VConnect` as calls, with each of their exits and the table of sockets they
leave. Both insert a socket first and take it out again where they fail. What a call
receives is a parameter, and so is what `sendTcp` returns to it. -/

set_option autoImplicit false

namespace IpTcp.Tcp

open RingBuffer

abbrev Sockets (Buffer : Type) := TcpConn → Option (TcpSocket Buffer)

/-- How a call ends: with a connection and no error, with an error, or with the whole
process in `log.Fatalln`. -/
inductive Returned where
  | conn (conn : TcpConn)
  | error (text : String)
  | fatal (text : String)
  deriving DecidableEq, Repr

variable {Buffer : Type}

namespace Sockets

/-- `state.sockets[conn] = sock`; later changes of the socket are seen through the table. -/
def store (sockets : Sockets Buffer) (sock : TcpSocket Buffer) : Sockets Buffer :=
  Function.update sockets sock.conn (some sock)

def deleteConnSafe (sockets : Sockets Buffer) (conn : TcpConn) : Sockets Buffer :=
  Function.update sockets conn none

@[simp] theorem store_conn (sockets : Sockets Buffer) (sock : TcpSocket Buffer) :
    sockets.store sock sock.conn = some sock := by
  simp [store]

theorem deleteConnSafe_store (sockets : Sockets Buffer) {sock : TcpSocket Buffer} {conn : TcpConn}
    (own : sock.conn = conn) (absent : sockets conn = none) :
    (sockets.store sock).deleteConnSafe conn = sockets := by
  rw [deleteConnSafe, store, own, Function.update_idem, ← absent, Function.update_eq_self]

end Sockets

/-! ## `VAccept` -/

/-- The second `select` of `VAccept`: the first packet for the new socket, or the timeout. -/
def acceptAnswer (sockets : Sockets Buffer) (sock : TcpSocket Buffer) (answer : Option TcpPacket) :
    Returned × Sockets Buffer :=
  match answer with
  | some p =>
      if p.header.flags &&& tcpFlagAck ≠ 0 then
        if p.header.seqNum - sock.foreignInitSeqNum ≠ 1 then
          (.error "unexpected sequence number received", sockets.deleteConnSafe sock.conn)
        else if p.header.ackNum - sock.myInitSeqNum ≠ 1 then
          (.error "unexpected ack number received", sockets.deleteConnSafe sock.conn)
        else (.conn sock.conn, sockets.store (sock.acceptAck p.header))
      -- without the ACK flag the connection is handed out as it is
      else (.conn sock.conn, sockets)
  | none => (.error "connection timed out", sockets.deleteConnSafe sock.conn)

/-- The exits of `VConnect` past its `select`: the first packet for the socket, or the timeout
or a value on `sock.stop`. -/
inductive ConnectAnswer where
  | packet (packet : TcpPacket)
  | timeout
  | stop
  deriving DecidableEq, Repr

/-- The handshake of two nodes takes the same decisions as the calls. -/
theorem acceptAnswer_acceptReceive (sockets : Sockets Buffer) (sock : TcpSocket Buffer)
    (p : TcpPacket) : (acceptAnswer sockets sock (some p)).1 = .conn sock.conn ↔
      Handshake.acceptReceive sock p ≠ .failed := by
  unfold acceptAnswer Handshake.acceptReceive
  dsimp only
  split
  · split
    · simp
    · split <;> simp
  · simp

theorem acceptAnswer_not_fatal (sockets : Sockets Buffer) (sock : TcpSocket Buffer)
    (answer : Option TcpPacket) (text : String) :
    (acceptAnswer sockets sock answer).1 ≠ .fatal text := by
  cases answer with
  | none => simp [acceptAnswer]
  | some p =>
      unfold acceptAnswer
      dsimp only
      split
      · split
        · simp
        · split <;> simp
      · simp

/-! ## What the calls leave behind -/

/-- A call opens a connection exactly under a condition, the socket is then ESTABLISHED, and
otherwise the table is what it was. -/
structure Exact (opens : Prop) (result : Returned × Sockets Buffer) (before : Sockets Buffer) :
    Prop where
  opened : (∃ conn, result.1 = .conn conn) ↔ opens
  established : ∀ conn, result.1 = .conn conn →
    ∃ sock, result.2 conn = some sock ∧ sock.connState = .established
  rolledBack : (∀ conn, result.1 ≠ .conn conn) → result.2 = before

theorem Exact.failed {opens : Prop} {result : Returned × Sockets Buffer} {before : Sockets Buffer}
    (fails : ∀ conn, result.1 ≠ .conn conn) (same : result.2 = before) (never : ¬ opens) :
    Exact opens result before := by
  refine ⟨⟨?_, fun possible => absurd possible never⟩, ?_, fun _ => same⟩
  · rintro ⟨conn, returned⟩
    exact absurd returned (fails conn)
  · intro conn returned
    exact absurd returned (fails conn)

theorem exact_conn_iff {opens : Prop} {after before : Sockets Buffer} {sock : TcpSocket Buffer}
    (stored : after sock.conn = some sock) :
    Exact opens (.conn sock.conn, after) before ↔ opens ∧ sock.connState = .established := by
  constructor
  · intro sound
    obtain ⟨found, present, state⟩ := sound.established sock.conn rfl
    have same : sock = found := Option.some.inj (stored.symm.trans present)
    exact ⟨sound.opened.mp ⟨_, rfl⟩, same ▸ state⟩
  · rintro ⟨possible, state⟩
    refine ⟨⟨fun _ => possible, fun _ => ⟨_, rfl⟩⟩, ?_, fun fails => absurd rfl (fails _)⟩
    rintro conn ⟨rfl⟩
    exact ⟨sock, stored, state⟩

section
variable [Netstack]

def connectAnswer (sockets : Sockets Buffer) (sock : TcpSocket Buffer) (answer : ConnectAnswer)
    (sendErr : Option String) : Returned × Sockets Buffer :=
  match answer with
  | .packet packet =>
      if packet.header.flags ≠ tcpFlagAck ||| tcpFlagSyn then
        (.error "did not receive SYN-ACK during handshake", sockets.deleteConnSafe sock.conn)
      else if isValidTcpCheckSum packet.header sock.conn.foreignIP sock.conn.localIP packet.data = false then
        (.error "incorrect checksum in syn-ack packet", sockets.deleteConnSafe sock.conn)
      else if packet.header.ackNum - sock.myInitSeqNum ≠ 1 then
        (.error "incorrect ack number in the SYN-ACK packet", sockets.deleteConnSafe sock.conn)
      else
        match sendErr with
        | some _ =>
            (.fatal "Unable to send packet in connect() (some problem with IP)",
              sockets.deleteConnSafe sock.conn)
        | none => (.conn sock.conn, sockets.store (sock.connectSynAck packet.header))
  | .timeout => (.error "connection timed out", sockets.deleteConnSafe sock.conn)
  | .stop => (.error "connection closed", sockets.deleteConnSafe sock.conn)

theorem connectAnswer_connectReceive (sockets : Sockets Buffer)
    (sock : TcpSocket Buffer) (packet : TcpPacket) :
    (connectAnswer sockets sock (.packet packet) none).1 = .conn sock.conn ↔
      (Handshake.connectReceive sock packet).1 ≠ .failed := by
  unfold connectAnswer Handshake.connectReceive
  dsimp only
  split
  · simp
  · split
    · simp
    · split <;> simp

/-- The packet that `VAccept` should wait for. -/
structure Completes (sock : TcpSocket Buffer) (p : TcpPacket) : Prop where
  checksum : isValidTcpCheckSum p.header sock.conn.foreignIP sock.conn.localIP p.data = true
  flags : p.header.flags &&& tcpFlagAck ≠ 0
  seqNum : p.header.seqNum - sock.foreignInitSeqNum = 1
  ackNum : p.header.ackNum - sock.myInitSeqNum = 1

structure Welcomes (sock : TcpSocket Buffer) (packet : TcpPacket) : Prop where
  flags : packet.header.flags = tcpFlagSyn ||| tcpFlagAck
  checksum : isValidTcpCheckSum packet.header sock.conn.foreignIP sock.conn.localIP packet.data = true
  ackNum : packet.header.ackNum - sock.myInitSeqNum = 1

theorem acceptAnswer_exact_iff {sockets : Sockets Buffer} {sock : TcpSocket Buffer}
    (absent : sockets sock.conn = none) (answer : Option TcpPacket) :
    Exact (∃ p, answer = some p ∧ Completes sock p)
        (acceptAnswer (sockets.store sock) sock answer) sockets ↔
      ∀ p, answer = some p → p.header.flags &&& tcpFlagAck ≠ 0 ∧
        (p.header.seqNum - sock.foreignInitSeqNum = 1 → p.header.ackNum - sock.myInitSeqNum = 1 →
          isValidTcpCheckSum p.header sock.conn.foreignIP sock.conn.localIP p.data = true) := by
  have undone : (sockets.store sock).deleteConnSafe sock.conn = sockets :=
    sockets.deleteConnSafe_store rfl absent
  cases answer with
  | none =>
      refine iff_of_true (Exact.failed (by simp [acceptAnswer]) undone ?_) (by simp)
      rintro ⟨_, none, _⟩
      cases none
  | some p =>
      simp only [Option.some.injEq, exists_eq_left', forall_eq']
      unfold acceptAnswer
      dsimp only
      by_cases flags : p.header.flags &&& tcpFlagAck ≠ 0
      · rw [if_pos flags]
        by_cases seqNum : p.header.seqNum - sock.foreignInitSeqNum = 1
        · rw [if_neg (not_not.mpr seqNum)]
          by_cases ackNum : p.header.ackNum - sock.myInitSeqNum = 1
          · rw [if_neg (not_not.mpr ackNum)]
            -- The checksum has not been looked at.
            have stored := (sockets.store sock).store_conn (sock.acceptAck p.header)
            refine (exact_conn_iff stored).trans ⟨?_, ?_⟩
            · rintro ⟨completes, _⟩
              exact ⟨flags, fun _ _ => completes.checksum⟩
            · rintro ⟨_, checksum⟩
              exact ⟨⟨checksum seqNum ackNum, flags, seqNum, ackNum⟩, rfl⟩
          · rw [if_pos ackNum]
            exact iff_of_true (Exact.failed (by simp) undone fun completes => ackNum completes.ackNum)
              ⟨flags, fun _ same => absurd same ackNum⟩
        · rw [if_pos seqNum]
          exact iff_of_true (Exact.failed (by simp) undone fun completes => seqNum completes.seqNum)
            ⟨flags, fun same => absurd same seqNum⟩
      · rw [if_neg flags]
        -- Without the ACK flag the connection is handed out as it is.
        refine (exact_conn_iff (sockets.store_conn sock)).trans ⟨?_, ?_⟩
        · rintro ⟨completes, _⟩
          exact absurd completes.flags flags
        · rintro ⟨set, _⟩
          exact absurd set flags

theorem connectAnswer_exact_iff {sockets : Sockets Buffer} {sock : TcpSocket Buffer}
    (absent : sockets sock.conn = none) (answer : ConnectAnswer) (sendErr : Option String) :
    Exact (∃ packet, answer = .packet packet ∧ Welcomes sock packet)
        (connectAnswer (sockets.store sock) sock answer sendErr) sockets ↔
      ∀ packet, answer = .packet packet → Welcomes sock packet → sendErr = none := by
  have undone : (sockets.store sock).deleteConnSafe sock.conn = sockets :=
    sockets.deleteConnSafe_store rfl absent
  cases answer with
  | timeout | stop =>
      refine iff_of_true (Exact.failed (by simp [connectAnswer]) undone ?_) (by simp)
      rintro ⟨_, none, _⟩
      cases none
  | packet packet =>
      simp only [ConnectAnswer.packet.injEq, exists_eq_left', forall_eq']
      unfold connectAnswer
      dsimp only
      by_cases flags : packet.header.flags = tcpFlagAck ||| tcpFlagSyn
      · rw [if_neg (not_not.mpr flags)]
        by_cases checksum :
            isValidTcpCheckSum packet.header sock.conn.foreignIP sock.conn.localIP packet.data = true
        · rw [if_neg (by simp [checksum])]
          by_cases ackNum : packet.header.ackNum - sock.myInitSeqNum = 1
          · rw [if_neg (not_not.mpr ackNum)]
            have welcomes : Welcomes sock packet := ⟨flags, checksum, ackNum⟩
            cases sendErr with
            | none =>
                have stored := (sockets.store sock).store_conn (sock.connectSynAck packet.header)
                exact iff_of_true ((exact_conn_iff stored).mpr ⟨welcomes, rfl⟩) fun _ => rfl
            | some err =>
                -- The last ACK could not be sent, and the process ends.
                refine iff_of_false ?_ (by simp [welcomes])
                intro sound
                obtain ⟨_, returned⟩ := sound.opened.mpr welcomes
                cases returned
          · rw [if_pos ackNum]
            exact iff_of_true (Exact.failed (by simp) undone fun welcomes => ackNum welcomes.ackNum)
              fun welcomes => absurd welcomes.ackNum ackNum
        · rw [if_pos (by simpa using checksum)]
          exact iff_of_true (Exact.failed (by simp) undone fun welcomes => checksum welcomes.checksum)
            fun welcomes => absurd welcomes.checksum checksum
      · rw [if_pos flags]
        exact iff_of_true (Exact.failed (by simp) undone fun welcomes => flags welcomes.flags)
          fun welcomes => absurd welcomes.flags flags

end

section
variable [RingBuffer Buffer]

def connectRequest (conn : TcpConn) (sockets : Sockets Buffer) (isn : UInt32)
    (sendErr : Option String) : Except Returned (TcpSocket Buffer) × Sockets Buffer :=
  if (sockets conn).isSome then
    (.error (.error ("Error in VConnect: " ++ IntIP.string conn.foreignIP ++ ": " ++
      toString conn.foreignPort ++ " has already been connected.\n")), sockets)
  else
    let sock := makeTcpSocket .synSent conn 0 isn
    match sendErr with
    | some _ =>
        (.error (.fatal "Unable to send packet in connect() (some problem with IP)"),
          (sockets.store sock).deleteConnSafe conn)
    | none => (.ok sock, sockets.store sock)

theorem connectRequest_cases (conn : TcpConn) (sockets : Sockets Buffer) (isn : UInt32)
    (sendErr : Option String) :
    (∃ sock, connectRequest conn sockets isn sendErr = (.ok sock, sockets.store sock) ∧
      sock.conn = conn ∧ sockets sock.conn = none) ∨
    ∃ returned, connectRequest conn sockets isn sendErr = (.error returned, sockets) ∧
      ∀ conn, returned ≠ .conn conn := by
  unfold connectRequest
  split
  · exact Or.inr ⟨_, rfl, by simp⟩
  rename_i free
  have absent : sockets conn = none := by
    simpa using free
  cases sendErr with
  | some err =>
      refine Or.inr ⟨.fatal "Unable to send packet in connect() (some problem with IP)", ?_, by simp⟩
      exact congrArg (Prod.mk _) (sockets.deleteConnSafe_store rfl absent)
  | none => exact Or.inl ⟨_, rfl, rfl, absent⟩

variable [Netstack]

/-- `VAccept` up to its second `select`, from the packet on `l.ch` or a value on `l.stop`: the
socket whose channel it goes on to wait on, or its error. -/
def acceptRequest (l : TcpListener) (sockets : Sockets Buffer) (isn : UInt32)
    (request : Option TcpPacket) (sendErr : Option String) :
    Except String (TcpSocket Buffer) × Sockets Buffer :=
  match request with
  | none => (.error "connection closed", sockets)
  | some p =>
      let conn := l.connFor p
      if p.header.flags ≠ tcpFlagSyn then
        (.error ("Packet dropped in VAccept: the TCP flag must be SYN. Flags received: " ++
          toString p.header.flags ++ "\n"), sockets)
      else if (sockets conn).isSome then
        (.error ("Packet dropped in VAccept: " ++ IntIP.string conn.foreignIP ++ ": " ++
          toString conn.foreignPort ++ " has already been connected\n"), sockets)
      else if isValidTcpCheckSum p.header conn.foreignIP conn.localIP p.data = false then
        (.error "invalid checksum in Vaccept", sockets)
      else
        match sendErr with
        | some err =>
            (.error err,
              (sockets.store (makeTcpSocket .synReceived conn p.header.seqNum isn)).deleteConnSafe conn)
        | none =>
            (.ok (TcpSocket.acceptSyn conn p.header isn),
              sockets.store (TcpSocket.acceptSyn conn p.header isn))

def vAccept (l : TcpListener) (sockets : Sockets Buffer) (isn : UInt32)
    (request : Option TcpPacket) (sendErr : Option String) (answer : Option TcpPacket) :
    Returned × Sockets Buffer :=
  match acceptRequest l sockets isn request sendErr with
  | (.error text, sockets) => (.error text, sockets)
  | (.ok sock, sockets) => acceptAnswer sockets sock answer

/-- `synErr` and `ackErr` are what the two calls of `sendTcp` return. -/
def vConnect (conn : TcpConn) (sockets : Sockets Buffer) (isn : UInt32) (synErr : Option String)
    (answer : ConnectAnswer) (ackErr : Option String) : Returned × Sockets Buffer :=
  match connectRequest conn sockets isn synErr with
  | (.error returned, sockets) => (returned, sockets)
  | (.ok sock, sockets) => connectAnswer sockets sock answer ackErr

/-- The call waits on the channel of a new socket, or it has undone what it did. -/
theorem acceptRequest_cases (l : TcpListener) (sockets : Sockets Buffer) (isn : UInt32)
    (request : Option TcpPacket) (sendErr : Option String) :
    (∃ sock, acceptRequest l sockets isn request sendErr = (.ok sock, sockets.store sock) ∧
      sock.conn.localPort = l.port ∧ sockets sock.conn = none) ∨
    ∃ text, acceptRequest l sockets isn request sendErr = (.error text, sockets) := by
  cases request with
  | none => exact Or.inr ⟨_, rfl⟩
  | some p =>
      unfold acceptRequest
      dsimp only
      split
      · exact Or.inr ⟨_, rfl⟩
      split
      · exact Or.inr ⟨_, rfl⟩
      rename_i free
      have absent : sockets (l.connFor p) = none := by
        simpa using free
      split
      · exact Or.inr ⟨_, rfl⟩
      cases sendErr with
      | some err =>
          refine Or.inr ⟨err, ?_⟩
          exact congrArg (Prod.mk (Except.error err)) (sockets.deleteConnSafe_store rfl absent)
      | none => exact Or.inl ⟨_, rfl, rfl, absent⟩

/-- `VAccept` opens a connection exactly for the packet that completes the handshake, unless it
gets one without the ACK flag, or with the expected numbers and a wrong checksum. `VConnect`
opens one exactly for the right SYN-ACK, unless its ACK cannot be sent and the process ends. -/
theorem handshake_exact_iff (l : TcpListener) (sockets : Sockets Buffer) (isn : UInt32)
    (request : Option TcpPacket) (synAckErr : Option String) (answer : Option TcpPacket)
    (conn : TcpConn) (synErr ackErr : Option String) (received : ConnectAnswer) :
    (Exact (∃ sock p, (acceptRequest l sockets isn request synAckErr).1 = .ok sock ∧
          answer = some p ∧ Completes sock p)
        (vAccept l sockets isn request synAckErr answer) sockets ∧
        (∀ text, (vAccept l sockets isn request synAckErr answer).1 ≠ .fatal text) ↔
      ∀ sock, (acceptRequest l sockets isn request synAckErr).1 = .ok sock → ∀ p, answer = some p →
        p.header.flags &&& tcpFlagAck ≠ 0 ∧
        (p.header.seqNum - sock.foreignInitSeqNum = 1 → p.header.ackNum - sock.myInitSeqNum = 1 →
          isValidTcpCheckSum p.header sock.conn.foreignIP sock.conn.localIP p.data = true)) ∧
    (Exact (∃ sock packet, (connectRequest conn sockets isn synErr).1 = .ok sock ∧
          received = .packet packet ∧ Welcomes sock packet)
        (vConnect conn sockets isn synErr received ackErr) sockets ↔
      ∀ sock, (connectRequest conn sockets isn synErr).1 = .ok sock →
        ∀ packet, received = .packet packet → Welcomes sock packet → ackErr = none) := by
  constructor
  · unfold vAccept
    rcases acceptRequest_cases l sockets isn request synAckErr with
      ⟨sock, waits, _, absent⟩ | ⟨text, stops⟩
    · rw [waits]
      have graceful := acceptAnswer_not_fatal (sockets.store sock) sock answer
      simpa [graceful] using acceptAnswer_exact_iff absent answer
    · rw [stops]
      refine iff_of_true ⟨Exact.failed (by simp) rfl ?_, by simp⟩ (by simp)
      rintro ⟨_, _, never, _⟩
      cases never
  · unfold vConnect
    rcases connectRequest_cases conn sockets isn synErr with
      ⟨sock, waits, _, absent⟩ | ⟨returned, stops, fails⟩
    · rw [waits]
      simpa using connectAnswer_exact_iff absent received ackErr
    · rw [stops]
      refine iff_of_true (Exact.failed fails rfl ?_) (by simp)
      rintro ⟨_, _, never, _⟩
      cases never

end

section
attribute [local instance] Netstack.standard

/-- The SYN arrives a second time, on the channel of the socket it has made. -/
theorem vAccept_takes_syn :
    let syn := loopback.seal (synHeader loopback 100) []
    let l : TcpListener := { ip := loopback.foreignIP, port := loopback.foreignPort }
    let sockets : Sockets Fifo := fun _ => none
    (vAccept l sockets 200 (some syn) none (some syn)).1 = .conn loopback.reversed ∧
      ¬ Exact (∃ sock p, (acceptRequest l sockets 200 (some syn) none).1 = .ok sock ∧
        some syn = some p ∧ Completes sock p) (vAccept l sockets 200 (some syn) none (some syn)) sockets := by
  intro syn l sockets
  have returned : (vAccept l sockets 200 (some syn) none (some syn)).1 = .conn loopback.reversed := by
    unfold syn l sockets
    decide +kernel
  refine ⟨returned, fun sound => ?_⟩
  obtain ⟨sock, p, _, same, completes⟩ := sound.opened.mp ⟨_, returned⟩
  cases same
  have unset : syn.header.flags &&& tcpFlagAck = 0 := by
    unfold syn
    decide
  exact completes.flags unset

end

end IpTcp.Tcp
