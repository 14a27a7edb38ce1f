import IpTcp.Tcp.StreamIntegrity

/-! The `rf` command. Its loop reads from the accepted connection into a file as long as
`GetState` says `ESTABLISHED`; it does not look at the read buffer. So the loop can end before it
has read what is stored, once the peer's FIN was handled. -/

set_option autoImplicit false

namespace IpTcp.Tcp

open RingBuffer Lib

/-- Where the goroutine of `handleReadFile` stands, once the connection is accepted and the file
is open. -/
inductive ReadFilePc where
  /-- Before the loop test. -/
  | test
  /-- Past the test, before the call of `VRead`. -/
  | call
  /-- In the loop of `VRead`. -/
  | reading
  /-- The loop has ended, and `VClose` is next. -/
  | ended
  | returned
  /-- The file did not take all bytes. -/
  | failed
  deriving DecidableEq, Repr

structure ReadFile (Buffer : Type) where
  conn : Connection Buffer
  pc : ReadFilePc
  file : List Byte

inductive ReadFileEvent where
  /-- The next step of `handleReadFile`; `taken` is how much the file can take now. -/
  | handleReadFile (taken : Nat)
  | other (action : Action)
  deriving DecidableEq, Repr

def Action.readsAtServer : Action → Bool
  | .act .server (.vRead _) | .act .server (.vReadLoop _) => true
  | _ => false

variable {Buffer : Type} [RingBuffer Buffer]

/-- `GetState`; its "NEVER" is none. -/
def Endpoint.getState (e : Endpoint Buffer) : Option ConnState :=
  if e.inTable then some e.sock.connState else none

section
variable [Netstack]

namespace Endpoint

variable {e after : Endpoint Buffer} {out : List TcpPacket}

/-- Nothing but the calls of `VRead` changes them and what they have returned. -/
theorem step_unread {event : Event} (steps : e.step event = some (after, out))
    (starts : ∀ len, event ≠ .vRead len) (loops : ∀ call, event ≠ .vReadLoop call) :
    after.vReads = e.vReads ∧ after.delivered = e.delivered := by
  cases event with
  | vRead len => exact absurd rfl (starts len)
  | vReadLoop call => exact absurd rfl (loops call)
  | vWrite buff | vWriteLoop call | vShutdown sdType =>
      simp only [step, vWrite, vWriteLoop, vShutdown, Option.map_eq_some_iff] at steps
      obtain ⟨_, moves, same⟩ := steps
      cases same
      repeat' split at moves
      all_goals cases moves
      all_goals exact ⟨rfl, rfl⟩
  | handleWrites | handleRetransmission timedOut | handlePacket packet | timeWaitOver =>
      have same := step_sameCalls steps rfl
      exact ⟨same.vReads, same.delivered⟩

theorem step_vRead {len : Nat} (steps : e.step (.vRead len) = some (after, out)) :
    after.vReads = e.vReads ++ [len] ∧ after.delivered = e.delivered := by
  simp only [step, vRead, Option.map_eq_some_iff] at steps
  obtain ⟨_, starts, same⟩ := steps
  cases same
  split at starts
  · cases starts
    exact ⟨rfl, rfl⟩
  · cases starts

theorem step_vReadLoop {len : Nat} (steps : e.step (.vReadLoop 0) = some (after, out))
    (only : e.vReads = [len]) :
    after.vReads = [] ∧ after.delivered = e.delivered ++ (content e.sock.readBuffer).take len := by
  simp only [step, vReadLoop, only, List.getElem?_cons_zero, Option.map_eq_some_iff] at steps
  obtain ⟨_, reads, same⟩ := steps
  cases same
  split at reads
  · rename_i empty
    split at reads
    · cases reads
      rw [(isEmpty_iff _).mp empty]
      exact ⟨rfl, by simp⟩
    · cases reads
  · cases reads
    exact ⟨rfl, by rw [read_bytes]⟩

end Endpoint

end

namespace ReadFile

def server (s : ReadFile Buffer) : Endpoint Buffer := s.conn.ends .server

def client (s : ReadFile Buffer) : Endpoint Buffer := s.conn.ends .client

section
variable [Netstack]

def start (conn : TcpConn) (clientIsn serverIsn : UInt32) : ReadFile Buffer where
  conn := Connection.established conn clientIsn serverIsn
  pc := .test
  file := []

def handleReadFile (s : ReadFile Buffer) (taken : Nat) : Option (ReadFile Buffer) :=
  match s.pc with
  | .test =>
      if s.server.getState = some .established then some { s with pc := .call }
      else some { s with pc := .ended }
  | .call =>
      match s.conn.step (.act .server (.vRead bufferSize)) with
      | some conn => some { s with conn := conn, pc := .reading }
      -- the socket is gone or shut down: the error is printed, and the loop goes on
      | none => some { s with pc := .test }
  | .reading =>
      (s.conn.step (.act .server (.vReadLoop 0))).map fun conn =>
        if isEmpty s.server.sock.readBuffer then { s with conn := conn, pc := .test }
        else
          let bytes := (read s.server.sock.readBuffer bufferSize).2.1
          { conn := conn
            file := s.file ++ bytes.take taken
            pc := if bytes.length ≤ taken then .test else .failed }
  | .ended =>
      some { s with
        conn := (s.conn.step (.act .server (.vShutdown .both))).getD s.conn
        pc := .returned }
  | .returned | .failed => none

def step (s : ReadFile Buffer) : ReadFileEvent → Option (ReadFile Buffer)
  -- One step of the system, in which nobody else reads from the connection at the server.
  | .handleReadFile taken => s.handleReadFile taken
  | .other action =>
      if action.readsAtServer then none
      else (s.conn.step action).map fun conn => { s with conn := conn }

def noStraddle (s : ReadFile Buffer) : ReadFileEvent → Prop
  | .handleReadFile _ => True
  | .other action => s.conn.noStraddle action

instance (s : ReadFile Buffer) : (event : ReadFileEvent) → Decidable (s.noStraddle event)
  | .handleReadFile _ => .isTrue trivial
  | .other action => inferInstanceAs (Decidable (s.conn.noStraddle action))

variable {s after : ReadFile Buffer} {event : ReadFileEvent}

inductive Advances (s : ReadFile Buffer) : ReadFile Buffer → Prop where
  | goesOn (pc : s.pc = .test) (state : s.server.getState = some .established) :
      Advances s { s with pc := .call }
  | leaves (pc : s.pc = .test) (state : s.server.getState ≠ some .established) :
      Advances s { s with pc := .ended }
  | starts (pc : s.pc = .call) {conn : Connection Buffer}
      (moves : s.conn.step (.act .server (.vRead bufferSize)) = some conn) :
      Advances s { s with conn := conn, pc := .reading }
  | refused (pc : s.pc = .call) : Advances s { s with pc := .test }
  | finds (pc : s.pc = .reading) {conn : Connection Buffer}
      (moves : s.conn.step (.act .server (.vReadLoop 0)) = some conn)
      (empty : content s.server.sock.readBuffer = []) : Advances s { s with conn := conn, pc := .test }
  | saves (pc : s.pc = .reading) {conn : Connection Buffer}
      (moves : s.conn.step (.act .server (.vReadLoop 0)) = some conn) {bytes : List Byte}
      (stored : bytes = (content s.server.sock.readBuffer).take bufferSize) (taken : Nat) :
      Advances s {
        conn := conn
        file := s.file ++ bytes.take taken
        pc := if bytes.length ≤ taken then .test else .failed }
  | closes (pc : s.pc = .ended) {conn : Connection Buffer}
      (moves : s.conn.step (.act .server (.vShutdown .both)) = some conn) :
      Advances s { s with conn := conn, pc := .returned }
  | closedBefore (pc : s.pc = .ended) : Advances s { s with pc := .returned }

theorem handleReadFile_advances {taken : Nat} (steps : s.handleReadFile taken = some after) :
    Advances s after := by
  unfold handleReadFile at steps
  split at steps
  · rename_i pc
    split at steps <;> cases steps
    · exact .goesOn pc ‹_›
    · exact .leaves pc ‹_›
  · rename_i pc
    split at steps <;> cases steps
    · exact .starts pc ‹_›
    · exact .refused pc
  · rename_i pc
    obtain ⟨conn, moves, rfl⟩ := Option.map_eq_some_iff.mp steps
    split
    · exact .finds pc moves ((isEmpty_iff _).mp ‹_›)
    · exact .saves pc moves (read_bytes _ _) taken
  · rename_i pc
    cases steps
    cases moves : s.conn.step (.act .server (.vShutdown .both)) with
    | none => exact .closedBefore pc
    | some conn => exact .closes pc moves
  all_goals cases steps

theorem step_other {action : Action} (steps : s.step (.other action) = some after) :
    action.readsAtServer = false ∧
      ∃ conn, s.conn.step action = some conn ∧ after = { s with conn := conn } := by
  simp only [step] at steps
  split at steps
  · cases steps
  · rename_i quiet
    obtain ⟨conn, moves, rfl⟩ := Option.map_eq_some_iff.mp steps
    exact ⟨by simpa using quiet, conn, moves, rfl⟩

/-- Every step of the system is at most one step of the connection. -/
theorem step_conn (steps : s.step event = some after) :
    after.conn = s.conn ∨ ∃ action, s.conn.step action = some after.conn ∧
      (s.noStraddle event → s.conn.noStraddle action) := by
  cases event with
  | other action =>
      obtain ⟨_, conn, moves, rfl⟩ := step_other steps
      exact Or.inr ⟨action, moves, id⟩
  | handleReadFile taken =>
      cases handleReadFile_advances steps with
      | goesOn | leaves | refused | closedBefore => exact Or.inl rfl
      | starts _ moves | finds _ moves | saves _ moves | closes _ moves =>
          exact Or.inr ⟨_, moves, fun _ => trivial⟩

theorem run_conn {first : ReadFile Buffer} (run : Run step noStraddle first s) :
    Run Connection.step Connection.noStraddle first.conn s.conn := by
  refine run.preserves (fun now => Run Connection.step Connection.noStraddle first.conn now.conn)
    (fun before event after held meets steps => ?_) Run.refl
  rcases step_conn steps with same | ⟨action, moves, clear⟩
  · rw [same]
    exact held
  · exact held.tail (clear meets) moves

/-! ## What the loop has read is in the file -/

structure Saving (s : ReadFile Buffer) : Prop where
  calls : s.server.vReads = if s.pc = .reading then [bufferSize] else []
  file : s.pc ≠ .failed → s.file = s.server.delivered

theorem server_unread {c later : Connection Buffer} {action : Action}
    (stepped : c.step action = some later) (quiet : action.readsAtServer = false) :
    (later.ends .server).vReads = (c.ends .server).vReads ∧
      (later.ends .server).delivered = (c.ends .server).delivered := by
  cases action with
  | act side event =>
      obtain ⟨out, _, moves, still⟩ := Connection.step_act stepped
      cases side with
      | client => exact ⟨congrArg _ still, congrArg _ still⟩
      | server =>
          refine Endpoint.step_unread moves ?_ ?_
          all_goals
            rintro _ rfl
            cases quiet
  | lose side packet | duplicate side packet =>
      simp only [Connection.step] at stepped
      split at stepped
      · cases stepped
        exact ⟨rfl, rfl⟩
      · cases stepped

theorem Saving.advances (saving : s.Saving) (advances : Advances s after) : after.Saving := by
  obtain ⟨calls, file⟩ := saving
  -- only a `VRead` that returns bytes changes the file, and only it changes what was delivered
  cases advances with
  | goesOn pc | leaves pc | refused pc | closedBefore pc =>
      rw [pc] at calls file
      exact ⟨calls, fun _ => file (by simp)⟩
  | starts pc moves =>
      rw [pc] at calls file
      obtain ⟨_, _, starts, _⟩ := Connection.step_act moves
      obtain ⟨started, delivered⟩ := Endpoint.step_vRead starts
      refine ⟨started.trans ?_, fun _ => (file (by simp)).trans delivered.symm⟩
      rw [← server, calls]
      rfl
  | finds pc moves empty =>
      rw [pc] at calls file
      obtain ⟨_, _, reads, _⟩ := Connection.step_act moves
      obtain ⟨returned, delivered⟩ := Endpoint.step_vReadLoop reads calls
      rw [← server, empty, List.take_nil, List.append_nil] at delivered
      exact ⟨returned, fun _ => (file (by simp)).trans delivered.symm⟩
  | @saves pc conn moves bytes stored taken =>
      rw [pc] at calls file
      obtain ⟨_, _, reads, _⟩ := Connection.step_act moves
      obtain ⟨returned, delivered⟩ := Endpoint.step_vReadLoop reads calls
      rw [← server, ← stored] at delivered
      by_cases fits : bytes.length ≤ taken
      · rw [if_pos fits, List.take_of_length_le fits, file (by simp)]
        exact ⟨returned, fun _ => delivered.symm⟩
      · -- the goroutine returns, with a file that lacks what it did not take
        rw [if_neg fits]
        exact ⟨returned, fun writes => absurd rfl writes⟩
  | closes pc moves =>
      rw [pc] at calls file
      obtain ⟨same, delivered⟩ := server_unread moves rfl
      exact ⟨same.trans calls, fun _ => (file (by simp)).trans delivered.symm⟩

theorem Saving.step (saving : s.Saving) (steps : s.step event = some after) : after.Saving := by
  cases event with
  | other action =>
      obtain ⟨quiet, conn, moves, rfl⟩ := step_other steps
      obtain ⟨calls, delivered⟩ := server_unread moves quiet
      exact ⟨calls.trans saving.calls, fun writes => (saving.file writes).trans delivered.symm⟩
  | handleReadFile taken => exact saving.advances (handleReadFile_advances steps)

theorem Saving.run {conn : TcpConn} {clientIsn serverIsn : UInt32}
    {guard : ReadFile Buffer → ReadFileEvent → Prop}
    (run : Run ReadFile.step guard (start conn clientIsn serverIsn) s) : s.Saving :=
  run.preserves Saving (fun _ _ _ saving _ steps => saving.step steps) ⟨rfl, fun _ => rfl⟩

end

section
attribute [local instance] Netstack.standard

open Connection

def sendsAndCloses : List ReadFileEvent :=
  (sendsByte .client 7).map .other ++
    [.other (.act .client (.vShutdown .both)), .other (.act .client .handleWrites),
      .other (.act .client .handleWrites)]

def receives (packet : TcpPacket) : ReadFileEvent := .other (.act .server (.handlePacket packet))

def readInTime : List ReadFileEvent :=
  -- The loop reads the byte and waits in `VRead` when the FIN arrives.
  sendsAndCloses ++ List.replicate 2 (.handleReadFile 100) ++
    [receives (fromClient 101 201 tcpFlagAck [7])] ++ List.replicate 3 (.handleReadFile 100) ++
    [receives (fromClient 102 201 tcpFlagFin []), .handleReadFile 100]

theorem readInTime_isSome :
    (exec step noStraddle (start loopback 100 200 : ReadFile Fifo) readInTime).isSome := by
  decide +kernel

def savedByte : ReadFile Fifo :=
  (exec step noStraddle (start loopback 100 200 : ReadFile Fifo) readInTime).get readInTime_isSome

def readTooLate : List ReadFileEvent :=
  -- The byte and the FIN arrive before the loop looks at the state.
  sendsAndCloses ++ [receives (fromClient 101 201 tcpFlagAck [7]),
    receives (fromClient 102 201 tcpFlagFin []), .handleReadFile 100]

theorem readTooLate_isSome :
    (exec step noStraddle (start loopback 100 200 : ReadFile Fifo) readTooLate).isSome := by
  decide +kernel

end

end ReadFile

end IpTcp.Tcp
