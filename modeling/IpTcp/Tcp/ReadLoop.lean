import IpTcp.Tcp.Handshake
import IpTcp.Tcp.Teardown

/-! The loop of `VRead`. It holds `readBufferLock` and gives it up by returning, or by waiting for
`readBufferIsNotEmpty`. Where the read buffer is empty it knows two states of the connection; in any
other it prints the state and starts again, with the lock. -/

set_option autoImplicit false

namespace IpTcp.Tcp

open RingBuffer Lib

inductive ReadPass where
  /-- `VRead` returns, without the lock. -/
  | returns
  /-- In `isNotEmpty.Wait()`, without the lock. -/
  | waits
  /-- At the head of the loop again, still with the lock. -/
  | repeats
  deriving DecidableEq, Repr

variable {Buffer : Type} [RingBuffer Buffer]

def TcpSocket.readPass (sock : TcpSocket Buffer) : ReadPass :=
  if isEmpty sock.readBuffer then
    if sock.connState = .established then .waits
    else if sock.connState = .closeWait then .returns
    else .repeats
  else .returns

namespace Endpoint

/-- The calls of `VRead` that get on are those whose pass returns. -/
theorem vReadLoop_isSome (e : Endpoint Buffer) (call : Nat) :
    (e.vReadLoop call).isSome ↔ call < e.vReads.length ∧ e.sock.readPass = .returns := by
  unfold vReadLoop TcpSocket.readPass
  cases found : e.vReads[call]? with
  | none =>
      have none : e.vReads.length ≤ call := List.getElem?_eq_none_iff.mp found
      simp only [Option.isSome_none, Bool.false_eq_true, false_iff]
      omega
  | some len =>
      obtain ⟨bound, _⟩ := List.getElem?_eq_some_iff.mp found
      by_cases empty : isEmpty e.sock.readBuffer = true
      · cases state : e.sock.connState <;> simp [empty, bound]
      · simp [empty, bound]

theorem readPass_repeats (sock : TcpSocket Buffer) :
    sock.readPass = .repeats ↔
      content sock.readBuffer = [] ∧ sock.connState ≠ .established ∧ sock.connState ≠ .closeWait := by
  unfold TcpSocket.readPass
  rw [← isEmpty_iff]
  by_cases empty : isEmpty sock.readBuffer = true
  · cases state : sock.connState <;> simp [empty]
  · simp [empty]

variable [Netstack]

theorem Moves.call {e after : Endpoint Buffer} {event : Event} {out : List TcpPacket}
    (moves : Moves e event out after) (call : event.internal = false) :
    after.writer = e.writer ∧ after.deleted = e.deleted := by
  cases moves with
  | calls | stored | delivered | shutdown => exact ⟨rfl, rfl⟩
  | _ => cases call

end Endpoint

/-- Who works on a socket beside the application's calls. -/
inductive Stage where
  /-- `VConnect`, until the first packet comes. -/
  | connecting
  /-- `VAccept`, until the first packet comes. -/
  | accepting
  /-- `HandleConnection`. -/
  | serving
  /-- Nobody: the handshake has failed. -/
  | abandoned
  deriving DecidableEq, Repr

/-- A socket from `MakeTcpSocket` on. It is in the table during its handshake, where the command
line finds it by its number and may call `VRead`. -/
structure TableSocket (Buffer : Type) where
  stage : Stage
  e : Endpoint Buffer

inductive TableSocket.Event where
  | sendSynAck
  | receive (packet : TcpPacket)
  | stop
  | act (event : Tcp.Event)
  deriving DecidableEq, Repr

namespace TableSocket

section

def serve (s : TableSocket Buffer) (started : Endpoint Buffer) : TableSocket Buffer where
  stage := .serving
  e := { s.e with sock := started.sock, acks := started.acks }

def abandon (s : TableSocket Buffer) : TableSocket Buffer where
  stage := .abandoned
  e := { s.e with deleted := true }

inductive Made : TableSocket Buffer → Prop where
  | connecting (conn : TcpConn) (isn : UInt32) :
      Made ⟨.connecting, Endpoint.start (makeTcpSocket .synSent conn 0 isn) []⟩
  | accepting (conn : TcpConn) (isn foreignIsn : UInt32) :
      Made ⟨.accepting, Endpoint.start (makeTcpSocket .synReceived conn foreignIsn isn) []⟩

/-- During the handshake no goroutine has started. Afterwards the state either goes with the FIN
or is still that of the handshake. -/
structure Tracked (s : TableSocket Buffer) : Prop where
  sender : s.e.Sender
  unstarted : s.stage = .connecting ∨ s.stage = .accepting →
    s.e.sock.connState.opening = true ∧ s.e.writer = .top ∧ s.e.deleted = false
  state : s.e.sock.connState.opening = true ∨ s.e.Control

theorem Made.tracked {s : TableSocket Buffer} (made : Made s) : s.Tracked := by
  cases made with
  | connecting | accepting =>
      exact ⟨Endpoint.sender_start _ rfl rfl rfl, fun _ => ⟨rfl, rfl, rfl⟩, Or.inl rfl⟩

theorem sender_handshake {e : Endpoint Buffer} (sender : e.Sender) {sock : TcpSocket Buffer}
    (acks : List UInt32) (isn : sock.myInitSeqNum = e.sock.myInitSeqNum)
    (count : sock.numBytesSent = e.sock.numBytesSent)
    (list : sock.inFlightList = e.sock.inFlightList)
    (buffer : sock.writeBuffer = e.sock.writeBuffer) :
    Endpoint.Sender { e with sock := sock, acks := acks } :=
  ⟨sender.numbered.moved isn count (by rw [list]) rfl Iff.rfl rfl,
    sender.conserved.same rfl rfl buffer rfl⟩

theorem Tracked.serve {s : TableSocket Buffer} (tracked : s.Tracked)
    (during : s.stage = .connecting ∨ s.stage = .accepting) {started : Endpoint Buffer}
    (sender : Endpoint.Sender { s.e with sock := started.sock, acks := started.acks })
    (state : started.sock.connState = .established ∨ started.sock.connState = .synSent) :
    (s.serve started).Tracked := by
  obtain ⟨_, writer, kept⟩ := tracked.unstarted during
  refine ⟨sender, fun still => by simp [TableSocket.serve] at still, ?_⟩
  rcases state with established | opening
  · exact Or.inr (Endpoint.control_established established (by simp [TableSocket.serve, writer]) kept)
  · exact Or.inl (by simp [TableSocket.serve, opening, ConnState.opening])

theorem Tracked.abandon {s : TableSocket Buffer} (tracked : s.Tracked)
    (during : s.stage = .connecting ∨ s.stage = .accepting) : s.abandon.Tracked := by
  refine ⟨⟨tracked.sender.numbered.moved rfl rfl rfl rfl Iff.rfl rfl,
    tracked.sender.conserved.same rfl rfl rfl rfl⟩, fun still => by simp [TableSocket.abandon] at still,
    Or.inl (tracked.unstarted during).1⟩

theorem Tracked.repeats_iff {s : TableSocket Buffer} (tracked : s.Tracked) :
    s.e.sock.readPass = .repeats ↔ content s.e.sock.readBuffer = [] ∧
      (s.e.writer = .returned ∨ s.e.sock.connState.opening = true) := by
  rw [Endpoint.readPass_repeats]
  rcases tracked.state with opening | control
  · cases state : s.e.sock.connState <;> simp_all [ConnState.opening]
  · have running := control.running
    rw [control.returned]
    cases state : s.e.sock.connState <;> simp_all [ConnState.finSent, ConnState.opening]

variable [Netstack]

def step (s : TableSocket Buffer) : Event → Option (TableSocket Buffer)
  | .sendSynAck =>
      if s.stage = .accepting ∧ s.e.sock.connState = .synReceived then
        some { s with e.sock := { s.e.sock with nextExpectedByte := 1, connState := .synSent } }
      else none
  | .receive packet =>
      match s.stage with
      | .connecting =>
          match (Handshake.connectReceive s.e.sock packet).1 with
          | .opened started => some (s.serve started)
          | _ => some s.abandon
      | .accepting =>
          if s.e.sock.connState = .synSent then
            match Handshake.acceptReceive s.e.sock packet with
            | .started started => some (s.serve started)
            | _ => some s.abandon
          else none
      | _ => none
  -- the timeout, a value on `sock.stop` or a failed send
  | .stop => if s.stage = .connecting ∨ s.stage = .accepting then some s.abandon else none
  | .act event =>
      if s.stage = .serving ∨ event.internal = false then
        (s.e.move event).map fun e => { s with e := e }
      else none

theorem Tracked.receive {s after : TableSocket Buffer} {packet : TcpPacket} (tracked : s.Tracked)
    (steps : s.step (.receive packet) = some after) : after.Tracked := by
  simp only [step] at steps
  split at steps
  · rename_i stage
    have during : s.stage = .connecting ∨ s.stage = .accepting := Or.inl stage
    split at steps <;> cases steps
    · rename_i started opens
      unfold Handshake.connectReceive at opens
      repeat' split at opens
      all_goals cases opens
      exact tracked.serve during (sender_handshake tracked.sender _ rfl rfl rfl rfl) (Or.inl rfl)
    · exact tracked.abandon during
  · rename_i stage
    have during : s.stage = .connecting ∨ s.stage = .accepting := Or.inr stage
    split at steps
    · rename_i waits
      split at steps <;> cases steps
      · rename_i started starts
        unfold Handshake.acceptReceive at starts
        repeat' split at starts
        all_goals cases starts
        · exact tracked.serve during (sender_handshake tracked.sender _ rfl rfl rfl rfl) (Or.inl rfl)
        · -- Without the ACK flag the connection is handed out in `SYN_SENT`.
          exact tracked.serve during (sender_handshake tracked.sender _ rfl rfl rfl rfl) (Or.inr waits)
      · exact tracked.abandon during
    · cases steps
  · cases steps

theorem Tracked.act {s : TableSocket Buffer} {event : Tcp.Event} {out : List TcpPacket}
    {after : Endpoint Buffer} (tracked : s.Tracked)
    (allowed : s.stage = .serving ∨ event.internal = false)
    (steps : s.e.step event = some (after, out)) : Tracked { s with e := after } := by
  have moves := Endpoint.step_moves steps
  have opening := moves.leads.opening
  refine ⟨tracked.sender.step steps, fun during => ?_, ?_⟩
  · obtain ⟨still, writer, kept⟩ := tracked.unstarted during
    rcases allowed with serving | call
    · simp [serving] at during
    · obtain ⟨sameWriter, sameDeleted⟩ := moves.call call
      exact ⟨opening.trans still, sameWriter.trans writer, sameDeleted.trans kept⟩
  · rcases tracked.state with still | control
    · exact Or.inl (opening.trans still)
    · exact Or.inr (control.step tracked.sender.numbered moves)

theorem Tracked.step {s after : TableSocket Buffer} {event : Event} (tracked : s.Tracked)
    (steps : s.step event = some after) : after.Tracked := by
  cases event with
  | sendSynAck =>
      simp only [TableSocket.step, Option.ite_none_right_eq_some] at steps
      obtain ⟨⟨stage, _⟩, same⟩ := steps
      cases same
      obtain ⟨_, writer, kept⟩ := tracked.unstarted (Or.inr stage)
      exact ⟨sender_handshake tracked.sender _ rfl rfl rfl rfl, fun _ => ⟨rfl, writer, kept⟩, Or.inl rfl⟩
  | receive packet => exact tracked.receive steps
  | stop =>
      simp only [TableSocket.step, Option.ite_none_right_eq_some] at steps
      obtain ⟨during, same⟩ := steps
      cases same
      exact tracked.abandon during
  | act event =>
      simp only [TableSocket.step, Option.ite_none_right_eq_some, Option.map_eq_some_iff,
        Endpoint.move] at steps
      obtain ⟨allowed, _, ⟨⟨e, out⟩, moves, rfl⟩, rfl⟩ := steps
      exact tracked.act allowed moves

theorem Made.run {first last : TableSocket Buffer} (made : Made first)
    (run : Run step anyEvent first last) : last.Tracked :=
  run.preserves Tracked (fun _ _ _ tracked _ steps => tracked.step steps) made.tracked

def keepsReadBuffer (s : TableSocket Buffer) (event : Event) : Prop :=
  ∀ after, s.step event = some after → content after.e.sock.readBuffer = content s.e.sock.readBuffer

theorem step_over {s after : TableSocket Buffer} {event : Event}
    (done : s.stage = .serving ∨ s.stage = .abandoned) (steps : s.step event = some after) :
    (after.stage = .serving ∨ after.stage = .abandoned) ∧
      (s.e.writer = .returned → after.e.writer = .returned) ∧
      after.e.sock.connState.opening = s.e.sock.connState.opening := by
  cases event with
  | act event =>
      simp only [TableSocket.step, Option.ite_none_right_eq_some, Option.map_eq_some_iff,
        Endpoint.move] at steps
      obtain ⟨_, _, ⟨⟨e, out⟩, moves, rfl⟩, rfl⟩ := steps
      have moves := Endpoint.step_moves moves
      exact ⟨done, fun returned => (moves.afterFin returned).1, moves.leads.opening⟩
  | sendSynAck | receive | stop =>
      rcases done with stage | stage <;> simp [TableSocket.step, stage] at steps

/-- In every state of every socket, whatever its handshake, the calls and the goroutines have done:
a pass of the loop neither returns nor waits exactly if the read buffer is empty and either the end
has sent its FIN or it is in a state of the handshake. Once the handshake is over, every pass is then
like that for as long as nothing is stored in the read buffer, for which the lock is needed. -/
theorem read_repeats_iff {first s : TableSocket Buffer} (made : Made first)
    (run : Run step anyEvent first s) :
    (s.e.sock.readPass = .repeats ↔ content s.e.sock.readBuffer = [] ∧
      (s.e.writer = .returned ∨ s.e.sock.connState.opening = true)) ∧
    (s.e.sock.readPass = .repeats → s.stage = .serving ∨ s.stage = .abandoned →
      ∀ later, Run step keepsReadBuffer s later → later.e.sock.readPass = .repeats) := by
  refine ⟨(made.run run).repeats_iff, fun repeats done later further => ?_⟩
  have tracked := made.run (run.trans (further.weaken fun _ _ _ => trivial))
  rw [(made.run run).repeats_iff] at repeats
  refine tracked.repeats_iff.mpr (further.preserves
    (fun s => (s.stage = .serving ∨ s.stage = .abandoned) ∧ content s.e.sock.readBuffer = [] ∧
      (s.e.writer = .returned ∨ s.e.sock.connState.opening = true)) ?_ ⟨done, repeats⟩).2
  rintro before event after ⟨done, empty, reason⟩ keeps steps
  obtain ⟨still, returned, opening⟩ := step_over done steps
  exact ⟨still, (keeps after steps).trans empty, reason.imp returned opening.trans⟩

end

section
attribute [local instance] Netstack.standard

def dialling : TableSocket Fifo :=
  ⟨.connecting, Endpoint.start (makeTcpSocket .synSent loopback 0 100) []⟩

def welcome : TcpPacket :=
  loopback.reversed.seal (synAckHeader loopback.reversed 200 (synHeader loopback 100)) []

def readAfterByte : List Event :=
  -- The end sends its FIN, gets a byte, and reads.
  [.receive welcome, .act (.vShutdown .write), .act .handleWrites, .act .handleWrites,
    .act (.handlePacket
      (loopback.reversed.seal (handshakeHeader loopback.reversed 201 101 tcpFlagAck) [7])),
    .act (.vRead 10)]

theorem readAfterByte_reached : (exec step anyEvent dialling readAfterByte).isSome := by
  decide +kernel

theorem read_repeats_byte :
    ∃ s : TableSocket Fifo, Run step anyEvent dialling s ∧ s.e.vReads = [10] ∧
      s.e.writer = .returned ∧ content s.e.sock.readBuffer = [7] ∧ s.e.sock.readPass ≠ .repeats := by
  refine ⟨_, Run.ofSome readAfterByte_reached, by decide +kernel, by decide +kernel, by decide +kernel, ?_⟩
  have exact := (read_repeats_iff (.connecting loopback 100) (Run.ofSome readAfterByte_reached)).1
  exact fun repeats => absurd (exact.mp repeats).1 (by decide +kernel)

def readAfterFin : List Event :=
  -- A call of `VRead` waits, the end shuts down its sending half and sends its FIN, and `VRead` is called
  -- again.
  [.receive welcome, .act (.vRead 10), .act (.vShutdown .write), .act .handleWrites,
    .act .handleWrites, .act (.vRead 5)]

theorem readAfterFin_reached : (exec step anyEvent dialling readAfterFin).isSome := by
  decide +kernel

def answering : TableSocket Fifo :=
  ⟨.accepting, Endpoint.start (makeTcpSocket .synReceived loopback 200 100) []⟩

def readAfterSyn : List Event :=
  -- The first packet after the SYN-ACK is the SYN once more, and the connection is handed out.
  [.sendSynAck, .receive (loopback.reversed.seal (synHeader loopback.reversed 200) []), .act (.vRead 5)]

theorem readAfterSyn_reached : (exec step anyEvent answering readAfterSyn).isSome := by
  decide +kernel

/-- After the FIN the second call goes round its loop with the lock, and so does the first if it is
woken up. On a connection that a duplicated SYN has opened, a call does so without any FIN. -/
theorem read_spins :
    (∃ s : TableSocket Fifo, Run step anyEvent dialling s ∧ s.e.vReads = [10, 5] ∧
      s.e.sock.canRead = true ∧ s.e.sock.connState = .finWait1 ∧ s.e.sock.readPass = .repeats) ∧
    ∃ s : TableSocket Fifo, Run step anyEvent answering s ∧ s.stage = .serving ∧ s.e.vReads = [5] ∧
      s.e.sock.connState = .synSent ∧ s.e.sent = [] ∧ s.e.sock.readPass = .repeats :=
  ⟨⟨_, Run.ofSome readAfterFin_reached, by decide +kernel, by decide +kernel, by decide +kernel,
      by decide +kernel⟩,
    ⟨_, Run.ofSome readAfterSyn_reached, by decide +kernel, by decide +kernel, by decide +kernel,
      by decide +kernel, by decide +kernel⟩⟩

end

end TableSocket

end IpTcp.Tcp
