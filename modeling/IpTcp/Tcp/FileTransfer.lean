import IpTcp.Tcp.Closing
import IpTcp.Tcp.ReadFile
import IpTcp.Tcp.WriteShutdown

/-! A file sent by `sf` to a node that runs `rf`. The goroutine of `handleSendFile` writes the whole
file with one `VWrite` and closes; that of `handleReadFile` saves what it reads. The two programs
have nothing in common but the connection, over which they run in any order with the goroutines of
the two sockets and the network. -/

set_option autoImplicit false

namespace IpTcp.Tcp

open RingBuffer Lib

/-- Where the goroutine of `handleSendFile` stands, once `VConnect` has returned and the file is
read. -/
inductive SendFilePc where
  /-- Before the call of `VWrite`. -/
  | write
  /-- In the loop of `VWrite`. -/
  | writing
  /-- `VWrite` has returned, and `VClose` is next. -/
  | close
  | returned
  deriving DecidableEq, Repr

/-- The client runs `sf` with a file that holds `payload`, the server `rf`. -/
structure FileTransfer (Buffer : Type) where
  reader : ReadFile Buffer
  sender : SendFilePc
  payload : List Byte

inductive FileTransferEvent where
  | handleSendFile
  | handleReadFile (taken : Nat)
  | other (action : Action)
  deriving DecidableEq, Repr

def Action.internal : Action → Bool
  | .act _ event => event.internal
  | _ => true

variable {Buffer : Type}

namespace FileTransfer

def Progress (x : Endpoint Buffer) (payload : List Byte) : SendFilePc → Prop
  | .write => x.vWrites = [] ∧ x.written = []
  | .writing => ∃ rest, x.vWrites = [rest] ∧ x.written ++ rest = payload
  | .close | .returned => x.vWrites = [] ∧ x.written = payload

theorem Progress.same {x later : Endpoint Buffer} {payload : List Byte} {pc : SendFilePc}
    (progress : Progress x payload pc) (vWrites : later.vWrites = x.vWrites)
    (written : later.written = x.written) : Progress later payload pc := by
  cases pc with
  | writing =>
      obtain ⟨rest, calls, bytes⟩ := progress
      exact ⟨rest, vWrites.trans calls, by rw [written]; exact bytes⟩
  | _ => exact ⟨vWrites.trans progress.1, written.trans progress.2⟩

theorem Progress.written_le {x : Endpoint Buffer} {payload : List Byte} {pc : SendFilePc}
    (progress : Progress x payload pc) : x.written <+: payload := by
  cases pc with
  | write =>
      rw [progress.2]
      exact List.nil_prefix
  | writing =>
      obtain ⟨rest, -, bytes⟩ := progress
      exact ⟨rest, bytes⟩
  | _ => exact ⟨[], by rw [progress.2, List.append_nil]⟩

end FileTransfer

variable [RingBuffer Buffer]

namespace Endpoint

/-- The FIN is sent on a socket that is shut down, after all that was stored. -/
def Drained (e : Endpoint Buffer) : Prop :=
  e.tested → e.sock.canWrite = false ∧ content e.sock.writeBuffer = []

theorem Drained.inTable {e : Endpoint Buffer} (drained : e.Drained) (control : e.Control)
    (canWrite : e.sock.canWrite = true) : e.sock.connState.finSent = false ∧ e.deleted = false := by
  have unsent : e.sock.connState.finSent = false := by
    by_contra sent
    have shut := (drained (.inr (control.returned.mpr (by simpa using sent)))).1
    rw [canWrite] at shut
    cases shut
  refine ⟨unsent, ?_⟩
  by_contra deleted
  rcases control.removed (by simpa using deleted) with state | state <;> rw [state] at unsent <;> cases unsent

theorem Drained.pastFin {y : Endpoint Buffer} (drained : y.Drained) (control : y.Control)
    (canWrite : y.sock.canWrite = true) (left : y.getState ≠ some .established) :
    y.sock.connState.pastFin = true := by
  obtain ⟨unsent, deleted⟩ := drained.inTable control canWrite
  have running := control.running
  rw [getState, Endpoint.inTable, deleted] at left
  revert unsent running left
  cases y.sock.connState <;> simp [ConnState.finSent, ConnState.opening, ConnState.pastFin]

variable [Netstack] {e after : Endpoint Buffer} {event : Event} {out : List TcpPacket}

theorem Drained.step (drained : e.Drained) (steps : e.step event = some (after, out))
    (opened : ∀ call, event = .vWriteLoop call → e.sock.canWrite = true) : after.Drained := by
  intro now
  have moves := step_moves steps
  by_cases tested : e.tested
  · obtain ⟨shut, empty⟩ := drained tested
    -- Only the loop of `VWrite` fills the buffer, and it is over before the shutdown.
    have past : ∀ call, event ≠ .vWriteLoop call := fun call same => by
      rw [opened call same] at shut
      cases shut
    refine ⟨?_, ?_⟩
    · rcases step_calls steps with ⟨_, _, can, _⟩ | ⟨call, same, _⟩ | ⟨_, _, still⟩
      · rw [shut] at can
        cases can
      · exact absurd same (past call)
      · by_contra can
        rw [still (by simpa using can)] at shut
        cases shut
    · rcases (moves.afterTest tested).2 with same | ⟨call, same⟩
      · rw [same]
        exact empty
      · exact absurd same (past call)
  · obtain ⟨empty, shut, rfl⟩ := moves.tests tested now
    exact ⟨shut, empty⟩

theorem step_vWrite {buff : List Byte} (steps : e.step (.vWrite buff) = some (after, out)) :
    after.vWrites = e.vWrites ++ [buff] ∧ after.written = e.written := by
  obtain ⟨_, called, same⟩ := Option.map_eq_some_iff.mp steps
  cases same
  obtain ⟨-, ⟨⟩⟩ := Option.ite_none_right_eq_some.mp called
  exact ⟨rfl, rfl⟩

/-- Only a shutdown changes what may be written. -/
theorem step_canWrite (steps : e.step event = some (after, out))
    (others : ∀ sdType, event ≠ .vShutdown sdType) :
    after.sock.canWrite = e.sock.canWrite := by
  cases step_moves steps with
  | shutdown sdType => exact absurd rfl (others sdType)
  | packet packet => exact (e.sock.handlePacket_acts packet).sameIdentity.canWrite
  | _ => rfl

end Endpoint

section
variable [Netstack]

namespace FileTransfer

def client (s : FileTransfer Buffer) : Endpoint Buffer := s.reader.client

def server (s : FileTransfer Buffer) : Endpoint Buffer := s.reader.server

def start (conn : TcpConn) (clientIsn serverIsn : UInt32) (payload : List Byte) : FileTransfer Buffer where
  reader := ReadFile.start conn clientIsn serverIsn
  sender := .write
  payload := payload

def withConn (s : FileTransfer Buffer) (conn : Connection Buffer) (sender : SendFilePc) :
    FileTransfer Buffer :=
  { s with reader := { s.reader with conn := conn }, sender := sender }

def handleSendFile (s : FileTransfer Buffer) : Option (FileTransfer Buffer) :=
  match s.sender with
  | .write =>
      -- `VWrite` returns at once where there is nothing to write
      if s.payload = [] then some { s with sender := .close }
      else
        match s.reader.conn.step (.act .client (.vWrite s.payload)) with
        | some conn => some (s.withConn conn .writing)
        -- the error is printed, and the connection closed
        | none => some { s with sender := .close }
  | .writing =>
      (s.reader.conn.step (.act .client (.vWriteLoop 0))).map fun conn =>
        s.withConn conn (if (conn.ends .client).vWrites = [] then .close else .writing)
  | .close =>
      some (s.withConn ((s.reader.conn.step (.act .client (.vShutdown .both))).getD s.reader.conn) .returned)
  | .returned => none

def step (s : FileTransfer Buffer) : FileTransferEvent → Option (FileTransfer Buffer)
  -- One step of the system, in which nobody but the two goroutines makes calls on the connection.
  | .handleSendFile => s.handleSendFile
  | .handleReadFile taken => (s.reader.handleReadFile taken).map fun reader => { s with reader := reader }
  | .other action =>
      if action.internal then (s.reader.conn.step action).map fun conn => s.withConn conn s.sender else none

def noStraddle (s : FileTransfer Buffer) : FileTransferEvent → Prop
  | .other action => s.reader.conn.noStraddle action
  | _ => True

instance (s : FileTransfer Buffer) : (event : FileTransferEvent) → Decidable (s.noStraddle event)
  | .other action => inferInstanceAs (Decidable (s.reader.conn.noStraddle action))
  | .handleSendFile | .handleReadFile _ => .isTrue trivial

variable {s after : FileTransfer Buffer} {event : FileTransferEvent}

inductive Sends (s : FileTransfer Buffer) : FileTransfer Buffer → Prop where
  | nothing (pc : s.sender = .write) (empty : s.payload = []) : Sends s { s with sender := .close }
  | starts (pc : s.sender = .write) (bytes : s.payload ≠ []) {conn : Connection Buffer}
      (moves : s.reader.conn.step (.act .client (.vWrite s.payload)) = some conn) :
      Sends s (s.withConn conn .writing)
  | refused (pc : s.sender = .write) (bytes : s.payload ≠ [])
      (refused : s.reader.conn.step (.act .client (.vWrite s.payload)) = none) :
      Sends s { s with sender := .close }
  | stores (pc : s.sender = .writing) {conn : Connection Buffer}
      (moves : s.reader.conn.step (.act .client (.vWriteLoop 0)) = some conn) :
      Sends s (s.withConn conn (if (conn.ends .client).vWrites = [] then .close else .writing))
  | closes (pc : s.sender = .close) {conn : Connection Buffer}
      (moves : s.reader.conn.step (.act .client (.vShutdown .both)) = some conn) :
      Sends s (s.withConn conn .returned)
  | closedBefore (pc : s.sender = .close) : Sends s { s with sender := .returned }

theorem handleSendFile_sends (steps : s.handleSendFile = some after) : Sends s after := by
  unfold handleSendFile at steps
  split at steps
  · rename_i pc
    split at steps
    · cases steps
      exact .nothing pc ‹_›
    · split at steps <;> cases steps
      · exact .starts pc ‹_› ‹_›
      · exact .refused pc ‹_› ‹_›
  · rename_i pc
    obtain ⟨conn, moves, rfl⟩ := Option.map_eq_some_iff.mp steps
    exact .stores pc moves
  · rename_i pc
    cases steps
    cases moves : s.reader.conn.step (.act .client (.vShutdown .both)) with
    | none => exact .closedBefore pc
    | some conn => exact .closes pc moves
  · cases steps

theorem reader_client {reader : ReadFile Buffer} {conn : Connection Buffer} {call : Event}
    (moves : reader.conn.step (.act .client call) = some conn)
    (own : ∀ packet, call ≠ .handlePacket packet) :
    ∃ turn, reader.step turn = some { reader with conn := conn } ∧ reader.noStraddle turn := by
  refine ⟨.other (.act .client call), ?_, ?_⟩
  · simp [ReadFile.step, Action.readsAtServer, moves]
  · cases call with
    | handlePacket packet => exact absurd rfl (own packet)
    | _ => trivial

theorem Sends.calls (sends : Sends s after) : after.reader = s.reader ∨
    ∃ call conn, s.reader.conn.step (.act .client call) = some conn ∧
      after.reader = { s.reader with conn := conn } ∧ ∀ packet, call ≠ .handlePacket packet := by
  cases sends with
  | nothing | refused | closedBefore => exact .inl rfl
  | starts _ _ moves => exact .inr ⟨_, _, moves, rfl, fun _ => nofun⟩
  | stores _ moves => exact .inr ⟨_, _, moves, rfl, fun _ => nofun⟩
  | closes _ moves => exact .inr ⟨_, _, moves, rfl, fun _ => nofun⟩

theorem step_reader (steps : s.step event = some after) :
    after.reader = s.reader ∨ ∃ turn, s.reader.step turn = some after.reader ∧
      (s.noStraddle event → s.reader.noStraddle turn) := by
  cases event with
  | handleSendFile =>
      rcases (handleSendFile_sends steps).calls with same | ⟨call, conn, moves, same, own⟩
      · exact .inl same
      · obtain ⟨turn, turns, clear⟩ := reader_client moves own
        exact .inr ⟨turn, turns.trans (congrArg some same.symm), fun _ => clear⟩
  | handleReadFile taken =>
      obtain ⟨reader, turns, rfl⟩ := Option.map_eq_some_iff.mp steps
      exact .inr ⟨.handleReadFile taken, turns, fun _ => trivial⟩
  | other action =>
      obtain ⟨internal, turns⟩ := Option.ite_none_right_eq_some.mp steps
      obtain ⟨conn, moves, rfl⟩ := Option.map_eq_some_iff.mp turns
      have quiet : action.readsAtServer = false := by
        cases action with
        | act side event => cases side <;> cases event <;> first | rfl | cases internal
        | _ => rfl
      refine .inr ⟨.other action, ?_, id⟩
      simp [ReadFile.step, quiet, moves, withConn]

theorem run_reader {first : FileTransfer Buffer} (run : Run step noStraddle first s) :
    Run ReadFile.step ReadFile.noStraddle first.reader s.reader := by
  refine run.preserves (fun now => Run ReadFile.step ReadFile.noStraddle first.reader now.reader)
    (fun before event after held meets steps => ?_) Run.refl
  rcases step_reader steps with same | ⟨turn, turns, clear⟩
  · rw [same]
    exact held
  · exact held.tail (clear meets) turns

/-! ## The file is written to the connection -/

structure Sending (s : FileTransfer Buffer) : Prop where
  progress : Progress s.client s.payload s.sender
  opened : s.sender ≠ .returned → s.client.sock.canWrite = true
  drained : s.client.Drained

theorem Progress.stores {x later : Endpoint Buffer} {payload : List Byte} {out : List TcpPacket}
    (progress : Progress x payload .writing) (steps : x.step (.vWriteLoop 0) = some (later, out)) :
    Progress later payload (if later.vWrites = [] then .close else .writing) := by
  obtain ⟨rest, calls, bytes⟩ := progress
  obtain ⟨_, stored, same⟩ := Option.map_eq_some_iff.mp steps
  cases same
  rw [Endpoint.vWriteLoop, calls] at stored
  dsimp only [List.getElem?_cons_zero] at stored
  obtain ⟨-, ⟨⟩⟩ := Option.ite_none_left_eq_some.mp stored
  by_cases ended : rest.drop (write x.sock.writeBuffer rest).2.1 = []
  · have all : rest.take (write x.sock.writeBuffer rest).2.1 = rest :=
      List.take_of_length_le (List.drop_eq_nil_iff.mp ended)
    simp [Progress, ended, all, bytes]
  · simp [Progress, ended, ← bytes]

theorem vWrite_isSome {c : Connection Buffer} {side : Side} {buff : List Byte} (bytes : buff ≠ [])
    (deleted : (c.ends side).deleted = false) (canWrite : (c.ends side).sock.canWrite = true) :
    c.step (.act side (.vWrite buff)) ≠ none := by
  simp [Connection.step, Event.consume, Endpoint.step, Endpoint.vWrite, Endpoint.inTable, bytes, deleted,
    canWrite]

theorem Sending.sends (sending : s.Sending) (control : s.client.Control) (sends : Sends s after) :
    after.Sending := by
  obtain ⟨progress, opened, drained⟩ := sending
  cases sends with
  | nothing pc empty =>
      rw [pc] at progress opened
      exact ⟨⟨progress.1, progress.2.trans empty.symm⟩, fun _ => opened (by simp), drained⟩
  | starts pc bytes moves =>
      rw [pc] at progress opened
      obtain ⟨out, -, turns, -⟩ := Connection.step_act moves
      obtain ⟨calls, written⟩ := Endpoint.step_vWrite turns
      have called := calls.trans (congrArg (· ++ [s.payload]) progress.1)
      have none := written.trans progress.2
      refine ⟨⟨s.payload, called, congrArg (· ++ s.payload) none⟩, fun _ => ?_, drained.step turns (by simp)⟩
      exact (Endpoint.step_canWrite turns (by simp)).trans (opened (by simp))
  | refused pc bytes refused =>
      -- A socket that may be written to is in the table, so that `VWrite` takes the file.
      rw [pc] at opened
      have canWrite := opened (by simp)
      exact absurd refused (vWrite_isSome bytes (drained.inTable control canWrite).2 canWrite)
  | stores pc moves =>
      rw [pc] at progress opened
      obtain ⟨out, -, turns, -⟩ := Connection.step_act moves
      have canWrite := opened (by simp)
      exact ⟨progress.stores turns, fun _ => (Endpoint.step_canWrite turns (by simp)).trans canWrite,
        drained.step turns fun _ _ => canWrite⟩
  | closes pc moves =>
      rw [pc] at progress
      obtain ⟨out, -, turns, -⟩ := Connection.step_act moves
      obtain ⟨_, shuts, same⟩ := Option.map_eq_some_iff.mp turns
      cases same
      obtain ⟨calls, written, -⟩ := Endpoint.vShutdown_calls shuts
      exact ⟨progress.same calls written, fun running => absurd rfl running, drained.step turns (by simp)⟩
  | closedBefore pc =>
      rw [pc] at progress
      exact ⟨progress, fun running => absurd rfl running, drained⟩

theorem conn_internal {c later : Connection Buffer} {action : Action} (moves : c.step action = some later)
    (internal : action.internal = true) (side : Side) : later.ends side = c.ends side ∨
      ∃ event out, event.internal = true ∧ (c.ends side).step event = some (later.ends side, out) := by
  cases Connection.step_steps moves with
  | network ends => exact .inl (by rw [ends])
  | @act _ actor event out arrived turns still =>
      rcases actor.eq_or_other side with rfl | rfl
      · exact .inr ⟨event, out, internal, turns⟩
      · rw [Side.other_other] at still
        exact .inl still

omit [Netstack] in
theorem Sending.sameClient (sending : s.Sending) (client : after.client = s.client)
    (sender : after.sender = s.sender) (payload : after.payload = s.payload) : after.Sending := by
  obtain ⟨progress, opened, drained⟩ := sending
  constructor
  · rw [client, sender, payload]
    exact progress
  · rw [client, sender]
    exact opened
  · rw [client]
    exact drained

theorem Sending.internal {conn : Connection Buffer} {action : Action} (sending : s.Sending)
    (moves : s.reader.conn.step action = some conn) (internal : action.internal = true) :
    (s.withConn conn s.sender).Sending := by
  rcases conn_internal moves internal .client with same | ⟨event, out, internal, turns⟩
  · exact sending.sameClient same rfl rfl
  · obtain ⟨progress, opened, drained⟩ := sending
    have calls := Endpoint.step_sameCalls turns internal
    refine ⟨progress.same calls.vWrites calls.written, fun running => calls.canWrite.trans (opened running),
      drained.step turns ?_⟩
    rintro call rfl
    cases internal

theorem advances_client {reader later : ReadFile Buffer} (advances : ReadFile.Advances reader later) :
    later.client = reader.client := by
  cases advances with
  | goesOn | leaves | refused | closedBefore => rfl
  | starts _ moves | finds _ moves | saves _ moves | closes _ moves =>
      obtain ⟨_, _, _, still⟩ := Connection.step_act moves
      exact still

theorem Sending.step (sending : s.Sending) (control : s.client.Control) (steps : s.step event = some after) :
    after.Sending := by
  cases event with
  | handleSendFile => exact sending.sends control (handleSendFile_sends steps)
  | handleReadFile taken =>
      obtain ⟨reader, turns, rfl⟩ := Option.map_eq_some_iff.mp steps
      have client := advances_client (ReadFile.handleReadFile_advances turns)
      exact sending.sameClient client rfl rfl
  | other action =>
      obtain ⟨internal, turns⟩ := Option.ite_none_right_eq_some.mp steps
      obtain ⟨conn, moves, rfl⟩ := Option.map_eq_some_iff.mp turns
      exact sending.internal moves internal

/-! ## The file is saved from the connection -/

/-- The server is shut down by the goroutine alone, which does so after the client's FIN. -/
structure Serving (reader : ReadFile Buffer) : Prop where
  opened : reader.pc ≠ .returned → reader.server.sock.canWrite = true
  past : reader.pc = .ended ∨ reader.pc = .returned → reader.server.sock.connState.pastFin = true
  drained : reader.server.Drained
  file : reader.file <+: reader.server.delivered

theorem Serving.advances {reader later : ReadFile Buffer} (serving : Serving reader) (saving : reader.Saving)
    (control : reader.server.Control) (advances : ReadFile.Advances reader later) : Serving later := by
  obtain ⟨opened, past, drained, file⟩ := serving
  cases advances with
  | goesOn pc | refused pc =>
      rw [pc] at opened
      exact ⟨fun _ => opened (by simp), by simp, drained, file⟩
  | leaves pc state =>
      rw [pc] at opened
      -- The loop has seen another state. The server is not shut down yet, so the FIN was the client's.
      have canWrite := opened (by simp)
      exact ⟨fun _ => canWrite, fun _ => drained.pastFin control canWrite state, drained, file⟩
  | starts pc moves =>
      rw [pc] at opened
      obtain ⟨_, _, turns, _⟩ := Connection.step_act moves
      obtain ⟨-, delivered⟩ := Endpoint.step_vRead turns
      exact ⟨fun _ => (Endpoint.step_canWrite turns (by simp)).trans (opened (by simp)), by simp,
        drained.step turns (by simp), (congrArg (reader.file <+: ·) delivered).mpr file⟩
  | finds pc moves empty =>
      have calls := saving.calls
      rw [pc] at opened calls
      obtain ⟨_, _, turns, _⟩ := Connection.step_act moves
      obtain ⟨-, delivered⟩ := Endpoint.step_vReadLoop turns calls
      exact ⟨fun _ => (Endpoint.step_canWrite turns (by simp)).trans (opened (by simp)), by simp,
        drained.step turns (by simp), file.trans ⟨_, delivered.symm⟩⟩
  | @saves pc conn moves bytes stored taken =>
      have calls := saving.calls
      have saved := saving.file (by rw [pc]; simp)
      rw [pc] at opened calls
      obtain ⟨_, _, turns, _⟩ := Connection.step_act moves
      obtain ⟨-, delivered⟩ := Endpoint.step_vReadLoop turns calls
      refine ⟨fun _ => (Endpoint.step_canWrite turns (by simp)).trans (opened (by simp)), ?_,
        drained.step turns (by simp), ?_⟩
      · dsimp only
        split <;> simp
      · change reader.file ++ bytes.take taken <+: (conn.ends .server).delivered
        rw [delivered, saved, stored]
        exact (List.prefix_append_right_inj _).mpr (List.take_prefix _ _)
  | closes pc moves =>
      obtain ⟨_, _, turns, _⟩ := Connection.step_act moves
      obtain ⟨-, delivered⟩ := ReadFile.server_unread moves rfl
      exact ⟨fun running => absurd rfl running,
        fun _ => (Connection.leads_step moves .server).past (past (.inl pc)),
        drained.step turns (by simp), (congrArg (reader.file <+: ·) delivered).mpr file⟩
  | closedBefore pc => exact ⟨fun running => absurd rfl running, fun _ => past (.inl pc), drained, file⟩

omit [Netstack] in
theorem Serving.sameServer {reader : ReadFile Buffer} {conn : Connection Buffer} (serving : Serving reader)
    (same : conn.ends .server = reader.conn.ends .server) : Serving { reader with conn := conn } := by
  have server : ReadFile.server { reader with conn := conn } = reader.server := same
  obtain ⟨opened, past, drained, file⟩ := serving
  constructor <;> rw [server] <;> assumption

theorem Serving.internal {reader : ReadFile Buffer} {conn : Connection Buffer} {action : Action}
    (serving : Serving reader) (moves : reader.conn.step action = some conn)
    (internal : action.internal = true) : Serving { reader with conn := conn } := by
  rcases conn_internal moves internal .server with same | ⟨event, out, internal, turns⟩
  · exact serving.sameServer same
  · obtain ⟨opened, past, drained, file⟩ := serving
    have calls := Endpoint.step_sameCalls turns internal
    refine ⟨fun running => calls.canWrite.trans (opened running),
      fun ended => (Connection.leads_step moves .server).past (past ended), drained.step turns ?_,
      (congrArg (reader.file <+: ·) calls.delivered).mpr file⟩
    rintro call rfl
    cases internal

theorem Serving.step (serving : Serving s.reader) (saving : s.reader.Saving) (control : s.server.Control)
    (steps : s.step event = some after) : Serving after.reader := by
  cases event with
  | handleSendFile =>
      rcases (handleSendFile_sends steps).calls with same | ⟨call, conn, moves, same, -⟩
      · rw [same]
        exact serving
      · rw [same]
        obtain ⟨_, _, _, still⟩ := Connection.step_act moves
        exact serving.sameServer still
  | handleReadFile taken =>
      obtain ⟨reader, turns, rfl⟩ := Option.map_eq_some_iff.mp steps
      exact serving.advances saving control (ReadFile.handleReadFile_advances turns)
  | other action =>
      obtain ⟨internal, turns⟩ := Option.ite_none_right_eq_some.mp steps
      obtain ⟨conn, moves, rfl⟩ := Option.map_eq_some_iff.mp turns
      exact serving.internal moves internal

/-! ## The whole transfer -/

theorem step_payload (steps : s.step event = some after) : after.payload = s.payload := by
  cases event with
  | handleSendFile => cases handleSendFile_sends steps <;> rfl
  | handleReadFile taken =>
      obtain ⟨_, _, rfl⟩ := Option.map_eq_some_iff.mp steps
      rfl
  | other action =>
      obtain ⟨-, turns⟩ := Option.ite_none_right_eq_some.mp steps
      obtain ⟨_, _, rfl⟩ := Option.map_eq_some_iff.mp turns
      rfl

section
variable {conn : TcpConn} {clientIsn serverIsn : UInt32} {payload : List Byte}

theorem joint_run (run : Run step noStraddle (start conn clientIsn serverIsn payload) s) :
    Connection.Joint True False s.reader.conn :=
  Connection.Joint.whole (ReadFile.run_conn (run_reader run))

theorem invariant_run (run : Run step noStraddle (start conn clientIsn serverIsn payload) s) :
    s.Sending ∧ Serving s.reader ∧ s.payload = payload := by
  have kept : Run step noStraddle (start conn clientIsn serverIsn payload) s ∧
      s.Sending ∧ Serving s.reader ∧ s.payload = payload := by
    refine run.preserves (fun now => Run step noStraddle (start conn clientIsn serverIsn payload) now ∧
      now.Sending ∧ Serving now.reader ∧ now.payload = payload) ?_ ⟨Run.refl, ?_, ?_, rfl⟩
    · -- The run so far is carried along: it gives what is known of the two ends.
      rintro before event after ⟨reached, sending, serving, same⟩ meets steps
      have joint := joint_run reached
      exact ⟨reached.tail meets steps, sending.step (joint.control .client) steps,
        serving.step (ReadFile.Saving.run (run_reader reached)) (joint.control .server) steps,
        (step_payload steps).trans same⟩
    · refine ⟨⟨rfl, rfl⟩, fun _ => rfl, fun tested => ?_⟩
      rcases tested with pc | pc <;> cases pc
    · refine ⟨fun _ => rfl, by simp [start, ReadFile.start], fun tested => ?_, List.nil_prefix⟩
      rcases tested with pc | pc <;> cases pc
  exact kept.2

end

end FileTransfer

end

section
attribute [local instance] Netstack.standard

namespace FileTransfer

open Connection

def transfersByte : List FileTransferEvent :=
  List.replicate 3 .handleSendFile ++ List.replicate 7 (.other (.act .client .handleWrites)) ++
    List.replicate 2 (.handleReadFile 100) ++
    [.other (.act .server (.handlePacket (fromClient 101 201 tcpFlagAck [7])))] ++
    List.replicate 3 (.handleReadFile 100) ++
    [.other (.act .server (.handlePacket (fromClient 102 201 tcpFlagFin [])))] ++
    List.replicate 3 (.handleReadFile 100)

theorem transfersByte_isSome :
    (exec step noStraddle (start loopback 100 200 [7] : FileTransfer Fifo) transfersByte).isSome := by
  decide +kernel

end FileTransfer

end

end IpTcp.Tcp
