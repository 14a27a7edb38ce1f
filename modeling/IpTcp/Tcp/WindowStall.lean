import IpTcp.Tcp.AckProcessing
import IpTcp.Tcp.FlowSteps
import IpTcp.Tcp.FullBuffer

/-! A writer that waits for its window with nothing in flight waits for ever. `HandleWrites` sleeps
after a probe until `HandlePacket` finds the window open, and only an acknowledgement tells of the
window; the peer sends one for a segment, and no segment is left to be sent again. `VRead` at the
peer opens the window and tells nobody. -/

set_option autoImplicit false

namespace IpTcp.Tcp

open RingBuffer Lib

variable {Buffer : Type}

/-- What an end that waits sends: an acknowledgement of a FIN. -/
def TcpPacket.Bare (packet : TcpPacket) : Prop := packet.data = [] ∧ packet.hasFin = false

namespace Endpoint

/-- The writer waits after a probe, and nothing is left to be acknowledged. -/
structure Stuck (e : Endpoint Buffer) : Prop where
  waiting : e.writer = .waiting
  inFlight : e.sock.inFlightList = []

structure Silent [RingBuffer Buffer] (e : Endpoint Buffer) : Prop where
  vWrites : e.vWrites = []
  writeBuffer : content e.sock.writeBuffer = []
  writer : e.writer = .top ∨ e.writer = .fin ∨ e.writer = .returned
  inFlight : ∀ item ∈ e.sock.inFlightList, item.value.header.flags = tcpFlagFin

variable [RingBuffer Buffer] [Netstack]

theorem handlePacket_other (sock : TcpSocket Buffer) {packet : TcpPacket}
    (other : packet.header.flags ≠ tcpFlagAck) :
    (sock.handlePacket packet).1.inFlightList = sock.inFlightList ∧
      .broadcast .windowNotEmpty ∉ (sock.handlePacket packet).2 := by
  have fin := sock.receiveFin_sender packet
  unfold TcpSocket.handlePacket
  split
  · exact ⟨rfl, List.not_mem_nil⟩
  split
  · exact ⟨rfl, List.not_mem_nil⟩
  split
  · exact ⟨fin.1.inFlightList, fin.2⟩
  · exact ⟨rfl, List.not_mem_nil⟩

theorem Stuck.step {e after : Endpoint Buffer} {event : Event} {out : List TcpPacket} (stuck : e.Stuck)
    (moves : Moves e event out after)
    (other : ∀ packet, event = .handlePacket packet → packet.header.flags ≠ tcpFlagAck) :
    after.Stuck ∧ after.sent = e.sent ∧ ∀ packet ∈ out, packet.Bare := by
  obtain ⟨waiting, inFlight⟩ := stuck
  cases moves with
  | calls | stored | delivered | shutdown | expired | timer =>
      exact ⟨⟨waiting, inFlight⟩, rfl, fun _ member => absurd member List.not_mem_nil⟩
  | toFin pc | fin pc | toProbe pc | toSegment pc | probe pc | probePush _ pc | none pc | take pc
  | send _ pc | push _ _ pc | count _ _ pc =>
      rw [waiting] at pc
      cases pc
  | resend item rest front =>
      rw [inFlight] at front
      cases front
  | packet packet =>
      obtain ⟨same, asleep⟩ := handlePacket_other e.sock (other packet rfl)
      exact ⟨⟨(settle_asleep asleep).trans waiting, same.trans inFlight⟩, rfl, handlePacket_bare e packet⟩

/-- A packet without payload and FIN is not answered. -/
theorem handlePacket_unanswered (sock : TcpSocket Buffer) {packet : TcpPacket} (bare : packet.Bare) :
    sends (sock.handlePacket packet).2 = [] ∧
      ∀ item ∈ (sock.handlePacket packet).1.inFlightList, item ∈ sock.inFlightList := by
  have acts := sock.handlePacket_acts packet
  refine acts.preserves (fun after effects => sends effects = [] ∧
    ∀ item ∈ after.inFlightList, item ∈ sock.inFlightList) ?_ ⟨rfl, fun _ member => member⟩
  rintro before done more after ⟨silent, items⟩ act
  rw [sends_append, silent, List.nil_append]
  cases act with
  | sameAck | newAck | store | queue | closing => exact ⟨rfl, items⟩
  | acked item rest _ _ front =>
      refine ⟨rfl, fun other member => items other ?_⟩
      rw [front]
      exact List.mem_cons_of_mem item member
  | wake =>
      refine ⟨sends_of_quiet fun answer member => ?_, items⟩
      unfold TcpSocket.wakeProbe at member
      split at member
      · cases List.mem_singleton.mp member
      · cases member
  | drain root others effects queue inOrder stored quiet => exact ⟨sends_of_quiet quiet, items⟩
  | sendAck flags payload => exact absurd bare.1 payload
  | finInOrder effects flags fin =>
      rw [bare.2] at fin
      cases fin

section
variable {e after : Endpoint Buffer} {event : Event} {out : List TcpPacket}

omit [Netstack] in
theorem none_acks : ∀ packet ∈ ([] : List TcpPacket), packet.header.flags ≠ tcpFlagAck :=
  fun _ member => absurd member List.not_mem_nil

theorem Silent.writes (silent : e.Silent) (moves : e.handleWrites = some (after, out)) :
    after.Silent ∧ ∀ packet ∈ out, packet.header.flags ≠ tcpFlagAck := by
  obtain ⟨vWrites, writeBuffer, writer, inFlight⟩ := silent
  have empty : isEmpty e.sock.writeBuffer = true := by simp [isEmpty, writeBuffer]
  rcases writer with top | fin | returned
  · rw [handleWrites, top] at moves
    dsimp only at moves
    rw [if_pos empty] at moves
    obtain ⟨-, tests⟩ := Option.ite_none_left_eq_some.mp moves
    cases tests
    exact ⟨⟨vWrites, writeBuffer, .inr (.inl rfl), inFlight⟩, none_acks⟩
  · rw [handleWrites, fin] at moves
    cases moves
    refine ⟨⟨vWrites, writeBuffer, .inr (.inr rfl), fun item member => ?_⟩, fun packet member => ?_⟩
    · rcases List.mem_append.mp member with old | new
      · exact inFlight item old
      · rw [List.mem_singleton.mp new]
        rfl
    · rw [List.mem_singleton.mp member]
      change tcpFlagFin ≠ tcpFlagAck
      decide
  · rw [handleWrites, returned] at moves
    cases moves

omit [Netstack] in
theorem Silent.retransmits {timedOut : Bool} (silent : e.Silent)
    (moves : e.handleRetransmission timedOut = some (after, out)) :
    after.Silent ∧ ∀ packet ∈ out, packet.header.flags ≠ tcpFlagAck := by
  obtain ⟨vWrites, writeBuffer, writer, inFlight⟩ := silent
  unfold handleRetransmission at moves
  split at moves
  · cases moves
    exact ⟨⟨vWrites, writeBuffer, writer, inFlight⟩, none_acks⟩
  · split at moves
    · rename_i item rest front
      cases moves
      have fin := inFlight item (by rw [front]; exact List.mem_cons_self)
      refine ⟨⟨vWrites, writeBuffer, writer, fun other member => ?_⟩, fun packet member => ?_⟩
      · rcases List.mem_cons.mp member with rfl | old
        · exact fin
        · exact inFlight other (by rw [front]; exact List.mem_cons_of_mem item old)
      · rw [List.mem_singleton.mp member, fin]
        decide
    · cases moves
      exact ⟨⟨vWrites, writeBuffer, writer, inFlight⟩, none_acks⟩
  · cases moves

theorem Silent.handles {packet : TcpPacket} (silent : e.Silent) (bare : packet.Bare) :
    (e.handlePacket packet).1.Silent ∧
      ∀ answer ∈ (e.handlePacket packet).2, answer.header.flags ≠ tcpFlagAck := by
  obtain ⟨vWrites, writeBuffer, writer, inFlight⟩ := silent
  obtain ⟨unanswered, items⟩ := handlePacket_unanswered e.sock bare
  refine ⟨⟨vWrites, ?_, ?_, fun item member => inFlight item (items item member)⟩, ?_⟩
  · rw [handlePacket_writeBuffer]
    exact writeBuffer
  · -- Only a writer that waits is moved by a packet.
    have awake : e.writer ≠ .waiting := by
      intro waiting
      rw [waiting] at writer
      rcases writer with pc | pc | pc <;> cases pc
    have stays : (e.handlePacket packet).1.writer = e.writer := if_neg fun wakes => awake wakes.1
    rw [stays]
    exact writer
  · change ∀ answer ∈ sends (e.sock.handlePacket packet).2, _
    rw [unanswered]
    exact none_acks

theorem Silent.step (silent : e.Silent) (moves : e.step event = some (after, out))
    (nothing : ∀ buff, event ≠ .vWrite buff)
    (bare : ∀ packet, event = .handlePacket packet → packet.Bare) :
    after.Silent ∧ ∀ packet ∈ out, packet.header.flags ≠ tcpFlagAck := by
  cases event with
  | vWrite buff => exact absurd rfl (nothing buff)
  | vWriteLoop call =>
      obtain ⟨_, stored, -⟩ := Option.map_eq_some_iff.mp moves
      -- There is no call of `VWrite` to go on with.
      rw [vWriteLoop, silent.vWrites] at stored
      cases stored
  | vRead len =>
      obtain ⟨_, called, same⟩ := Option.map_eq_some_iff.mp moves
      obtain ⟨-, ⟨⟩⟩ := Option.ite_none_right_eq_some.mp called
      cases same
      exact ⟨⟨silent.vWrites, silent.writeBuffer, silent.writer, silent.inFlight⟩, none_acks⟩
  | vReadLoop call =>
      obtain ⟨_, turned, same⟩ := Option.map_eq_some_iff.mp moves
      unfold vReadLoop at turned
      split at turned
      · cases turned
      · split at turned
        · obtain ⟨-, ⟨⟩⟩ := Option.ite_none_right_eq_some.mp turned
          cases same
          exact ⟨⟨silent.vWrites, silent.writeBuffer, silent.writer, silent.inFlight⟩, none_acks⟩
        · cases turned
          cases same
          exact ⟨⟨silent.vWrites, silent.writeBuffer, silent.writer, silent.inFlight⟩, none_acks⟩
  | vShutdown sdType =>
      obtain ⟨_, shut, same⟩ := Option.map_eq_some_iff.mp moves
      obtain ⟨-, shut⟩ := Option.ite_none_right_eq_some.mp shut
      cases sdType <;>
      · obtain ⟨-, ⟨⟩⟩ := Option.ite_none_right_eq_some.mp shut
        cases same
        exact ⟨⟨silent.vWrites, silent.writeBuffer, silent.writer, silent.inFlight⟩, none_acks⟩
  | handleWrites => exact silent.writes moves
  | handleRetransmission timedOut => exact silent.retransmits moves
  | handlePacket packet =>
      have handled := silent.handles (bare packet rfl)
      rw [(step_handlePacket moves).2] at handled
      exact handled
  | timeWaitOver =>
      obtain ⟨_, expired, same⟩ := Option.map_eq_some_iff.mp moves
      obtain ⟨-, ⟨⟩⟩ := Option.ite_none_right_eq_some.mp expired
      cases same
      exact ⟨⟨silent.vWrites, silent.writeBuffer, silent.writer, silent.inFlight⟩, none_acks⟩

end

end Endpoint

namespace Connection

open Endpoint

variable [RingBuffer Buffer]

structure Stalled (c : Connection Buffer) (side : Side) : Prop where
  stuck : (c.ends side).Stuck
  silent : (c.ends side.other).Silent
  others : ∀ packet ∈ c.net side, packet.header.flags ≠ tcpFlagAck
  bare : ∀ packet ∈ c.net side.other, packet.Bare

def writesNothing (side : Side) (_ : Connection Buffer) (action : Action) : Prop :=
  ∀ buff, action ≠ .act side (.vWrite buff)

section
variable [Netstack]

theorem Stalled.step {c after : Connection Buffer} {side : Side} {action : Action} (stalled : c.Stalled side)
    (nothing : writesNothing side.other c action) (steps : Steps c action after) :
    after.Stalled side ∧ (after.ends side).sent = (c.ends side).sent := by
  obtain ⟨stuck, silent, others, bare⟩ := stalled
  cases steps with
  | network ends net =>
      rw [ends]
      refine ⟨⟨?_, ?_, fun packet member => others packet (net _ member),
        fun packet member => bare packet (net _ member)⟩, rfl⟩
      · rw [ends]
        exact stuck
      · rw [ends]
        exact silent
  | @act _ actor event out arrived moves still taken sent =>
      rcases actor.eq_or_other side with rfl | rfl
      · obtain ⟨stuck, same, answers⟩ := stuck.step (step_moves moves)
          fun packet handles => others packet (arrived packet handles)
        refine ⟨⟨stuck, ?_, fun packet member => others packet (taken member), fun packet member => ?_⟩, same⟩
        · rw [still]
          exact silent
        · rw [sent] at member
          rcases List.mem_append.mp member with old | new
          · exact bare packet old
          · exact answers packet new
      · rw [Side.other_other] at still sent
        -- The other side, whose application writes nothing, sends no acknowledgement.
        obtain ⟨silent, tells⟩ := silent.step moves (fun buff same => nothing buff (by rw [same]))
          fun packet handles => bare packet (arrived packet handles)
        rw [still]
        refine ⟨⟨?_, silent, fun packet member => ?_, fun packet member => bare packet (taken member)⟩, rfl⟩
        · rw [still]
          exact stuck
        · rw [sent] at member
          rcases List.mem_append.mp member with old | new
          · exact others packet old
          · exact tells packet new

/-- A side that waits for its window with nothing in flight sends nothing any more, neither what
is written to it nor its FIN, until the application at the other side writes; however far the
other side reads. -/
theorem window_wait_endless {c after : Connection Buffer} {side : Side} (stalled : c.Stalled side)
    (run : Run step (writesNothing side.other) c after) :
    (after.ends side).writer = .waiting ∧ (after.ends side).sent = (c.ends side).sent := by
  have kept : after.Stalled side ∧ (after.ends side).sent = (c.ends side).sent := by
    refine run.preserves (fun now => now.Stalled side ∧ (now.ends side).sent = (c.ends side).sent)
      ?_ ⟨stalled, rfl⟩
    rintro before action next ⟨stalled, same⟩ nothing moves
    obtain ⟨still, sent⟩ := stalled.step nothing (step_steps moves)
    exact ⟨still, sent.trans same⟩
  exact ⟨kept.1.stuck.waiting, kept.2⟩

theorem run_loses (c : Connection Buffer) (side : Side) :
    Run step anyEvent c { c with net := Function.update c.net side [] } := by
  generalize carried : c.net side = packets
  induction packets generalizing c with
  | nil =>
      rw [← carried, Function.update_eq_self]
      exact Run.refl
  | cons packet packets ih =>
      have loses : c.step (.lose side packet) =
          some { c with net := Function.update c.net side packets } := by
        simp [step, carried]
      have rest := ih { c with net := Function.update c.net side packets } (Function.update_self ..)
      rw [Function.update_idem] at rest
      exact (Run.refl.tail trivial loses).trans rest

end

section
attribute [local instance] Netstack.standard

theorem run_stalls : ∃ c : Connection Fifo, Run step anyEvent (established loopback 100 200) c ∧
    content (c.ends .client).sock.writeBuffer ≠ [] ∧
    free (c.ends .server).sock.readBuffer = bufferSize ∧ c.Stalled .client := by
  obtain ⟨c, probes, waiting, buffer, delivered, stored, server⟩ := run_probed
  have writes := run_emits (emits_write waiting.vWrites waiting.deleted waiting.canWrite waiting.writeBuffer 8)
  have still := moved_ends_other c .client ((c.ends .client).wrote 8) []
  obtain ⟨read, reads, readServer, readClient, -⟩ := run_reads (still.trans server) bufferSize stored
  -- Whatever is still on the way is lost.
  have loses := (run_loses read .client).trans (run_loses _ .server)
  have empty : content (RingBuffer.read buffer bufferSize).1 = [] := by
    rw [read_content, List.drop_of_length_le (content_length_le buffer)]
  rw [moved_ends] at readClient
  have written : content (read.ends .client).sock.writeBuffer = [8] := by
    rw [readClient]
    change content (write (c.ends .client).sock.writeBuffer [8]).1 = [8]
    rw [content_write_of_le _ _ (by simp [free, waiting.writeBuffer, bufferSize]), waiting.writeBuffer]
    rfl
  refine ⟨_, (((probes.trans writes).trans reads).trans loses), ?_, ?_, ?_, ?_, ?_, ?_⟩
  · change content (read.ends .client).sock.writeBuffer ≠ []
    rw [written]
    exact List.cons_ne_nil _ _
  · change free (read.ends .server).sock.readBuffer = bufferSize
    rw [readServer]
    change free (RingBuffer.read buffer bufferSize).1 = bufferSize
    simp [free, empty]
  · change (read.ends .client).Stuck
    rw [readClient]
    exact ⟨waiting.writer, waiting.inFlightList⟩
  · change (read.ends .server).Silent
    rw [readServer]
    exact ⟨rfl, rfl, .inl rfl, fun _ member => absurd member List.not_mem_nil⟩
  · simp
  · simp [Side.other]

theorem window_wait_endless_probe : ∃ c : Connection Fifo, Run step anyEvent (established loopback 100 200) c ∧
    content (c.ends .client).sock.writeBuffer ≠ [] ∧
    free (c.ends .server).sock.readBuffer = bufferSize ∧
    ∀ after, Run step (writesNothing .server) c after →
      (after.ends .client).writer = .waiting ∧ (after.ends .client).sent = (c.ends .client).sent := by
  obtain ⟨c, reaches, toSend, space, stalled⟩ := run_stalls
  exact ⟨c, reaches, toSend, space, fun _ run => window_wait_endless stalled run⟩

end

end Connection

end IpTcp.Tcp
