import IpTcp.Lib.Run
import IpTcp.Tcp.Endpoint

/-! What a step of an end can do, said once: the moves of the application's calls and
of the goroutines, each with its guard. Invariants are proved move by move. -/

set_option autoImplicit false

namespace IpTcp.Tcp

open RingBuffer

theorem Event.own_or_packet (event : Event) :
    (∀ packet, event ≠ .handlePacket packet) ∨ ∃ packet, event = .handlePacket packet := by
  cases event <;> simp

def Event.internal : Event → Bool
  | .handleWrites | .handleRetransmission _ | .handlePacket _ | .timeWaitOver => true
  | _ => false

variable {Buffer : Type} [RingBuffer Buffer]

theorem readInto_snd {buffer : Buffer} {n : Nat} (enough : n ≤ (content buffer).length) :
    (readInto buffer n).2 = (content buffer).take n := by
  simp [readInto, read_bytes, enough]

theorem readInto_fst (buffer : Buffer) (n : Nat) :
    content (readInto buffer n).1 = (content buffer).drop n := by
  simp [readInto, read_content]

theorem isEmpty_iff (buffer : Buffer) : isEmpty buffer = true ↔ content buffer = [] := by
  simp [isEmpty]

namespace Endpoint

theorem sends_append (effects more : List Effect) :
    sends (effects ++ more) = sends effects ++ sends more := by
  induction effects with
  | nil => rfl
  | cons effect rest ih => cases effect <;> simp [sends, ih]

theorem sends_of_quiet {effects : List Effect} (quiet : ∀ packet, .sendTcp packet ∉ effects) :
    sends effects = [] := by
  induction effects with
  | nil => rfl
  | cons effect rest ih =>
      have none := ih fun packet member => quiet packet (List.mem_cons_of_mem _ member)
      cases effect with
      | sendTcp packet => exact absurd List.mem_cons_self (quiet packet)
      | _ => exact none

variable [Netstack]

/-- What an end sends from `HandlePacket` are bare acknowledgements. -/
theorem sends_seal {packet : TcpPacket} {stores : TcpSocket Buffer → List Byte → Prop}
    {absorbs : ConnState → Prop} {sock after : TcpSocket Buffer} {effects : List Effect}
    (act : TcpSocket.Act packet stores absorbs sock effects after) : ∀ answer ∈ sends effects,
    ∃ header : TCPFields, answer = sock.conn.seal header [] ∧ header.flags = tcpFlagAck ∧
      header.srcPort = sock.conn.localPort ∧ header.dstPort = sock.conn.foreignPort := by
  intro answer member
  cases act with
  | sendAck => exact ⟨sock.getAckHeader, by simpa [TcpSocket.sendAck, sends] using member, rfl, rfl, rfl⟩
  | finInOrder rest _ _ _ _ quiet =>
      have silent : sends rest = [] := sends_of_quiet fun packet found => by
        simpa using quiet _ found
      exact ⟨sock.getFinAckHeader, by simpa [sends, silent] using member, rfl, rfl, rfl⟩
  | drain _ _ _ _ _ _ quiet =>
      rw [sends_of_quiet quiet] at member
      cases member
  | wake =>
      unfold TcpSocket.wakeProbe at member
      split at member <;> cases member
  | _ => cases member

inductive Moves : Endpoint Buffer → Event → List TcpPacket → Endpoint Buffer → Prop where
  | calls (e : Endpoint Buffer) (event : Event) (vWrites : List (List Byte)) (vReads : List Nat) :
      Moves e event [] { e with vWrites := vWrites, vReads := vReads }
  | stored (e : Endpoint Buffer) (call : Nat) (buff : List Byte) (vWrites : List (List Byte)) :
      Moves e (.vWriteLoop call) [] { e with
        sock := { e.sock with writeBuffer := (write e.sock.writeBuffer buff).1 }
        vWrites := vWrites
        written := e.written ++ buff.take (free e.sock.writeBuffer) }
  | delivered (e : Endpoint Buffer) (call len : Nat) (vReads : List Nat) :
      Moves e (.vReadLoop call) [] { e with
        sock := { e.sock with readBuffer := (read e.sock.readBuffer len).1 }
        vReads := vReads
        delivered := e.delivered ++ (content e.sock.readBuffer).take len }
  | shutdown (e : Endpoint Buffer) (sdType : ShutdownType) (canRead canWrite : Bool) :
      Moves e (.vShutdown sdType) []
        { e with sock := { e.sock with canRead := canRead, canWrite := canWrite } }
  | expired (e : Endpoint Buffer) (state : e.sock.connState = .timeWait) :
      Moves e .timeWaitOver [] { e with deleted := true }
  | toFin (e : Endpoint Buffer) (pc : e.writer = .top) (empty : content e.sock.writeBuffer = [])
      (shut : e.sock.canWrite = false) : Moves e .handleWrites [] { e with writer := .fin }
  | fin (e : Endpoint Buffer) (pc : e.writer = .fin) : Moves e .handleWrites e.sendFin.2 e.sendFin.1
  | toProbe (e : Endpoint Buffer) (pc : e.writer = .top) (data : content e.sock.writeBuffer ≠ [])
      (usedUp : e.sock.foreignWindowSize ≤ e.sock.inFlightPacketSize) :
      Moves e .handleWrites [] { e with writer := .probe }
  | toSegment (e : Endpoint Buffer) (pc : e.writer = .top) (data : content e.sock.writeBuffer ≠ [])
      (opened : e.sock.inFlightPacketSize < e.sock.foreignWindowSize) :
      Moves e .handleWrites [] { e with writer := .segment }
  | probe (e : Endpoint Buffer) (pc : e.writer = .probe) :
      Moves e .handleWrites
        ((e.takeBytes 1).sendSegment (readInto e.sock.writeBuffer 1).2 .probePush).2
        ((e.takeBytes 1).sendSegment (readInto e.sock.writeBuffer 1).2 .probePush).1
  | probePush (e : Endpoint Buffer) (packet : TcpPacket) (pc : e.writer = .probePush packet) :
      Moves e .handleWrites []
        { (e.pushInFlight packet true).countInFlight packet with writer := .waiting }
  | none (e : Endpoint Buffer) (pc : e.writer = .segment) (nothing : e.sizeToWrite = 0) :
      Moves e .handleWrites [] { e with writer := .top }
  | take (e : Endpoint Buffer) (pc : e.writer = .segment) (some : e.sizeToWrite ≠ 0) :
      Moves e .handleWrites []
        { e.takeBytes e.sizeToWrite with
          writer := .sending (readInto e.sock.writeBuffer e.sizeToWrite).2 }
  | send (e : Endpoint Buffer) (payload : List Byte) (pc : e.writer = .sending payload) :
      Moves e .handleWrites
        (e.sendSegment (payload.take tcpMaxSegmentSize)
          fun packet => .pushing packet (payload.drop tcpMaxSegmentSize)).2
        (e.sendSegment (payload.take tcpMaxSegmentSize)
          fun packet => .pushing packet (payload.drop tcpMaxSegmentSize)).1
  | push (e : Endpoint Buffer) (packet : TcpPacket) (payload : List Byte)
      (pc : e.writer = .pushing packet payload) :
      Moves e .handleWrites [] { e.pushInFlight packet false with writer := .counting packet payload }
  | count (e : Endpoint Buffer) (packet : TcpPacket) (payload : List Byte)
      (pc : e.writer = .counting packet payload) :
      Moves e .handleWrites [] { e.countInFlight packet with
        writer := if payload = [] then .top else .sending payload }
  | timer (e : Endpoint Buffer) (timedOut : Bool) (pc : RetransmitterPc) :
      Moves e (.handleRetransmission timedOut) [] { e with retransmitter := pc }
  | resend (e : Endpoint Buffer) (item : TcpPacketItem) (rest : List TcpPacketItem)
      (front : e.sock.inFlightList = item :: rest) :
      Moves e (.handleRetransmission true) [item.value]
        { e with
          sock := e.sock.withInFlight ({ item with retransmitted := true } :: rest)
          retransmitter := .test }
  | packet (e : Endpoint Buffer) (packet : TcpPacket) (free : e.writer ≠ .fin) :
      Moves e (.handlePacket packet) (e.handlePacket packet).2 (e.handlePacket packet).1

theorem handleWrites_moves {e after : Endpoint Buffer} {out : List TcpPacket}
    (moves : e.handleWrites = some (after, out)) : Moves e .handleWrites out after := by
  unfold handleWrites at moves
  split at moves
  next pc =>
    by_cases empty : isEmpty e.sock.writeBuffer = true
    · rw [if_pos empty] at moves
      by_cases canWrite : e.sock.canWrite = true
      · rw [if_pos canWrite] at moves
        cases moves
      · rw [if_neg canWrite] at moves
        cases moves
        exact Moves.toFin e pc ((isEmpty_iff _).mp empty) (by simpa using canWrite)
    · rw [if_neg empty] at moves
      have data : content e.sock.writeBuffer ≠ [] := fun nil => empty ((isEmpty_iff _).mpr nil)
      by_cases usedUp : e.sock.foreignWindowSize ≤ e.sock.inFlightPacketSize
      · rw [if_pos usedUp] at moves
        cases moves
        exact Moves.toProbe e pc data usedUp
      · rw [if_neg usedUp] at moves
        cases moves
        exact Moves.toSegment e pc data (by
          rw [UInt32.le_iff_toNat_le] at usedUp
          rw [UInt32.lt_iff_toNat_lt]
          omega)
  next pc =>
    have same := Option.some.inj moves
    have move := Moves.fin e pc
    rwa [same] at move
  next pc =>
    have same := Option.some.inj moves
    have move := Moves.probe e pc
    rwa [same] at move
  next packet pc =>
    cases moves
    exact Moves.probePush e packet pc
  next => cases moves
  next pc =>
    by_cases nothing : e.sizeToWrite = 0
    · rw [if_pos nothing] at moves
      cases moves
      exact Moves.none e pc nothing
    · rw [if_neg nothing] at moves
      cases moves
      exact Moves.take e pc nothing
  next payload pc =>
    have same := Option.some.inj moves
    have move := Moves.send e payload pc
    rwa [same] at move
  next packet payload pc =>
    cases moves
    exact Moves.push e packet payload pc
  next packet payload pc =>
    cases moves
    exact Moves.count e packet payload pc
  next => cases moves

theorem handleRetransmission_moves {e after : Endpoint Buffer} {timedOut : Bool} {out : List TcpPacket}
    (moves : e.handleRetransmission timedOut = some (after, out)) :
    Moves e (.handleRetransmission timedOut) out after := by
  unfold handleRetransmission at moves
  split at moves
  · cases moves
    exact Moves.timer e timedOut _
  · split at moves
    · rename_i item rest front
      cases moves
      exact Moves.resend e item rest front
    · cases moves
      exact Moves.timer e _ _
  · cases moves

theorem vWriteLoop_moves {e after : Endpoint Buffer} {call : Nat}
    (moves : e.vWriteLoop call = some after) : Moves e (.vWriteLoop call) [] after := by
  unfold vWriteLoop at moves
  split at moves
  · cases moves
  · rename_i buff _
    by_cases full : isFull e.sock.writeBuffer = true
    · rw [if_pos full] at moves
      cases moves
    · rw [if_neg full] at moves
      have count : (write e.sock.writeBuffer buff).2.1 = min buff.length (free e.sock.writeBuffer) :=
        write_count e.sock.writeBuffer buff
      have stored : buff.take (write e.sock.writeBuffer buff).2.1 =
          buff.take (free e.sock.writeBuffer) := by
        rw [count, List.take_eq_take_iff]
        omega
      simp only [stored] at moves
      cases moves
      exact Moves.stored e call buff _

theorem vReadLoop_moves {e after : Endpoint Buffer} {call : Nat}
    (moves : e.vReadLoop call = some after) : Moves e (.vReadLoop call) [] after := by
  unfold vReadLoop at moves
  split at moves
  · cases moves
  · rename_i len _
    by_cases empty : isEmpty e.sock.readBuffer = true
    · rw [if_pos empty] at moves
      split at moves
      · cases moves
        exact Moves.calls e _ e.vWrites _
      · cases moves
    · rw [if_neg empty] at moves
      simp only [read_bytes] at moves
      cases moves
      exact Moves.delivered e call len _

theorem vShutdown_moves {e after : Endpoint Buffer} {sdType : ShutdownType}
    (moves : e.vShutdown sdType = some after) : Moves e (.vShutdown sdType) [] after := by
  unfold vShutdown at moves
  split at moves
  · split at moves <;> split at moves
    · cases moves
      exact Moves.shutdown e _ false false
    · cases moves
    · cases moves
      exact Moves.shutdown e _ false e.sock.canWrite
    · cases moves
    · cases moves
      exact Moves.shutdown e _ e.sock.canRead false
    · cases moves
  · cases moves

theorem step_handlePacket {e after : Endpoint Buffer} {packet : TcpPacket} {out : List TcpPacket}
    (moves : e.step (.handlePacket packet) = some (after, out)) :
    e.writer ≠ .fin ∧ e.handlePacket packet = (after, out) := by
  obtain ⟨free, same⟩ := Option.ite_none_left_eq_some.mp moves
  exact ⟨free, Option.some.inj same⟩

/-- Every step of an end is one of its moves. -/
theorem step_moves {e after : Endpoint Buffer} {event : Event} {out : List TcpPacket}
    (moves : e.step event = some (after, out)) : Moves e event out after := by
  cases event with
  | vWrite buff =>
      simp only [step, vWrite, Option.map_eq_some_iff] at moves
      obtain ⟨_, started, same⟩ := moves
      split at started
      · cases started
        cases same
        exact Moves.calls e _ _ e.vReads
      · cases started
  | vWriteLoop call =>
      simp only [step, Option.map_eq_some_iff] at moves
      obtain ⟨_, stored, same⟩ := moves
      cases same
      exact vWriteLoop_moves stored
  | vRead len =>
      simp only [step, vRead, Option.map_eq_some_iff] at moves
      obtain ⟨_, started, same⟩ := moves
      split at started
      · cases started
        cases same
        exact Moves.calls e _ e.vWrites _
      · cases started
  | vReadLoop call =>
      simp only [step, Option.map_eq_some_iff] at moves
      obtain ⟨_, read, same⟩ := moves
      cases same
      exact vReadLoop_moves read
  | vShutdown sdType =>
      simp only [step, Option.map_eq_some_iff] at moves
      obtain ⟨_, shut, same⟩ := moves
      cases same
      exact vShutdown_moves shut
  | handleWrites => exact handleWrites_moves moves
  | handleRetransmission timedOut => exact handleRetransmission_moves moves
  | handlePacket packet =>
      obtain ⟨free, same⟩ := step_handlePacket moves
      have move := Moves.packet e packet free
      rwa [same] at move
  | timeWaitOver =>
      simp only [step, timeWaitOver, Option.map_eq_some_iff] at moves
      obtain ⟨_, ended, same⟩ := moves
      split at ended
      · rename_i state
        cases ended
        cases same
        exact Moves.expired e state
      · cases ended

theorem run_keeps {first last : Endpoint Buffer} {guard : Endpoint Buffer → Event → Prop}
    (invariant : Endpoint Buffer → Prop)
    (keeps : ∀ e event out after, invariant e → guard e event → e.step event = some (after, out) →
      invariant after)
    (run : Lib.Run move guard first last) (initially : invariant first) : invariant last := by
  refine run.preserves invariant (fun e event after held meets moves => ?_) initially
  obtain ⟨⟨_, out⟩, steps, rfl⟩ := Option.map_eq_some_iff.mp moves
  exact keeps e event out _ held meets steps

/-! ## What the goroutines leave alone -/

theorem Moves.numbers {e after : Endpoint Buffer} {event : Event} {out : List TcpPacket}
    (moves : Moves e event out after) (own : ∀ packet, event ≠ .handlePacket packet) :
    after.sock.conn = e.sock.conn ∧ after.sock.myInitSeqNum = e.sock.myInitSeqNum ∧
      after.sock.foreignInitSeqNum = e.sock.foreignInitSeqNum ∧
      after.sock.nextExpectedByte = e.sock.nextExpectedByte := by
  cases moves with
  | packet packet => exact absurd rfl (own packet)
  | _ => exact ⟨rfl, rfl, rfl, rfl⟩

theorem handlePacket_numbers (e : Endpoint Buffer) (packet : TcpPacket) :
    (e.handlePacket packet).1.sock.conn = e.sock.conn ∧
      (e.handlePacket packet).1.sock.myInitSeqNum = e.sock.myInitSeqNum ∧
      (e.handlePacket packet).1.sock.foreignInitSeqNum = e.sock.foreignInitSeqNum := by
  have same := (e.sock.handlePacket_acts packet).sameIdentity
  exact ⟨same.conn, same.myInitSeqNum, same.foreignInitSeqNum⟩

structure SameCalls (e after : Endpoint Buffer) : Prop where
  vWrites : after.vWrites = e.vWrites
  vReads : after.vReads = e.vReads
  written : after.written = e.written
  delivered : after.delivered = e.delivered
  canWrite : after.sock.canWrite = e.sock.canWrite

theorem step_sameCalls {e after : Endpoint Buffer} {event : Event} {out : List TcpPacket}
    (steps : e.step event = some (after, out)) (internal : event.internal = true) :
    SameCalls e after := by
  cases event with
  | handlePacket packet =>
      cases Option.some.inj (Option.ite_none_left_eq_some.mp steps).2
      exact ⟨rfl, rfl, rfl, rfl, (TcpSocket.handlePacket_acts e.sock packet).sameIdentity.canWrite⟩
  | handleWrites | handleRetransmission timedOut =>
      simp only [step, handleWrites, handleRetransmission] at steps
      repeat' split at steps
      all_goals cases steps
      all_goals exact ⟨rfl, rfl, rfl, rfl, rfl⟩
  | timeWaitOver =>
      simp only [step, timeWaitOver, Option.map_eq_some_iff] at steps
      obtain ⟨_, ended, same⟩ := steps
      cases same
      split at ended
      · cases ended
        exact ⟨rfl, rfl, rfl, rfl, rfl⟩
      · cases ended
  | _ => cases internal

end Endpoint

end IpTcp.Tcp
