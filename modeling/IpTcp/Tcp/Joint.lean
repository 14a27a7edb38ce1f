import IpTcp.Tcp.Connection
import IpTcp.Tcp.FlowSteps

/-! The joint invariant of a connection: what holds of each end, and of each direction
as long as fewer than 2^32 - 2 bytes were sent in it. -/

set_option autoImplicit false

namespace IpTcp.Tcp

open RingBuffer Lib

variable {Buffer : Type} [RingBuffer Buffer]

namespace Endpoint

def Recorded (e : Endpoint Buffer) : Prop := e.acks = [] ∨ e.sock.largestAckReceived ∈ e.acks

theorem flow_start (whole graceful : Prop) {sock other : TcpSocket Buffer} {acks otherAcks : List UInt32}
    {toY toX : List TcpPacket} (isn : other.foreignInitSeqNum = sock.myInitSeqNum)
    (next : other.nextExpectedByte = 1) (queue : other.earlyArrivalQueue = [])
    (buffer : content other.readBuffer = []) (state : sock.connState = .established)
    (otherState : other.connState = .established)
    (bare : ∀ packet ∈ toY, packet.data = [] ∧ packet.hasFin = false)
    (answers : ∀ packet ∈ toX, packet.header.flags ≠ tcpFlagSyn →
      packet.header.ackNum - sock.myInitSeqNum = 1)
    (acked : ∀ ackNum ∈ acks, ackNum - sock.myInitSeqNum = 1) :
    Flow whole graceful (start sock acks) (start other otherAcks) toY toX := by
  have one : ∀ (fin : Prop) (ackNum : UInt32), ackNum - sock.myInitSeqNum = 1 →
      Truth graceful (start sock acks) (start other otherAcks) fin ackNum := by
    intro fin ackNum first
    refine Or.inl ?_
    simp only [start, first, next, le_refl]
  refine ⟨isn, ?_, ?_, ⟨?_, ?_, ?_, ?_⟩, ?_, ?_, ?_, ?_, ?_⟩
  · intro packet member kind
    obtain ⟨empty, noFin⟩ := bare packet member
    simp [empty, noFin] at kind
  · intro entry member
    simp [start, queue, PriorityQueue.entries] at member
  · simp only [start, next]
    decide
  · simp [start, next]
  · simp [start, next]
  · simp [start, next, buffer]
  · exact fun packet member flags => one _ _ (answers packet member flags)
  · intro packet member
    cases member
  · exact fun ackNum member => one _ _ (acked ackNum member)
  · simp only [start, otherState]
    intro past
    cases past
  · simp only [start, state]
    intro past
    cases past

variable [Netstack]

theorem Recorded.step {e after : Endpoint Buffer} {event : Event} {out : List TcpPacket}
    (recorded : e.Recorded) (moves : Moves e event out after) : after.Recorded := by
  cases moves with
  | packet packet =>
      simp only [Recorded, handlePacket, settle]
      split
      · rename_i same
        rw [same]
        exact recorded
      · exact Or.inr (List.mem_append_right _ (List.mem_singleton_self _))
  | _ => exact recorded

theorem Moves.transmitted_le {e after : Endpoint Buffer} {event : Event} {out : List TcpPacket}
    (moves : Moves e event out after) : e.transmitted.length ≤ after.transmitted.length := by
  cases moves with
  | probe | send =>
      rw [transmitted_sendSegment, List.length_append]
      exact Nat.le_add_right _ _
  | fin => rw [transmitted_sendFin]
  | _ => exact le_refl _

end Endpoint

namespace Connection

open Endpoint

structure Joint (whole graceful : Prop) (c : Connection Buffer) : Prop where
  sender : ∀ side, (c.ends side).Sender
  control : ∀ side, (c.ends side).Control
  recorded : ∀ side, (c.ends side).Recorded
  flow : ∀ side, (c.ends side).transmitted.length + 2 < 2 ^ 32 →
    Flow whole graceful (c.ends side) (c.ends side.other) (c.net side.other) (c.net side)

theorem Joint.incoming {whole graceful : Prop} {c : Connection Buffer} (joint : Joint whole graceful c)
    {side : Side} (bound : (c.ends side.other).transmitted.length + 2 < 2 ^ 32) :
    Flow whole graceful (c.ends side.other) (c.ends side) (c.net side) (c.net side.other) := by
  have flow := joint.flow side.other bound
  rwa [Side.other_other] at flow

variable [Netstack]

/-- The packet is handled without storing part of a payload, if that is wanted, and
without overlooking a FIN, if that is wanted. -/
def Handles (whole graceful : Prop) (e : Endpoint Buffer) (packet : TcpPacket) : Prop :=
  ∃ stores absorbs,
    TcpSocket.Acts packet stores absorbs e.sock (e.sock.handlePacket packet).2
      (e.sock.handlePacket packet).1 ∧
    (∀ sock data, stores sock data → whole →
      data.length ≤ free sock.readBuffer ∨ free sock.readBuffer = 0) ∧
    ∀ state, absorbs state → graceful → state.afterFin.pastFin = true

theorem Joint.step {whole graceful : Prop} {c after : Connection Buffer} {action : Action}
    (joint : Joint whole graceful c) (stepped : c.step action = some after)
    (handles : ∀ side packet, action = .act side (.handlePacket packet) →
      packet ∈ c.net side → (c.ends side.other).transmitted.length + 2 < 2 ^ 32 →
      Handles whole graceful (c.ends side) packet) : Joint whole graceful after := by
  cases step_steps stepped with
  | network ends net =>
      refine ⟨ends ▸ joint.sender, ends ▸ joint.control, ends ▸ joint.recorded, fun side bound => ?_⟩
      rw [ends] at bound ⊢
      exact (joint.flow side bound).subset (net _) (net _)
  | @act _ side event out arrived moves still taken sent =>
      have moved := step_moves moves
      have sender := (joint.sender side).step moves
      have control := (joint.control side).step (joint.sender side).numbered moved
      have recorded := (joint.recorded side).step moved
      have every : ∀ property : Endpoint Buffer → Prop, (∀ side, property (c.ends side)) →
          property (after.ends side) → ∀ side, property (after.ends side) := by
        intro property before here other
        rcases other.eq_or_other side with rfl | rfl
        · exact here
        · rw [still]
          exact before _
      refine ⟨every _ joint.sender sender, every _ joint.control control,
        every _ joint.recorded recorded, fun other bound => ?_⟩
      rcases other.eq_or_other side with rfl | rfl
      · -- this end is the sender
        have before := joint.flow other (by have := moved.transmitted_le; omega)
        rw [still, sent]
        refine Flow.subset ?_ (List.Subset.refl _) taken
        rcases event.own_or_packet with own | ⟨packet, rfl⟩
        · exact before.senderMoves (joint.sender other) moved own
        · have handled := before.senderHandles (joint.sender other).numbered (arrived packet rfl)
          rwa [(step_handlePacket moves).2] at handled
      · -- this end is the receiver
        rw [still] at bound
        have before := joint.incoming bound
        rw [Side.other_other, still, sent]
        refine Flow.subset ?_ taken (List.Subset.refl _)
        rcases event.own_or_packet with own | ⟨packet, rfl⟩
        · exact before.receiverMoves (joint.sender side).numbered moved own
        · have member := arrived packet rfl
          obtain ⟨stores, absorbs, acts, condition, absorbed⟩ := handles side packet rfl member bound
          have handled := before.receiverHandles bound (before.carried packet member) condition
            absorbed acts
          rwa [(step_handlePacket moves).2] at handled

theorem handles_any (e : Endpoint Buffer) (packet : TcpPacket) : Handles False False e packet :=
  ⟨_, _, e.sock.handlePacket_acts packet, fun _ _ _ never => never.elim, fun _ _ never => never.elim⟩

theorem joint_established (conn : TcpConn) (clientIsn serverIsn : UInt32) (whole graceful : Prop) :
    Joint whole graceful (established conn clientIsn serverIsn : Connection Buffer) := by
  have first : ∀ isn : UInt32, isn + 1 - isn = 1 := fun isn => by grind
  have noFin : ∀ {packet : TcpPacket} (flags : UInt8), packet.header.flags = flags →
      flags &&& tcpFlagFin = 0 → packet.hasFin = false :=
    fun _ same none => by simp [TcpPacket.hasFin, same, none]
  refine ⟨?_, ?_, ?_, ?_⟩
  · rintro (_ | _)
    · exact (opened_connected conn clientIsn serverIsn).sender
    · exact (opened_accepted conn.reversed serverIsn clientIsn).sender
  · rintro (_ | _)
    · exact (opened_connected conn clientIsn serverIsn).control
    · exact (opened_accepted conn.reversed serverIsn clientIsn).control
  · rintro (_ | _)
    · exact Or.inr (List.mem_singleton_self _)
    · exact Or.inl rfl
  · rintro (_ | _) _
    · refine flow_start whole graceful rfl rfl rfl content_new rfl rfl ?_ ?_ ?_
      · simp only [established, Side.other, List.mem_cons, List.not_mem_nil, or_false]
        rintro _ (rfl | rfl)
        · exact ⟨rfl, noFin tcpFlagSyn rfl (by decide)⟩
        · exact ⟨rfl, noFin tcpFlagAck rfl (by decide)⟩
      · simp only [established, List.mem_singleton]
        rintro _ rfl _
        exact first clientIsn
      · simp only [List.mem_singleton]
        rintro _ rfl
        exact first clientIsn
    · refine flow_start whole graceful rfl rfl rfl content_new rfl rfl ?_ ?_ (by simp)
      · simp only [established, Side.other, List.mem_singleton]
        rintro _ rfl
        exact ⟨rfl, noFin (tcpFlagSyn ||| tcpFlagAck) rfl (by decide)⟩
      · simp only [established, List.mem_cons, List.not_mem_nil, or_false]
        rintro _ (rfl | rfl) flags
        · exact absurd rfl flags
        · exact first serverIsn

/-- The joint invariant over every run, whatever the network does. -/
theorem Joint.run {conn : TcpConn} {clientIsn serverIsn : UInt32} {c : Connection Buffer}
    (run : Run Connection.step anyEvent (established conn clientIsn serverIsn) c) : Joint False False c :=
  run.preserves (Joint False False)
    (fun _ _ _ joint _ stepped => joint.step stepped fun _ _ _ _ _ => handles_any _ _)
    (joint_established conn clientIsn serverIsn False False)

end Connection

end IpTcp.Tcp
