import IpTcp.Lib.Run
import IpTcp.Tcp.EndpointMoves
import IpTcp.Tcp.Established

/-! Two sockets of this stack joined by a connection, over a network that loses,
duplicates and reorders packets. What is on the way to a side is a list without an
order: any of its packets can be delivered next. -/

set_option autoImplicit false

namespace IpTcp.Tcp

open Lib

inductive Side where
  | client
  | server
  deriving DecidableEq, Repr

def Side.other : Side → Side
  | .client => .server
  | .server => .client

@[simp] theorem Side.other_other (side : Side) : side.other.other = side := by cases side <;> rfl

@[simp] theorem Side.other_ne (side : Side) : side.other ≠ side := by cases side <;> decide

theorem Side.eq_or_other (side one : Side) : side = one ∨ side = one.other := by
  cases side <;> cases one <;> simp [other]

structure Connection (Buffer : Type) where
  ends : Side → Endpoint Buffer
  /-- The packets on their way to each side. -/
  net : Side → List TcpPacket

inductive Action where
  | act (side : Side) (event : Event)
  | lose (side : Side) (packet : TcpPacket)
  | duplicate (side : Side) (packet : TcpPacket)
  deriving DecidableEq, Repr

def Action.onPacket (condition : Side → TcpPacket → Prop) : Action → Prop
  | .act side (.handlePacket packet) => condition side packet
  | _ => True

instance (condition : Side → TcpPacket → Prop) [∀ side packet, Decidable (condition side packet)]
    (action : Action) : Decidable (action.onPacket condition) := by
  unfold Action.onPacket
  split <;> infer_instance

def Event.consume (waiting : List TcpPacket) : Event → Option (List TcpPacket)
  | .handlePacket packet => if packet ∈ waiting then some (waiting.erase packet) else none
  | _ => some waiting

theorem Event.consume_subset {event : Event} {waiting left : List TcpPacket}
    (consumed : event.consume waiting = some left) :
    (∀ packet, event = .handlePacket packet → packet ∈ waiting) ∧ left ⊆ waiting := by
  cases event with
  | handlePacket packet =>
      simp only [consume] at consumed
      split at consumed
      · rename_i member
        cases consumed
        refine ⟨?_, List.erase_subset⟩
        rintro _ ⟨rfl⟩
        exact member
      · cases consumed
  | _ =>
      cases consumed
      exact ⟨by simp, List.Subset.refl _⟩

namespace Connection

variable {Buffer : Type} [RingBuffer Buffer]

section
variable [Netstack]

def step (c : Connection Buffer) : Action → Option (Connection Buffer)
  | .act side event =>
      match event.consume (c.net side), (c.ends side).step event with
      | some waiting, some (after, out) => some {
          ends := Function.update c.ends side after
          net := Function.update (Function.update c.net side waiting) side.other
            (c.net side.other ++ out) }
      | _, _ => none
  | .lose side packet =>
      if packet ∈ c.net side then
        some { c with net := Function.update c.net side ((c.net side).erase packet) }
      else none
  | .duplicate side packet =>
      if packet ∈ c.net side then
        some { c with net := Function.update c.net side (packet :: c.net side) }
      else none

/-- The connection just after the handshake, whose packets may still be on the way. -/
def established (conn : TcpConn) (clientIsn serverIsn : UInt32) : Connection Buffer where
  ends
    | .client => Endpoint.connected conn clientIsn serverIsn
    | .server => Endpoint.accepted conn.reversed serverIsn clientIsn
  net
    | .client =>
        [conn.reversed.seal (synAckHeader conn.reversed serverIsn (synHeader conn clientIsn)) []]
    | .server =>
        [conn.seal (synHeader conn clientIsn) [],
          conn.seal (handshakeAckHeader conn
            (synAckHeader conn.reversed serverIsn (synHeader conn clientIsn))) []]

inductive Steps : Connection Buffer → Action → Connection Buffer → Prop where
  | act {c after : Connection Buffer} {side : Side} {event : Event} (out : List TcpPacket)
      (arrived : ∀ packet, event = .handlePacket packet → packet ∈ c.net side)
      (moves : (c.ends side).step event = some (after.ends side, out))
      (still : after.ends side.other = c.ends side.other)
      (taken : after.net side ⊆ c.net side)
      (sent : after.net side.other = c.net side.other ++ out) : Steps c (.act side event) after
  | network {c after : Connection Buffer} {action : Action} (ends : after.ends = c.ends)
      (net : ∀ side, after.net side ⊆ c.net side) : Steps c action after

theorem step_steps {c after : Connection Buffer} {action : Action}
    (stepped : c.step action = some after) : Steps c action after := by
  cases action with
  | act side event =>
      simp only [step] at stepped
      split at stepped
      · rename_i waiting moved out consumed moves
        cases stepped
        obtain ⟨arrived, left⟩ := Event.consume_subset consumed
        refine Steps.act out arrived ?_ ?_ ?_ ?_
        · simpa using moves
        · exact Function.update_of_ne side.other_ne _ _
        · simpa [Function.update_of_ne side.other_ne.symm] using left
        · exact Function.update_self ..
      · cases stepped
  | lose side packet =>
      simp only [step] at stepped
      split at stepped
      · cases stepped
        refine Steps.network rfl fun other => ?_
        by_cases same : other = side
        · subst same
          simpa using List.erase_subset
        · simp [Function.update_of_ne same]
      · cases stepped
  | duplicate side packet =>
      simp only [step] at stepped
      split at stepped
      · rename_i member
        cases stepped
        refine Steps.network rfl fun other => ?_
        by_cases same : other = side
        · subst same
          simpa using member
        · simp [Function.update_of_ne same]
      · cases stepped

theorem step_act {c after : Connection Buffer} {side : Side} {event : Event}
    (stepped : c.step (.act side event) = some after) :
    ∃ out, (∀ packet, event = .handlePacket packet → packet ∈ c.net side) ∧
      (c.ends side).step event = some (after.ends side, out) ∧
      after.ends side.other = c.ends side.other := by
  simp only [step] at stepped
  split at stepped
  · rename_i waiting moved out consumed moves
    cases stepped
    exact ⟨out, (Event.consume_subset consumed).1, by simpa using moves,
      Function.update_of_ne side.other_ne _ _⟩
  · cases stepped

end

/-! ## Packets of runs on concrete inputs -/

section
attribute [local instance] Netstack.standard

def fromClient (seqNum ackNum : UInt32) (flags : UInt8) (data : List Byte) : TcpPacket :=
  loopback.seal (handshakeHeader loopback seqNum ackNum flags) data

def fromServer (seqNum ackNum : UInt32) (flags : UInt8) (data : List Byte) : TcpPacket :=
  loopback.reversed.seal (handshakeHeader loopback.reversed seqNum ackNum flags) data

def sendsByte (side : Side) (byte : Byte) : List Action :=
  [.act side (.vWrite [byte]), .act side (.vWriteLoop 0)] ++
    List.replicate 5 (.act side .handleWrites)

end

end Connection

end IpTcp.Tcp
