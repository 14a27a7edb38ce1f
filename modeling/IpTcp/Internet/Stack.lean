import IpTcp.Internet.Routes
import IpTcp.Tcp.SegmentFormat
import IpTcp.Tcp.StreamIntegrity

/-! A connection over the internet: the two ends of it at two nodes, their segments as the messages of
IP packets that go through the network with whatever else does, and `TcpHandler`, which finds the
socket of a segment by the addresses of its packet and the ports of its header. -/

set_option autoImplicit false

namespace IpTcp.Tcp

open Lib RingBuffer

/-! ## The segments of an end -/

structure Issued (conn : TcpConn) (packet : TcpPacket) : Prop where
  source : packet.srcIP = conn.localIP
  srcPort : packet.header.srcPort = conn.localPort
  dstPort : packet.header.dstPort = conn.foreignPort
  offset : packet.header.dataOffset = 20
  urgent : packet.header.urgentPointer = 0
  short : packet.data.length ≤ tcpMaxSegmentSize

variable {Buffer : Type}

def Endpoint.Issues (e : Endpoint Buffer) : Prop := ∀ packet ∈ e.sent, Issued e.sock.conn packet

theorem Endpoint.Issues.sends {e : Endpoint Buffer} (issues : e.Issues) {packet : TcpPacket}
    (issued : Issued e.sock.conn packet) : ∀ other ∈ e.sent ++ [packet], Issued e.sock.conn other := by
  intro other member
  rcases List.mem_append.mp member with earlier | last
  · exact issues other earlier
  · rw [List.mem_singleton.mp last]
    exact issued

variable [RingBuffer Buffer]

theorem readInto_length (buffer : Buffer) (n : Nat) : (readInto buffer n).2.length = n := by
  simp only [readInto, read_bytes, List.length_append, List.length_replicate, List.length_take]
  omega

variable [Netstack]

theorem issued_ack (sock : TcpSocket Buffer) (payload : List Byte) (short : payload.length ≤ tcpMaxSegmentSize) :
    Issued sock.conn (sock.conn.seal sock.getAckHeader payload) :=
  ⟨rfl, rfl, rfl, rfl, rfl, short⟩

namespace Endpoint

theorem handlePacket_issued (e : Endpoint Buffer) (packet : TcpPacket) :
    ∀ answer ∈ (e.handlePacket packet).2, Issued e.sock.conn answer := by
  have acts := e.sock.handlePacket_acts packet
  -- The connection is carried along, since every answer is sealed with it.
  suffices held : (e.sock.handlePacket packet).1.conn = e.sock.conn ∧
      ∀ answer ∈ sends (e.sock.handlePacket packet).2, Issued e.sock.conn answer from held.2
  refine acts.preserves (fun sock done => sock.conn = e.sock.conn ∧
    ∀ answer ∈ sends done, Issued e.sock.conn answer) ?_ ⟨rfl, fun _ none => nomatch none⟩
  rintro sock done more after ⟨conn, issued⟩ act
  refine ⟨act.sameIdentity.conn.trans conn, fun answer member => ?_⟩
  rw [sends_append] at member
  rcases List.mem_append.mp member with earlier | new
  · exact issued answer earlier
  · cases act with
    | sendAck flags payload =>
        obtain rfl : answer = sock.conn.seal sock.getAckHeader [] := by
          simpa [TcpSocket.sendAck, sends] using new
        rw [← conn]
        exact issued_ack sock [] (Nat.zero_le _)
    | finInOrder effects _ _ _ _ quiet =>
        have silent : sends effects = [] := sends_of_quiet fun packet found => by
          simpa using quiet _ found
        obtain rfl : answer = sock.conn.seal sock.getFinAckHeader [] := by
          simpa [sends, silent] using new
        rw [← conn]
        exact ⟨rfl, rfl, rfl, rfl, rfl, Nat.zero_le _⟩
    | drain _ _ _ _ _ _ quiet =>
        rw [sends_of_quiet quiet] at new
        cases new
    | wake =>
        unfold TcpSocket.wakeProbe at new
        split at new <;> cases new
    | _ => cases new

theorem Moves.conn {e after : Endpoint Buffer} {event : Event} {out : List TcpPacket}
    (moves : Moves e event out after) : after.sock.conn = e.sock.conn := by
  cases moves with
  | packet packet => exact (e.handlePacket_numbers packet).1
  | _ => rfl

/-- An end writes its segments as such, and resends none but those it has written. -/
theorem Moves.issued {e after : Endpoint Buffer} {event : Event} {out : List TcpPacket}
    (moves : Moves e event out after) (numbered : e.Numbered) (issues : e.Issues) :
    after.Issues ∧ ∀ packet ∈ out, Issued e.sock.conn packet := by
  cases moves with
  | fin =>
      have issued : Issued e.sock.conn (e.sock.conn.seal (finHeader e.sock) []) :=
        ⟨rfl, rfl, rfl, rfl, rfl, Nat.zero_le _⟩
      exact ⟨issues.sends issued, List.forall_mem_singleton.mpr issued⟩
  | probe =>
      have issued := issued_ack (e.takeBytes 1).sock (readInto e.sock.writeBuffer 1).2
        (by rw [readInto_length]; decide)
      exact ⟨issues.sends issued, List.forall_mem_singleton.mpr issued⟩
  | send payload =>
      have issued := issued_ack e.sock (payload.take tcpMaxSegmentSize) (List.length_take_le _ _)
      exact ⟨issues.sends issued, List.forall_mem_singleton.mpr issued⟩
  | resend item rest front =>
      refine ⟨issues, List.forall_mem_singleton.mpr (issues _ ?_)⟩
      obtain ⟨acked, split, _⟩ := numbered.inFlight
      rw [split, front]
      simp
  | packet packet =>
      refine ⟨fun other member => ?_, e.handlePacket_issued packet⟩
      rw [(e.handlePacket_numbers packet).1]
      exact issues other member
  | _ => exact ⟨issues, fun _ none => nomatch none⟩

end Endpoint

end IpTcp.Tcp

namespace IpTcp.Internet

open Lib Lib.Bytes Network Rip
open Network.FwdTable (SendCall)
open Tcp (Netstack Endpoint RingBuffer Side TcpConn TcpPacket tcpProtocolNum)

/-! ## `TcpHandler` -/

inductive Addressee where
  | socket (tcpConn : TcpConn)
  | listener (port : UInt16)
  deriving DecidableEq, Repr

/-- `TcpHandler` up to where it waits for its reader, from `state.myIP` and the keys of the two tables;
nothing for a segment that it drops. -/
def tcpHandler (myIP : IntIP) (sockets : TcpConn → Bool) (listeners : UInt16 → Bool) (src dst : IntIP)
    (tcpPacket : TcpPacket) : Option Addressee :=
  let tcpConn : TcpConn := {
    localIP := dst
    localPort := tcpPacket.header.dstPort
    foreignIP := src
    foreignPort := tcpPacket.header.srcPort }
  if tcpConn.localIP ≠ myIP then none
  else if sockets tcpConn then some (.socket tcpConn)
  else if listeners tcpConn.localPort then some (.listener tcpConn.localPort)
  else none

theorem tcpHandler_socket {myIP src dst : IntIP} {sockets : TcpConn → Bool} {listeners : UInt16 → Bool}
    {tcpPacket : TcpPacket} {tcpConn : TcpConn}
    (handed : tcpHandler myIP sockets listeners src dst tcpPacket = some (.socket tcpConn)) :
    dst = tcpConn.localIP ∧ src = tcpConn.foreignIP ∧ tcpPacket.header.dstPort = tcpConn.localPort ∧
      tcpPacket.header.srcPort = tcpConn.foreignPort := by
  simp only [tcpHandler] at handed
  split at handed
  · cases handed
  split at handed
  · cases handed
    exact ⟨rfl, rfl, rfl, rfl⟩
  split at handed <;> cases handed

/-! ## The stack -/

def connAt (conn : TcpConn) : Side → TcpConn
  | .client => conn
  | .server => conn.reversed

theorem connAt_other (conn : TcpConn) (side : Side) : connAt conn side.other = (connAt conn side).reversed := by
  cases side <;> rfl

structure Placement (Host : Type) where
  topology : Topology Host
  conn : TcpConn
  host : Side → Host
  owns : ∀ side, topology.Owns (host side) (connAt conn side).localIP
  apart : conn.localIP ≠ conn.foreignIP

structure Stack (Host Buffer : Type) where
  net : Net Host
  ends : Side → Endpoint Buffer
  /-- The goroutines of `HandlePacketSafe` that wait at `socket.ch <- tcpPacket`. -/
  waiting : Side → List TcpPacket

/-- What happens in the network, other nodes and other programs included, or at an end. -/
inductive StackEvent (Host : Type) where
  | ip (event : Event Host)
  | act (side : Side) (order : Order) (event : Tcp.Event)

variable {Host : Type} [DecidableEq Host] [Netstack] [Ipv4]

/-- `sendTcp` for one segment after the other. An error is logged and the segment is lost; but in
`HandleWrites`, which gives up, a send that fails is no step, and neither is one that ends the program. -/
def sendTcp (topology : Topology Host) (host : Host) (order : Order) (foreignIP : IntIP) (givesUp : Bool) :
    List TcpPacket → Net Host → Option (Net Host)
  | [], net => some net
  | packet :: rest, net =>
      let after := topology.perform net host order (.sendMsgToDestIP foreignIP tcpProtocolNum packet.marshal)
      match (net.tables host).sendMsgToDestIP order foreignIP tcpProtocolNum packet.marshal with
      | .sent _ => sendTcp topology host order foreignIP givesUp rest after
      | .error _ => if givesUp then none else sendTcp topology host order foreignIP givesUp rest after
      | .panics => none

theorem sendTcp_preserves {topology : Topology Host} {host : Host} {order : Order} {foreignIP : IntIP}
    {givesUp : Bool} (invariant : Net Host → Prop) {out : List TcpPacket}
    (preserved : ∀ packet ∈ out, ∀ net, invariant net → invariant
      (topology.perform net host order (.sendMsgToDestIP foreignIP tcpProtocolNum packet.marshal)))
    {net after : Net Host} (sends : sendTcp topology host order foreignIP givesUp out net = some after)
    (initially : invariant net) : invariant after := by
  induction out generalizing net with
  | nil =>
      cases sends
      exact initially
  | cons packet rest ih =>
      have first := preserved packet List.mem_cons_self net initially
      have others := fun other member => preserved other (List.mem_cons_of_mem packet member)
      simp only [sendTcp] at sends
      split at sends
      · exact ih others sends first
      · split at sends
        · cases sends
        · exact ih others sends first
      · cases sends

namespace Stack

variable {Buffer : Type} [RingBuffer Buffer] (place : Placement Host)

def received (stack : Stack Host Buffer) (side : Side) (host : Host) (handed : Handed) : Option TcpPacket :=
  if host = place.host side ∧ handed.application = .tcp then
    (Tcp.unmarshalTcpPacket handed.msg handed.hdr.src).bind fun tcpPacket =>
      if tcpHandler (connAt place.conn side).localIP
          (fun tcpConn => decide (tcpConn = connAt place.conn side) && (stack.ends side).inTable)
          (fun _ => false) handed.hdr.src handed.hdr.dst tcpPacket = some (.socket (connAt place.conn side))
      then some tcpPacket else none
  else none

def arrives (stack : Stack Host Buffer) (event : Event Host) (side : Side) : Option TcpPacket :=
  (occurs stack.net event).bind fun (host, order, event) =>
    (handedBy (stack.net.tables host) order event).bind (stack.received place side host)

def step (stack : Stack Host Buffer) : StackEvent Host → Option (Stack Host Buffer)
  | .ip event =>
      (ipStep place.topology stack.net event).map fun net => {
        net := net
        ends := stack.ends
        waiting := fun side => stack.waiting side ++ (stack.arrives place event side).toList }
  | .act side order event =>
      if stack.net.running (place.host side) then
        match event.consume (stack.waiting side), (stack.ends side).step event with
        | some waiting, some (after, out) =>
            (sendTcp place.topology (place.host side) order (connAt place.conn side).foreignIP
              (decide (event = .handleWrites)) out stack.net).map fun net => {
                net := net
                ends := Function.update stack.ends side after
                waiting := Function.update stack.waiting side waiting }
        | _, _ => none
      else none

theorem step_ip {stack after : Stack Host Buffer} {event : Event Host}
    (moves : stack.step place (.ip event) = some after) :
    ∃ net, ipStep place.topology stack.net event = some net ∧ after = {
      net := net
      ends := stack.ends
      waiting := fun side => stack.waiting side ++ (stack.arrives place event side).toList } := by
  obtain ⟨net, moved, rfl⟩ := Option.map_eq_some_iff.mp moves
  exact ⟨net, moved, rfl⟩

theorem step_act {stack after : Stack Host Buffer} {side : Side} {order : Order} {event : Tcp.Event}
    (moves : stack.step place (.act side order event) = some after) :
    ∃ waiting moved out net, event.consume (stack.waiting side) = some waiting ∧
      (stack.ends side).step event = some (moved, out) ∧
      sendTcp place.topology (place.host side) order (connAt place.conn side).foreignIP
        (decide (event = .handleWrites)) out stack.net = some net ∧
      after = {
        net := net
        ends := Function.update stack.ends side moved
        waiting := Function.update stack.waiting side waiting } := by
  simp only [step] at moves
  split at moves
  · split at moves
    · rename_i waiting moved out consumed steps
      obtain ⟨net, sends, rfl⟩ := Option.map_eq_some_iff.mp moves
      exact ⟨waiting, moved, out, net, consumed, steps, sends, rfl⟩
    · cases moves
  · cases moves

end Stack

end IpTcp.Internet
