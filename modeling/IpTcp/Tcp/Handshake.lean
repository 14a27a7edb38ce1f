import IpTcp.Lib.Run
import IpTcp.Tcp.Connection

/-! The handshake: one `VConnect` call, and any number of `VAccept` calls on the listener
it addresses. A call hands out its connection when it returns, so that until then nothing
but the call works on its socket. On the listener's node, looking up where a packet goes
and reading it from the channel are two steps, with anything in between; the connecting
node has the one socket. -/

set_option autoImplicit false

namespace IpTcp.Tcp

open RingBuffer Lib

structure TcpListener where
  ip : IntIP
  port : UInt16
  deriving DecidableEq, Repr

namespace TcpListener

/-- The connection `TcpHandler` looks up for a packet. -/
def routed (l : TcpListener) (tcpPacket : TcpPacket) : TcpConn where
  localIP := l.ip
  localPort := tcpPacket.header.dstPort
  foreignIP := tcpPacket.srcIP
  foreignPort := tcpPacket.header.srcPort

def connFor (l : TcpListener) (p : TcpPacket) : TcpConn where
  localIP := l.ip
  localPort := l.port
  foreignIP := p.srcIP
  foreignPort := p.header.srcPort

end TcpListener

/-- Where the `VConnect` call stands: it has sent its SYN; it has returned, and
`HandleConnection` runs; it has failed. -/
inductive Connecting (Buffer : Type) where
  | waiting (sock : TcpSocket Buffer)
  | opened (e : Endpoint Buffer)
  | failed

inductive Accepting (Buffer : Type) where
  | waiting (sock : TcpSocket Buffer)
  | started (e : Endpoint Buffer)
  | failed

structure Handshake (Buffer : Type) where
  listener : TcpListener
  connecting : Connecting Buffer
  /-- The `VAccept` calls that have made a socket, in the order in which they did. -/
  accepting : List (Accepting Buffer)
  /-- `state.sockets` on the listener's node, with the number of the call for a socket. -/
  sockets : TcpConn → Option Nat
  /-- The `TcpHandler` goroutines on the listener's node that wait for their packet to be
  read, with the call whose socket they found; without one they wait on the listener. -/
  handlers : List (Option Nat × TcpPacket)
  net : Side → List TcpPacket

inductive Handshake.Event where
  | lose (side : Side) (packet : TcpPacket)
  | duplicate (side : Side) (packet : TcpPacket)
  | connectReceive (packet : TcpPacket)
  | connectStops
  | client (event : Tcp.Event)
  | tcpHandler (packet : TcpPacket)
  | vAccept (isn : UInt32) (packet : TcpPacket)
  | acceptReceive (call : Nat) (packet : TcpPacket)
  | acceptTimeout (call : Nat)
  | server (call : Nat) (event : Tcp.Event)
  deriving DecidableEq, Repr

variable {Buffer : Type}

/-- The packet of an event, taken off the handlers that wait on the call's socket. -/
def Event.read (call : Nat) (handlers : List (Option Nat × TcpPacket)) :
    Event → Option (List (Option Nat × TcpPacket))
  | .handlePacket packet =>
      if (some call, packet) ∈ handlers then some (handlers.erase (some call, packet)) else none
  | _ => some handlers

theorem Event.read_subset {event : Event} {call : Nat} {handlers left : List (Option Nat × TcpPacket)}
    (read : event.read call handlers = some left) :
    (∀ packet, event = .handlePacket packet → (some call, packet) ∈ handlers) ∧ left ⊆ handlers := by
  cases event with
  | handlePacket packet =>
      simp only [Event.read] at read
      split at read
      · rename_i member
        cases read
        refine ⟨?_, List.erase_subset⟩
        rintro _ ⟨rfl⟩
        exact member
      · cases read
  | _ =>
      cases read
      exact ⟨by simp, List.Subset.refl _⟩

namespace Handshake

def stage (h : Handshake Buffer) (call : Nat) : Option (Accepting Buffer) := h.accepting[call]?

def deleteConnSafe (h : Handshake Buffer) (conn : TcpConn) : Handshake Buffer :=
  { h with sockets := Function.update h.sockets conn none }

def send (h : Handshake Buffer) (side : Side) (packets : List TcpPacket) : Handshake Buffer :=
  { h with net := Function.update h.net side (h.net side ++ packets) }

def receive (h : Handshake Buffer) (side : Side) (packet : TcpPacket) : Handshake Buffer :=
  { h with net := Function.update h.net side ((h.net side).erase packet) }

def tcpHandler (h : Handshake Buffer) (tcpPacket : TcpPacket) : Handshake Buffer :=
  match h.sockets (h.listener.routed tcpPacket) with
  | some call => { h with handlers := h.handlers ++ [(some call, tcpPacket)] }
  | none =>
      if tcpPacket.header.dstPort = h.listener.port then
        { h with handlers := h.handlers ++ [(none, tcpPacket)] }
      else h

def conclude (h : Handshake Buffer) (call : Nat) (conn : TcpConn) (result : Accepting Buffer) :
    Handshake Buffer :=
  let concluded := { h with accepting := h.accepting.set call result }
  match result with
  | .failed => concluded.deleteConnSafe conn
  | _ => concluded

/-- What a `VAccept` call makes of the first packet for its socket. The checksum is not
looked at, and a packet without the ACK flag lets it go on in `SYN_SENT`. -/
def acceptReceive (sock : TcpSocket Buffer) (p : TcpPacket) : Accepting Buffer :=
  if p.header.flags &&& tcpFlagAck ≠ 0 then
    if p.header.seqNum - sock.foreignInitSeqNum ≠ 1 then .failed
    else if p.header.ackNum - sock.myInitSeqNum ≠ 1 then .failed
    else .started (Endpoint.start (sock.acceptAck p.header) [])
  else .started (Endpoint.start sock [])

variable [RingBuffer Buffer] [Netstack]

def connectReceive (sock : TcpSocket Buffer) (packet : TcpPacket) :
    Connecting Buffer × List TcpPacket :=
  if packet.header.flags ≠ tcpFlagAck ||| tcpFlagSyn then (.failed, [])
  else if isValidTcpCheckSum packet.header sock.conn.foreignIP sock.conn.localIP packet.data = false then
    (.failed, [])
  else if packet.header.ackNum - sock.myInitSeqNum ≠ 1 then (.failed, [])
  else
    (.opened (Endpoint.start (sock.connectSynAck packet.header) [packet.header.ackNum]),
      [sock.conn.seal (handshakeAckHeader sock.conn packet.header) []])

def vAccept (h : Handshake Buffer) (isn : UInt32) (p : TcpPacket) : Handshake Buffer :=
  -- A `VAccept` call up to where it waits for the client's answer; `isn` is what `rand.Uint32()` returns.
  if p.header.flags ≠ tcpFlagSyn then h
  else
    let conn := h.listener.connFor p
    if (h.sockets conn).isSome then h
    else if isValidTcpCheckSum p.header conn.foreignIP conn.localIP p.data = false then h
    else
      { h.send .client [conn.seal (synAckHeader conn isn p.header) []] with
        accepting := h.accepting ++ [.waiting (TcpSocket.acceptSyn conn p.header isn)]
        sockets := Function.update h.sockets conn (some h.accepting.length) }

def step (h : Handshake Buffer) : Event → Option (Handshake Buffer)
  | .lose side packet => if packet ∈ h.net side then some (h.receive side packet) else none
  | .duplicate side packet => if packet ∈ h.net side then some (h.send side [packet]) else none
  | .connectReceive packet =>
      match h.connecting with
      | .waiting sock =>
          if packet ∈ h.net .client then
            some { (h.receive .client packet).send .server (connectReceive sock packet).2 with
              connecting := (connectReceive sock packet).1 }
          else none
      | _ => none
  -- the timeout, or a value on `sock.stop`
  | .connectStops =>
      match h.connecting with
      | .waiting _ => some { h with connecting := .failed }
      | _ => none
  | .client event =>
      match h.connecting with
      | .opened e =>
          match event.consume (h.net .client), e.step event with
          | some waiting, some (after, out) =>
              some { Handshake.send { h with net := Function.update h.net .client waiting } .server out with
                connecting := .opened after }
          | _, _ => none
      | _ => none
  | .tcpHandler packet =>
      if packet ∈ h.net .server then some ((h.receive .server packet).tcpHandler packet) else none
  | .vAccept isn packet =>
      if (none, packet) ∈ h.handlers then
        some (Handshake.vAccept { h with handlers := h.handlers.erase (none, packet) } isn packet)
      else none
  | .acceptReceive call packet =>
      match h.stage call with
      | some (.waiting sock) =>
          if (some call, packet) ∈ h.handlers then
            some (Handshake.conclude { h with handlers := h.handlers.erase (some call, packet) } call
              sock.conn (acceptReceive sock packet))
          else none
      | _ => none
  | .acceptTimeout call =>
      match h.stage call with
      | some (.waiting sock) => some (h.conclude call sock.conn .failed)
      | _ => none
  | .server call event =>
      match h.stage call with
      | some (.started e) =>
          match event.read call h.handlers, e.step event with
          | some handlers, some (after, out) =>
              let moved := { h.send .client out with
                accepting := h.accepting.set call (.started after)
                handlers := handlers }
              if e.deleted = false ∧ after.deleted = true then some (moved.deleteConnSafe e.sock.conn)
              else some moved
          | _, _ => none
      | _ => none

def dialled (conn : TcpConn) (isn : UInt32) : Handshake Buffer where
  listener := { ip := conn.foreignIP, port := conn.foreignPort }
  connecting := .waiting (makeTcpSocket .synSent conn 0 isn)
  accepting := []
  sockets := fun _ => none
  handlers := []
  net
    | .client => []
    | .server => [conn.seal (synHeader conn isn) []]

end Handshake

end IpTcp.Tcp
