import IpTcp.Tcp.PacketActions

/-! One end of a connection: the socket with the goroutines and API calls that work
on it. `HandleWrites` and `HandleRetransmission` are program counters over the
points where another goroutine can come in between; `VWrite` and `VRead` calls in
progress are listed with what is left of them. Sends succeed: what the network
does to a packet happens after it was sent. -/

set_option autoImplicit false

namespace IpTcp.Tcp

open RingBuffer

inductive WriterPc where
  /-- At the head of the loop, or in `isNotEmpty.Wait()`. -/
  | top
  /-- The buffer was found empty and the socket shut down; `varLock` is held for the FIN. -/
  | fin
  /-- The window was found used up. -/
  | probe
  /-- The window was found open. -/
  | segment
  /-- A probe was sent and is not in `inFlightList` yet. -/
  | probePush (packet : TcpPacket)
  /-- In `windowNotEmpty.Wait()`. -/
  | waiting
  /-- In the segmentation loop, with the rest of the payload. -/
  | sending (payload : List Byte)
  /-- A segment was sent and is not in `inFlightList` yet. -/
  | pushing (packet : TcpPacket) (payload : List Byte)
  /-- It is in `inFlightList`, but `inFlightPacketSize` does not count it yet. -/
  | counting (packet : TcpPacket) (payload : List Byte)
  /-- The FIN was sent. -/
  | returned
  deriving DecidableEq, Repr

/-- Where `HandleRetransmission` stands: before its loop test, or past it. -/
inductive RetransmitterPc where
  | test
  | body
  | returned
  deriving DecidableEq, Repr

/-- A socket with everything that runs on it. The last four fields are history: the
bytes stored in the write buffer, the segments in the order of their first
transmission, the bytes returned by `VRead`, and the values stored in
`largestAckReceived`. -/
structure Endpoint (Buffer : Type) where
  sock : TcpSocket Buffer
  writer : WriterPc
  retransmitter : RetransmitterPc
  vWrites : List (List Byte)
  vReads : List Nat
  deleted : Bool
  written : List Byte
  sent : List TcpPacket
  delivered : List Byte
  acks : List UInt32

inductive Event where
  | vWrite (buff : List Byte)
  | vWriteLoop (call : Nat)
  | vRead (len : Nat)
  | vReadLoop (call : Nat)
  | vShutdown (sdType : ShutdownType)
  | handleWrites
  | handleRetransmission (timedOut : Bool)
  | handlePacket (packet : TcpPacket)
  | timeWaitOver
  deriving DecidableEq, Repr

variable {Buffer : Type} [RingBuffer Buffer]

def readInto (buffer : Buffer) (n : Nat) : Buffer × List Byte :=
  let (buffer, bytes, _) := read buffer n
  (buffer, bytes ++ List.replicate (n - bytes.length) 0)

namespace Endpoint

/-- `deleteConnSafe` and `timeWait` take the socket out of the table; calls look it up there. -/
def inTable (e : Endpoint Buffer) : Bool := !e.deleted

/-! ## The application's calls -/

def vWrite (e : Endpoint Buffer) (buff : List Byte) : Option (Endpoint Buffer) :=
  if buff ≠ [] ∧ e.inTable ∧ e.sock.canWrite then some { e with vWrites := e.vWrites ++ [buff] }
  else none

def vWriteLoop (e : Endpoint Buffer) (call : Nat) : Option (Endpoint Buffer) :=
  match e.vWrites[call]? with
  | none => none
  | some buff =>
      if isFull e.sock.writeBuffer then none
      else
        let (writeBuffer, bytesWritten, _) := write e.sock.writeBuffer buff
        -- What did not fit is left for another turn, once the buffer is not full.
        let rest := buff.drop bytesWritten
        some { e with
          sock := { e.sock with writeBuffer := writeBuffer }
          vWrites := if rest = [] then e.vWrites.eraseIdx call else e.vWrites.set call rest
          written := e.written ++ buff.take bytesWritten }

def vRead (e : Endpoint Buffer) (len : Nat) : Option (Endpoint Buffer) :=
  if e.inTable ∧ e.sock.canRead then some { e with vReads := e.vReads ++ [len] } else none

def vReadLoop (e : Endpoint Buffer) (call : Nat) : Option (Endpoint Buffer) :=
  match e.vReads[call]? with
  | none => none
  | some len =>
      if isEmpty e.sock.readBuffer then
        if e.sock.connState = .closeWait then some { e with vReads := e.vReads.eraseIdx call }
        else none
      else
        let (readBuffer, bytes, _) := read e.sock.readBuffer len
        some { e with
          sock := { e.sock with readBuffer := readBuffer }
          vReads := e.vReads.eraseIdx call
          delivered := e.delivered ++ bytes }

def vShutdown (e : Endpoint Buffer) (sdType : ShutdownType) : Option (Endpoint Buffer) :=
  if e.inTable then
    match sdType with
    | .both =>
        if e.sock.canRead ∧ e.sock.canWrite then
          some { e with sock := { e.sock with canRead := false, canWrite := false } }
        else none
    | .read => if e.sock.canRead then some { e with sock := { e.sock with canRead := false } } else none
    | .write => if e.sock.canWrite then some { e with sock := { e.sock with canWrite := false } } else none
  else none

/-! ## The goroutines -/

def takeBytes (e : Endpoint Buffer) (n : Nat) : Endpoint Buffer :=
  { e with sock := { e.sock with writeBuffer := (readInto e.sock.writeBuffer n).1 } }

def sizeToWrite (e : Endpoint Buffer) : Nat :=
  -- The amount `HandleWrites` takes in one go: the whole window, if there is as much.
  min e.sock.foreignWindowSize.toNat (length e.sock.writeBuffer)

def inFlightItem (sock : TcpSocket Buffer) (packet : TcpPacket) (isZwp : Bool) : TcpPacketItem :=
  { value := packet, priority := (packet.header.seqNum - sock.myInitSeqNum).toNat, isZwp := isZwp }

variable [Netstack]

def finHeader (sock : TcpSocket Buffer) : TCPFields :=
  { sock.getAckHeader with flags := tcpFlagFin }

def sendFin (e : Endpoint Buffer) : Endpoint Buffer × List TcpPacket :=
  let packet := e.sock.conn.seal (finHeader e.sock) []
  ({ e with
      sock := { e.sock with
        numBytesSent := e.sock.numBytesSent + 1
        inFlightList := e.sock.inFlightList ++ [inFlightItem e.sock packet false]
        connState := match e.sock.connState with
          | .established => .finWait1
          | .closeWait => .lastAck
          | state => state }
      writer := .returned
      sent := e.sent ++ [packet] },
    [packet])

def sendSegment (e : Endpoint Buffer) (payload : List Byte) (writer : TcpPacket → WriterPc) :
    Endpoint Buffer × List TcpPacket :=
  -- A probe and the segmentation loop do the same here.
  let packet := e.sock.conn.seal e.sock.getAckHeader payload
  ({ e with
      sock := { e.sock with numBytesSent := e.sock.numBytesSent + UInt32.ofNat payload.length }
      writer := writer packet
      sent := e.sent ++ [packet] },
    [packet])

def pushInFlight (e : Endpoint Buffer) (packet : TcpPacket) (isZwp : Bool) : Endpoint Buffer :=
  { e with sock := { e.sock with
      inFlightList := e.sock.inFlightList ++ [inFlightItem e.sock packet isZwp] } }

def countInFlight (e : Endpoint Buffer) (packet : TcpPacket) : Endpoint Buffer :=
  { e with sock := { e.sock with
      inFlightPacketSize := e.sock.inFlightPacketSize + UInt32.ofNat packet.data.length } }

/-- The next step of `HandleWrites`, with the packets it sends; none where it waits. -/
def handleWrites (e : Endpoint Buffer) : Option (Endpoint Buffer × List TcpPacket) :=
  match e.writer with
  | .top =>
      if isEmpty e.sock.writeBuffer then
        if e.sock.canWrite then none else some ({ e with writer := .fin }, [])
      else if e.sock.foreignWindowSize ≤ e.sock.inFlightPacketSize then
        some ({ e with writer := .probe }, [])
      else some ({ e with writer := .segment }, [])
  | .fin => some e.sendFin
  | .probe => some ((e.takeBytes 1).sendSegment (readInto e.sock.writeBuffer 1).2 .probePush)
  | .probePush packet =>
      some ({ (e.pushInFlight packet true).countInFlight packet with writer := .waiting }, [])
  | .waiting => none
  | .segment =>
      if e.sizeToWrite = 0 then some ({ e with writer := .top }, [])
      else
        let payload := (readInto e.sock.writeBuffer e.sizeToWrite).2
        some ({ e.takeBytes e.sizeToWrite with writer := .sending payload }, [])
  | .sending payload =>
      some (e.sendSegment (payload.take tcpMaxSegmentSize)
        fun packet => .pushing packet (payload.drop tcpMaxSegmentSize))
  | .pushing packet payload =>
      some ({ e.pushInFlight packet false with writer := .counting packet payload }, [])
  | .counting packet payload =>
      some ({ e.countInFlight packet with
        writer := if payload = [] then .top else .sending payload }, [])
  | .returned => none

/-- The next step of `HandleRetransmission`. Whether the front of the list has timed
out is left open. -/
def handleRetransmission (e : Endpoint Buffer) (timedOut : Bool) :
    Option (Endpoint Buffer × List TcpPacket) :=
  match e.retransmitter with
  | .test => some ({ e with retransmitter := if e.sock.closed then .returned else .body }, [])
  | .body =>
      match timedOut, e.sock.inFlightList with
      | true, item :: rest =>
          some ({ e with
            sock := e.sock.withInFlight ({ item with retransmitted := true } :: rest)
            retransmitter := .test }, [item.value])
      | _, _ => some ({ e with retransmitter := .test }, [])
  | .returned => none

def sends : List Effect → List TcpPacket
  | [] => []
  | .sendTcp packet :: rest => packet :: sends rest
  | _ :: rest => sends rest

/-- `HandlePacket` has run: other goroutines see its effects. -/
def settle (e : Endpoint Buffer) (sock : TcpSocket Buffer) (effects : List Effect) : Endpoint Buffer :=
  { e with
    sock := sock
    writer :=
      if e.writer = .waiting ∧ .broadcast .windowNotEmpty ∈ effects then .top else e.writer
    deleted := e.deleted || decide (.deleteConnSafe ∈ effects)
    acks :=
      if sock.largestAckReceived = e.sock.largestAckReceived then e.acks
      else e.acks ++ [sock.largestAckReceived] }

def handlePacket (e : Endpoint Buffer) (packet : TcpPacket) : Endpoint Buffer × List TcpPacket :=
  let (sock, effects) := e.sock.handlePacket packet
  (e.settle sock effects, sends effects)

def timeWaitOver (e : Endpoint Buffer) : Option (Endpoint Buffer) :=
  if e.sock.connState = .timeWait then some { e with deleted := true } else none

def step (e : Endpoint Buffer) : Event → Option (Endpoint Buffer × List TcpPacket)
  | .vWrite buff => (e.vWrite buff).map fun e => (e, [])
  | .vWriteLoop call => (e.vWriteLoop call).map fun e => (e, [])
  | .vRead len => (e.vRead len).map fun e => (e, [])
  | .vReadLoop call => (e.vReadLoop call).map fun e => (e, [])
  | .vShutdown sdType => (e.vShutdown sdType).map fun e => (e, [])
  | .handleWrites => e.handleWrites
  | .handleRetransmission timedOut => e.handleRetransmission timedOut
  -- `HandlePacket` begins with `varLock`
  | .handlePacket packet => if e.writer = .fin then none else some (e.handlePacket packet)
  | .timeWaitOver => e.timeWaitOver.map fun e => (e, [])

def move (e : Endpoint Buffer) (event : Event) : Option (Endpoint Buffer) :=
  (e.step event).map Prod.fst

end Endpoint

end IpTcp.Tcp
