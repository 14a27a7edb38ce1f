import Mathlib.Data.Finset.Insert
import IpTcp.Tcp.Checksum
import IpTcp.Tcp.RingBuffer

/-! The TCP socket and its packet handler. `HandlePacket` runs wholly under
`varLock`, so it is one function on the socket; what it does beyond the socket
(sending, waking other goroutines, leaving the socket table) it lists as effects.
The retransmission timeout, the socket id, the locks and the printed messages
are left out. -/

set_option autoImplicit false

namespace IpTcp.Tcp

open RingBuffer

structure TcpSocket (Buffer : Type) where
  connState : ConnState
  conn : TcpConn
  canRead : Bool
  canWrite : Bool
  closed : Bool
  readBuffer : Buffer
  earlyArrivalQueue : PriorityQueue
  earlyArrivalSeqNumSet : Finset UInt32
  earlyArrivalPacketSize : UInt32
  writeBuffer : Buffer
  inFlightList : List TcpPacketItem
  inFlightPacketSize : UInt32
  myInitSeqNum : UInt32
  numBytesSent : UInt32
  nextExpectedByte : UInt32
  foreignInitSeqNum : UInt32
  largestAckReceived : UInt32
  foreignWindowSize : UInt32

inductive Cond where
  | readBufferIsNotEmpty
  | windowNotEmpty
  deriving DecidableEq, Repr

inductive SockErr where
  | ring (err : RingErr)
  | text (message : String)
  deriving DecidableEq, Repr

/-- What `HandlePacket` does beyond the fields of its socket, in order. A call of
`writeIntoReadBuffer` is listed with the error it returns, which the code drops. -/
inductive Effect where
  | sendTcp (packet : TcpPacket)
  | broadcast (cond : Cond)
  | writeIntoReadBuffer (err : Option SockErr)
  | deleteConnSafe
  | timeWait
  deriving DecidableEq, Repr

variable {Buffer : Type} [RingBuffer Buffer]

def makeTcpSocket (connState : ConnState) (conn : TcpConn) (foreignInitSeqNum isn : UInt32) :
    TcpSocket Buffer where
  connState := connState
  conn := conn
  canRead := true
  canWrite := true
  closed := false
  readBuffer := new
  earlyArrivalQueue := []
  earlyArrivalSeqNumSet := ∅
  earlyArrivalPacketSize := 0
  writeBuffer := new
  inFlightList := []
  inFlightPacketSize := 0
  -- what `rand.Uint32()` returns
  myInitSeqNum := isn
  numBytesSent := 0
  nextExpectedByte := 0
  foreignInitSeqNum := foreignInitSeqNum
  largestAckReceived := 0
  foreignWindowSize := 0

namespace TcpSocket

def relSeqNum (sock : TcpSocket Buffer) (packet : TcpPacket) : UInt32 :=
  packet.header.seqNum - sock.foreignInitSeqNum

def getAckHeader (sock : TcpSocket Buffer) : TCPFields where
  srcPort := sock.conn.localPort
  dstPort := sock.conn.foreignPort
  seqNum := sock.myInitSeqNum + sock.numBytesSent + 1
  ackNum := sock.nextExpectedByte + sock.foreignInitSeqNum
  dataOffset := UInt8.ofNat tcpHeaderLen
  flags := tcpFlagAck
  windowSize := UInt16.ofNat (free sock.readBuffer)
  checksum := 0
  urgentPointer := 0

/-- A failed write keeps what the ring buffer took of it, but leaves `nextExpectedByte`. -/
def writeIntoReadBuffer (sock : TcpSocket Buffer) (data : List Byte) :
    TcpSocket Buffer × List Effect :=
  let (buffer, bytesWritten, err) := write sock.readBuffer data
  let sock := { sock with readBuffer := buffer }
  match err with
  | some err => (sock, [.writeIntoReadBuffer (some (.ring err))])
  | none =>
      if bytesWritten ≠ data.length then
        (sock, [.writeIntoReadBuffer (some (.text "we should have enough space in the buffer :("))])
      else
        ({ sock with nextExpectedByte := sock.nextExpectedByte + UInt32.ofNat data.length },
          [.broadcast .readBufferIsNotEmpty, .writeIntoReadBuffer none])

/-- The state change of a FIN whose turn has come, in the drain loop and in the FIN branch alike. -/
def finReceived (sock : TcpSocket Buffer) : TcpSocket Buffer × List Effect :=
  match sock.connState with
  | .established => ({ sock with connState := .closeWait }, [.broadcast .readBufferIsNotEmpty])
  | .finWait2 => ({ sock with connState := .timeWait }, [.timeWait])
  | _ => (sock, [])

def queueEarlyArrival (sock : TcpSocket Buffer) (packet : TcpPacket) : TcpSocket Buffer :=
  let relSeqNum := sock.relSeqNum packet
  -- A number that was queued before is not queued again, also where its packet is gone.
  if relSeqNum ∈ sock.earlyArrivalSeqNumSet then sock
  else
    { sock with
      earlyArrivalQueue := sock.earlyArrivalQueue.heapPush
        { value := packet, priority := relSeqNum.toNat }
      earlyArrivalSeqNumSet := insert relSeqNum sock.earlyArrivalSeqNumSet
      earlyArrivalPacketSize := sock.earlyArrivalPacketSize + UInt32.ofNat packet.data.length }

def popEarlyArrival (sock : TcpSocket Buffer) (smallest : TcpPacket) : TcpSocket Buffer :=
  { sock with
    earlyArrivalQueue := sock.earlyArrivalQueue.heapPop
    earlyArrivalPacketSize := sock.earlyArrivalPacketSize - UInt32.ofNat smallest.data.length }

def drainEarlyArrivals : (fuel : Nat) → TcpSocket Buffer → TcpSocket Buffer × List Effect
  -- The drain loop. Each turn pops the root, so the length of the queue bounds the turns.
  | 0, sock => (sock, [])
  | fuel + 1, sock =>
      match sock.earlyArrivalQueue with
      | [] => (sock, [])
      | root :: _ =>
          if root.priority = sock.nextExpectedByte.toNat then
            let popped := sock.popEarlyArrival root.value
            let (sock, finEffects) :=
              if root.value.header.flags = tcpFlagFin then popped.finReceived else (popped, [])
            let (sock, writeEffects) := sock.writeIntoReadBuffer root.value.data
            let (sock, effects) := drainEarlyArrivals fuel sock
            (sock, finEffects ++ writeEffects ++ effects)
          else (sock, [])

def withInFlight (sock : TcpSocket Buffer) (items : List TcpPacketItem) : TcpSocket Buffer :=
  { sock with inFlightList := items }

def ackedItem (sock : TcpSocket Buffer) (item : TcpPacketItem) : TcpSocket Buffer :=
  { sock with
    connState := if item.value.hasFin ∧ sock.connState = .finWait1 then .finWait2 else sock.connState
    inFlightPacketSize := sock.inFlightPacketSize - UInt32.ofNat item.value.payloadSize }

/-- The loop that removes acknowledged items from the front of `inFlightList`. The
flag tells that the socket was closed, where `HandlePacket` returns at once with
the acknowledged FIN still in the list. -/
def removeAcked (relLargestAckNum : UInt32) :
    TcpSocket Buffer → List TcpPacketItem → TcpSocket Buffer × Bool
  | sock, [] => (sock.withInFlight [], false)
  | sock, item :: rest =>
      if item.priority + item.value.payloadSize ≤ relLargestAckNum.toNat then
        if item.value.hasFin ∧ sock.connState = .lastAck then
          ({ sock with connState := .closed, closed := true, inFlightList := item :: rest }, true)
        else removeAcked relLargestAckNum (sock.ackedItem item) rest
      else (sock.withInFlight (item :: rest), false)

def wakeProbe (sock : TcpSocket Buffer) : List Effect :=
  if sock.inFlightPacketSize < sock.foreignWindowSize then [.broadcast .windowNotEmpty] else []

def storeAck (sock : TcpSocket Buffer) (tcpHdr : TCPFields) : TcpSocket Buffer :=
  { sock with
    foreignWindowSize := tcpHdr.windowSize.toUInt32
    largestAckReceived := tcpHdr.ackNum }

/-- Part 1 of `HandlePacket`: `largestAckReceived` and `foreignWindowSize`. The flag
tells whether `HandlePacket` goes on with the payload. -/
def receiveAck (sock : TcpSocket Buffer) (tcpHdr : TCPFields) :
    TcpSocket Buffer × List Effect × Bool :=
  let packetWindowSize := tcpHdr.windowSize.toUInt32
  if tcpHdr.ackNum < sock.largestAckReceived then (sock, [], false)
  else if tcpHdr.ackNum = sock.largestAckReceived then
    let sock :=
      if sock.foreignWindowSize < packetWindowSize then
        { sock with foreignWindowSize := packetWindowSize }
      else sock
    (sock, sock.wakeProbe, true)
  else
    match (sock.storeAck tcpHdr).removeAcked (tcpHdr.ackNum - sock.myInitSeqNum) sock.inFlightList with
    | (sock, true) => (sock, [.deleteConnSafe], false)
    | (sock, false) => (sock, sock.wakeProbe, true)

variable [Netstack]

def sendAck (sock : TcpSocket Buffer) : List Effect :=
  [.sendTcp (sock.conn.seal sock.getAckHeader [])]

/-- Part 2 and 4 of `HandlePacket`: the payload goes to the read buffer or to the
heap, and is acknowledged unless it did not fit. -/
def receiveData (sock : TcpSocket Buffer) (packet : TcpPacket) : TcpSocket Buffer × List Effect :=
  if sock.relSeqNum packet = sock.nextExpectedByte then
    if packet.data.length ≤ free sock.readBuffer then
      let (sock, writeEffects) := sock.writeIntoReadBuffer packet.data
      let (sock, drainEffects) := sock.drainEarlyArrivals sock.earlyArrivalQueue.length
      (sock, writeEffects ++ drainEffects ++ sock.sendAck)
    else (sock, [])
  else if sock.nextExpectedByte < sock.relSeqNum packet then
    let sock := sock.queueEarlyArrival packet
    (sock, sock.sendAck)
  else (sock, sock.sendAck)

def getFinAckHeader (sock : TcpSocket Buffer) : TCPFields :=
  { sock.getAckHeader with ackNum := sock.getAckHeader.ackNum + 1 }

def receiveFin (sock : TcpSocket Buffer) (packet : TcpPacket) : TcpSocket Buffer × List Effect :=
  if sock.relSeqNum packet = sock.nextExpectedByte then
    let finAck := sock.conn.seal sock.getFinAckHeader []
    let (sock, effects) := sock.finReceived
    (sock, .sendTcp finAck :: effects)
  else if sock.nextExpectedByte < sock.relSeqNum packet then (sock.queueEarlyArrival packet, [])
  else (sock, [])

def handlePacket (sock : TcpSocket Buffer) (packet : TcpPacket) : TcpSocket Buffer × List Effect :=
  if sock.closed then (sock, [])
  else if isValidTcpCheckSum packet.header sock.conn.foreignIP sock.conn.localIP packet.data = false then
    (sock, [])
  else if packet.header.flags = tcpFlagAck then
    match sock.receiveAck packet.header with
    | (sock, effects, false) => (sock, effects)
    | (sock, effects, true) =>
        if packet.data.length = 0 then (sock, effects)
        else
          let (sock, dataEffects) := sock.receiveData packet
          (sock, effects ++ dataEffects)
  else if packet.hasFin then sock.receiveFin packet
  else (sock, [])

end TcpSocket

end IpTcp.Tcp
