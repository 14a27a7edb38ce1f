import IpTcp.Tcp.Endpoint

/-! The ends of a connection as `VConnect` and `VAccept` leave them, just before they
start `HandleConnection`. -/

set_option autoImplicit false

namespace IpTcp.Tcp

def TcpConn.reversed (conn : TcpConn) : TcpConn where
  localIP := conn.foreignIP
  localPort := conn.foreignPort
  foreignIP := conn.localIP
  foreignPort := conn.localPort

def loopback : TcpConn where
  localIP := 0x0a000001
  localPort := 2000
  foreignIP := 0x0a000002
  foreignPort := 80

/-! ## The headers of the handshake -/

def handshakeHeader (conn : TcpConn) (seqNum ackNum : UInt32) (flags : UInt8) : TCPFields where
  srcPort := conn.localPort
  dstPort := conn.foreignPort
  seqNum := seqNum
  ackNum := ackNum
  dataOffset := UInt8.ofNat tcpHeaderLen
  flags := flags
  windowSize := UInt16.ofNat bufferSize
  checksum := 0
  urgentPointer := 0

def synHeader (conn : TcpConn) (isn : UInt32) : TCPFields :=
  handshakeHeader conn isn 0 tcpFlagSyn

def synAckHeader (conn : TcpConn) (isn : UInt32) (syn : TCPFields) : TCPFields :=
  handshakeHeader conn isn (syn.seqNum + 1) (tcpFlagSyn ||| tcpFlagAck)

def handshakeAckHeader (conn : TcpConn) (synAck : TCPFields) : TCPFields :=
  handshakeHeader conn synAck.ackNum (synAck.seqNum + 1) tcpFlagAck

variable {Buffer : Type} [RingBuffer Buffer]

namespace TcpSocket

def connectSynAck (sock : TcpSocket Buffer) (synAck : TCPFields) : TcpSocket Buffer :=
  { sock with
    foreignInitSeqNum := synAck.seqNum
    nextExpectedByte := 1
    largestAckReceived := synAck.ackNum
    connState := .established
    foreignWindowSize := synAck.windowSize.toUInt32 }

def acceptSyn (conn : TcpConn) (syn : TCPFields) (isn : UInt32) : TcpSocket Buffer :=
  { (makeTcpSocket .synReceived conn syn.seqNum isn : TcpSocket Buffer) with
    nextExpectedByte := 1
    connState := .synSent }

/-- The socket of `VAccept` once it has accepted the client's ACK. Unlike `VConnect`
it leaves `largestAckReceived` at zero. -/
def acceptAck (sock : TcpSocket Buffer) (ack : TCPFields) : TcpSocket Buffer :=
  { sock with
    connState := .established
    foreignWindowSize := ack.windowSize.toUInt32 }

end TcpSocket

namespace Endpoint

/-- `HandleConnection` starts on a socket; `acks` is what its handshake stored in
`largestAckReceived`. -/
def start (sock : TcpSocket Buffer) (acks : List UInt32) : Endpoint Buffer where
  sock := sock
  writer := .top
  retransmitter := .test
  vWrites := []
  vReads := []
  deleted := false
  written := []
  sent := []
  delivered := []
  acks := acks

def client (conn : TcpConn) (isn : UInt32) (synAck : TCPFields) : Endpoint Buffer :=
  start ((makeTcpSocket .synSent conn 0 isn : TcpSocket Buffer).connectSynAck synAck) [synAck.ackNum]

def server (conn : TcpConn) (isn : UInt32) (syn ack : TCPFields) : Endpoint Buffer :=
  start ((TcpSocket.acceptSyn conn syn isn).acceptAck ack) []

inductive Opened : Endpoint Buffer → Prop where
  | client (conn : TcpConn) (isn : UInt32) (synAck : TCPFields) (acked : synAck.ackNum - isn = 1) :
      Opened (client conn isn synAck)
  | server (conn : TcpConn) (isn : UInt32) (syn ack : TCPFields) : Opened (server conn isn syn ack)

def connected (conn : TcpConn) (isn foreignIsn : UInt32) : Endpoint Buffer :=
  client conn isn (synAckHeader conn.reversed foreignIsn (synHeader conn isn))

def accepted (conn : TcpConn) (isn foreignIsn : UInt32) : Endpoint Buffer :=
  server conn isn (synHeader conn.reversed foreignIsn) (handshakeAckHeader conn.reversed
    (synAckHeader conn isn (synHeader conn.reversed foreignIsn)))

theorem opened_connected (conn : TcpConn) (isn foreignIsn : UInt32) :
    Opened (connected conn isn foreignIsn : Endpoint Buffer) := by
  refine Opened.client conn isn _ ?_
  change isn + 1 - isn = 1
  grind

theorem opened_accepted (conn : TcpConn) (isn foreignIsn : UInt32) :
    Opened (accepted conn isn foreignIsn : Endpoint Buffer) :=
  Opened.server conn isn _ _

end Endpoint

end IpTcp.Tcp
