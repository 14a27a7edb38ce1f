import IpTcp.Lib.Bytes
import IpTcp.Tcp.Types

/-! The TCP checksum of `common.go`. Netstack's `header.Checksum` and
`header.TCP.Encode` are third-party code and stay parameters; nothing below
depends on what they compute, only on the two ends computing the same. -/

set_option autoImplicit false

namespace IpTcp.Tcp

open Lib.Bytes

/-- The two functions of netstack's `header` package the checksum is built from. -/
class Netstack where
  /-- `header.Checksum(buf, initial)`. -/
  checksum : List Byte → UInt16 → UInt16
  /-- The bytes that `header.TCP.Encode` writes into a buffer of `TcpHeaderLen` bytes. -/
  encode : TCPFields → List Byte

/-- `IntIP.NetIP`: always four bytes, so the panics of `computeTCPChecksum` cannot happen. -/
def IntIP.netIP (ip : IntIP) : List Byte := putUint32 ip

def IntIP.string (ip : IntIP) : String :=
  ".".intercalate ((IntIP.netIP ip).map fun byte => toString byte.toNat)

def pseudoHeader (sourceIP destIP : IntIP) (payload : List Byte) : List Byte :=
  IntIP.netIP sourceIP ++ IntIP.netIP destIP ++ [0, tcpProtocolNum] ++
    putUint16 (UInt16.ofNat (tcpHeaderLen + payload.length))

variable [Netstack]

def computeTCPChecksum (tcpHdr : TCPFields) (sourceIP destIP : IntIP) (payload : List Byte) : UInt16 :=
  let pseudoHeaderChecksum := Netstack.checksum (pseudoHeader sourceIP destIP payload) 0
  let headerChecksum := Netstack.checksum (Netstack.encode tcpHdr) pseudoHeaderChecksum
  let fullChecksum := Netstack.checksum payload headerChecksum
  fullChecksum ^^^ 0xffff

def isValidTcpCheckSum (tcpHdr : TCPFields) (sourceIP destIP : IntIP) (payload : List Byte) : Bool :=
  let tcpChecksumFromHeader := tcpHdr.checksum
  let tcpComputedChecksum := computeTCPChecksum { tcpHdr with checksum := 0 } sourceIP destIP payload
  tcpComputedChecksum == tcpChecksumFromHeader

/-- Every sender of the package fills in the checksum last, over a header whose
checksum is zero. The source address is the one the receiver finds in the IP header. -/
def TcpConn.seal (conn : TcpConn) (tcpHdr : TCPFields) (payload : List Byte) : TcpPacket :=
  let hdr := { tcpHdr with checksum := 0 }
  { srcIP := conn.localIP
    header := { hdr with checksum := computeTCPChecksum hdr conn.localIP conn.foreignIP payload }
    data := payload }

/-- A sealed packet passes the check that the peer makes with the same two addresses. -/
theorem isValidTcpCheckSum_seal (conn : TcpConn) (tcpHdr : TCPFields) (payload : List Byte) :
    isValidTcpCheckSum (conn.seal tcpHdr payload).header conn.localIP conn.foreignIP
      (conn.seal tcpHdr payload).data = true := by
  simp [isValidTcpCheckSum, TcpConn.seal]

section
variable (conn : TcpConn) (tcpHdr : TCPFields) (payload : List Byte)

@[simp] theorem seal_data : (conn.seal tcpHdr payload).data = payload := rfl
@[simp] theorem seal_seqNum : (conn.seal tcpHdr payload).header.seqNum = tcpHdr.seqNum := rfl
@[simp] theorem seal_ackNum : (conn.seal tcpHdr payload).header.ackNum = tcpHdr.ackNum := rfl
@[simp] theorem seal_flags : (conn.seal tcpHdr payload).header.flags = tcpHdr.flags := rfl
@[simp] theorem seal_windowSize : (conn.seal tcpHdr payload).header.windowSize = tcpHdr.windowSize := rfl

end

/-! ## The checksum that runs -/

def layout (tcpHdr : TCPFields) : List Byte :=
  putUint16 tcpHdr.srcPort ++ putUint16 tcpHdr.dstPort ++ putUint32 tcpHdr.seqNum ++
    putUint32 tcpHdr.ackNum ++ [(tcpHdr.dataOffset / 4) <<< 4, tcpHdr.flags] ++
    putUint16 tcpHdr.windowSize ++ putUint16 tcpHdr.checksum ++ putUint16 tcpHdr.urgentPointer

abbrev Netstack.standard : Netstack where
  checksum := foldedSum
  encode := layout

end IpTcp.Tcp
