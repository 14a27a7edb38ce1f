import IpTcp.Lib.GoMap
import IpTcp.Network.Header

/-! The forwarding table of `network.go`: the interfaces of a node by the address at their other
end, and the routes by destination. -/

set_option autoImplicit false

namespace IpTcp.Network

open Lib Lib.Bytes
open Tcp (Netstack)

inductive InterfaceState where
  /-- `INTERFACEUP`. -/
  | up
  /-- `INTERFACEDOWN`. -/
  | down
  deriving DecidableEq, Repr

structure IpInterface where
  id : Int
  state : InterfaceState
  destAddr : IntIP
  destUdpPort : UInt16
  ip : IntIP
  destIp : IntIP
  deriving DecidableEq, Repr

/-- `time.Time` and `time.Duration`, in nanoseconds. -/
abbrev Time := Int

def second : Time := 1000000000
def hour : Time := 3600 * second

structure FwdTableEntry where
  next : IntIP
  cost : UInt32
  lastUpdatedTime : Time
  mask : IntIP
  deriving DecidableEq, Repr

def createFwdTableEntry (next : IntIP) (cost : UInt32) (lastUpdatedTime : Time) : FwdTableEntry where
  next := next
  cost := cost
  lastUpdatedTime := lastUpdatedTime
  mask := 0xffffffff

def maxHops : Int := 16

inductive Application where
  | testProtocol
  | rip
  | tcp
  deriving DecidableEq, Repr

structure FwdTable where
  entryMap : GoMap IntIP FwdTableEntry
  ipInterfaces : GoMap IntIP IpInterface
  applications : UInt8 → Option Application

inductive LockOp where
  | rLock
  | rUnlock
  | lock
  | unlock
  deriving DecidableEq, Repr

/-- The orders in which an operation goes through the maps: the routes, the interfaces, and
the interfaces again where `getInterfaceByIp` looks for an address. -/
structure Order where
  entries : List IntIP
  interfaces : List IntIP
  lookups : List IntIP
  deriving DecidableEq, Repr

namespace FwdTable

def selfEntry (ip : IntIP) (now : Time) : FwdTableEntry := createFwdTableEntry ip 0 (now + hour * 48)

def addLink (now : Time) (ft : FwdTable) (link : IpInterface) : FwdTable :=
  { ft with
    ipInterfaces := ft.ipInterfaces.insert link.destIp link
    entryMap := ft.entryMap.insert link.ip (selfEntry link.ip now) }

def initSafe (links : List IpInterface) (now : Time) : FwdTable :=
  links.foldl (addLink now) { entryMap := ∅, ipInterfaces := ∅, applications := fun _ => none }

def registerHandlerSafe (ft : FwdTable) (protocolNum : UInt8) (application : Application) : FwdTable :=
  { ft with applications := Function.update ft.applications protocolNum (some application) }

def setState (id : Int) (newState : InterfaceState) (now : Time) (ft : FwdTable)
    (entry : IntIP × IpInterface) : FwdTable :=
  let (k, ipInterface) := entry
  if ipInterface.id = id then
    { ft with
      entryMap :=
        if newState = ipInterface.state then ft.entryMap
        else
          match newState with
          | .down => (ft.entryMap.erase ipInterface.destIp).erase ipInterface.ip
          | .up => ft.entryMap.insert ipInterface.ip (selfEntry ipInterface.ip now)
      ipInterfaces := ft.ipInterfaces.insert k { ipInterface with state := newState } }
  else ft

def setInterfaceStateSafe (ft : FwdTable) (id : Int) (newState : InterfaceState) (now : Time)
    (order : Order) : FwdTable :=
  (ft.ipInterfaces.range order.interfaces).foldl (setState id newState now) ft

/-- Some interface with the address, the first one in the order of iteration. -/
def getInterfaceByIp (ft : FwdTable) (order : Order) (ip : IntIP) : Option IpInterface :=
  ((ft.ipInterfaces.range order.lookups).map Prod.snd).find? fun inter => inter.ip = ip

def getInterfaceByDestIp (ft : FwdTable) (nextHopIP : IntIP) : Option IpInterface :=
  ft.ipInterfaces.get nextHopIP

/-! ## Sending -/

end FwdTable

/-- A packet handed to the transport: on a link, or to the node itself where there is none. -/
structure Transmission where
  link : Option IpInterface
  packet : List Byte
  deriving DecidableEq, Repr

inductive NetErr where
  /-- An error of the `ipv4` package, handed on. -/
  | header
  | text (message : String)
  deriving DecidableEq, Repr

inductive SendResult where
  | sent (transmission : Transmission)
  | error (err : NetErr)
  /-- The nil interface of a route whose next hop is not there is dereferenced. -/
  | panics
  deriving DecidableEq, Repr

/-- The packets of several calls of `SendMsgToDestIP`, whose errors are logged, up to the one
that panics; and whether there is one. -/
def sendAll : List SendResult → List Transmission × Bool
  | [] => ([], false)
  | .sent transmission :: rest => (transmission :: (sendAll rest).1, (sendAll rest).2)
  | .error _ :: rest => sendAll rest
  | .panics :: _ => ([], true)

/-- What an operation that works on the table leaves: the table, the packets it has sent, what it
has done to `Lock`, and how it ends. -/
structure Outcome where
  table : FwdTable
  sent : List Transmission
  locks : List LockOp
  /-- The error it returns; nothing where the whole node goes down with it. -/
  returned : Option (Option NetErr)

inductive Route where
  | localHost (nextHopInterface : IpInterface)
  | link (nextHopInterface : IpInterface)
  /-- In the table, with a next hop that is not among the interfaces. -/
  | missing
  | unreachable
  deriving DecidableEq, Repr

namespace FwdTable

def route (ft : FwdTable) (order : Order) (destIP : IntIP) : Route :=
  match ft.getInterfaceByIp order destIP with
  | some inter => .localHost inter
  | none =>
      match ft.getInterfaceByDestIp destIP with
      | some inter => .link inter
      | none =>
          match ft.entryMap.get destIP with
          | none => .unreachable
          | some fwdEntry =>
              match ft.getInterfaceByDestIp fwdEntry.next with
              | some inter => .link inter
              | none => .missing

def newHeader (src dst : IntIP) (protocol : UInt8) (msg : List Byte) : Header where
  version := 4
  len := headerLen
  tos := 0
  totalLen := headerLen + msg.length
  id := 0
  flags := 0
  fragOff := 0
  ttl := maxHops
  protocol := protocol.toNat
  checksum := 0
  src := src
  dst := dst
  options := []

variable [Netstack] [Ipv4]

def marshalWithChecksum (hdr : Header) : Option (List Byte) :=
  -- `Marshal`, the checksum of what it returned, and `Marshal` with it.
  (Ipv4.marshal hdr).bind fun headerBytes =>
    Ipv4.marshal { hdr with checksum := (computeChecksum headerBytes).toNat }

def transmit (inter : IpInterface) (link : Option IpInterface) (destIP : IntIP) (protocol : UInt8)
    (msg : List Byte) : SendResult :=
  match marshalWithChecksum (newHeader inter.ip destIP protocol msg) with
  | none => .error .header
  | some headerBytes => .sent { link := link, packet := headerBytes ++ msg }

def sendMsgToDestIP (ft : FwdTable) (order : Order) (destIP : IntIP) (protocol : UInt8)
    (msg : List Byte) : SendResult :=
  match ft.route order destIP with
  | .unreachable => .error (.text ("Can't reach the destIP " ++ Tcp.IntIP.string destIP))
  | .missing => .panics
  | .localHost inter => transmit inter none destIP protocol msg
  | .link inter => transmit inter (some inter) destIP protocol msg

end FwdTable

end IpTcp.Network
