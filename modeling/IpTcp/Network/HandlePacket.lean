import IpTcp.Lib.Run
import IpTcp.Rip.Handler
import IpTcp.Tcp.Unmarshal

/-! `HandlePacketSafe`, and a node as a machine: its forwarding table under everything that
works on it, in any order. Whatever changes the table holds its lock for writing meanwhile, so one
operation runs after the other. `HandlePacketSafe` looks at the table under two read locks, one for
the interface of the destination and one for the route, and keeps the second where the time to live
of a packet is over; a change of the table between the two is not modelled. -/

set_option autoImplicit false

namespace IpTcp.Network

open Lib Lib.Bytes Rip
open Tcp (Netstack)

def maxMsgSize : Nat := 1400

/-- The buffer that `Transport.Recv` hands on for a datagram: always a whole one, with zeros
behind what was received. -/
def recv (datagram : List Byte) : List Byte :=
  datagram.take maxMsgSize ++ List.replicate (maxMsgSize - datagram.length) 0

theorem recv_append {front : List Byte} (fits : front.length ≤ maxMsgSize) (back : List Byte) :
    ∃ rest, recv (front ++ back) = front ++ rest := by
  rw [recv, List.take_append, List.take_of_length_le fits, List.append_assoc]
  exact ⟨_, rfl⟩

theorem recv_length (datagram : List Byte) : (recv datagram).length = maxMsgSize := by
  rw [recv, List.length_append, List.length_take, List.length_replicate]
  omega

/-- A packet as `HandlePacketSafe` gets it. -/
inductive Arrives (packet : List Byte) : List Byte → Prop where
  | received : Arrives packet (recv packet)
  /-- `SendToLocalHost` passes the packet on as it is. -/
  | passedOn : Arrives packet packet

def Transmission.buffer (transmission : Transmission) : List Byte :=
  match transmission.link with
  | none => transmission.packet
  | some _ => recv transmission.packet

theorem Transmission.arrives (transmission : Transmission) :
    Arrives transmission.packet transmission.buffer := by
  unfold buffer
  split
  · exact .passedOn
  · exact .received

theorem Arrives.append {front back buffer : List Byte} (arrives : Arrives (front ++ back) buffer)
    (fits : front.length ≤ maxMsgSize) : ∃ rest, buffer = front ++ rest := by
  cases arrives with
  | received => exact recv_append fits back
  | passedOn => exact ⟨back, rfl⟩

namespace FwdTable

def lookupLocks : List LockOp := [.rLock, .rUnlock]

def unchanged (ft : FwdTable) (locks : List LockOp) (sent : List Transmission)
    (returned : Option (Option NetErr)) : Outcome where
  table := ft
  sent := sent
  locks := locks
  returned := returned

variable [Netstack] [Ipv4]

/-- The message goes to a handler. That of the test protocol only prints it. That of TCP leaves the
table and its lock alone, but panics on a message that it cannot index. -/
def deliver (ft : FwdTable) (order : Order) (now : Time) (hdr : Header) (msgBytes : List Byte)
    (application : Application) : Outcome :=
  match application with
  | .rip =>
      let handled := ripHandler ft order now hdr.src msgBytes
      { handled with locks := lookupLocks ++ handled.locks }
  | .testProtocol => ft.unchanged lookupLocks [] (some none)
  | .tcp => ft.unchanged lookupLocks [] ((Tcp.unmarshalTcpPacket msgBytes hdr.src).map fun _ => none)

def forward (ft : FwdTable) (hdr : Header) (msgBytes : List Byte) : Outcome :=
  match ft.entryMap.get hdr.dst with
  | none =>
      ft.unchanged (lookupLocks ++ [.rLock, .rUnlock]) []
        (some (some (.text "don't have a next hop for this destination")))
  | some nextHopEntry =>
      -- a packet whose time is up is dropped without `RUnlock`
      if hdr.ttl - 1 ≤ 0 then ft.unchanged (lookupLocks ++ [.rLock]) [] (some none)
      else
        match marshalWithChecksum { hdr with ttl := hdr.ttl - 1, checksum := 0 } with
        | none =>
            ft.unchanged (lookupLocks ++ [.rLock, .rUnlock]) []
              (some (some (.text "unable to marshal header")))
        | some newHdrBytes =>
            match ft.ipInterfaces.get nextHopEntry.next with
            -- "Shouldn't be happening: nextHop can't be found in IpInterfaces", and nil is dereferenced
            | none => ft.unchanged (lookupLocks ++ [.rLock, .rUnlock]) [] none
            | some nextHopLink =>
                ft.unchanged (lookupLocks ++ [.rLock, .rUnlock])
                  [{ link := some nextHopLink, packet := newHdrBytes ++ msgBytes }] (some none)

/-- `buffer[hdr.Len:hdr.TotalLen]`, which panics where the bounds are not in order. -/
def message (buffer : List Byte) (hdr : Header) : Option (List Byte) :=
  if hdr.len ≤ hdr.totalLen ∧ hdr.totalLen ≤ buffer.length then
    some ((buffer.take hdr.totalLen).drop hdr.len)
  else none

def handlePacketSafe (ft : FwdTable) (order : Order) (now : Time) (buffer : List Byte) : Outcome :=
  match Ipv4.parseHeader buffer with
  | none => ft.unchanged [] [] (some (some .header))
  | some hdr =>
      let headerBytes := buffer.take hdr.len
      let checksumFromHeader := UInt16.ofNat hdr.checksum
      if validateChecksum headerBytes checksumFromHeader ≠ checksumFromHeader then
        ft.unchanged [] [] (some (some (.text "invalid checksum")))
      else
        match message buffer hdr with
        | none => ft.unchanged [] [] none
        | some msgBytes =>
            match ft.getInterfaceByIp order hdr.dst with
            | some myInterface =>
                if myInterface.state = .down then ft.unchanged lookupLocks [] (some none)
                else
                  match ft.applications (UInt8.ofNat hdr.protocol) with
                  | none =>
                      ft.unchanged lookupLocks []
                        (some (some (.text "invalid protocol number in IP header")))
                  | some application => ft.deliver order now hdr msgBytes application
            | none => ft.forward hdr msgBytes

end FwdTable

/-! ## The node -/

def linkToNeighbor : IpInterface where
  id := 0
  state := .up
  destAddr := 0x7f000001
  destUdpPort := 5000
  ip := 0x0a000001
  destIp := 0x0a000002

def announcedTable : FwdTable :=
  let ft := FwdTable.initSafe [linkToNeighbor] 0
  { ft with
    entryMap := (processEntries linkToNeighbor.destIp 0 ft.entryMap
      [{ cost := 1, destIP := 0x0a000009, mask := 0xffffffff }]).1 }

structure Node where
  table : FwdTable
  running : Bool
  /-- Everything it has sent. -/
  transmitted : List Transmission

inductive NodeEvent where
  | registerHandlerSafe (protocolNum : UInt8) (application : Application)
  | setInterfaceStateSafe (id : Int) (newState : InterfaceState) (now : Time)
  | sendMsgToDestIP (destIP : IntIP) (protocol : UInt8) (msg : List Byte)
  | handlePacketSafe (now : Time) (buffer : List Byte)
  | ripHandler (now : Time) (srcIP : IntIP) (rawMsg : List Byte)
  | periodicExpiry (now : Time)
  | periodicUpdate
  | ripInit
  deriving DecidableEq, Repr

variable [Netstack] [Ipv4]

namespace FwdTable

def perform (ft : FwdTable) (order : Order) : NodeEvent → Outcome
  | .registerHandlerSafe protocolNum application =>
      (ft.registerHandlerSafe protocolNum application).unchanged [.lock, .unlock] [] (some none)
  | .setInterfaceStateSafe id newState now =>
      (ft.setInterfaceStateSafe id newState now order).unchanged [.lock, .unlock] [] (some none)
  | .sendMsgToDestIP destIP protocol msg =>
      afterSends ft [.rLock, .rUnlock] [ft.sendMsgToDestIP order destIP protocol msg]
  | .handlePacketSafe now buffer => ft.handlePacketSafe order now buffer
  | .ripHandler now srcIP rawMsg => Rip.ripHandler ft order now srcIP rawMsg
  | .periodicExpiry now => (Rip.periodicExpiry ft order now).unchanged [.lock, .unlock] [] (some none)
  | .periodicUpdate => Rip.periodicUpdate ft order
  | .ripInit => Rip.ripInit ft order

end FwdTable

namespace Node

def start (links : List IpInterface) (now : Time) : Node where
  table := FwdTable.initSafe links now
  running := true
  transmitted := []

def step (node : Node) (event : NodeEvent × Order) : Option Node :=
  if node.running then
    let outcome := node.table.perform event.2 event.1
    some {
      table := outcome.table
      running := outcome.returned.isSome
      transmitted := node.transmitted ++ outcome.sent }
  else none

end Node

end IpTcp.Network
