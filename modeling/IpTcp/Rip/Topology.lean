import IpTcp.Lib.Walk
import IpTcp.Network.Forwarding
import IpTcp.Rip.Emission

/-! A network of nodes that run RIP: their tables, and the datagrams on the way between them, which
may be lost, duplicated, delayed and reordered. -/

set_option autoImplicit false

namespace IpTcp.Rip

open Lib Lib.Bytes Network
open Tcp (Netstack)

/-- The links of a network, each the same one from both of its ends. -/
structure Topology (Host : Type) where
  links : Host → List IpInterface
  /-- The node that the UDP address of a link leads to, by the `DestIp` of the link. -/
  far : Host → IntIP → Host
  symmetric : ∀ host, ∀ link ∈ links host, ∃ other ∈ links (far host link.destIp),
    other.ip = link.destIp ∧ other.destIp = link.ip

/-- The tables of the nodes, which of them are still running, and the datagrams that have been sent
to a node and not been received, as it will get them. -/
structure Net (Host : Type) where
  tables : Host → FwdTable
  running : Host → Bool
  transit : List (Host × List Byte)

inductive Task where
  | ripInit
  | periodicUpdate
  | periodicExpiry (now : Time)
  | setInterfaceStateSafe (id : Int) (newState : InterfaceState) (now : Time)
  deriving DecidableEq, Repr

def Task.event : Task → NodeEvent
  | ripInit => .ripInit
  | periodicUpdate => .periodicUpdate
  | periodicExpiry now => .periodicExpiry now
  | setInterfaceStateSafe id newState now => .setInterfaceStateSafe id newState now

inductive NetEvent (Host : Type) where
  | task (host : Host) (order : Order) (task : Task)
  /-- The datagram at an index is received and handled. -/
  | deliver (index : Nat) (order : Order) (now : Time)
  | lose (index : Nat)
  | duplicate (index : Nat)

namespace Topology

variable {Host : Type} (topology : Topology Host)

def Owns (host : Host) (ip : IntIP) : Prop := ∃ link ∈ topology.links host, link.ip = ip

def Neighbor (host : Host) (ip : IntIP) : Prop := ∃ link ∈ topology.links host, link.destIp = ip

def Adjacent (host other : Host) : Prop := ∃ link ∈ topology.links host, topology.far host link.destIp = other

def UniqueAddresses : Prop :=
  ∀ host other, ∀ link ∈ topology.links host, ∀ link' ∈ topology.links other, link.ip = link'.ip →
    host = other ∧ link = link'

def receiver (host : Host) (transmission : Transmission) : Host :=
  match transmission.link with
  | none => host
  | some inter => topology.far host inter.destIp

def start (now : Host → Time) : Net Host where
  tables host := FwdTable.initSafe (topology.links host) (now host)
  running _ := true
  transit := []

section
variable [DecidableEq Host] [Netstack] [Ipv4]

def perform (net : Net Host) (host : Host) (order : Order) (event : NodeEvent) : Net Host :=
  let outcome := (net.tables host).perform order event
  { tables := Function.update net.tables host outcome.table
    running := Function.update net.running host outcome.returned.isSome
    transit := net.transit ++
      outcome.sent.map fun transmission => (topology.receiver host transmission, transmission.buffer) }

def step (net : Net Host) : NetEvent Host → Option (Net Host)
  | .task host order task =>
      if net.running host then some (topology.perform net host order task.event) else none
  | .deliver index order now =>
      (net.transit[index]?).map fun (host, packet) =>
        let net := { net with transit := net.transit.eraseIdx index }
        -- A datagram for a node that has ended is received by nobody.
        if net.running host then topology.perform net host order (.handlePacketSafe now packet)
        else net
  | .lose index =>
      (net.transit[index]?).map fun _ => { net with transit := net.transit.eraseIdx index }
  | .duplicate index =>
      (net.transit[index]?).map fun datagram => { net with transit := net.transit ++ [datagram] }

end

/-! ## Addresses -/

section
variable {topology}

theorem far_owns {host : Host} {ip : IntIP} (neighbor : topology.Neighbor host ip) :
    topology.Owns (topology.far host ip) ip := by
  obtain ⟨link, member, rfl⟩ := neighbor
  obtain ⟨other, listed, same, _⟩ := topology.symmetric host link member
  exact ⟨other, listed, same⟩

theorem adjacent_far {host : Host} {ip : IntIP} (neighbor : topology.Neighbor host ip) :
    topology.Adjacent host (topology.far host ip) := by
  obtain ⟨link, member, rfl⟩ := neighbor
  exact ⟨link, member, rfl⟩

theorem UniqueAddresses.owner (unique : topology.UniqueAddresses) {host other : Host} {ip : IntIP}
    (owns : topology.Owns host ip) (alsoOwns : topology.Owns other ip) : host = other := by
  obtain ⟨link, member, rfl⟩ := owns
  obtain ⟨link', member', same⟩ := alsoOwns
  exact (unique host other link member link' member' same.symm).1

theorem UniqueAddresses.far (unique : topology.UniqueAddresses) {host other : Host} {ip : IntIP}
    (neighbor : topology.Neighbor host ip) (owns : topology.Owns other ip) : topology.far host ip = other :=
  unique.owner (far_owns neighbor) owns

theorem neighbor_back {host : Host} {link : IpInterface} (member : link ∈ topology.links host) :
    topology.Neighbor (topology.far host link.destIp) link.ip := by
  obtain ⟨other, listed, _, back⟩ := topology.symmetric host link member
  exact ⟨other, listed, back⟩

theorem UniqueAddresses.link (unique : topology.UniqueAddresses) {host : Host} {link other : IpInterface}
    (member : link ∈ topology.links host) (listed : other ∈ topology.links host)
    (same : link.destIp = other.destIp) : link = other := by
  obtain ⟨back, isBack, backIp, backDest⟩ := topology.symmetric host link member
  obtain ⟨back', isBack', backIp', backDest'⟩ := topology.symmetric host other listed
  rw [← same] at isBack'
  have equal := (unique _ _ back isBack back' isBack' (by rw [backIp, backIp', same])).2
  rw [← equal, backDest] at backDest'
  exact (unique host host link member other listed backDest').2

end

end Topology

/-! ## `nets/ABC_loop.net` -/

inductive LoopHost where
  | a
  | b
  | c
  deriving DecidableEq, Repr

def loopLink (id : Int) (destUdpPort : UInt16) (ip destIp : IntIP) : IpInterface where
  id := id
  state := .up
  destAddr := 0x7f000001
  destUdpPort := destUdpPort
  ip := ip
  destIp := destIp

/-- Three nodes, each linked with the other two: 192.168.0.1 and 2 are at the ends of the link from
A to B, 3 and 4 from B to C, and 5 and 6 from A to C. -/
def abcLoop : Topology LoopHost where
  links
    | .a => [loopLink 0 5001 0xc0a80001 0xc0a80002, loopLink 1 5002 0xc0a80005 0xc0a80006]
    | .b => [loopLink 0 5000 0xc0a80002 0xc0a80001, loopLink 1 5002 0xc0a80003 0xc0a80004]
    | .c => [loopLink 0 5001 0xc0a80004 0xc0a80003, loopLink 1 5000 0xc0a80006 0xc0a80005]
  far _ destIp :=
    if destIp = 0xc0a80001 ∨ destIp = 0xc0a80005 then .a
    else if destIp = 0xc0a80002 ∨ destIp = 0xc0a80003 then .b
    else .c
  symmetric host := by cases host <;> decide

theorem abcLoop_unique : abcLoop.UniqueAddresses := by
  intro host other
  cases host <;> cases other <;> decide

theorem abcLoop_addresses (host : LoopHost) : ∀ link ∈ abcLoop.links host, link.ip ∈
    ([0xc0a80001, 0xc0a80002, 0xc0a80003, 0xc0a80004, 0xc0a80005, 0xc0a80006] : List IntIP) := by
  cases host <;> decide

end IpTcp.Rip
