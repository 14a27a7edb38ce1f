import IpTcp.Network.NextHop

/-! The routes of packets that start at a node and of packets on their way through it.
`SendMsgToDestIP` tries the neighbours before the table, the forwarding branch of `HandlePacketSafe`
has the table only, so the two agree about a neighbour only if the table has it as its own next hop. -/

set_option autoImplicit false

namespace IpTcp.Network

open Lib Lib.Bytes Rip
open Tcp (Netstack)

namespace FwdTable

def forwardRoute (ft : FwdTable) (destIP : IntIP) : Route :=
  match ft.entryMap.get destIP with
  | none => .unreachable
  | some nextHopEntry =>
      match ft.ipInterfaces.get nextHopEntry.next with
      | some nextHopLink => .link nextHopLink
      | none => .missing

/-- The neighbour at the address, if there is one, is its own next hop in the table. -/
def DirectEntry (ft : FwdTable) (d : IntIP) : Prop :=
  ft.IsNeighbor d → ∃ entry, ft.entryMap.get d = some entry ∧ entry.next = d

theorem route_foreign {ft : FwdTable} {d : IntIP} (foreign : ¬ ft.Owns d) (order : Order) :
    ft.route order d =
      match ft.ipInterfaces.get d with
      | some inter => .link inter
      | none => ft.forwardRoute d := by
  rw [route, getInterfaceByIp_none.mpr foreign]
  simp only [getInterfaceByDestIp]
  cases ft.ipInterfaces.get d with
  | some inter => rfl
  | none =>
      unfold forwardRoute
      cases ft.entryMap.get d with
      | none => rfl
      | some entry => cases ft.ipInterfaces.get entry.next <;> rfl

theorem forwardRoute_link {ft : FwdTable} {d : IntIP} {inter : IpInterface} :
    ft.forwardRoute d = .link inter ↔
      ∃ entry, ft.entryMap.get d = some entry ∧ ft.ipInterfaces.get entry.next = some inter := by
  unfold forwardRoute
  cases ft.entryMap.get d with
  | none => simp
  | some entry =>
      dsimp only
      cases next : ft.ipInterfaces.get entry.next <;> simp [next]

theorem Keyed.route_eq_iff {ft : FwdTable} (keyed : ft.Keyed) {d : IntIP} (foreign : ¬ ft.Owns d)
    (order : Order) : ft.route order d = ft.forwardRoute d ↔ ft.DirectEntry d := by
  rw [route_foreign foreign]
  cases direct : ft.ipInterfaces.get d with
  | none =>
      have nobody : ¬ ft.IsNeighbor d := fun ⟨inter, present⟩ => by rw [direct] at present; cases present
      exact iff_of_true rfl fun neighbor => absurd neighbor nobody
  | some inter =>
      dsimp only
      rw [eq_comm, forwardRoute_link]
      constructor
      · rintro ⟨entry, present, next⟩ _
        exact ⟨entry, present, (keyed _ _ next).symm.trans (keyed _ _ direct)⟩
      · intro own
        obtain ⟨entry, present, next⟩ := own ⟨inter, direct⟩
        exact ⟨entry, present, next ▸ direct⟩

section
variable [Netstack] [Ipv4]

def forwardOn (ft : FwdTable) (route : Route) (hdr : Header) (msgBytes : List Byte) : Outcome :=
  let ends := ft.unchanged (lookupLocks ++ [.rLock, .rUnlock])
  match route with
  | .unreachable => ends [] (some (some (.text "don't have a next hop for this destination")))
  | .localHost nextHopLink | .link nextHopLink =>
      match marshalWithChecksum { hdr with ttl := hdr.ttl - 1, checksum := 0 } with
      | none => ends [] (some (some (.text "unable to marshal header")))
      | some newHdrBytes => ends [{ link := some nextHopLink, packet := newHdrBytes ++ msgBytes }] (some none)
  | .missing =>
      match marshalWithChecksum { hdr with ttl := hdr.ttl - 1, checksum := 0 } with
      | none => ends [] (some (some (.text "unable to marshal header")))
      | some _ => ends [] none

theorem forward_route (ft : FwdTable) {hdr : Header} (timeLeft : 1 < hdr.ttl) (msgBytes : List Byte) :
    ft.forward hdr msgBytes = ft.forwardOn (ft.forwardRoute hdr.dst) hdr msgBytes := by
  unfold forward forwardRoute
  cases ft.entryMap.get hdr.dst with
  | none => rfl
  | some nextHopEntry =>
      dsimp only
      rw [if_neg (by omega)]
      cases ft.ipInterfaces.get nextHopEntry.next with
      | none => rfl
      | some nextHopLink => rfl

theorem handlePacketSafe_route (ft : FwdTable) (order : Order) (now : Time) {buffer : List Byte}
    {hdr : Header} {msgBytes : List Byte} (transit : ft.fate order buffer = .transit hdr msgBytes)
    (timeLeft : 1 < hdr.ttl) :
    ft.handlePacketSafe order now buffer = ft.forwardOn (ft.forwardRoute hdr.dst) hdr msgBytes := by
  rw [handlePacketSafe_transit transit, forward_route ft timeLeft]

end

end FwdTable

namespace Node

section
variable [Netstack] [Ipv4]

theorem reachable_keyed {links : List IpInterface} {now : Time} {node : Node}
    (run : Run step anyEvent (start links now) node) : node.table.Keyed := by
  refine Run.preserves (fun node => node.table.Keyed) ?_ run (FwdTable.Keyed.initSafe links now)
  intro before event after keyed _ moves
  rw [(step_table moves).2.1]
  exact (FwdTable.perform_change before.table event.2 event.1).keyed keyed

/-- In every reachable table and for every address that is not the node's: the route of a packet that
starts here and that of a packet on its way through are the same exactly if the address is no
neighbour's, or the table has the neighbour as its own next hop. -/
theorem same_route_iff {links : List IpInterface} {now : Time} {node : Node}
    (run : Run step anyEvent (start links now) node) (order : Order) {d : IntIP}
    (foreign : ¬ node.table.Owns d) :
    (node.table.route order d = node.table.forwardRoute d ↔ node.table.DirectEntry d) ∧
    ∀ time buffer hdr msgBytes, node.table.fate order buffer = .transit hdr msgBytes → hdr.dst = d →
      1 < hdr.ttl → node.table.handlePacketSafe order time buffer =
        node.table.forwardOn (node.table.forwardRoute d) hdr msgBytes := by
  refine ⟨(reachable_keyed run).route_eq_iff foreign order, ?_⟩
  rintro time buffer hdr msgBytes transit rfl timeLeft
  exact node.table.handlePacketSafe_route order time transit timeLeft

end

section
attribute [local instance] Netstack.standard Ipv4.linux

/-- About an address behind the neighbour, both have the route that it has announced. -/
theorem same_route_announced :
    ∃ node, Run step anyEvent (start [linkToNeighbor] 0) node ∧
      node.table.forwardRoute 0x0a000009 = .link linkToNeighbor ∧
      node.table.route anyOrder 0x0a000009 = node.table.forwardRoute 0x0a000009 := by
  have run := (Run.ofSome hears_neighbor).weaken fun _ _ _ => trivial
  refine ⟨_, run, by decide +kernel, ?_⟩
  refine (same_route_iff run anyOrder (by decide +kernel)).1.mpr fun neighbor => ?_
  exact absurd neighbor (by decide +kernel)

def forNeighbor : List Byte :=
  recv ((FwdTable.marshalWithChecksum (FwdTable.newHeader 0x0a000909 linkToNeighbor.destIp 0 [])).getD [])

def secondLink : IpInterface :=
  { linkToNeighbor with id := 1, destUdpPort := 5001, ip := 0x0a000101, destIp := 0x0a000102 }

def roundabout : List (NodeEvent × Order) :=
  let ripPacket : RipPacket := {
    command := commandResponse
    entries := [{ cost := 1, destIP := linkToNeighbor.destIp, mask := 0xffffffff }] }
  [(.ripHandler 0 secondLink.destIp ripPacket.marshal, anyOrder)]

theorem roundabout_reached :
    (exec step anyEvent (start [linkToNeighbor, secondLink] 0) roundabout).isSome := by
  decide +kernel

/-- After `InitSafe` a node sends to its neighbour, but reports that it has no next hop for it; after
a response from another neighbour it forwards on the other link. -/
theorem neighbor_routes_differ :
    ((start [linkToNeighbor] 0).table.perform anyOrder
        (.sendMsgToDestIP linkToNeighbor.destIp 0 [])).sent.map (·.link) = [some linkToNeighbor] ∧
    (FwdTable.accepted forNeighbor).map (fun packet => (packet.1.dst, packet.1.ttl)) =
      some (linkToNeighbor.destIp, 16) ∧
    ((start [linkToNeighbor] 0).table.handlePacketSafe anyOrder 0 forNeighbor).returned =
      some (some (.text "don't have a next hop for this destination")) ∧
    ∃ node, Run step anyEvent (start [linkToNeighbor, secondLink] 0) node ∧
      ¬ node.table.Owns linkToNeighbor.destIp ∧
      (node.table.perform anyOrder (.sendMsgToDestIP linkToNeighbor.destIp 0 [])).sent.map (·.link) =
        [some linkToNeighbor] ∧
      (node.table.handlePacketSafe anyOrder 0 forNeighbor).sent.map (·.link) = [some secondLink] := by
  refine ⟨by decide +kernel, by decide +kernel, by decide +kernel, _, Run.ofSome roundabout_reached,
    ?_, ?_, ?_⟩
  · decide +kernel
  · decide +kernel
  · decide +kernel

end

end Node

end IpTcp.Network
