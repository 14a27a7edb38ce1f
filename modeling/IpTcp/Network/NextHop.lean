import IpTcp.Network.NodeSteps

/-! Next hops are interfaces. `RIPHandler` makes the sender of a response the next hop of what it
announces, whoever the sender is; where responses come from neighbours only, or announce nothing
new, no route has a next hop that is not there. -/

set_option autoImplicit false

namespace IpTcp.Network

open Lib Lib.Bytes Rip
open Tcp (Netstack)

namespace FwdTable

def IsNeighbor (ft : FwdTable) (ip : IntIP) : Prop := ∃ inter, ft.ipInterfaces.get ip = some inter

/-- The routes to other nodes go through an interface. -/
def NextHops (ft : FwdTable) : Prop :=
  ∀ d entry, ft.entryMap.get d = some entry → ¬ ft.Owns d → ft.IsNeighbor entry.next

instance (ft : FwdTable) (ip : IntIP) : Decidable (ft.IsNeighbor ip) :=
  decidable_of_iff (ft.ipInterfaces.get ip).isSome Option.isSome_iff_exists

theorem SameLinks.isNeighbor {ft after : FwdTable} (same : SameLinks ft after) {ip : IntIP}
    (neighbor : ft.IsNeighbor ip) : after.IsNeighbor ip := by
  obtain ⟨inter, present⟩ := neighbor
  obtain ⟨later, found, _⟩ := same.forward present
  exact ⟨later, found⟩

theorem NextHops.initSafe {links : List IpInterface} {now : Time}
    (distinct : ∀ link ∈ links, (initSafe links now).Owns link.ip ∨ (initSafe links now).IsNeighbor link.ip) :
    (initSafe links now).NextHops := by
  intro d entry present foreign
  obtain ⟨rfl, link, member, rfl⟩ := (initSafe_get links now).2.1 d entry present
  rcases distinct link member with own | neighbor
  · exact absurd own foreign
  · exact neighbor

/-- A response is from a neighbour, or has nothing about other nodes that would be taken. -/
def KnownSource (ft : FwdTable) (srcIP : IntIP) (entries : List RipEntry) : Prop :=
  ft.IsNeighbor srcIP ∨ ∀ entry ∈ entries, ¬ ft.Owns entry.destIP → verdict ft.entryMap srcIP entry = .ignore
  deriving Decidable

theorem NextHops.learn {ft : FwdTable} {srcIP : IntIP} {now : Time} {entries : List RipEntry}
    (hops : ft.NextHops) (known : ft.KnownSource srcIP entries) : (ft.learn srcIP now entries).NextHops := by
  intro d entry present foreign
  change (processEntries srcIP now ft.entryMap entries).1.get d = some entry at present
  rcases known with neighbor | ignored
  · rcases processEntries_get present with old | ⟨_, _, _, rfl, _⟩
    · exact hops d entry old foreign
    · exact neighbor
  · -- where the sender is unknown, the route is an old one
    rw [processEntries_ignored] at present
    · exact hops d entry present foreign
    · intro other member about
      apply ignored other member
      rw [about]
      exact foreign

theorem NextHops.route {ft : FwdTable} (hops : ft.NextHops) (order : Order) (destIP : IntIP) :
    ft.route order destIP ≠ .missing := by
  unfold FwdTable.route
  cases own : ft.getInterfaceByIp order destIP with
  | some inter => simp
  | none =>
      dsimp only
      split
      · simp
      · split
        · simp
        · rename_i fwdEntry known
          obtain ⟨inter, present⟩ := hops destIP fwdEntry known (getInterfaceByIp_none.mp own)
          rw [getInterfaceByDestIp, present]
          simp

section
variable [Netstack] [Ipv4]

def HearsKnown (ft : FwdTable) (order : Order) (event : NodeEvent) : Prop :=
  ∀ message ∈ ft.heard order event, message.2.command ≠ commandRequest →
    ft.KnownSource message.1 message.2.entries
  deriving Decidable

theorem NextHops.change {ft after : FwdTable} {order : Order} {event : NodeEvent} (hops : ft.NextHops)
    (known : ft.HearsKnown order event) (change : ft.Change order event after) : after.NextHops := by
  have same := change.sameLinks
  cases change with
  | same | register => exact hops
  | learn srcIP now ripPacket hears response => exact hops.learn (known (srcIP, ripPacket) hears response)
  | expire now is =>
      intro d entry present foreign
      rw [periodicExpiry_get] at present
      exact hops d entry (Option.filter_eq_some_iff.mp present).1 foreign
  | states id newState now is =>
      intro d entry present foreign
      rcases setInterfaceStateSafe_get present with ⟨old, _⟩ | ⟨_, k, inter, listed, _, own, _⟩
      · exact same.isNeighbor (hops d entry old fun own => foreign ((same.owns d).mpr own))
      · exact absurd ((same.owns d).mpr ⟨k, inter, listed, own.symm⟩) foreign

theorem NextHops.forward {ft : FwdTable} (hops : ft.NextHops) {hdr : Header} (foreign : ¬ ft.Owns hdr.dst)
    (msgBytes : List Byte) : (ft.forward hdr msgBytes).returned ≠ none := by
  unfold FwdTable.forward
  split
  · simp [unchanged]
  · rename_i nextHopEntry known
    obtain ⟨inter, present⟩ := hops hdr.dst nextHopEntry known foreign
    rw [present]
    split
    · simp [unchanged]
    · split <;> simp [unchanged]

end

end FwdTable

namespace Node

section
variable [Netstack] [Ipv4]

def hearsKnown (node : Node) (event : NodeEvent × Order) : Prop := node.table.HearsKnown event.2 event.1
  deriving Decidable

/-- From `InitSafe` on, with every response from a neighbour or without news about other nodes:
next hops of routes to other nodes are interfaces, `SendMsgToDestIP` does not come upon a nil
interface, and the forwarding branch of `HandlePacketSafe` finds the next hop. -/
theorem nextHop_exists {links : List IpInterface} {now : Time}
    (distinct : ∀ link ∈ links, (FwdTable.initSafe links now).Owns link.ip ∨
      (FwdTable.initSafe links now).IsNeighbor link.ip)
    {node : Node} (run : Run step hearsKnown (start links now) node) :
    (∀ d entry, node.table.entryMap.get d = some entry → ¬ node.table.Owns d →
      node.table.IsNeighbor entry.next) ∧
    (∀ order destIP, node.table.route order destIP ≠ .missing) ∧
    ∀ order buffer hdr msgBytes, node.table.fate order buffer = .transit hdr msgBytes →
      (node.table.forward hdr msgBytes).returned ≠ none := by
  have hops : node.table.NextHops := by
    refine Run.preserves (fun node => node.table.NextHops) ?_ run (FwdTable.NextHops.initSafe distinct)
    intro before event after hops known moves
    rw [(step_table moves).2.1]
    exact hops.change known (FwdTable.perform_change before.table event.2 event.1)
  refine ⟨hops, hops.route, ?_⟩
  intro order buffer hdr msgBytes transit
  exact hops.forward (FwdTable.fate_transit transit).2 msgBytes

end

section
attribute [local instance] Netstack.standard Ipv4.linux

def anyOrder : Order where
  entries := []
  interfaces := []
  lookups := []

def announcement (srcIP : IntIP) : List Byte :=
  let ripPacket : RipPacket := {
    command := commandResponse
    entries := [{ cost := 1, destIP := 0x0a000009, mask := 0xffffffff }] }
  recv ((FwdTable.marshalWithChecksum
    (FwdTable.newHeader srcIP linkToNeighbor.ip ripProtocolNum ripPacket.marshal)).getD [] ++ ripPacket.marshal)

def hearing (srcIP : IntIP) : List (NodeEvent × Order) :=
  [(.ripInit, anyOrder), (.handlePacketSafe 0 (announcement srcIP), anyOrder)]

theorem hears_neighbor :
    (exec step hearsKnown (start [linkToNeighbor] 0) (hearing linkToNeighbor.destIp)).isSome := by
  decide +kernel

theorem nextHop_exists_neighbor :
    ∃ node, Run step hearsKnown (start [linkToNeighbor] 0) node ∧
      node.table.entryMap.get 0x0a000009 = some (createFwdTableEntry linkToNeighbor.destIp 2 0) ∧
      ∀ order destIP, node.table.route order destIP ≠ .missing := by
  refine ⟨_, Run.ofSome hears_neighbor, by decide +kernel, ?_⟩
  exact (nextHop_exists (by decide +kernel) (Run.ofSome hears_neighbor)).2.1

theorem hears_stranger : (exec step anyEvent (start [linkToNeighbor] 0) (hearing 0x0a090909)).isSome := by
  decide +kernel

/-- An announcement from 10.9.9.9, which is no neighbour: its route makes `SendMsgToDestIP`
dereference nil, and a packet on its way there ends the node. -/
theorem nextHop_missing :
    ∃ node, Run step anyEvent (start [linkToNeighbor] 0) node ∧
      node.table.entryMap.get 0x0a000009 = some (createFwdTableEntry 0x0a090909 2 0) ∧
      ¬ node.table.Owns 0x0a000009 ∧ ¬ node.table.IsNeighbor 0x0a090909 ∧
      node.table.route anyOrder 0x0a000009 = .missing ∧
      (node.table.forward (FwdTable.newHeader linkToNeighbor.destIp 0x0a000009 0 []) []).returned = none := by
  refine ⟨_, Run.ofSome hears_stranger, ?_, ?_, ?_, ?_, ?_⟩
  · decide +kernel
  · decide +kernel
  · decide +kernel
  · decide +kernel
  · decide +kernel

end

end Node

end IpTcp.Network
