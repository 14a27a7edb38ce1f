import IpTcp.Network.NextHop

/-! Interfaces that are down. `SetInterfaceStateSafe` deletes two routes by their destination and
not those that go through the interface, `RIPHandler` takes routes from a neighbour whose interface
is down, and `SendMsgToDestIP` does not look at the state of a neighbour's interface. Where an
operation does none of this to an interface that is down, nothing is routed or sent there. -/

set_option autoImplicit false

namespace IpTcp.Network

open Lib Lib.Bytes Rip
open Tcp (Netstack)

namespace FwdTable

def Down (ft : FwdTable) (ip : IntIP) : Prop :=
  ∃ k inter, ft.ipInterfaces.get k = some inter ∧ inter.destIp = ip ∧ inter.state = .down
  deriving Decidable

def Isolated (ft : FwdTable) : Prop := ∀ d entry, ft.entryMap.get d = some entry → ¬ ft.Down entry.next

theorem Isolated.initSafe {links : List IpInterface} {now : Time}
    (up : ∀ link ∈ links, ∀ other ∈ links, other.destIp = link.ip → other.state = .up) :
    (initSafe links now).Isolated := by
  rintro d entry present ⟨k, inter, listed, far, down⟩
  obtain ⟨rfl, link, member, rfl⟩ := (initSafe_get links now).2.1 d entry present
  have running := up link member inter ((initSafe_get links now).1 k inter listed).1 far
  rw [running] at down
  cases down

/-! ## What the operations have to do -/

def DeletesRoutes (ft : FwdTable) (id : Int) : Prop :=
  ∀ d entry, ft.entryMap.get d = some entry →
    (∃ k inter, ft.ipInterfaces.get k = some inter ∧ Switches id .down inter ∧ entry.next = inter.destIp) →
    ∃ k inter, ft.ipInterfaces.get k = some inter ∧ Switches id .down inter ∧
      (d = inter.destIp ∨ d = inter.ip)
  deriving Decidable

/-- No address that gets its own route again is at the other end of an interface that stays down. -/
def RestoresOwn (ft : FwdTable) (id : Int) : Prop :=
  ∀ k inter, ft.ipInterfaces.get k = some inter → Switches id .up inter →
    ∀ k' other, ft.ipInterfaces.get k' = some other → other.destIp = inter.ip → other.state = .down →
      other.id = id
  deriving Decidable

/-- The response does not come through an interface that is down, or nothing in it is taken. -/
def HearsUp (ft : FwdTable) (srcIP : IntIP) (entries : List RipEntry) : Prop :=
  ft.Down srcIP → ∀ entry ∈ entries, verdict ft.entryMap srcIP entry = .ignore
  deriving Decidable

def KeepsIsolated (ft : FwdTable) : NodeEvent → Prop
  | .setInterfaceStateSafe id .down _ => ft.DeletesRoutes id
  | .setInterfaceStateSafe id .up _ => ft.RestoresOwn id
  | _ => True

instance (ft : FwdTable) (event : NodeEvent) : Decidable (ft.KeepsIsolated event) :=
  match event with
  | .setInterfaceStateSafe id .down _ => inferInstanceAs (Decidable (ft.DeletesRoutes id))
  | .setInterfaceStateSafe id .up _ => inferInstanceAs (Decidable (ft.RestoresOwn id))
  | .registerHandlerSafe .. | .sendMsgToDestIP .. | .handlePacketSafe .. | .ripHandler ..
  | .periodicExpiry _ | .periodicUpdate | .ripInit => .isTrue trivial

theorem Isolated.learn {ft : FwdTable} {srcIP : IntIP} {now : Time} {entries : List RipEntry}
    (isolated : ft.Isolated) (hears : ft.HearsUp srcIP entries) : (ft.learn srcIP now entries).Isolated := by
  intro d entry present down
  change (processEntries srcIP now ft.entryMap entries).1.get d = some entry at present
  by_cases through : ft.Down srcIP
  · rw [processEntries_ignored fun other member _ => hears through other member] at present
    exact isolated d entry present down
  · rcases processEntries_get present with old | ⟨_, _, _, rfl, _⟩
    · exact isolated d entry old down
    · exact through down

theorem setInterfaceStateSafe_down {ft : FwdTable} {id : Int} {newState : InterfaceState} {now : Time}
    {order : Order} {ip : IntIP} (down : (ft.setInterfaceStateSafe id newState now order).Down ip) :
    ∃ k inter, ft.ipInterfaces.get k = some inter ∧ inter.destIp = ip ∧
      (inter.id = id ∧ newState = .down ∨ inter.id ≠ id ∧ inter.state = .down) := by
  obtain ⟨k, later, present, rfl, state⟩ := down
  rw [setInterfaceStateSafe_interfaces] at present
  obtain ⟨inter, found, rfl⟩ := Option.map_eq_some_iff.mp present
  refine ⟨k, inter, found, ?_, ?_⟩
  · unfold changed
    split <;> rfl
  · unfold changed at state
    by_cases matching : inter.id = id
    · rw [if_pos matching] at state
      exact Or.inl ⟨matching, state⟩
    · rw [if_neg matching] at state
      exact Or.inr ⟨matching, state⟩

theorem Isolated.setDown {ft : FwdTable} {id : Int} {now : Time} {order : Order} (isolated : ft.Isolated)
    (deletes : ft.DeletesRoutes id) : (ft.setInterfaceStateSafe id .down now order).Isolated := by
  intro d entry present down
  obtain ⟨k, inter, listed, far, state⟩ := setInterfaceStateSafe_down down
  rcases setInterfaceStateSafe_get present with ⟨old, kept⟩ | ⟨up, _⟩
  · have before : inter.state = .up := by
      cases is : inter.state with
      | up => rfl
      | down => exact absurd ⟨k, inter, listed, far, is⟩ (isolated d entry old)
    rcases state with ⟨matching, _⟩ | ⟨_, already⟩
    · -- the route went through an interface that was up until now
      have switches : Switches id .down inter := ⟨matching, by simp [before]⟩
      obtain ⟨k', other, present', switches', deleted⟩ := deletes d entry old ⟨k, inter, listed, switches, far.symm⟩
      have spared := kept rfl k' other present' switches'
      rcases deleted with equal | equal
      · exact spared.1 equal
      · exact spared.2 equal
    · rw [before] at already
      cases already
  · cases up

theorem Isolated.setUp {ft : FwdTable} {id : Int} {now : Time} {order : Order} (isolated : ft.Isolated)
    (restores : ft.RestoresOwn id) : (ft.setInterfaceStateSafe id .up now order).Isolated := by
  intro d entry present down
  obtain ⟨k, inter, listed, far, state⟩ := setInterfaceStateSafe_down down
  rcases state with ⟨_, absurdState⟩ | ⟨other, still⟩
  · cases absurdState
  · rcases setInterfaceStateSafe_get present with ⟨old, _⟩ | ⟨_, k', raised, present', switches, own, rfl⟩
    · exact isolated d entry old ⟨k, inter, listed, far, still⟩
    · -- the entry is the node's own, so its next hop is the address itself
      have near : inter.destIp = raised.ip := far.trans own
      exact other (restores k' raised present' switches k inter listed near still)

theorem Isolated.up {ft : FwdTable} (isolated : ft.Isolated) (keyed : ft.Keyed) {d : IntIP}
    {entry : FwdTableEntry} {inter : IpInterface} (present : ft.entryMap.get d = some entry)
    (listed : ft.ipInterfaces.get entry.next = some inter) : inter.state = .up := by
  cases state : inter.state with
  | up => rfl
  | down => exact absurd ⟨entry.next, inter, listed, keyed _ _ listed, state⟩ (isolated d entry present)

section
variable [Netstack] [Ipv4]

structure Considerate (ft : FwdTable) (order : Order) (event : NodeEvent) : Prop where
  states : ft.KeepsIsolated event
  hears : ∀ message ∈ ft.heard order event, message.2.command ≠ commandRequest →
    ft.HearsUp message.1 message.2.entries
  /-- No message is for the neighbour at an interface that is down. -/
  calls : ∀ call ∈ ft.calls order event, ft.Owns call.destIP ∨
    ∀ inter ∈ ft.ipInterfaces.get call.destIP, inter.state = .up

instance (ft : FwdTable) (order : Order) (event : NodeEvent) : Decidable (ft.Considerate order event) :=
  decidable_of_iff
    (ft.KeepsIsolated event ∧
      (∀ message ∈ ft.heard order event, message.2.command ≠ commandRequest →
        ft.HearsUp message.1 message.2.entries) ∧
      ∀ call ∈ ft.calls order event, ft.Owns call.destIP ∨
        ∀ inter ∈ ft.ipInterfaces.get call.destIP, inter.state = .up)
    ⟨fun ⟨states, hears, calls⟩ => ⟨states, hears, calls⟩, fun kept => ⟨kept.states, kept.hears, kept.calls⟩⟩

theorem Isolated.change {ft after : FwdTable} {order : Order} {event : NodeEvent} (isolated : ft.Isolated)
    (considerate : ft.Considerate order event) (change : ft.Change order event after) : after.Isolated := by
  cases change with
  | same | register => exact isolated
  | learn srcIP now ripPacket hears response =>
      exact isolated.learn (considerate.hears (srcIP, ripPacket) hears response)
  | expire now is =>
      intro d entry present
      rw [periodicExpiry_get] at present
      exact isolated d entry (Option.filter_eq_some_iff.mp present).1
  | states id newState now is =>
      subst is
      cases newState with
      | down => exact isolated.setDown considerate.states
      | up => exact isolated.setUp considerate.states

theorem Change.interfaces_of_call {ft after : FwdTable} {order : Order} {event : NodeEvent}
    (change : ft.Change order event after) {call : SendCall} (made : call ∈ ft.calls order event) :
    after.ipInterfaces = ft.ipInterfaces := by
  cases change with
  | same | register | learn | expire => rfl
  | states id newState now is =>
      subst is
      cases made

theorem Isolated.sent {ft : FwdTable} {order : Order} {event : NodeEvent} (isolated : ft.Isolated)
    (keyed : ft.Keyed) (considerate : ft.Considerate order event) :
    ∀ transmission ∈ (ft.perform order event).sent, ∀ inter ∈ transmission.link, inter.state = .up := by
  intro transmission sent inter onLink
  have change := ft.perform_change order event
  rcases perform_sent sent with ⟨call, made, result⟩ | ⟨now, buffer, hdr, msgBytes, is, transit, forwarded⟩
  · obtain ⟨chosen, _, ways, _⟩ := sendMsgToDestIP_sent result
    rcases ways with ⟨_, local_⟩ | ⟨route, linked⟩
    · rw [local_] at onLink
      cases onLink
    · obtain rfl : chosen = inter := Option.some.inj (linked.symm.trans onLink)
      obtain ⟨foreign, direct | ⟨_, fwdEntry, known, next⟩⟩ := route_link route
      · -- a message to the neighbour itself does not look at the table
        have same := change.interfaces_of_call made
        rw [same] at direct
        rcases considerate.calls call made with own | up
        · exact absurd ((change.sameLinks.owns _).mpr own) foreign
        · exact up chosen direct
      · -- the next hop is that of the table after the event
        exact (isolated.change considerate change).up (change.keyed keyed) known next
  · obtain ⟨nextHopEntry, nextHopLink, _, known, _, _, next, rfl⟩ := forward_sent forwarded
    obtain rfl : nextHopLink = inter := Option.some.inj onLink
    exact isolated.up keyed known next

end

end FwdTable

namespace Node

section
variable [Netstack] [Ipv4]

def considerate (node : Node) (event : NodeEvent × Order) : Prop := node.table.Considerate event.2 event.1
  deriving Decidable

/-- Nothing is routed through an interface that is down, and nothing was sent on one. -/
structure Isolates (node : Node) : Prop where
  keyed : node.table.Keyed
  routes : node.table.Isolated
  sent : ∀ transmission ∈ node.transmitted, ∀ inter ∈ transmission.link, inter.state = .up

theorem Isolates.step {node after : Node} {event : NodeEvent × Order} (isolates : node.Isolates)
    (considerate : node.considerate event) (moves : node.step event = some after) : after.Isolates := by
  obtain ⟨_, table, transmitted⟩ := step_table moves
  have change := node.table.perform_change event.2 event.1
  constructor
  · rw [table]
    exact change.keyed isolates.keyed
  · rw [table]
    exact isolates.routes.change considerate change
  · rw [transmitted]
    intro transmission member
    rcases List.mem_append.mp member with earlier | now
    · exact isolates.sent transmission earlier
    · exact isolates.routes.sent isolates.keyed considerate transmission now

/-- From `InitSafe` on, with operations that are considerate of the interfaces that are down: no
route has the other end of such an interface as its next hop, and every packet went over an
interface that was up. -/
theorem down_isolated {links : List IpInterface} {now : Time}
    (up : ∀ link ∈ links, ∀ other ∈ links, other.destIp = link.ip → other.state = .up)
    {node : Node} (run : Run step considerate (start links now) node) :
    (∀ d entry, node.table.entryMap.get d = some entry → ∀ k inter,
      node.table.ipInterfaces.get k = some inter → inter.state = .down → entry.next ≠ inter.destIp) ∧
    ∀ transmission ∈ node.transmitted, ∀ inter ∈ transmission.link, inter.state ≠ .down := by
  have isolates : node.Isolates := by
    refine Run.preserves Isolates ?_ run ?_
    · intro before event after isolates meets moves
      exact isolates.step meets moves
    · exact ⟨FwdTable.Keyed.initSafe links now, FwdTable.Isolated.initSafe up, by simp [start]⟩
  constructor
  · intro d entry present k inter listed down next
    exact isolates.routes d entry present ⟨k, inter, listed, next.symm, down⟩
  · intro transmission member inter onLink
    rw [isolates.sent transmission member inter onLink]
    simp

end

section
attribute [local instance] Netstack.standard Ipv4.linux

def otherLink : IpInterface where
  id := 1
  state := .up
  destAddr := 0x7f000001
  destUdpPort := 5001
  ip := 0x0a000003
  destIp := 0x0a000004

def takingDown (id : Int) : List (NodeEvent × Order) :=
  -- The neighbour at the first link announces 10.0.0.9, a link is taken down, and a message is sent to
  -- 10.0.0.9.
  [(.registerHandlerSafe ripProtocolNum .rip, anyOrder),
    (.handlePacketSafe 0 (announcement linkToNeighbor.destIp), anyOrder),
    (.setInterfaceStateSafe id .down 0, anyOrder), (.sendMsgToDestIP 0x0a000009 0 [], anyOrder)]

theorem takes_other_down :
    (exec step considerate (start [linkToNeighbor, otherLink] 0) (takingDown otherLink.id)).isSome := by
  decide +kernel

theorem down_isolated_other :
    ∃ node, Run step considerate (start [linkToNeighbor, otherLink] 0) node ∧
      node.table.ipInterfaces.get otherLink.destIp = some { otherLink with state := .down } ∧
      some linkToNeighbor ∈ node.transmitted.map Transmission.link ∧
      ∀ transmission ∈ node.transmitted, ∀ inter ∈ transmission.link, inter.state ≠ .down := by
  refine ⟨_, Run.ofSome takes_other_down, by decide +kernel, by decide +kernel, ?_⟩
  exact (down_isolated (by decide +kernel) (Run.ofSome takes_other_down)).2

theorem takes_link_down :
    (exec step anyEvent (start [linkToNeighbor, otherLink] 0) (takingDown linkToNeighbor.id)).isSome := by
  decide +kernel

/-- The route to 10.0.0.9 outlives the link, and the message is sent on it. -/
theorem down_link_used :
    ∃ node, Run step anyEvent (start [linkToNeighbor, otherLink] 0) node ∧
      node.table.ipInterfaces.get linkToNeighbor.destIp = some { linkToNeighbor with state := .down } ∧
      node.table.entryMap.get 0x0a000009 = some (createFwdTableEntry linkToNeighbor.destIp 2 0) ∧
      some { linkToNeighbor with state := .down } ∈ node.transmitted.map Transmission.link := by
  refine ⟨_, Run.ofSome takes_link_down, ?_, ?_, ?_⟩
  · decide +kernel
  · decide +kernel
  · decide +kernel

end

end Node

end IpTcp.Network
