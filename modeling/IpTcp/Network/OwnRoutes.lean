import IpTcp.Network.NextHop

/-! The routes of a node to its own addresses. They stand in the table among those that were
learned: `RIPHandler` leaves them alone because nothing is cheaper than zero, but `PeriodicExpiry`
deletes them once the time they were given is over, since nothing makes them young again, and
`SetInterfaceStateSafe` deletes by address, whoever else has that address. -/

set_option autoImplicit false

namespace IpTcp.Network

open Lib Lib.Bytes Rip
open Tcp (Netstack)

namespace FwdTable

/-- Every interface that is up has the route to its own address. -/
def OwnRoutes (ft : FwdTable) : Prop :=
  ∀ k inter, ft.ipInterfaces.get k = some inter → inter.state = .up →
    ∃ entry, ft.entryMap.get inter.ip = some entry ∧ entry.cost = 0 ∧ entry.next = inter.ip

/-- Interfaces are taken down that share no address with one that stays up. -/
def SparesAddresses (ft : FwdTable) (id : Int) : Prop :=
  ∀ k inter, ft.ipInterfaces.get k = some inter → inter.state = .up ∧ inter.id ≠ id →
    ∀ k' other, ft.ipInterfaces.get k' = some other → ¬ Removes id inter.ip other
  deriving Decidable

def SparesYoung (ft : FwdTable) (now : Time) : Prop :=
  ∀ k inter, ft.ipInterfaces.get k = some inter → inter.state = .up →
    ∀ entry ∈ ft.entryMap.get inter.ip, now - entry.lastUpdatedTime ≤ entryStaleAfter
  deriving Decidable

def SparesOwn (ft : FwdTable) : NodeEvent → Prop
  | .setInterfaceStateSafe id .down _ => ft.SparesAddresses id
  | .periodicExpiry now => ft.SparesYoung now
  | _ => True

instance (ft : FwdTable) (event : NodeEvent) : Decidable (ft.SparesOwn event) :=
  match event with
  | .setInterfaceStateSafe id .down _ => inferInstanceAs (Decidable (ft.SparesAddresses id))
  | .periodicExpiry now => inferInstanceAs (Decidable (ft.SparesYoung now))
  | .setInterfaceStateSafe _ .up _ | .registerHandlerSafe .. | .sendMsgToDestIP .. | .handlePacketSafe ..
  | .ripHandler .. | .periodicUpdate | .ripInit => .isTrue trivial

theorem OwnRoutes.initSafe (links : List IpInterface) (now : Time) : (initSafe links now).OwnRoutes := by
  intro k inter present _
  obtain ⟨listed, _, own⟩ := initSafe_get links now
  obtain ⟨member, _⟩ := listed k inter present
  exact ⟨_, (own inter member).1, rfl, rfl⟩

theorem verdict_own {entryMap : GoMap IntIP FwdTableEntry} {srcIP : IntIP} {announced : RipEntry}
    {entry : FwdTableEntry} (present : entryMap.get announced.destIP = some entry)
    (free : entry.cost = 0) (other : entry.next ≠ srcIP) : verdict entryMap srcIP announced = .ignore := by
  -- Nothing is taken about an own address from another one: no cost is below zero, and a cost that is not
  -- below is taken from the next hop only.
  unfold verdict
  dsimp only
  split
  · rfl
  · simp [present, free, other, Ne.symm other]

theorem OwnRoutes.learn {ft : FwdTable} {srcIP : IntIP} {now : Time} {entries : List RipEntry}
    (own : ft.OwnRoutes) (foreign : ¬ ft.Owns srcIP) : (ft.learn srcIP now entries).OwnRoutes := by
  intro k inter present up
  obtain ⟨entry, route, free, next⟩ := own k inter present up
  have other : entry.next ≠ srcIP := by
    intro same
    exact foreign ⟨k, inter, present, next.symm.trans same⟩
  refine ⟨entry, ?_, free, next⟩
  rw [FwdTable.learn, processEntries_ignored, route]
  intro announced _ about
  exact verdict_own (about ▸ route) free other

theorem OwnRoutes.takesUp {ft : FwdTable} (own : ft.OwnRoutes) (id : Int) (now : Time) (order : Order) :
    (ft.setInterfaceStateSafe id .up now order).OwnRoutes := by
  intro k inter present up
  rw [setInterfaceStateSafe_interfaces] at present
  obtain ⟨before, was, rfl⟩ := Option.map_eq_some_iff.mp present
  have address := (wired_ip (changed_wired id .up before)).1
  rw [address, setInterfaceStateSafe_takesUp]
  split
  · exact ⟨_, rfl, rfl, rfl⟩
  · rename_i untouched
    -- an interface that gets no new route was up before
    have already : before.state = .up := by
      by_contra down
      by_cases matching : before.id = id
      · exact untouched ⟨k, before, was, ⟨matching, down⟩, rfl⟩
      · rw [changed, if_neg matching] at up
        exact down up
    exact own k before was already

theorem OwnRoutes.takesDown_iff {ft : FwdTable} (own : ft.OwnRoutes) (id : Int) (now : Time)
    (order : Order) :
    (ft.setInterfaceStateSafe id .down now order).OwnRoutes ↔ ft.SparesAddresses id := by
  constructor
  · rintro still k inter present ⟨up, stays⟩ k' other present' removes
    -- the interface is up as before, and its route is gone
    have later : (ft.setInterfaceStateSafe id .down now order).ipInterfaces.get k = some inter := by
      rw [setInterfaceStateSafe_interfaces, present, Option.map_some, changed, if_neg stays]
    obtain ⟨entry, route, _⟩ := still k inter later up
    rw [setInterfaceStateSafe_takesDown, if_pos ⟨k', other, present', removes⟩] at route
    cases route
  · intro spares k inter present up
    rw [setInterfaceStateSafe_interfaces] at present
    obtain ⟨before, was, rfl⟩ := Option.map_eq_some_iff.mp present
    have stays : before.id ≠ id := by
      intro matching
      rw [changed, if_pos matching] at up
      cases up
    rw [changed, if_neg stays] at up ⊢
    rw [setInterfaceStateSafe_takesDown, if_neg]
    · exact own k before was up
    · rintro ⟨k', other, present', removes⟩
      exact spares k before was ⟨up, stays⟩ k' other present' removes

theorem OwnRoutes.expiry_iff {ft : FwdTable} (own : ft.OwnRoutes) (now : Time) (order : Order) :
    (Rip.periodicExpiry ft order now).OwnRoutes ↔ ft.SparesYoung now := by
  constructor
  · intro still k inter present up entry route
    obtain ⟨left, found, _⟩ := still k inter present up
    rw [periodicExpiry_get] at found
    obtain ⟨same, kept⟩ := Option.filter_eq_some_iff.mp found
    cases same.symm.trans route
    simp only [stale, Bool.not_or, Bool.and_eq_true, Bool.not_eq_true', decide_eq_false_iff_not] at kept
    exact Int.not_lt.mp kept.1
  · intro young k inter present up
    obtain ⟨entry, route, free, next⟩ := own k inter present up
    refine ⟨entry, ?_, free, next⟩
    rw [periodicExpiry_get, route, Option.filter_some_pos]
    have recent : ¬ now - entry.lastUpdatedTime > entryStaleAfter :=
      Int.not_lt.mpr (young k inter present up entry route)
    have finite : ¬ entry.cost ≥ infinity := by
      rw [free]
      decide
    simp [stale, recent, finite]

section
variable [Netstack] [Ipv4]

def HearsOthers (ft : FwdTable) (order : Order) (event : NodeEvent) : Prop :=
  ∀ message ∈ ft.heard order event, message.2.command ≠ commandRequest → ¬ ft.Owns message.1
  deriving Decidable

/-- An event keeps the own routes exactly if it spares them. -/
theorem OwnRoutes.perform_iff {ft : FwdTable} {order : Order} {event : NodeEvent} (own : ft.OwnRoutes)
    (others : ft.HearsOthers order event) :
    (ft.perform order event).table.OwnRoutes ↔ ft.SparesOwn event := by
  have change := ft.perform_change order event
  cases event with
  | setInterfaceStateSafe id newState now =>
      cases newState with
      | down => exact own.takesDown_iff id now order
      | up => exact iff_of_true (own.takesUp id now order) trivial
  | periodicExpiry now => exact own.expiry_iff now order
  | _ =>
      refine iff_of_true ?_ trivial
      generalize (ft.perform order _).table = after at change ⊢
      cases change with
      | same | register => exact own
      | states id newState now is => cases is
      | expire now is => cases is
      | learn srcIP now ripPacket hears response =>
          exact own.learn (others (srcIP, ripPacket) hears response)

end

end FwdTable

namespace Node

section
variable [Netstack] [Ipv4]

def hearsOthers (node : Node) (event : NodeEvent × Order) : Prop := node.table.HearsOthers event.2 event.1
  deriving Decidable

def sparesOwn (node : Node) (event : NodeEvent × Order) : Prop :=
  node.hearsOthers event ∧ node.table.SparesOwn event.1
  deriving Decidable

/-- From `InitSafe` on, with responses from other nodes only, and with events that spare the own
routes: every interface that is up has its own route. The first event that does not spare them
breaks it. -/
theorem own_routes_persist {links : List IpInterface} {now : Time} {node : Node}
    (run : Run step sparesOwn (start links now) node) :
    (∀ k inter, node.table.ipInterfaces.get k = some inter → inter.state = .up →
      ∃ entry, node.table.entryMap.get inter.ip = some entry ∧ entry.cost = 0 ∧ entry.next = inter.ip) ∧
    ∀ event after, node.hearsOthers event → node.step event = some after →
      (after.table.OwnRoutes ↔ node.table.SparesOwn event.1) := by
  have own : node.table.OwnRoutes := by
    refine run.preserves (fun node => node.table.OwnRoutes) ?_ (FwdTable.OwnRoutes.initSafe links now)
    intro before event after own spares moves
    obtain ⟨_, table, _⟩ := step_table moves
    rw [table]
    exact (own.perform_iff spares.1).mpr spares.2
  refine ⟨own, fun event after others moves => ?_⟩
  obtain ⟨_, table, _⟩ := step_table moves
  rw [table]
  exact own.perform_iff others

end

section
attribute [local instance] Netstack.standard Ipv4.linux

def expiryAfter (seconds : Int) : List (NodeEvent × Order) :=
  [(.periodicExpiry (seconds * second), anyOrder)]

theorem expiry_spares :
    (exec step sparesOwn (start [linkToNeighbor] 0) (expiryAfter (48 * 3600 + 12))).isSome := by
  decide +kernel

theorem own_routes_persist_expiry :
    ∃ node, Run step sparesOwn (start [linkToNeighbor] 0) node ∧
      node.table.ipInterfaces.get linkToNeighbor.destIp = some linkToNeighbor ∧
      ∃ entry, node.table.entryMap.get linkToNeighbor.ip = some entry ∧ entry.cost = 0 ∧
        entry.next = linkToNeighbor.ip := by
  have run := Run.ofSome expiry_spares
  have present : ((exec step sparesOwn (start [linkToNeighbor] 0)
      (expiryAfter (48 * 3600 + 12))).get expiry_spares).table.ipInterfaces.get linkToNeighbor.destIp =
        some linkToNeighbor := by
    decide +kernel
  exact ⟨_, run, present, (own_routes_persist run).1 linkToNeighbor.destIp linkToNeighbor present rfl⟩

theorem expiry_happens :
    (exec step anyEvent (start [linkToNeighbor] 0) (expiryAfter (48 * 3600 + 13))).isSome := by
  decide +kernel

/-- 48 hours and 13 seconds after `InitSafe` the interface is up and its route is gone. -/
theorem own_route_expires :
    ∃ node, Run step anyEvent (start [linkToNeighbor] 0) node ∧
      node.table.ipInterfaces.get linkToNeighbor.destIp = some linkToNeighbor ∧
      linkToNeighbor.state = .up ∧ node.table.entryMap.get linkToNeighbor.ip = none := by
  refine ⟨_, Run.ofSome expiry_happens, ?_, rfl, ?_⟩ <;> decide +kernel

end

end Node

end IpTcp.Network
