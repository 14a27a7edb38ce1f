import IpTcp.Rip.Delivery

/-! Routes are walks. Whatever is lost, duplicated, delayed or reordered, and however old a message
is, what it announces is a walk of just that many links from its sender, because links do not come
and go; so every route of a table is a walk of the length of its cost. -/

set_option autoImplicit false

namespace IpTcp.Rip

open Lib Lib.Bytes Network
open Tcp (Netstack)

namespace Topology

variable {Host : Type}

/-- A route of a node: to an address of its own, or over a walk of exactly its cost that begins with
the link to the next hop. -/
def RouteSound (topology : Topology Host) (host : Host) (d : IntIP) (entry : FwdTableEntry) : Prop :=
  (entry.cost = 0 ∧ entry.next = d ∧ topology.Owns host d) ∨
  (1 ≤ entry.cost.toNat ∧ entry.cost.toNat ≤ 15 ∧ topology.Neighbor host entry.next ∧
    ∃ owner, topology.Owns owner d ∧
      Walk topology.Adjacent (entry.cost.toNat - 1) (topology.far host entry.next) owner)

/-- What the entries of a message from a node say, unless they are at infinity: a walk of exactly
their cost. -/
def Announces (topology : Topology Host) (host : Host) (p : RipPacket) : Prop :=
  ∀ entry ∈ p.entries, entry.cost = infinity ∨
    ∃ owner, topology.Owns owner entry.destIP ∧ Walk topology.Adjacent entry.cost.toNat host owner

variable {topology : Topology Host}

theorem RouteSound.walk {host : Host} {d : IntIP} {entry : FwdTableEntry}
    (sound : topology.RouteSound host d entry) :
    ∃ owner, topology.Owns owner d ∧ Walk topology.Adjacent entry.cost.toNat host owner := by
  rcases sound with ⟨zero, _, own⟩ | ⟨least, _, neighbor, owner, owns, walk⟩
  · rw [zero]
    exact ⟨host, own, .here host⟩
  · refine ⟨owner, owns, ?_⟩
    obtain ⟨length, is⟩ := Nat.exists_eq_add_of_le' least
    rw [is] at walk ⊢
    exact .first (adjacent_far neighbor) walk

theorem RouteSound.cost_le {host : Host} {d : IntIP} {entry : FwdTableEntry}
    (sound : topology.RouteSound host d entry) : entry.cost.toNat ≤ 15 := by
  rcases sound with ⟨zero, _⟩ | ⟨_, most, _⟩
  · rw [zero]
    decide
  · exact most

theorem RouteSound.finite {host : Host} {d : IntIP} {entry : FwdTableEntry}
    (sound : topology.RouteSound host d entry) : entry.cost < infinity :=
  UInt32.lt_iff_toNat_lt.mpr (Nat.lt_succ_of_le sound.cost_le)

theorem RouteSound.selfEntry {host : Host} {d : IntIP} (own : topology.Owns host d) (now : Time) :
    topology.RouteSound host d (FwdTable.selfEntry d now) :=
  Or.inl ⟨rfl, rfl, own⟩

section
variable {host : Host} {srcIP : IntIP} {p : RipPacket} {entry : RipEntry}

theorem Announces.walk (announces : topology.Announces host p) (member : entry ∈ p.entries)
    (small : entry.cost ≤ infinity) (finite : entry.cost + 1 < infinity) :
    entry.cost.toNat + 1 ≤ 15 ∧
      ∃ owner, topology.Owns owner entry.destIP ∧ Walk topology.Adjacent entry.cost.toNat host owner := by
  have less : (entry.cost + 1).toNat < 16 := UInt32.lt_iff_toNat_lt.mp finite
  rw [toNat_succ small] at less
  refine ⟨by omega, ?_⟩
  rcases announces entry member with poisoned | walk
  · -- an entry at infinity is never taken
    have sixteen : entry.cost.toNat = 16 := congrArg UInt32.toNat poisoned
    omega
  · exact walk

theorem RouteSound.learned (neighbor : topology.Neighbor host srcIP)
    (announces : topology.Announces (topology.far host srcIP) p) (member : entry ∈ p.entries)
    (small : entry.cost ≤ infinity) (finite : entry.cost + 1 < infinity) (now : Time) :
    topology.RouteSound host entry.destIP (createFwdTableEntry srcIP (entry.cost + 1) now) := by
  obtain ⟨most, owner, owns, walk⟩ := announces.walk member small finite
  refine Or.inr ⟨?_, ?_, neighbor, owner, owns, ?_⟩
  · show 1 ≤ (entry.cost + 1).toNat
    rw [toNat_succ small]
    omega
  · show (entry.cost + 1).toNat ≤ 15
    rw [toNat_succ small]
    exact most
  · show Walk topology.Adjacent ((entry.cost + 1).toNat - 1) (topology.far host srcIP) owner
    rw [toNat_succ small, Nat.add_sub_cancel]
    exact walk

end

/-! ## What is sent -/

section
variable {host : Host} {ft : FwdTable} {order : Order}

theorem response_announces (routes : ∀ d entry, ft.entryMap.get d = some entry → topology.RouteSound host d entry)
    (neighborIP : IntIP) : topology.Announces host (response ft order neighborIP) := by
  intro entry member
  obtain ⟨⟨d, route⟩, listed, rfl⟩ := List.mem_map.mp member
  show (if route.next = neighborIP then infinity else route.cost) = infinity ∨
    ∃ owner, topology.Owns owner d ∧
      Walk topology.Adjacent (if route.next = neighborIP then infinity else route.cost).toNat host owner
  split
  · exact Or.inl rfl
  · exact Or.inr (routes d route ((GoMap.mem_range _ _ _ _).mp listed)).walk

theorem triggeredUpdate_announces {srcIP : IntIP} {heard : RipPacket} (neighbor : topology.Neighbor host srcIP)
    (announces : topology.Announces (topology.far host srcIP) heard)
    (small : ∀ entry ∈ heard.entries, entry.cost ≤ infinity) (now : Time) :
    topology.Announces host (ft.triggeredUpdate now srcIP heard.entries) := by
  -- A triggered update passes on what the response said, with the link to its sender.
  intro updated member
  obtain ⟨entry, listed, rfl, finite⟩ :=
    (processEntries_updated srcIP now ft.entryMap heard.entries).2 updated member
  obtain ⟨_, owner, owns, walk⟩ := announces.walk listed (small entry listed) finite
  refine Or.inr ⟨owner, owns, ?_⟩
  show Walk topology.Adjacent (entry.cost + 1).toNat host owner
  rw [toNat_succ (small entry listed)]
  exact .first (adjacent_far neighbor) walk

variable [Netstack] [Ipv4]

theorem messages_announce (wired : topology.Wired host ft)
    (routes : ∀ d entry, ft.entryMap.get d = some entry → topology.RouteSound host d entry)
    {event : NodeEvent} (hears : ∀ srcIP heard, ft.heard order event = some (srcIP, heard) →
      topology.Neighbor host srcIP ∧ topology.Announces (topology.far host srcIP) heard) :
    ∀ message ∈ ft.messages order event,
      topology.Neighbor host message.1 ∧ topology.Announces host message.2 := by
  intro message emitted
  cases FwdTable.emits_of_mem emitted with
  | update k inter _ present up =>
      obtain ⟨link, member, _, destIp, _⟩ := wired.link present
      exact ⟨⟨link, member, destIp⟩, response_announces routes inter.destIp⟩
  | request k inter _ present =>
      refine ⟨wired.neighbor.mp ⟨inter, present⟩, ?_⟩
      intro entry none
      cases none
  | answer srcIP heard _ heardIs answers =>
      obtain ⟨neighbor, announces⟩ := hears srcIP heard heardIs
      obtain ⟨rawMsg, read⟩ := FwdTable.heard_decoded heardIs
      cases answers with
      | reply request => exact ⟨neighbor, response_announces routes srcIP⟩
      | trigger now destIP response listed =>
          obtain ⟨_, inter, present, _⟩ := FwdTable.mem_triggeredTo.mp listed
          refine ⟨wired.neighbor.mp ⟨inter, present⟩, ?_⟩
          exact triggeredUpdate_announces neighbor announces (unmarshal_some read).2.1 now

/-- The routes after an event. -/
theorem routes_change {event : NodeEvent} {after : FwdTable} (wired : topology.Wired host ft)
    (routes : ∀ d entry, ft.entryMap.get d = some entry → topology.RouteSound host d entry)
    (hears : ∀ srcIP heard, ft.heard order event = some (srcIP, heard) →
      topology.Neighbor host srcIP ∧ topology.Announces (topology.far host srcIP) heard)
    (change : ft.Change order event after) :
    ∀ d entry, after.entryMap.get d = some entry → topology.RouteSound host d entry := by
  intro d entry present
  rcases change.route_cases present with
    old | ⟨srcIP, now, heard, heardIs, taken, member, rfl, rfl, finite⟩ | ⟨now, rfl, own⟩
  · exact routes d entry old
  · obtain ⟨neighbor, announces⟩ := hears srcIP heard heardIs
    obtain ⟨rawMsg, read⟩ := FwdTable.heard_decoded heardIs
    exact .learned neighbor announces member ((unmarshal_some read).2.1 taken member) finite now
  · exact .selfEntry (wired.owns own) now

end

/-! ## The network -/

structure Sound (topology : Topology Host) (net : Net Host) : Prop where
  wired : ∀ host, topology.Wired host (net.tables host)
  routes : ∀ host d entry, (net.tables host).entryMap.get d = some entry → topology.RouteSound host d entry
  transit : ∀ datagram ∈ net.transit, topology.Carries topology.Announces datagram

theorem Sound.start (topology : Topology Host) (now : Host → Time) : topology.Sound (topology.start now) := by
  constructor
  · intro host
    exact ⟨now host, .refl _⟩
  · intro host d entry present
    obtain ⟨rfl, link, member, rfl⟩ := (FwdTable.initSafe_get (topology.links host) (now host)).2.1 d entry present
    exact .selfEntry ⟨link, member, rfl⟩ (now host)
  · intro datagram none
    cases none

theorem Announces.cut {host : Host} {p read : RipPacket} (announces : topology.Announces host p)
    (cut : read.entries <+: p.entries) : topology.Announces host read :=
  fun entry member => announces entry (cut.subset member)

theorem Sound.fewer {net : Net Host} (sound : topology.Sound net) {transit : List (Host × List Byte)}
    (among : ∀ datagram ∈ transit, datagram ∈ net.transit) :
    topology.Sound { net with transit := transit } :=
  ⟨sound.wired, sound.routes, fun datagram member => sound.transit datagram (among datagram member)⟩

section
variable [DecidableEq Host] [Netstack] [Ipv4] {net : Net Host}

theorem Sound.perform (unique : topology.UniqueAddresses) (sound : topology.Sound net) {host : Host}
    {order : Order} {event : NodeEvent}
    (automatic : ∀ destIP protocol msg, event ≠ .sendMsgToDestIP destIP protocol msg)
    (arrives : ∀ now buffer, event = .handlePacketSafe now buffer →
      ∀ hdr payload, (net.tables host).fate order buffer ≠ .transit hdr payload)
    (hears : ∀ srcIP heard, (net.tables host).heard order event = some (srcIP, heard) →
      topology.Neighbor host srcIP ∧ topology.Announces (topology.far host srcIP) heard) :
    topology.Sound (topology.perform net host order event) := by
  have change := (net.tables host).perform_change order event
  constructor
  · intro other
    by_cases same : other = host
    · subst same
      simp only [Topology.perform, Function.update_self]
      exact (sound.wired other).change change
    · simp only [Topology.perform, Function.update_of_ne same]
      exact sound.wired other
  · intro other
    by_cases same : other = host
    · subst same
      simp only [Topology.perform, Function.update_self]
      exact routes_change (sound.wired other) (sound.routes other) hears change
    · simp only [Topology.perform, Function.update_of_ne same]
      exact sound.routes other
  · exact perform_carries unique (sound.wired host) sound.transit automatic arrives
      (messages_announce (sound.wired host) (sound.routes host) hears)

theorem Sound.step (unique : topology.UniqueAddresses) (sound : topology.Sound net) {event : NetEvent Host}
    {after : Net Host} (moves : topology.step net event = some after) : topology.Sound after := by
  cases event with
  | task host order task =>
      simp only [Topology.step] at moves
      split at moves
      · cases moves
        refine sound.perform unique ?_ ?_ ?_
        · cases task <;> simp [Task.event]
        · cases task <;> simp [Task.event]
        · cases task <;> simp [Task.event, FwdTable.heard]
      · cases moves
  | lose index =>
      obtain ⟨_, _, rfl⟩ := Option.map_eq_some_iff.mp moves
      exact sound.fewer fun datagram member => List.mem_of_mem_eraseIdx member
  | duplicate index =>
      obtain ⟨copy, found, rfl⟩ := Option.map_eq_some_iff.mp moves
      refine sound.fewer fun datagram member => ?_
      rcases List.mem_append.mp member with earlier | last
      · exact earlier
      · rw [List.mem_singleton.mp last]
        exact List.mem_of_getElem? found
  | deliver index order now =>
      obtain ⟨⟨host, packet⟩, found, received⟩ := Option.map_eq_some_iff.mp moves
      have carries := sound.transit (host, packet) (List.mem_of_getElem? found)
      have rest : topology.Sound { net with transit := net.transit.eraseIdx index } :=
        sound.fewer fun datagram member => List.mem_of_mem_eraseIdx member
      dsimp only at received
      split at received
      · subst received
        refine rest.perform unique (by simp) ?_ ?_
        · -- it is for an address of the node, so it is not forwarded
          rintro _ _ ⟨⟩ hdr payload
          exact carries.not_transit unique (sound.wired host)
        · intro srcIP heard hears
          obtain ⟨neighbor, p, announces, _, cut⟩ := carries.heard hears
          exact ⟨neighbor, announces.cut cut⟩
      · subst received
        exact rest

theorem reachable_sound (unique : topology.UniqueAddresses) {now : Host → Time}
    (run : Run topology.step anyEvent (topology.start now) net) : topology.Sound net := by
  refine Run.preserves topology.Sound ?_ run (.start topology now)
  intro before event after sound _ moves
  exact sound.step unique moves

/-- In every run from `InitSafe` at all nodes, every route of every table is to an address of the
node itself at cost 0, or has a cost from 1 to 15, a neighbour as its next hop, and a walk of exactly
its cost that begins with the link there; so its cost is not below the distance. -/
theorem routes_sound (unique : topology.UniqueAddresses) {now : Host → Time}
    (run : Run topology.step anyEvent (topology.start now) net) :
    ∀ host d entry, (net.tables host).entryMap.get d = some entry →
      ((entry.cost = 0 ∧ entry.next = d ∧ topology.Owns host d) ∨
        (1 ≤ entry.cost.toNat ∧ entry.cost.toNat ≤ 15 ∧ topology.Neighbor host entry.next ∧
          ∃ owner, topology.Owns owner d ∧
            Walk topology.Adjacent (entry.cost.toNat - 1) (topology.far host entry.next) owner)) ∧
      ∃ owner distance, topology.Owns owner d ∧ Distance topology.Adjacent distance host owner ∧
        distance ≤ entry.cost.toNat := by
  intro host d entry present
  have route := (reachable_sound unique run).routes host d entry present
  refine ⟨route, ?_⟩
  obtain ⟨owner, owns, walk⟩ := route.walk
  obtain ⟨distance, below, shortest⟩ := walk.distance_le
  exact ⟨owner, distance, owns, shortest, below⟩

end

section
attribute [local instance] Netstack.standard Ipv4.linux

def firstRoutes : List (NetEvent LoopHost) :=
  -- A and B start RIP, B answers A, and A takes its routes.
  [.task .a Node.anyOrder .ripInit, .task .b Node.anyOrder .ripInit, .deliver 1 Node.anyOrder 0,
    .deliver 3 Node.anyOrder 0]

theorem firstRoutes_happen : (exec abcLoop.step anyEvent (abcLoop.start fun _ => 0) firstRoutes).isSome := by
  decide +kernel

theorem routes_sound_loop :
    ∃ net, Run abcLoop.step anyEvent (abcLoop.start fun _ => 0) net ∧
      (net.tables .a).entryMap.get 0xc0a80003 = some (createFwdTableEntry 0xc0a80002 1 0) ∧
      ∃ owner distance, abcLoop.Owns owner 0xc0a80003 ∧
        Distance abcLoop.Adjacent distance LoopHost.a owner ∧ distance ≤ 1 := by
  have learned : (((exec abcLoop.step anyEvent (abcLoop.start fun _ => 0) firstRoutes).get
      firstRoutes_happen).tables .a).entryMap.get 0xc0a80003 = some (createFwdTableEntry 0xc0a80002 1 0) := by
    decide +kernel
  refine ⟨_, Run.ofSome firstRoutes_happen, learned, ?_⟩
  exact (routes_sound abcLoop_unique (Run.ofSome firstRoutes_happen) .a 0xc0a80003 _ learned).2

end

end Topology

end IpTcp.Rip
