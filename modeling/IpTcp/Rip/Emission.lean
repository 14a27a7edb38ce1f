import IpTcp.Network.NextHop

/-! Messages of RIP on the way to the decoder of the neighbour, which ends the whole node where it
cannot read one. The costs of a table stay below infinity and a triggered update has no more
entries than the response it is about; a whole table goes into one response however large it is. -/

set_option autoImplicit false

namespace IpTcp.Network

open Lib Lib.Bytes Rip
open Tcp (Netstack)

namespace FwdTable

def FiniteCosts (ft : FwdTable) : Prop := ∀ d entry, ft.entryMap.get d = some entry → entry.cost < infinity

theorem selfEntry_cost (ip : IntIP) (now : Time) : (selfEntry ip now).cost < infinity :=
  show (0 : UInt32) < infinity by decide

theorem FiniteCosts.initSafe (links : List IpInterface) (now : Time) : (initSafe links now).FiniteCosts := by
  intro d entry present
  rw [((initSafe_get links now).2.1 d entry present).1]
  exact selfEntry_cost d now

theorem FiniteCosts.change [Netstack] [Ipv4] {ft after : FwdTable} {order : Order} {event : NodeEvent}
    (finite : ft.FiniteCosts) (change : ft.Change order event after) : after.FiniteCosts := by
  intro d entry present
  rcases change.route_cases present with old | ⟨_, _, _, _, _, _, _, rfl, small⟩ | ⟨now, rfl, _⟩
  · exact finite d entry old
  · exact small
  · exact selfEntry_cost d now

end FwdTable

end IpTcp.Network

namespace IpTcp.Rip

open Lib Lib.Bytes Network

/-- The list `updatedEntries`: entries of the response with one more hop, and not more of them. -/
theorem processEntries_updated (srcIP : IntIP) (now : Time) (entryMap : GoMap IntIP FwdTableEntry)
    (entries : List RipEntry) :
    (processEntries srcIP now entryMap entries).2.length ≤ entries.length ∧
      ∀ updated ∈ (processEntries srcIP now entryMap entries).2, ∃ entry ∈ entries,
        updated = { entry with cost := entry.cost + 1 } ∧ entry.cost + 1 < infinity := by
  unfold processEntries
  induction entries using List.reverseRecOn with
  | nil => simp
  | append_singleton rest entry ih =>
      rw [List.foldl_concat, List.length_append, List.length_singleton]
      generalize rest.foldl (processEntry srcIP now) (entryMap, []) = routes at ih
      obtain ⟨length, updates⟩ := ih
      have earlier : ∀ updated ∈ routes.2, ∃ other ∈ rest ++ [entry],
          updated = { other with cost := other.cost + 1 } ∧ other.cost + 1 < infinity := by
        intro updated member
        obtain ⟨other, listed, is⟩ := updates updated member
        exact ⟨other, List.mem_append_left _ listed, is⟩
      unfold processEntry
      cases decided : verdict routes.1 srcIP entry with
      | ignore | refresh => exact ⟨Nat.le_succ_of_le length, earlier⟩
      | update =>
          -- the only verdict that lengthens the list
          dsimp only
          constructor
          · rw [List.length_append, List.length_singleton]
            omega
          · intro updated member
            rcases List.mem_append.mp member with before | last
            · exact earlier updated before
            · refine ⟨entry, by simp, List.mem_singleton.mp last, ?_⟩
              exact verdict_finite (by rw [decided]; simp)

def RipPacket.Accepted (p : RipPacket) : Prop := unmarshalRipPacket p.marshal = some p
  deriving Decidable

theorem accepted_iff {p : RipPacket} (emitted : p.Emitted) : p.Accepted ↔ p.entries.length ≤ 64 := by
  rw [RipPacket.Accepted, unmarshal_marshal p emitted]
  split <;> simp_all

theorem request_accepted : RipPacket.Accepted { command := commandRequest, entries := [] } := by
  decide

theorem response_emitted {ft : FwdTable} (finite : ft.FiniteCosts) (order : Order) (neighborIP : IntIP) :
    (response ft order neighborIP).Emitted := by
  constructor
  · exact Or.inr rfl
  · intro entry member
    obtain ⟨⟨d, route⟩, listed, rfl⟩ := List.mem_map.mp member
    show (if route.next = neighborIP then infinity else route.cost) ≤ infinity
    split
    · exact UInt32.le_refl _
    · exact UInt32.le_of_lt (finite d route ((GoMap.mem_range _ _ _ _).mp listed))

theorem response_length (ft : FwdTable) (order : Order) (neighborIP : IntIP) :
    (response ft order neighborIP).entries.length = ft.entryMap.keys.length := by
  rw [response, List.length_map, GoMap.range_length]

theorem response_accepted_iff {ft : FwdTable} (finite : ft.FiniteCosts) (order : Order) (neighborIP : IntIP) :
    (response ft order neighborIP).Accepted ↔ ft.entryMap.keys.length ≤ 64 := by
  rw [accepted_iff (response_emitted finite order neighborIP), response_length]

theorem triggeredUpdate_accepted (ft : FwdTable) (now : Time) (srcIP : IntIP) {entries : List RipEntry}
    (few : entries.length ≤ 64) : (ft.triggeredUpdate now srcIP entries).Accepted := by
  -- A triggered update is as short as the response it is about.
  obtain ⟨length, updates⟩ := processEntries_updated srcIP now ft.entryMap entries
  apply (accepted_iff ?_).mpr
  · exact Nat.le_trans length few
  · constructor
    · exact Or.inr rfl
    · intro updated member
      obtain ⟨entry, _, rfl, small⟩ := updates updated member
      exact UInt32.le_of_lt small

section
variable [Tcp.Netstack] [Ipv4]

theorem messages_accepted {ft : FwdTable} (finite : ft.FiniteCosts) (few : ft.entryMap.keys.length ≤ 64)
    (order : Order) (event : NodeEvent) : ∀ message ∈ ft.messages order event, message.2.Accepted := by
  intro message member
  cases FwdTable.emits_of_mem member with
  | update k inter => exact (response_accepted_iff finite order inter.destIp).mpr few
  | request k inter => exact request_accepted
  | answer srcIP heard _ hears answers =>
      cases answers with
      | reply request => exact (response_accepted_iff finite order srcIP).mpr few
      | trigger now destIP response =>
          obtain ⟨rawMsg, read⟩ := FwdTable.heard_decoded hears
          exact triggeredUpdate_accepted ft now srcIP (unmarshal_some read).1

theorem reachable_finiteCosts {links : List IpInterface} {now : Time} {node : Node}
    (run : Run Node.step anyEvent (Node.start links now) node) : node.table.FiniteCosts := by
  refine Run.preserves (fun node => node.table.FiniteCosts) ?_ run (FwdTable.FiniteCosts.initSafe links now)
  intro before event after finite _ moves
  rw [(Node.step_table moves).2.1]
  exact finite.change (FwdTable.perform_change before.table event.2 event.1)

/-- The messages of RIP that a node can send from a state that it has reached, whatever happens
next, are decoded as they are exactly if its table has no more than 64 routes. -/
theorem emitted_accepted_iff {links : List IpInterface} {now : Time} {node : Node}
    (run : Run Node.step anyEvent (Node.start links now) node) :
    (∀ order event, ∀ message ∈ node.table.messages order event,
      unmarshalRipPacket message.2.marshal = some message.2) ↔ node.table.entryMap.keys.length ≤ 64 := by
  have finite := reachable_finiteCosts run
  constructor
  · intro accepted
    -- a request makes the node send its whole table
    let request : RipPacket := { command := commandRequest, entries := [] }
    have answered : node.table.messages Node.anyOrder (.ripHandler now 0 request.marshal) =
        [(0, response node.table Node.anyOrder 0)] := by
      have read : unmarshalRipPacket request.marshal = some request := request_accepted
      simp [FwdTable.messages, FwdTable.answers, read, request]
    have whole := accepted Node.anyOrder (.ripHandler now 0 request.marshal)
      (0, response node.table Node.anyOrder 0) (by rw [answered]; exact List.mem_singleton_self _)
    exact (response_accepted_iff finite Node.anyOrder 0).mp whole
  · intro few order event
    exact messages_accepted finite few order event

end

section
attribute [local instance] Tcp.Netstack.standard Ipv4.linux

def announcement : RipPacket where
  command := commandResponse
  entries := [{ cost := 1, destIP := 0x0a000009, mask := 0xffffffff }]

theorem announcement_heard :
    (exec Node.step anyEvent (Node.start [linkToNeighbor] 0)
      [(.ripHandler 0 linkToNeighbor.destIp announcement.marshal, Node.anyOrder)]).isSome := by
  decide +kernel

theorem emitted_accepted_learned :
    ∃ node, Run Node.step anyEvent (Node.start [linkToNeighbor] 0) node ∧
      (node.table.entryMap.get 0x0a000009).map FwdTableEntry.cost = some 2 ∧
      ∀ order event, ∀ message ∈ node.table.messages order event,
        unmarshalRipPacket message.2.marshal = some message.2 := by
  refine ⟨_, Run.ofSome announcement_heard, by decide +kernel, ?_⟩
  exact (emitted_accepted_iff (Run.ofSome announcement_heard)).mpr (by decide +kernel)

def manyLinks (count : Nat) : List IpInterface :=
  (List.range count).map fun i : Nat =>
    { linkToNeighbor with
      id := i
      ip := 0x0a010000 + UInt32.ofNat i
      destIp := 0x0a020000 + UInt32.ofNat i }

/-- A node with 65 links: its response to the first neighbour is malformed, and ends the node
that receives it. -/
theorem manyLinks_rejected :
    let table := (Node.start (manyLinks 65) 0).table
    let message := response table Node.anyOrder 0x0a020000
    (0x0a020000, message) ∈ table.messages Node.anyOrder .periodicUpdate ∧
      unmarshalRipPacket message.marshal = none ∧
      (ripHandler (Node.start [linkToNeighbor] 0).table Node.anyOrder 0 0x0a010000 message.marshal).returned =
        none := by
  decide +kernel

end

end IpTcp.Rip
