import IpTcp.Network.NodeSteps

/-! Poisoned reverse. `SendRIPResponse` lists a route at infinity to its own next hop; a triggered
update is not sent to the neighbour it is about, which comes to the same: every route it lists goes
through that neighbour by then. -/

set_option autoImplicit false

namespace IpTcp.Rip

open Lib Lib.Bytes Network
open Tcp (Netstack)

/-- To the receiver of a message, the routes that go through it are at infinity. -/
def Poisoned (ft : FwdTable) (message : IntIP × RipPacket) : Prop :=
  ∀ listed ∈ message.2.entries, ∀ entry, ft.entryMap.get listed.destIP = some entry →
    entry.next = message.1 → listed.cost = infinity

/-- A message lists the whole table: every route once, at its cost unless it goes through the
receiver. -/
structure ListsTable (ft : FwdTable) (neighborIP : IntIP) (p : RipPacket) : Prop where
  once : (p.entries.map RipEntry.destIP).Nodup
  listed : ∀ d, d ∈ p.entries.map RipEntry.destIP ↔ ∃ entry, ft.entryMap.get d = some entry
  cost : ∀ listed ∈ p.entries, ∀ entry, ft.entryMap.get listed.destIP = some entry →
    entry.next ≠ neighborIP → listed.cost = entry.cost

theorem mem_response {ft : FwdTable} {order : Order} {neighborIP : IntIP} {listed : RipEntry} :
    listed ∈ (response ft order neighborIP).entries ↔
      ∃ d entry, ft.entryMap.get d = some entry ∧ listed = ripEntry neighborIP (d, entry) := by
  simp only [response, List.mem_map, Prod.exists, GoMap.mem_range, @eq_comm _ listed]

theorem response_listsTable (ft : FwdTable) (order : Order) (neighborIP : IntIP) :
    ListsTable ft neighborIP (response ft order neighborIP) where
  once := response_once ft order neighborIP
  listed d := by
    rw [List.mem_map]
    constructor
    · rintro ⟨listed, member, rfl⟩
      obtain ⟨d, entry, present, rfl⟩ := mem_response.mp member
      exact ⟨entry, present⟩
    · rintro ⟨entry, present⟩
      exact ⟨ripEntry neighborIP (d, entry), mem_response.mpr ⟨d, entry, present, rfl⟩, rfl⟩
  cost listed member entry present elsewhere := by
    obtain ⟨d, found, same, rfl⟩ := mem_response.mp member
    obtain rfl : found = entry := Option.some.inj (same.symm.trans present)
    exact if_neg elsewhere

theorem response_poisoned (ft : FwdTable) (order : Order) (neighborIP : IntIP) :
    Poisoned ft (neighborIP, response ft order neighborIP) := by
  intro listed member entry present back
  obtain ⟨d, found, same, rfl⟩ := mem_response.mp member
  obtain rfl : found = entry := Option.some.inj (same.symm.trans present)
  exact if_pos back

theorem processEntry_updated_next {srcIP : IntIP} {now : Time}
    {routes : GoMap IntIP FwdTableEntry × List RipEntry} (entry : RipEntry)
    (before : ∀ updated ∈ routes.2, ∃ route, routes.1.get updated.destIP = some route ∧ route.next = srcIP) :
    ∀ updated ∈ (processEntry srcIP now routes entry).2, ∃ route,
      (processEntry srcIP now routes entry).1.get updated.destIP = some route ∧ route.next = srcIP := by
  intro updated member
  by_cases same : updated.destIP = entry.destIP
  · rw [same, processEntry_same]
    split
    · rename_i ignored
      simp only [processEntry, ignored] at member
      rw [← same]
      exact before updated member
    · exact ⟨_, rfl, rfl⟩
  · rw [processEntry_other same]
    apply before
    -- only the entry itself can have been added
    simp only [processEntry] at member
    split at member
    · rcases List.mem_append.mp member with old | new
      · exact old
      · rw [List.mem_singleton.mp new] at same
        exact absurd rfl same
    · exact member
    · exact member

theorem processEntries_updated_next (srcIP : IntIP) (now : Time) (entryMap : GoMap IntIP FwdTableEntry)
    (entries : List RipEntry) :
    ∀ updated ∈ (processEntries srcIP now entryMap entries).2, ∃ route,
      (processEntries srcIP now entryMap entries).1.get updated.destIP = some route ∧ route.next = srcIP := by
  unfold processEntries
  induction entries using List.reverseRecOn with
  | nil => simp
  | append_singleton rest entry ih =>
      rw [List.foldl_concat]
      exact processEntry_updated_next entry ih

theorem triggeredUpdate_poisoned {ft : FwdTable} {srcIP destIP : IntIP} (other : destIP ≠ srcIP)
    (now : Time) (entries : List RipEntry) :
    Poisoned (ft.learn srcIP now entries) (destIP, ft.triggeredUpdate now srcIP entries) := by
  -- A triggered update to another than the sender of the response has nothing to poison.
  intro listed member entry present back
  obtain ⟨route, found, next⟩ := processEntries_updated_next srcIP now ft.entryMap entries listed member
  obtain rfl : route = entry := Option.some.inj (found.symm.trans present)
  exact absurd (back.symm.trans next) other

section
variable [Netstack] [Ipv4]

theorem answers_poisoned (ft : FwdTable) (order : Order) (now : Time) (srcIP : IntIP) (rawMsg : List Byte) :
    ∀ message ∈ ft.answers order now srcIP rawMsg,
      Poisoned (ripHandler ft order now srcIP rawMsg).table message := by
  unfold FwdTable.answers ripHandler
  cases unmarshalRipPacket rawMsg with
  | none => simp
  | some ripPacket =>
      dsimp only
      split
      · intro message member
        rw [List.mem_singleton.mp member]
        exact response_poisoned ft order srcIP
      · intro message member
        obtain ⟨destIP, listed, rfl⟩ := List.mem_map.mp member
        exact triggeredUpdate_poisoned (FwdTable.mem_triggeredTo.mp listed).1 now ripPacket.entries

/-- The messages of every event, with the table as it is when they are sent. -/
theorem messages_poisoned (ft : FwdTable) (order : Order) (event : NodeEvent) :
    ∀ message ∈ ft.messages order event, Poisoned (ft.perform order event).table message := by
  intro message emitted
  cases event with
  | registerHandlerSafe | setInterfaceStateSafe | periodicExpiry | sendMsgToDestIP => cases emitted
  | periodicUpdate =>
      obtain ⟨⟨k, inter⟩, _, rfl⟩ := List.mem_map.mp emitted
      exact response_poisoned ft order inter.destIp
  | ripInit =>
      obtain ⟨⟨k, inter⟩, _, rfl⟩ := List.mem_map.mp emitted
      intro listed member
      cases member
  | ripHandler now srcIP rawMsg => exact answers_poisoned ft order now srcIP rawMsg message emitted
  | handlePacketSafe now buffer =>
      show Poisoned (ft.handlePacketSafe order now buffer).table message
      simp only [FwdTable.messages] at emitted
      rcases ft.handlePacketSafe_fate order now buffer with
        ⟨hdr, msgBytes, fate, handled⟩ | ⟨hdr, msgBytes, fate, _⟩ | ⟨fate, _⟩
      · rw [fate] at emitted
        rw [handled]
        exact answers_poisoned ft order now hdr.src msgBytes message emitted
      · rw [fate] at emitted
        cases emitted
      · rw [fate] at emitted
        cases emitted

/-- Every packet that the node sends on its own account is a message of RIP in which the routes
through its receiver are at infinity, in the table as it is when it is sent; and a response to a
neighbour lists the whole table. -/
theorem poisoned_on_every_path (ft : FwdTable) (order : Order) (event : NodeEvent) :
    (∀ transmission ∈ (ft.perform order event).sent,
      (∃ message ∈ ft.messages order event, Poisoned (ft.perform order event).table message ∧
        (FwdTable.ripCall message).result (ft.perform order event).table order = .sent transmission) ∨
      (∃ destIP protocol msg, event = .sendMsgToDestIP destIP protocol msg) ∨
      ∃ now buffer hdr msgBytes, event = .handlePacketSafe now buffer ∧
        ft.fate order buffer = .transit hdr msgBytes) ∧
    (∀ message ∈ ft.messages order event, Poisoned (ft.perform order event).table message) ∧
    ∀ neighborIP, ListsTable ft neighborIP (response ft order neighborIP) := by
  refine ⟨?_, messages_poisoned ft order event, response_listsTable ft order⟩
  intro transmission sent
  rcases FwdTable.perform_sent sent with
    ⟨call, listed, result⟩ | ⟨now, buffer, hdr, msgBytes, is, fate, _⟩
  · by_cases manual : ∃ destIP protocol msg, event = .sendMsgToDestIP destIP protocol msg
    · exact Or.inr (Or.inl manual)
    · rw [FwdTable.calls_eq fun destIP protocol msg is => manual ⟨destIP, protocol, msg, is⟩] at listed
      obtain ⟨message, emitted, rfl⟩ := List.mem_map.mp listed
      exact Or.inl ⟨message, emitted, messages_poisoned ft order event message emitted, result⟩
  · exact Or.inr (Or.inr ⟨now, buffer, hdr, msgBytes, is, fate⟩)

end

end IpTcp.Rip
