import IpTcp.Rip.Topology

/-! From one end of a link to the other: what a node sends to a neighbour is what the neighbour
reads, if it reads anything, cut off at most. -/

set_option autoImplicit false

/-! ## The bytes -/

namespace IpTcp.Network

open Lib Lib.Bytes
open Tcp (Netstack)

theorem Arrives.take {packet buffer : List Byte} (arrives : Arrives packet buffer) {count : Nat}
    (inside : count ≤ packet.length) : buffer.take count <+: packet := by
  cases arrives with
  | passedOn => exact List.take_prefix count packet
  | received =>
      unfold recv
      by_cases short : packet.length ≤ maxMsgSize
      · rw [List.take_of_length_le short, List.take_append_of_le_length inside]
        exact List.take_prefix count packet
      · -- a datagram that fills the buffer is cut off, with no zeros behind it
        rw [Nat.sub_eq_zero_of_le (by omega), List.replicate_zero, List.append_nil]
        exact (List.take_prefix _ _).trans (List.take_prefix _ _)

theorem Arrives.message {hdr : Header} {msg read buffer : List Byte}
    (arrives : Arrives (hdr.layout ++ msg) buffer) (plain : hdr.options = [])
    (total : hdr.totalLen = headerLen + msg.length)
    (found : FwdTable.message buffer hdr.onWire = some read) : read <+: msg := by
  unfold FwdTable.message at found
  split at found
  · cases found
    have length : hdr.layout.length = headerLen := by rw [Header.layout_length, plain]; rfl
    have inside : hdr.onWire.totalLen ≤ (hdr.layout ++ msg).length := by
      rw [List.length_append, length, ← total]
      exact Nat.mod_le _ _
    -- the length in the header may have wrapped around, and is then less than that of the packet
    obtain ⟨rest, whole⟩ := arrives.take inside
    have start : hdr.onWire.len = hdr.layout.length := by
      rw [Header.layout_length]
      rfl
    generalize buffer.take hdr.onWire.totalLen = taken at whole
    rw [start]
    by_cases short : taken.length ≤ hdr.layout.length
    · rw [List.drop_of_length_le short]
      exact List.nil_prefix
    · refine ⟨rest, ?_⟩
      have dropped := congrArg (List.drop hdr.layout.length) whole
      rwa [List.drop_append_of_le_length (by omega), List.drop_left] at dropped
  · cases found

section
variable [Netstack] [Ipv4]

theorem Arrives.accepted {hdr read : Header} {msg msgBytes buffer : List Byte}
    (arrives : Arrives (hdr.layout ++ msg) buffer) (plain : hdr.options = [])
    (total : hdr.totalLen = headerLen + msg.length)
    (passed : FwdTable.accepted buffer = some (read, msgBytes)) :
    read = hdr.onWire ∧ msgBytes <+: msg := by
  obtain ⟨rest, received⟩ := arrives.layout plain
  have parsed := accepted_parse passed
  rw [received, Header.ofLayout_layout (by simp [Header.Aligned, plain])] at parsed
  obtain rfl := Option.some.inj parsed
  refine ⟨rfl, ?_⟩
  obtain ⟨other, header, checked⟩ := Option.bind_eq_some_iff.mp passed
  split at checked
  · obtain ⟨_, found, same⟩ := Option.map_eq_some_iff.mp checked
    cases same
    exact arrives.message plain total found
  · cases checked

end

end IpTcp.Network

namespace IpTcp.Rip

open Lib Lib.Bytes Network
open Tcp (Netstack)

namespace Topology

variable {Host : Type} {topology : Topology Host}

/-! ## Tables -/

def Wired (topology : Topology Host) (host : Host) (ft : FwdTable) : Prop :=
  ∃ now, FwdTable.SameLinks (FwdTable.initSafe (topology.links host) now) ft

theorem Wired.link {host : Host} {ft : FwdTable} (wired : topology.Wired host ft) {k : IntIP}
    {inter : IpInterface} (present : ft.ipInterfaces.get k = some inter) :
    ∃ link ∈ topology.links host, link.ip = inter.ip ∧ link.destIp = inter.destIp ∧ inter.destIp = k := by
  obtain ⟨now, same⟩ := wired
  obtain ⟨link, found, equal⟩ := same.backward present
  obtain ⟨member, keyed⟩ := (FwdTable.initSafe_get (topology.links host) now).1 k link found
  obtain ⟨ip, destIp, _⟩ := FwdTable.wired_ip equal
  exact ⟨link, member, ip, destIp, destIp ▸ keyed⟩

theorem Wired.owns {host : Host} {ft : FwdTable} (wired : topology.Wired host ft) {ip : IntIP}
    (own : ft.Owns ip) : topology.Owns host ip := by
  obtain ⟨k, inter, present, rfl⟩ := own
  obtain ⟨link, member, same, _⟩ := wired.link present
  exact ⟨link, member, same⟩

theorem Wired.neighbor {host : Host} {ft : FwdTable} (wired : topology.Wired host ft) {ip : IntIP} :
    ft.IsNeighbor ip ↔ topology.Neighbor host ip := by
  constructor
  · rintro ⟨inter, present⟩
    obtain ⟨link, member, _, destIp, keyed⟩ := wired.link present
    exact ⟨link, member, destIp.trans keyed⟩
  · rintro ⟨link, member, rfl⟩
    obtain ⟨now, same⟩ := wired
    obtain ⟨other, _, found, _⟩ := ((FwdTable.initSafe_get (topology.links host) now).2.2 link member).2
    exact same.isNeighbor ⟨other, found⟩

/-- With unique addresses the table knows all addresses of the node. -/
theorem Wired.owns_iff {host : Host} {ft : FwdTable} (wired : topology.Wired host ft)
    (unique : topology.UniqueAddresses) {ip : IntIP} : ft.Owns ip ↔ topology.Owns host ip := by
  refine ⟨wired.owns, ?_⟩
  rintro ⟨link, member, rfl⟩
  obtain ⟨now, same⟩ := wired
  obtain ⟨other, listed, found, keyed⟩ :=
    ((FwdTable.initSafe_get (topology.links host) now).2.2 link member).2
  obtain rfl := unique.link listed member keyed
  exact (same.owns _).mpr ⟨other.destIp, other, found, rfl⟩

/-! ## Datagrams -/

/-- A datagram for a node with a message of RIP from a neighbour that is good there. -/
def Carries (topology : Topology Host) (good : Host → RipPacket → Prop) (datagram : Host × List Byte) :
    Prop :=
  ∃ (hdr : Header) (p : RipPacket), Arrives (hdr.layout ++ p.marshal) datagram.2 ∧ hdr.options = [] ∧
    hdr.totalLen = headerLen + p.marshal.length ∧ topology.Neighbor datagram.1 hdr.src ∧
    topology.Owns datagram.1 hdr.dst ∧ good (topology.far datagram.1 hdr.src) p

section
variable [Netstack] [Ipv4] {good : Host → RipPacket → Prop}

theorem Carries.heard {host : Host} {packet : List Byte} (carries : topology.Carries good (host, packet))
    {ft : FwdTable} {order : Order} {now : Time} {srcIP : IntIP} {read : RipPacket}
    (hears : ft.heard order (.handlePacketSafe now packet) = some (srcIP, read)) :
    topology.Neighbor host srcIP ∧ ∃ p, good (topology.far host srcIP) p ∧ read.command = p.command ∧
      read.entries <+: p.entries := by
  obtain ⟨hdr, p, arrives, plain, total, neighbor, _, isGood⟩ := carries
  simp only [FwdTable.heard] at hears
  split at hears
  · rename_i header msgBytes fate
    obtain ⟨message, decoded, same⟩ := Option.map_eq_some_iff.mp hears
    cases same
    obtain ⟨rfl, cut⟩ := arrives.accepted plain total (FwdTable.fate_rip fate)
    exact ⟨neighbor, p, isGood, unmarshal_cut cut decoded⟩
  · cases hears
  · cases hears

theorem Carries.not_transit {host : Host} {packet : List Byte}
    (carries : topology.Carries good (host, packet)) (unique : topology.UniqueAddresses) {ft : FwdTable}
    (wired : topology.Wired host ft) {order : Order} {header : Header} {payload : List Byte} :
    ft.fate order packet ≠ .transit header payload := by
  intro transit
  obtain ⟨hdr, p, arrives, plain, total, _, own, _⟩ := carries
  obtain ⟨passed, foreign⟩ := FwdTable.fate_transit transit
  obtain ⟨rfl, _⟩ := arrives.accepted plain total passed
  exact foreign ((wired.owns_iff unique).mpr own)

theorem sent_carries (unique : topology.UniqueAddresses) {host : Host} {ft : FwdTable}
    (wired : topology.Wired host ft) {order : Order} {message : IntIP × RipPacket}
    {transmission : Transmission} (neighbor : topology.Neighbor host message.1) (isGood : good host message.2)
    (sent : (FwdTable.ripCall message).result ft order = .sent transmission) :
    topology.Carries good (topology.receiver host transmission, transmission.buffer) := by
  obtain ⟨inter, headerBytes, way, marshalled, packet⟩ := FwdTable.sendMsgToDestIP_sent sent
  have arrives := transmission.arrives
  rw [packet, marshalWithChecksum_some marshalled] at arrives
  rcases way with ⟨route, noLink⟩ | ⟨route, linked⟩
  · -- the neighbour is the node itself, which then writes to the address it writes from
    obtain ⟨same, k, present⟩ := FwdTable.getInterfaceByIp_some (FwdTable.route_localHost route)
    have dest : inter.ip = message.1 := same
    have own : topology.Owns host inter.ip := wired.owns ⟨k, inter, present, rfl⟩
    refine ⟨_, message.2, arrives, rfl, rfl, ?_⟩
    simp only [receiver, noLink]
    rw [← dest] at neighbor
    refine ⟨neighbor, ?_, ?_⟩
    · show topology.Owns host message.1
      rw [← dest]
      exact own
    · show good (topology.far host inter.ip) message.2
      rw [unique.far neighbor own]
      exact isGood
  · obtain ⟨_, direct | ⟨absent, _⟩⟩ := FwdTable.route_link route
    · obtain ⟨link, member, ip, destIp, keyed⟩ := wired.link direct
      refine ⟨_, message.2, arrives, rfl, rfl, ?_⟩
      simp only [receiver, linked]
      rw [← destIp]
      have back := neighbor_back member
      refine ⟨?_, ?_, ?_⟩
      · show topology.Neighbor (topology.far host link.destIp) inter.ip
        rw [← ip]
        exact back
      · show topology.Owns (topology.far host link.destIp) message.1
        have dest : link.destIp = message.1 := destIp.trans keyed
        rw [← dest]
        exact far_owns ⟨link, member, rfl⟩
      · show good (topology.far (topology.far host link.destIp) inter.ip) message.2
        rw [← ip, unique.far back ⟨link, member, rfl⟩]
        exact isGood
    · obtain ⟨inter, present⟩ := wired.neighbor.mpr neighbor
      have here : ft.ipInterfaces.get message.1 = none := absent
      rw [here] at present
      cases present

theorem Wired.change {host : Host} {ft after : FwdTable} {order : Order} {event : NodeEvent}
    (wired : topology.Wired host ft) (change : ft.Change order event after) : topology.Wired host after := by
  obtain ⟨now, same⟩ := wired
  exact ⟨now, same.trans change.sameLinks⟩

/-- The datagrams after an event at a node that sends good messages to neighbours only. -/
theorem perform_carries [DecidableEq Host] (unique : topology.UniqueAddresses) {net : Net Host} {host : Host}
    {order : Order} {event : NodeEvent} (wired : topology.Wired host (net.tables host))
    (pending : ∀ datagram ∈ net.transit, topology.Carries good datagram)
    (automatic : ∀ destIP protocol msg, event ≠ .sendMsgToDestIP destIP protocol msg)
    (arrives : ∀ now buffer, event = .handlePacketSafe now buffer →
      ∀ hdr payload, (net.tables host).fate order buffer ≠ .transit hdr payload)
    (messages : ∀ message ∈ (net.tables host).messages order event,
      topology.Neighbor host message.1 ∧ good host message.2) :
    ∀ datagram ∈ (topology.perform net host order event).transit, topology.Carries good datagram := by
  intro datagram member
  rcases List.mem_append.mp member with earlier | new
  · exact pending datagram earlier
  · obtain ⟨transmission, sent, rfl⟩ := List.mem_map.mp new
    rcases FwdTable.perform_sent sent with ⟨call, made, result⟩ | ⟨now, buffer, hdr, payload, is, transit, _⟩
    · rw [FwdTable.calls_eq automatic] at made
      obtain ⟨message, emitted, rfl⟩ := List.mem_map.mp made
      obtain ⟨neighbor, isGood⟩ := messages message emitted
      exact sent_carries unique (wired.change (FwdTable.perform_change _ _ _)) neighbor isGood result
    · exact absurd transit (arrives now buffer is hdr payload)

end

end Topology

end IpTcp.Rip
