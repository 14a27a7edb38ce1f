import IpTcp.Network.NodeSteps

/-! Packets on their way through the network. A node that forwards a packet changes its time to
live and its checksum and nothing else, whatever its table says; so the time to live bounds the
journey of every packet. -/

set_option autoImplicit false

namespace IpTcp.Network

open Lib Lib.Bytes Rip
open Tcp (Netstack)

/-! ## The header that is written -/

theorem wordSum_layout (hdr : Header) (zero : hdr.checksum = 0) (checksum : UInt16) :
    wordSum { hdr with checksum := checksum.toNat }.layout = wordSum hdr.layout + checksum.toNat := by
  have same : UInt16.ofNat checksum.toNat = checksum := UInt16.ofNat_toNat
  simp only [Header.layout, putInt16, putUint32, zero, same, List.append_assoc, wordSum_putUint16,
    List.cons_append, List.nil_append, wordSum]
  have none : (UInt16.ofNat 0).toNat = 0 := rfl
  omega

theorem wordSum_layout_pos (hdr : Header) : 0 < wordSum hdr.layout := by
  have version : 64 ≤ (UInt8.ofNat (4 * 16 + (headerLen + hdr.options.length) / 4 % 16)).toNat := by
    rw [UInt8.toNat_ofNat']
    omega
  simp only [Header.layout, List.cons_append, wordSum]
  omega

theorem Arrives.layout {hdr : Header} {payload buffer : List Byte}
    (arrives : Arrives (hdr.layout ++ payload) buffer) (plain : hdr.options = []) :
    ∃ rest, buffer = hdr.layout ++ rest := by
  refine arrives.append ?_
  rw [Header.layout_length, plain]
  decide

section
variable [Netstack] [Ipv4]

theorem marshalWithChecksum_some {hdr : Header} {headerBytes : List Byte}
    (marshalled : FwdTable.marshalWithChecksum hdr = some headerBytes) :
    headerBytes = { hdr with checksum := (computeChecksum hdr.layout).toNat }.layout := by
  simp only [FwdTable.marshalWithChecksum, Ipv4.marshal_eq] at marshalled
  split at marshalled
  · cases marshalled
  · simp only [Option.bind_some, Option.some.injEq] at marshalled
    exact marshalled.symm

/-- With netstack's checksum as it is documented, the words of a header that is written sum
up to 0xffff. -/
theorem marshalWithChecksum_sum
    (folded : ∀ bytes initial, Netstack.checksum bytes initial = foldedSum bytes initial)
    {hdr : Header} {headerBytes : List Byte} (aligned : hdr.Aligned) (zero : hdr.checksum = 0)
    (marshalled : FwdTable.marshalWithChecksum hdr = some headerBytes) :
    foldedSum headerBytes 0 = 0xffff := by
  rw [marshalWithChecksum_some marshalled]
  apply @foldedSum_complement hdr.layout
  · rw [Header.layout_length, headerLen]
    have := aligned.2
    omega
  · rw [Header.layout_length, Header.layout_length]
  · exact wordSum_layout_pos hdr
  · rw [wordSum_layout hdr zero, computeChecksum, folded]

theorem accepted_parse {buffer : List Byte} {hdr : Header} {msgBytes : List Byte}
    (passed : FwdTable.accepted buffer = some (hdr, msgBytes)) : Header.ofLayout buffer = some hdr := by
  obtain ⟨other, parsed, rest⟩ := Option.bind_eq_some_iff.mp passed
  rw [Ipv4.parseHeader_eq] at parsed
  split at rest
  · obtain ⟨_, _, same⟩ := Option.map_eq_some_iff.mp rest
    cases same
    exact parsed
  · cases rest

theorem transit_sent {ft : FwdTable} {order : Order} {now : Time} {buffer : List Byte} {hdr : Header}
    {payload : List Byte} {transmission : Transmission}
    (transit : ft.fate order buffer = .transit hdr payload)
    (sent : transmission ∈ (ft.handlePacketSafe order now buffer).sent) :
    0 < hdr.ttl - 1 ∧ ∃ newHdrBytes,
      FwdTable.marshalWithChecksum { hdr with ttl := hdr.ttl - 1, checksum := 0 } = some newHdrBytes ∧
      transmission.packet = newHdrBytes ++ payload := by
  rw [FwdTable.handlePacketSafe_transit transit] at sent
  obtain ⟨_, _, newHdrBytes, _, positive, marshalled, _, rfl⟩ := FwdTable.forward_sent sent
  exact ⟨positive, newHdrBytes, marshalled, rfl⟩

theorem transit_rewrites
    (folded : ∀ bytes initial, Netstack.checksum bytes initial = foldedSum bytes initial)
    {ft : FwdTable} {order : Order} {now : Time} {buffer : List Byte} {hdr : Header}
    {payload : List Byte} {transmission : Transmission}
    (transit : ft.fate order buffer = .transit hdr payload) (long : headerLen ≤ hdr.len)
    (sent : transmission ∈ (ft.handlePacketSafe order now buffer).sent) :
    ∃ checksum,
      Ipv4.parseHeader transmission.packet =
        some { hdr with version := 4, ttl := hdr.ttl - 1, checksum := checksum } ∧
      0 < hdr.ttl - 1 ∧ transmission.packet.drop hdr.len = payload ∧
      foldedSum (transmission.packet.take hdr.len) 0 = 0xffff := by
  obtain ⟨passed, _⟩ := FwdTable.fate_transit transit
  obtain ⟨positive, newHdrBytes, marshalled, packet⟩ := transit_sent transit sent
  obtain ⟨aligned, width⟩ := Header.onWire_ofLayout (accepted_parse passed) long
  have written := marshalWithChecksum_some marshalled
  have length : newHdrBytes.length = hdr.len := by
    rw [written, Header.layout_length]
    exact congrArg Header.len width
  -- the fields were read from the wire, so they fit when they are written again
  generalize (computeChecksum _).toNat = checksum at written
  have rewritten : ({ hdr with ttl := hdr.ttl - 1, checksum := checksum } : Header).Aligned := aligned
  refine ⟨checksum % 65536, ?_, positive, ?_, ?_⟩
  · rw [packet, Ipv4.parseHeader_eq, written]
    apply (Header.ofLayout_layout rewritten payload).trans
    simp only [Header.onWire, Header.mk.injEq, true_and, and_true, Option.some.injEq] at width ⊢
    omega
  · rw [packet, ← length, List.drop_left]
  · rw [packet, ← length, List.take_left]
    have blank : ({ hdr with ttl := hdr.ttl - 1, checksum := 0 } : Header).Aligned := aligned
    exact marshalWithChecksum_sum folded blank rfl marshalled

/-! ## Journeys -/

/-- A packet that started with `SendMsgToDestIP` and has been forwarded a number of times, each
time by a node with whatever table it had. -/
inductive Journey : Nat → List Byte → Prop where
  | origin {ft : FwdTable} {order : Order} {destIP : IntIP} {protocol : UInt8} {msg : List Byte}
      {transmission : Transmission}
      (sent : ft.sendMsgToDestIP order destIP protocol msg = .sent transmission) :
      Journey 0 transmission.packet
  | hop {hops : Nat} {packet : List Byte} (before : Journey hops packet) {ft : FwdTable} {order : Order}
      {now : Time} {hdr : Header} {payload : List Byte} {transmission : Transmission}
      (transit : ft.fate order (recv packet) = .transit hdr payload)
      (sent : transmission ∈ (ft.handlePacketSafe order now (recv packet)).sent) :
      Journey (hops + 1) transmission.packet

def Counted (hops : Nat) (packet : List Byte) : Prop :=
  ∃ (hdr : Header) (payload : List Byte), packet = hdr.layout ++ payload ∧ hdr.options = [] ∧
    hdr.ttl + hops = maxHops ∧ 0 < hdr.ttl

theorem Journey.counted {hops : Nat} {packet : List Byte} (journey : Journey hops packet) :
    Counted hops packet := by
  induction journey with
  | origin sent =>
      obtain ⟨inter, headerBytes, _, marshalled, packet⟩ := FwdTable.sendMsgToDestIP_sent sent
      rw [marshalWithChecksum_some marshalled] at packet
      exact ⟨_, _, packet, rfl, rfl, show (0 : Int) < maxHops by decide⟩
  | hop before transit sent ih =>
      obtain ⟨old, oldPayload, rfl, plain, count, _⟩ := ih
      have arrives : Arrives (old.layout ++ oldPayload) (recv (old.layout ++ oldPayload)) := .received
      obtain ⟨rest, received⟩ := arrives.layout plain
      obtain ⟨passed, _⟩ := FwdTable.fate_transit transit
      obtain ⟨positive, newHdrBytes, marshalled, packet⟩ := transit_sent transit sent
      -- the header that the next node reads is the one that was written
      have parsed := accepted_parse passed
      rw [received, Header.ofLayout_layout (by simp [Header.Aligned, plain])] at parsed
      obtain rfl := Option.some.inj parsed
      rw [marshalWithChecksum_some marshalled] at packet
      refine ⟨_, _, packet, plain, ?_, positive⟩
      have live : old.onWire.ttl = old.ttl % 256 := rfl
      simp only [maxHops] at count ⊢
      push_cast
      omega

/-- A packet that is forwarded keeps its payload and its header but for the time to live, which is
one less and positive, and the checksum, which is right; and in any network, whatever the tables
are and become, a packet is forwarded fewer than `MAX_HOPS` times. -/
theorem forwarding_ends
    (folded : ∀ bytes initial, Netstack.checksum bytes initial = foldedSum bytes initial) :
    (∀ ft order now buffer hdr payload transmission,
      FwdTable.fate ft order buffer = .transit hdr payload → headerLen ≤ hdr.len →
      transmission ∈ (ft.handlePacketSafe order now buffer).sent →
      ∃ checksum,
        Ipv4.parseHeader transmission.packet =
          some { hdr with version := 4, ttl := hdr.ttl - 1, checksum := checksum } ∧
        0 < hdr.ttl - 1 ∧ transmission.packet.drop hdr.len = payload ∧
        foldedSum (transmission.packet.take hdr.len) 0 = 0xffff) ∧
    ∀ hops packet, Journey hops packet → (hops : Int) ≤ maxHops - 1 := by
  constructor
  · intro ft order now buffer hdr payload transmission transit long sent
    exact transit_rewrites folded transit long sent
  · intro hops packet journey
    obtain ⟨_, _, _, _, count, positive⟩ := journey.counted
    omega

end

section
attribute [local instance] Netstack.standard Ipv4.linux

def transitHeader : Header :=
  { FwdTable.newHeader 0x0a000007 0x0a000009 0 [42] with ttl := 5, checksum := 41434 }

theorem forwarding_ends_transit :
    ∃ transmission ∈
        (announcedTable.handlePacketSafe ⟨[], [], []⟩ 0 (recv (transitHeader.layout ++ [42]))).sent,
      ∃ checksum, Ipv4.parseHeader transmission.packet =
        some { transitHeader with version := 4, ttl := 4, checksum := checksum } := by
  have transit : announcedTable.fate ⟨[], [], []⟩ (recv (transitHeader.layout ++ [42])) =
      .transit transitHeader [42] := by
    decide +kernel
  have sends : (announcedTable.handlePacketSafe ⟨[], [], []⟩ 0
      (recv (transitHeader.layout ++ [42]))).sent ≠ [] := by
    decide +kernel
  obtain ⟨transmission, sent⟩ := List.exists_mem_of_ne_nil _ sends
  obtain ⟨checksum, parsed, _⟩ := (forwarding_ends fun _ _ => rfl).1 announcedTable ⟨[], [], []⟩ 0
    (recv (transitHeader.layout ++ [42])) transitHeader [42] transmission transit (by decide) sent
  exact ⟨transmission, sent, checksum, parsed⟩

end

end IpTcp.Network
