import IpTcp.Network.Forwarding

/-! The checksum test of `HandlePacketSafe`. It folds the header, checksum included, onto the
checksum once more and compares with it. In one's-complement arithmetic this asks for a header
that sums up to zero; but a sum is never folded to 0x0000, so a header whose checksum is 0x0000
fails whatever it sums up to. -/

set_option autoImplicit false

namespace IpTcp.Network

open Lib Lib.Bytes
open Tcp (Netstack)

section
variable [Netstack] [Ipv4]

def PassesTest (buffer : List Byte) (hdr : Header) : Prop :=
  validateChecksum (buffer.take hdr.len) (UInt16.ofNat hdr.checksum) = UInt16.ofNat hdr.checksum

instance (buffer : List Byte) (hdr : Header) : Decidable (PassesTest buffer hdr) :=
  inferInstanceAs (Decidable (_ = _))

/-- A packet that leaves a node with a checksum it has computed: one that starts there, or one
on its way through. -/
inductive Departs : List Byte → Prop where
  | origin {ft : FwdTable} {order : Order} {destIP : IntIP} {protocol : UInt8} {msg : List Byte}
      {transmission : Transmission}
      (sent : ft.sendMsgToDestIP order destIP protocol msg = .sent transmission) :
      Departs transmission.packet
  | transit {ft : FwdTable} {order : Order} {now : Time} {buffer : List Byte} {hdr : Header}
      {payload : List Byte} {transmission : Transmission}
      (through : ft.fate order buffer = .transit hdr payload)
      (sent : transmission ∈ (ft.handlePacketSafe order now buffer).sent) : Departs transmission.packet

/-- What `HandlePacketSafe` returns for a header that fails the test, it returns for no other. -/
theorem handlePacketSafe_invalid (ft : FwdTable) (order : Order) (now : Time) {buffer : List Byte}
    {hdr : Header} (parsed : Ipv4.parseHeader buffer = some hdr) :
    (ft.handlePacketSafe order now buffer).returned = some (some (.text "invalid checksum")) ↔
      ¬ PassesTest buffer hdr := by
  unfold FwdTable.handlePacketSafe
  rw [parsed]
  dsimp only
  by_cases passes : PassesTest buffer hdr
  · have same : validateChecksum (buffer.take hdr.len) (UInt16.ofNat hdr.checksum) =
        UInt16.ofNat hdr.checksum := passes
    rw [if_neg (not_not_intro same)]
    simp only [passes, not_true_eq_false, iff_false]
    -- every other way out has its own text, or none
    cases FwdTable.message buffer hdr with
    | none => simp [FwdTable.unchanged]
    | some msgBytes =>
        cases ft.getInterfaceByIp order hdr.dst with
        | none =>
            simp only [FwdTable.forward]
            split
            · simp [FwdTable.unchanged]
            split
            · simp [FwdTable.unchanged]
            split
            · simp [FwdTable.unchanged]
            split <;> simp [FwdTable.unchanged]
        | some myInterface =>
            dsimp only
            split
            · simp [FwdTable.unchanged]
            split
            · simp [FwdTable.unchanged]
            · rename_i application _
              cases application with
              | testProtocol => simp [FwdTable.deliver, FwdTable.unchanged]
              | tcp => simp [FwdTable.deliver, FwdTable.unchanged]
              | rip =>
                  simp only [FwdTable.deliver, Rip.ripHandler, Rip.afterSends]
                  split
                  · simp
                  split <;> (split <;> simp)
  · have differs : validateChecksum (buffer.take hdr.len) (UInt16.ofNat hdr.checksum) ≠
        UInt16.ofNat hdr.checksum := passes
    rw [if_pos differs]
    simp [passes, FwdTable.unchanged]

section
variable (folded : ∀ bytes initial, Netstack.checksum bytes initial = foldedSum bytes initial)
include folded

theorem passesTest_iff {buffer : List Byte} {hdr : Header} (parsed : Ipv4.parseHeader buffer = some hdr)
    (long : headerLen ≤ hdr.len) :
    PassesTest buffer hdr ↔ foldedSum (buffer.take hdr.len) 0 = 0xffff ∧ hdr.checksum ≠ 0 := by
  rw [Ipv4.parseHeader_eq] at parsed
  obtain ⟨_, _, most, word, positive⟩ := Header.ofLayout_bounds parsed
  have short : (buffer.take hdr.len).length ≤ 60 := by
    rw [List.length_take]
    omega
  have field : UInt16.ofNat hdr.checksum ≠ 0 ↔ hdr.checksum ≠ 0 := by
    rw [ne_eq, ne_eq, ← UInt16.toNat_inj, UInt16.toNat_ofNat', Nat.mod_eq_of_lt word]
    rfl
  rw [PassesTest, validateChecksum, folded, ← field]
  exact foldedSum_eq_initial _ _ short (positive long)

theorem written_passes {hdr : Header} {headerBytes : List Byte} (aligned : hdr.Aligned)
    (zero : hdr.checksum = 0) (marshalled : FwdTable.marshalWithChecksum hdr = some headerBytes)
    (rest : List Byte) :
    ∃ read, Ipv4.parseHeader (headerBytes ++ rest) = some read ∧ headerLen ≤ read.len ∧
      foldedSum ((headerBytes ++ rest).take read.len) 0 = 0xffff ∧
      (PassesTest (headerBytes ++ rest) read ↔ read.checksum ≠ 0) := by
  have sum := marshalWithChecksum_sum folded aligned zero marshalled
  have written := marshalWithChecksum_some marshalled
  generalize (computeChecksum hdr.layout).toNat = checksum at written
  have again : ({ hdr with checksum := checksum } : Header).Aligned := aligned
  have parsed : Ipv4.parseHeader (headerBytes ++ rest) =
      some ({ hdr with checksum := checksum } : Header).onWire := by
    rw [Ipv4.parseHeader_eq, written, Header.ofLayout_layout again]
  have long : headerLen ≤ ({ hdr with checksum := checksum } : Header).onWire.len := Nat.le_add_right _ _
  have header : (headerBytes ++ rest).take ({ hdr with checksum := checksum } : Header).onWire.len =
      headerBytes := by
    have length : headerBytes.length = ({ hdr with checksum := checksum } : Header).onWire.len := by
      rw [written, Header.layout_length]
      rfl
    rw [← length, List.take_left]
  refine ⟨_, parsed, long, by rw [header]; exact sum, ?_⟩
  rw [passesTest_iff folded parsed long, header]
  exact and_iff_right sum

omit folded in
/-- Both kinds of packets are a header with its checksum, and a payload. -/
theorem Departs.written {packet : List Byte} (departs : Departs packet) :
    ∃ hdr headerBytes payload, hdr.Aligned ∧ hdr.checksum = 0 ∧
      FwdTable.marshalWithChecksum hdr = some headerBytes ∧ packet = headerBytes ++ payload := by
  cases departs with
  | origin sent =>
      obtain ⟨inter, headerBytes, _, marshalled, packet⟩ := FwdTable.sendMsgToDestIP_sent sent
      exact ⟨_, headerBytes, _, by simp [Header.Aligned, FwdTable.newHeader], rfl, marshalled, packet⟩
  | transit through sent =>
      rename_i hdr payload _
      obtain ⟨passed, _⟩ := FwdTable.fate_transit through
      obtain ⟨_, newHdrBytes, marshalled, packet⟩ := transit_sent through sent
      -- `Marshal` refuses a header that claims to be shorter than 20 bytes
      have long : headerLen ≤ hdr.len := by
        by_contra short
        simp [FwdTable.marshalWithChecksum, Ipv4.marshal_eq, Nat.lt_of_not_le short] at marshalled
      have aligned := (Header.onWire_ofLayout (accepted_parse passed) long).1
      exact ⟨{ hdr with ttl := hdr.ttl - 1, checksum := 0 }, newHdrBytes, payload, aligned, rfl,
        marshalled, packet⟩

/-- With netstack's checksum as it is documented: a header of the least length or more passes the
test exactly if its words sum up to 0xffff and its checksum is not zero. A packet that leaves a node
always sums up to 0xffff, and passes at the next one, or at the node itself, unless the checksum
that was computed for it is zero. -/
theorem checksum_test_exact :
    (∀ ft order now buffer hdr, Ipv4.parseHeader buffer = some hdr → headerLen ≤ hdr.len →
      (PassesTest buffer hdr ↔ foldedSum (buffer.take hdr.len) 0 = 0xffff ∧ hdr.checksum ≠ 0) ∧
      ((FwdTable.handlePacketSafe ft order now buffer).returned =
        some (some (.text "invalid checksum")) ↔ ¬ PassesTest buffer hdr)) ∧
    ∀ packet, Departs packet → ∀ buffer, buffer = recv packet ∨ buffer = packet →
      ∃ hdr, Ipv4.parseHeader buffer = some hdr ∧ headerLen ≤ hdr.len ∧
        foldedSum (buffer.take hdr.len) 0 = 0xffff ∧ (PassesTest buffer hdr ↔ hdr.checksum ≠ 0) := by
  constructor
  · intro ft order now buffer hdr parsed long
    exact ⟨passesTest_iff folded parsed long, handlePacketSafe_invalid ft order now parsed⟩
  · intro packet departs buffer arrives
    obtain ⟨hdr, headerBytes, payload, aligned, zero, marshalled, rfl⟩ := departs.written
    obtain ⟨rest, begins⟩ : ∃ rest, buffer = headerBytes ++ rest := by
      rcases arrives with received | same
      · -- a header has at most 60 bytes, so the buffer of the next node holds all of it
        have fits : headerBytes.length ≤ maxMsgSize := by
          rw [marshalWithChecksum_some marshalled, Header.layout_length]
          have most := aligned.2
          unfold headerLen maxMsgSize
          exact Nat.le_trans (Nat.add_le_add_left most 20) (by decide)
        obtain ⟨rest, begins⟩ := recv_append fits payload
        exact ⟨rest, received.trans begins⟩
      · exact ⟨payload, same⟩
    rw [begins]
    exact written_passes folded aligned zero marshalled rest

end

end

section
attribute [local instance] Netstack.standard Ipv4.linux

def linkedTable (ip destIp : IntIP) : FwdTable :=
  FwdTable.initSafe [{ linkToNeighbor with ip := ip, destIp := destIp }] 0

def emptyMessage (destIp : IntIP) : Transmission where
  link := some { linkToNeighbor with destIp := destIp }
  packet := (FwdTable.marshalWithChecksum (FwdTable.newHeader linkToNeighbor.ip destIp 0 [])).getD []

theorem emptyMessage_sent :
    (linkedTable 0x0a000001 0x0a000002).sendMsgToDestIP ⟨[], [], []⟩ 0x0a000002 0 [] =
      .sent (emptyMessage 0x0a000002) := by
  decide +kernel

theorem checksum_test_exact_empty :
    Departs (emptyMessage 0x0a000002).packet ∧
      ∃ hdr, Ipv4.parseHeader (recv (emptyMessage 0x0a000002).packet) = some hdr ∧
        PassesTest (recv (emptyMessage 0x0a000002).packet) hdr := by
  have departs : Departs (emptyMessage 0x0a000002).packet := .origin emptyMessage_sent
  obtain ⟨hdr, parsed, _, _, passes⟩ := (checksum_test_exact fun _ _ => rfl).2 _ departs _ (Or.inl rfl)
  have nonzero : ∀ hdr ∈ Ipv4.parseHeader (recv (emptyMessage 0x0a000002).packet), hdr.checksum ≠ 0 := by
    decide +kernel
  exact ⟨departs, hdr, parsed, passes.mpr (nonzero hdr parsed)⟩

/-- From 10.0.0.1 to 10.0.150.234 an empty message has the checksum 0x0000. The words of its header
sum up to 0xffff, and the neighbour drops it as invalid. -/
theorem zero_checksum_dropped :
    (linkedTable 0x0a000001 0x0a0096ea).sendMsgToDestIP ⟨[], [], []⟩ 0x0a0096ea 0 [] =
        .sent (emptyMessage 0x0a0096ea) ∧
      foldedSum ((recv (emptyMessage 0x0a0096ea).packet).take headerLen) 0 = 0xffff ∧
      ((linkedTable 0x0a0096ea 0x0a000001).handlePacketSafe ⟨[], [], []⟩ 0
        (recv (emptyMessage 0x0a0096ea).packet)).returned = some (some (.text "invalid checksum")) := by
  refine ⟨?_, ?_, ?_⟩ <;> decide +kernel

end

end IpTcp.Network
