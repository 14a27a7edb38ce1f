import IpTcp.Tcp.Checksum
import IpTcp.Tcp.Unmarshal

/-! The bytes of a TCP segment and its checksum. The receiver does not sum up the bytes it has got:
it parses a header, writes that header anew and sums up the result, so whatever the parser drops is
not covered. Netstack's two functions are taken to be what they are documented as. -/

set_option autoImplicit false

namespace IpTcp.Tcp

open Lib.Bytes

def TcpPacket.marshal [Netstack] (p : TcpPacket) : List Byte := Netstack.encode p.header ++ p.data

/-- The folded one's-complement sum of a buffer of any length, and the standard layout. -/
abbrev Netstack.exact : Netstack where
  checksum bytes initial := fold (initial.toNat + wordSum bytes)
  encode := layout

/-! ## Sums of headers -/

def segmentPseudoHeader (sourceIP destIP : IntIP) (length : Nat) : List Byte :=
  IntIP.netIP sourceIP ++ IntIP.netIP destIP ++ [0, tcpProtocolNum] ++ putUint16 (UInt16.ofNat length)

theorem pseudoHeader_eq (sourceIP destIP : IntIP) (payload : List Byte) :
    pseudoHeader sourceIP destIP payload =
      segmentPseudoHeader sourceIP destIP (tcpHeaderLen + payload.length) := rfl

def IntIP.words (ip : IntIP) : Nat := ip.toNat / 65536 + ip.toNat % 65536

theorem segmentPseudoHeader_length (sourceIP destIP : IntIP) (length : Nat) :
    (segmentPseudoHeader sourceIP destIP length).length = 12 := rfl

theorem wordSum_segmentPseudoHeader (sourceIP destIP : IntIP) (length : Nat) :
    wordSum (segmentPseudoHeader sourceIP destIP length) =
      IntIP.words sourceIP + IntIP.words destIP + 6 + length % 65536 := by
  have protocol (rest : List Byte) : wordSum ([0, tcpProtocolNum] ++ rest) = 6 + wordSum rest := by
    simp [wordSum, tcpProtocolNum]
  have last : wordSum (putUint16 (UInt16.ofNat length)) = length % 65536 := by
    rw [← List.append_nil (putUint16 _), wordSum_putUint16, UInt16.toNat_ofNat']
    rfl
  simp only [segmentPseudoHeader, IntIP.netIP, List.append_assoc, wordSum_putUint32, protocol, last,
    IntIP.words]
  omega

theorem layout_length (tcpHdr : TCPFields) : (layout tcpHdr).length = 20 := rfl

theorem wordSum_layout_checksum (tcpHdr : TCPFields) :
    wordSum (layout { tcpHdr with checksum := 0 }) + tcpHdr.checksum.toNat = wordSum (layout tcpHdr) := by
  have middle (rest : List Byte) : wordSum ([(tcpHdr.dataOffset / 4) <<< 4, tcpHdr.flags] ++ rest) =
      wordSum [(tcpHdr.dataOffset / 4) <<< 4, tcpHdr.flags] + wordSum rest := wordSum_append _ _ (by simp)
  have zero : (0 : UInt16).toNat = 0 := rfl
  simp only [layout, List.append_assoc, wordSum_putUint16, wordSum_putUint32, middle, zero]
  omega

section
attribute [local instance] Netstack.exact

theorem computeTCPChecksum_eq (tcpHdr : TCPFields) (sourceIP destIP : IntIP) (payload : List Byte) :
    computeTCPChecksum tcpHdr sourceIP destIP payload =
      fold (wordSum (pseudoHeader sourceIP destIP payload) + wordSum (layout tcpHdr) + wordSum payload)
        ^^^ 0xffff := by
  -- The three sums are chained through the initial value.
  have zero : (0 : UInt16).toNat = 0 := rfl
  simp only [computeTCPChecksum, Netstack.checksum, Netstack.encode, zero, Nat.zero_add, fold_add]

/-- A header passes exactly if it and the payload sum up to 0xffff with its checksum, which is not
0xffff: the checksum computed is the complement of a sum that is not zero. -/
theorem isValidTcpCheckSum_iff (tcpHdr : TCPFields) (sourceIP destIP : IntIP) (payload : List Byte) :
    isValidTcpCheckSum tcpHdr sourceIP destIP payload = true ↔
      tcpHdr.checksum ≠ 0xffff ∧
        65535 ∣ wordSum (pseudoHeader sourceIP destIP payload) + wordSum (layout tcpHdr) + wordSum payload := by
  have positive : 0 < wordSum (pseudoHeader sourceIP destIP payload) := by
    rw [pseudoHeader_eq, wordSum_segmentPseudoHeader]
    omega
  have sum := wordSum_layout_checksum tcpHdr
  rw [isValidTcpCheckSum, beq_iff_eq, computeTCPChecksum_eq, complement_fold (by omega)]
  have same : wordSum (pseudoHeader sourceIP destIP payload) +
      wordSum (layout { tcpHdr with checksum := 0 }) + wordSum payload + tcpHdr.checksum.toNat =
      wordSum (pseudoHeader sourceIP destIP payload) + wordSum (layout tcpHdr) + wordSum payload := by
    omega
  rw [same]

end

/-! ## What parsing drops -/

def checksumField (rawMsg : List Byte) : UInt16 := uint16 (rawMsg.getD 16 0) (rawMsg.getD 17 0)

def reservedBits (rawMsg : List Byte) : Nat := (rawMsg.getD 12 0).toNat % 16

def urgentField (rawMsg : List Byte) : Nat := (uint16 (rawMsg.getD 18 0) (rawMsg.getD 19 0)).toNat

def options (rawMsg : List Byte) : List Byte := (rawMsg.take (claimedOffset rawMsg)).drop tcpHeaderLen

/-- What the words of the raw segment and of its pseudo header sum up to beyond those of the segment
without what parsing drops. The length in the pseudo header is then shorter, too. -/
def dropped (rawMsg : List Byte) : Int :=
  reservedBits rawMsg * 256 + urgentField rawMsg + wordSum (options rawMsg) +
    (rawMsg.length % 65536 : Nat) -
    ((tcpHeaderLen + (rawMsg.length - claimedOffset rawMsg)) % 65536 : Nat)

theorem offsetByte_toNat (byte : Byte) : (((byte >>> 4) * 4 / 4) <<< 4).toNat = byte.toNat / 16 * 16 := by
  have small := byte.toNat_lt
  simp only [UInt8.toNat_shiftLeft, UInt8.toNat_div, UInt8.toNat_mul, UInt8.toNat_shiftRight,
    UInt8.reduceToNat, Nat.shiftRight_eq_div_pow, Nat.shiftLeft_eq, Nat.reduceMod, Nat.reducePow]
  omega

theorem parseTCPHeader_bytes (b0 b1 b2 b3 b4 b5 b6 b7 b8 b9 b10 b11 b12 b13 b14 b15 b16 b17 : Byte)
    (rest : List Byte) :
    parseTCPHeader (b0 :: b1 :: b2 :: b3 :: b4 :: b5 :: b6 :: b7 :: b8 :: b9 :: b10 :: b11 :: b12 :: b13 ::
      b14 :: b15 :: b16 :: b17 :: rest) = some {
        srcPort := uint16 b0 b1, dstPort := uint16 b2 b3, seqNum := uint32 b4 b5 b6 b7
        ackNum := uint32 b8 b9 b10 b11, dataOffset := (b12 >>> 4) * 4, flags := b13
        windowSize := uint16 b14 b15, checksum := uint16 b16 b17, urgentPointer := 0 } := rfl

theorem wordSum_parsed {rawMsg : List Byte} {tcpHdr : TCPFields} (long : tcpHeaderLen ≤ rawMsg.length)
    (parsed : parseTCPHeader rawMsg = some tcpHdr) :
    wordSum (rawMsg.take tcpHeaderLen) =
        wordSum (layout tcpHdr) + reservedBits rawMsg * 256 + urgentField rawMsg ∧
      tcpHdr.checksum = checksumField rawMsg := by
  -- The header written anew lacks the reserved bits and the urgent pointer.
  obtain ⟨front, rest, length, rfl⟩ : ∃ front rest, front.length = 20 ∧ front ++ rest = rawMsg :=
    ⟨_, _, List.length_take_of_le long, List.take_append_drop 20 rawMsg⟩
  match front with
  | [b0, b1, b2, b3, b4, b5, b6, b7, b8, b9, b10, b11, b12, b13, b14, b15, b16, b17, b18, b19] =>
      simp only [List.cons_append, parseTCPHeader_bytes, Option.some.injEq] at parsed
      have offset := offsetByte_toNat b12
      have urgent : urgentField ([b0, b1, b2, b3, b4, b5, b6, b7, b8, b9, b10, b11, b12, b13, b14, b15,
          b16, b17, b18, b19] ++ rest) = b18.toNat * 256 + b19.toNat := uint16_toNat b18 b19
      have reserved : reservedBits ([b0, b1, b2, b3, b4, b5, b6, b7, b8, b9, b10, b11, b12, b13, b14, b15,
          b16, b17, b18, b19] ++ rest) = b12.toNat % 16 := rfl
      refine ⟨?_, by rw [← parsed]; rfl⟩
      rw [← parsed, urgent, reserved, tcpHeaderLen, List.take_left' length]
      have zero : putUint16 0 = [0, 0] := rfl
      have nothing : (0 : Byte).toNat = 0 := rfl
      simp only [layout, put_uint16, put_uint32, zero, List.cons_append, List.nil_append, wordSum, offset,
        nothing]
      omega

section
variable {rawMsg : List Byte}

theorem wordSum_raw (offset : tcpHeaderLen ≤ claimedOffset rawMsg)
    (inside : claimedOffset rawMsg ≤ rawMsg.length) :
    wordSum rawMsg = wordSum (rawMsg.take tcpHeaderLen) + wordSum (options rawMsg) +
      wordSum (rawMsg.drop (claimedOffset rawMsg)) := by
  -- The raw segment is its header, its options and its data, all but the last of even length.
  have even : claimedOffset rawMsg % 2 = 0 := by
    simp only [claimedOffset, UInt8.toNat_mul, UInt8.reduceToNat]
    omega
  have header : rawMsg.take tcpHeaderLen ++ options rawMsg = rawMsg.take (claimedOffset rawMsg) := by
    have first : rawMsg.take tcpHeaderLen = (rawMsg.take (claimedOffset rawMsg)).take tcpHeaderLen := by
      rw [List.take_take, Nat.min_eq_left offset]
    rw [first, options, List.take_append_drop]
  have twenty : (rawMsg.take tcpHeaderLen).length % 2 = 0 := by
    rw [List.length_take_of_le (offset.trans inside), tcpHeaderLen]
  have whole : (rawMsg.take (claimedOffset rawMsg)).length % 2 = 0 := by
    rw [List.length_take_of_le inside, even]
  rw [← wordSum_append _ _ twenty, header, ← wordSum_append _ _ whole, List.take_append_drop]

/-! ## The check and the sum of the bytes received -/

attribute [local instance] Netstack.exact

/-- `isValidTcpCheckSum` of what `UnmarshalTcpPacket` extracts; nothing where that panics. -/
def verifies (rawMsg : List Byte) (sourceIP destIP : IntIP) : Option Bool :=
  (unmarshalTcpPacket rawMsg sourceIP).map fun p => isValidTcpCheckSum p.header sourceIP destIP p.data

/-- The sum over the pseudo header and all bytes received is 0xffff. -/
def SumsUp (rawMsg : List Byte) (sourceIP destIP : IntIP) : Prop :=
  Netstack.checksum (segmentPseudoHeader sourceIP destIP rawMsg.length ++ rawMsg) 0 = 0xffff

def received (rawMsg : List Byte) (sourceIP destIP : IntIP) : Nat :=
  wordSum (segmentPseudoHeader sourceIP destIP rawMsg.length) + wordSum rawMsg

theorem sumsUp_iff (sourceIP destIP : IntIP) :
    SumsUp rawMsg sourceIP destIP ↔ 65535 ∣ received rawMsg sourceIP destIP := by
  have positive : 0 < received rawMsg sourceIP destIP := by
    rw [received, wordSum_segmentPseudoHeader]
    omega
  have zero : (0 : UInt16).toNat = 0 := rfl
  rw [← fold_eq_ones positive, SumsUp, received]
  simp only [Netstack.checksum, zero, Nat.zero_add]
  rw [wordSum_append _ _ (by rw [segmentPseudoHeader_length])]

/-- The check is about the words received without those dropped. -/
theorem verifies_iff (offset : tcpHeaderLen ≤ claimedOffset rawMsg)
    (inside : claimedOffset rawMsg ≤ rawMsg.length) (sourceIP destIP : IntIP) :
    verifies rawMsg sourceIP destIP = some true ↔
      checksumField rawMsg ≠ 0xffff ∧ (65535 : Int) ∣ received rawMsg sourceIP destIP - dropped rawMsg := by
  have long : tcpHeaderLen ≤ rawMsg.length := offset.trans inside
  have enough : parsedLen ≤ rawMsg.length := Nat.le_trans (by decide) long
  obtain ⟨tcpHdr, parsed, dataOffset⟩ := parseTCPHeader_long enough
  obtain ⟨header, checksum⟩ := wordSum_parsed long parsed
  have whole := wordSum_raw offset inside
  have dataLength : (rawMsg.drop (claimedOffset rawMsg)).length = rawMsg.length - claimedOffset rawMsg :=
    List.length_drop
  rw [verifies, unmarshalTcpPacket, parsed, Option.bind_some, dataOffset, if_pos inside, Option.map_some,
    Option.some.injEq, isValidTcpCheckSum_iff, checksum, pseudoHeader_eq, wordSum_segmentPseudoHeader,
    dataLength]
  refine and_congr_right fun _ => ?_
  dsimp only
  rw [received, dropped, wordSum_segmentPseudoHeader]
  omega

theorem exists_address (rawMsg : List Byte) (target : Int) :
    ∃ sourceIP : IntIP, (65535 : Int) ∣ received rawMsg sourceIP 0 - target := by
  -- One address is enough to bring the sum to any value modulo 65535.
  obtain ⟨rest, isRest⟩ : ∃ rest : Int, received rawMsg 0 0 - target = rest := ⟨_, rfl⟩
  obtain ⟨small, isSmall, below⟩ : ∃ small : Nat, (-rest) % 65535 = small ∧ small < 65535 :=
    ⟨((-rest) % 65535).toNat, by omega⟩
  have words : IntIP.words (UInt32.ofNat small) = small := by
    rw [IntIP.words, UInt32.toNat_ofNat']
    omega
  have none : IntIP.words 0 = 0 := rfl
  refine ⟨UInt32.ofNat small, ?_⟩
  rw [received, wordSum_segmentPseudoHeader, none] at isRest ⊢
  rw [words]
  omega

/-- The check agrees with the sum of the bytes received, whatever the addresses are, exactly if the
checksum is not 0xffff and what parsing drops sums up to a multiple of 65535. -/
theorem verification_exact_iff (rawMsg : List Byte) (offset : tcpHeaderLen ≤ claimedOffset rawMsg)
    (inside : claimedOffset rawMsg ≤ rawMsg.length) :
    (∀ sourceIP destIP, verifies rawMsg sourceIP destIP = some true ↔ SumsUp rawMsg sourceIP destIP) ↔
      checksumField rawMsg ≠ 0xffff ∧ (65535 : Int) ∣ dropped rawMsg := by
  simp only [verifies_iff offset inside, sumsUp_iff]
  constructor
  · intro exact
    obtain ⟨sourceIP, full⟩ := exists_address rawMsg 0
    have regular := (exact sourceIP 0).mpr (by omega)
    exact ⟨regular.1, by omega⟩
  · rintro ⟨regular, nothing⟩ sourceIP destIP
    constructor
    · rintro ⟨_, sum⟩
      omega
    · intro sum
      exact ⟨regular, by omega⟩

instance (sourceIP destIP : IntIP) : Decidable (SumsUp rawMsg sourceIP destIP) :=
  inferInstanceAs (Decidable (_ = _))

def plainAck : List Byte := [0, 1, 0, 2, 0, 0, 0, 0, 0, 0, 0, 0, 0x50, 0x10, 0, 0, 0x12, 0x34, 0, 0]

theorem verification_exact_plainAck :
    checksumField plainAck = 0x1234 ∧
      ∀ sourceIP destIP, verifies plainAck sourceIP destIP = some true ↔ SumsUp plainAck sourceIP destIP :=
  ⟨by decide, (verification_exact_iff plainAck (by decide) (by decide)).mpr ⟨by decide, by decide⟩⟩

def ackWithOptions (checksum : UInt16) : List Byte :=
  -- An ACK with four bytes of options, all of them no-operation.
  [0, 1, 0, 2, 0, 0, 0, 0, 0, 0, 0, 0, 0x60, 0x10, 0, 0] ++ putUint16 checksum ++ [0, 0, 1, 1, 1, 1]

def ackOfOnes : List Byte := [0, 0, 0, 0, 0, 0, 0, 0, 0, 0, 0, 0, 0x50, 0x10, 0xaf, 0xd5, 0xff, 0xff, 0, 0]

/-- A right checksum over options is rejected and one that leaves them out is accepted; a right
checksum of 0xffff is rejected. -/
theorem verification_differs :
    SumsUp (ackWithOptions 0x9dcc) 0 0 ∧ verifies (ackWithOptions 0x9dcc) 0 0 = some false ∧
    ¬ SumsUp (ackWithOptions 0x9fd2) 0 0 ∧ verifies (ackWithOptions 0x9fd2) 0 0 = some true ∧
    SumsUp ackOfOnes 0 0 ∧ verifies ackOfOnes 0 0 = some false := by
  decide +kernel

/-! ## Round trip and single bits -/

theorem parseTCPHeader_layout {tcpHdr : TCPFields} (offset : tcpHdr.dataOffset = 20)
    (urgent : tcpHdr.urgentPointer = 0) (data : List Byte) :
    parseTCPHeader (layout tcpHdr ++ data) = some tcpHdr := by
  have twenty : ((20 : UInt8) / 4) <<< 4 >>> 4 * 4 = 20 := by decide
  simp only [layout, putUint16, putUint32, List.cons_append, List.nil_append, parseTCPHeader_bytes,
    uint16_put, uint32_put, offset, twenty]
  rw [← offset, ← urgent]

theorem unmarshalTcpPacket_marshal {p : TcpPacket} (offset : p.header.dataOffset = 20)
    (urgent : p.header.urgentPointer = 0) (srcIP : IntIP) :
    unmarshalTcpPacket p.marshal srcIP = some { p with srcIP := srcIP } := by
  have inside : (20 : UInt8).toNat ≤ (layout p.header ++ p.data).length := by
    rw [List.length_append, layout_length]
    exact Nat.le_add_right _ _
  simp only [unmarshalTcpPacket, TcpPacket.marshal, Netstack.encode, parseTCPHeader_layout offset urgent,
    Option.bind_some, offset, if_pos inside]
  have data : (layout p.header ++ p.data).drop (20 : UInt8).toNat = p.data :=
    List.drop_left' (layout_length p.header)
  rw [data]

structure Plain (rawMsg : List Byte) : Prop where
  offset : claimedOffset rawMsg = tcpHeaderLen
  inside : tcpHeaderLen ≤ rawMsg.length
  reserved : reservedBits rawMsg = 0
  urgent : urgentField rawMsg = 0

theorem Plain.verifies_iff (plain : Plain rawMsg) (sourceIP destIP : IntIP) :
    verifies rawMsg sourceIP destIP = some true ↔
      checksumField rawMsg ≠ 0xffff ∧ 65535 ∣ received rawMsg sourceIP destIP := by
  have none : options rawMsg = [] := by
    rw [options, plain.offset]
    exact List.drop_eq_nil_of_le (List.length_take_le _ _)
  have nothing : dropped rawMsg = 0 := by
    have inside := plain.inside
    rw [dropped, plain.reserved, plain.urgent, none, plain.offset, wordSum]
    omega
  rw [Tcp.verifies_iff (Nat.le_of_eq plain.offset.symm) (plain.offset ▸ plain.inside), nothing, Int.sub_zero]
  exact and_congr_right fun _ => Int.natCast_dvd_natCast

theorem marshal_offsetByte {p : TcpPacket} (offset : p.header.dataOffset = 20) :
    p.marshal.getD 12 0 = 0x50 := by
  have byte : p.marshal.getD 12 0 = (p.header.dataOffset / 4) <<< 4 := rfl
  rw [byte, offset]
  rfl

theorem marshal_plain {p : TcpPacket} (offset : p.header.dataOffset = 20)
    (urgent : p.header.urgentPointer = 0) : Plain p.marshal where
  offset := by
    rw [claimedOffset, marshal_offsetByte offset]
    rfl
  inside := by
    rw [TcpPacket.marshal, List.length_append]
    exact Nat.le_add_right 20 _
  reserved := by
    rw [reservedBits, marshal_offsetByte offset]
    rfl
  urgent := by
    have bytes : urgentField p.marshal = (uint16 (p.header.urgentPointer >>> 8).toUInt8
      p.header.urgentPointer.toUInt8).toNat := rfl
    rw [bytes, uint16_put, urgent]
    rfl

/-- The bytes of the data offset and of the urgent pointer, which parsing does not keep whole. -/
def notKept : List Nat := [12, 18, 19]

theorem Plain.flipBit (plain : Plain rawMsg) {position : Nat} (bit : Fin 8) (kept : position ∉ notKept) :
    Plain (Lib.Bytes.flipBit rawMsg position bit) := by
  simp only [notKept, List.mem_cons, List.not_mem_nil, or_false, not_or] at kept
  refine ⟨?_, ?_, ?_, ?_⟩
  · rw [claimedOffset, flipBit_getD bit kept.1]
    exact plain.offset
  · rw [flipBit_length]
    exact plain.inside
  · rw [reservedBits, flipBit_getD bit kept.1]
    exact plain.reserved
  · rw [urgentField, flipBit_getD bit kept.2.1, flipBit_getD bit kept.2.2]
    exact plain.urgent

theorem verifies_isSome (offset : claimedOffset rawMsg ≤ rawMsg.length) (long : tcpHeaderLen ≤ rawMsg.length)
    (sourceIP destIP : IntIP) : (verifies rawMsg sourceIP destIP).isSome := by
  rw [verifies, Option.isSome_map, unmarshalTcpPacket_isSome]
  exact ⟨Nat.le_trans (by decide) long, offset⟩

theorem not_dvd_power {k : Nat} (small : k < 16) : ¬ 65535 ∣ 2 ^ k := by
  have powers : ∀ k : Fin 16, ¬ 65535 ∣ 2 ^ k.val := by decide
  exact powers ⟨k, small⟩

/-- A segment that passes does not pass with one bit flipped. -/
theorem Plain.flipped_rejected (plain : Plain rawMsg) {sourceIP destIP : IntIP}
    (passes : verifies rawMsg sourceIP destIP = some true) {position : Nat} (bit : Fin 8)
    (inside : position < rawMsg.length) (kept : position ∉ notKept) :
    verifies (Lib.Bytes.flipBit rawMsg position bit) sourceIP destIP = some false := by
  have flipped := plain.flipBit bit kept
  obtain ⟨answer, is⟩ := Option.isSome_iff_exists.mp
    (verifies_isSome (flipped.offset ▸ flipped.inside) flipped.inside sourceIP destIP)
  cases answer with
  | false => exact is
  | true =>
      exfalso
      obtain ⟨_, before⟩ := (plain.verifies_iff sourceIP destIP).mp passes
      obtain ⟨_, after⟩ := (flipped.verifies_iff sourceIP destIP).mp is
      obtain ⟨k, small, changed⟩ := wordSum_flipBit bit inside
      apply not_dvd_power small
      rw [received, flipBit_length] at after
      rw [received] at before
      generalize 2 ^ k = power at changed ⊢
      omega

/-- A marshalled segment is read back unchanged; with its checksum it passes, and with one bit
flipped that parsing keeps it does not. -/
theorem segment_round_trip (p : TcpPacket) (offset : p.header.dataOffset = 20)
    (urgent : p.header.urgentPointer = 0) (sourceIP destIP : IntIP) :
    unmarshalTcpPacket p.marshal sourceIP = some { p with srcIP := sourceIP } ∧
    (p.header.checksum = computeTCPChecksum { p.header with checksum := 0 } sourceIP destIP p.data →
      isValidTcpCheckSum p.header sourceIP destIP p.data = true ∧
      ∀ (position : Nat) (bit : Fin 8), position < p.marshal.length → position ∉ notKept →
        verifies (Lib.Bytes.flipBit p.marshal position bit) sourceIP destIP = some false) := by
  have back := unmarshalTcpPacket_marshal offset urgent sourceIP
  refine ⟨back, fun sealed => ?_⟩
  have valid : isValidTcpCheckSum p.header sourceIP destIP p.data = true := by
    rw [isValidTcpCheckSum, beq_iff_eq]
    exact sealed.symm
  have passes : verifies p.marshal sourceIP destIP = some true := by
    rw [verifies, back, Option.map_some]
    exact congrArg some valid
  exact ⟨valid, fun position bit inside kept =>
    (marshal_plain offset urgent).flipped_rejected passes bit inside kept⟩

def oddSegment : TcpPacket :=
  TcpConn.seal { localIP := 0x0a000001, localPort := 1024, foreignIP := 0x0a000002, foreignPort := 80 }
    { srcPort := 1024, dstPort := 80, seqNum := 1, ackNum := 1, dataOffset := 20, flags := tcpFlagAck,
      windowSize := 65535, checksum := 0, urgentPointer := 0 } [1, 2, 3]

theorem segment_round_trip_odd :
    unmarshalTcpPacket oddSegment.marshal 0x0a000001 = some oddSegment ∧
      isValidTcpCheckSum oddSegment.header 0x0a000001 0x0a000002 oddSegment.data = true ∧
      verifies (Lib.Bytes.flipBit oddSegment.marshal 22 7) 0x0a000001 0x0a000002 = some false := by
  obtain ⟨back, detects⟩ := segment_round_trip oddSegment rfl rfl 0x0a000001 0x0a000002
  obtain ⟨valid, rejected⟩ := detects rfl
  exact ⟨back, valid, rejected 22 7 (by decide) (by decide)⟩

end

end IpTcp.Tcp
