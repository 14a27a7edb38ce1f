import IpTcp.Lib.Bytes
import IpTcp.Tcp.Types

/-! `ParseTCPHeader` and `UnmarshalTcpPacket`. The accessors of netstack's `header.TCP` index the
message at fixed offsets and check nothing; where the message is too short they panic, for which
nothing is returned. -/

set_option autoImplicit false

namespace IpTcp.Tcp

open Lib.Bytes

/-! ## The accessors of `header.TCP` -/

def readByte (b : List Byte) (offset : Nat) : Option Byte := b[offset]?

def readUint16 (b : List Byte) (offset : Nat) : Option UInt16 :=
  match b.drop offset with
  | b0 :: b1 :: _ => some (uint16 b0 b1)
  | _ => none

def readUint32 (b : List Byte) (offset : Nat) : Option UInt32 :=
  match b.drop offset with
  | b0 :: b1 :: b2 :: b3 :: _ => some (uint32 b0 b1 b2 b3)
  | _ => none

def parseTCPHeader (b : List Byte) : Option TCPFields := do
  let srcPort ← readUint16 b 0
  let dstPort ← readUint16 b 2
  let seqNum ← readUint32 b 4
  let ackNum ← readUint32 b 8
  let dataOffset ← readByte b 12
  let flags ← readByte b 13
  let windowSize ← readUint16 b 14
  let checksum ← readUint16 b 16
  -- The urgent pointer is not read.
  return {
    srcPort := srcPort
    dstPort := dstPort
    seqNum := seqNum
    ackNum := ackNum
    dataOffset := (dataOffset >>> 4) * 4
    flags := flags
    windowSize := windowSize
    checksum := checksum
    urgentPointer := 0 }

def unmarshalTcpPacket (rawMsg : List Byte) (srcIP : IntIP) : Option TcpPacket :=
  (parseTCPHeader rawMsg).bind fun tcpHeader =>
    -- `rawMsg[tcpHeader.DataOffset:]`
    if tcpHeader.dataOffset.toNat ≤ rawMsg.length then
      some { srcIP := srcIP, header := tcpHeader, data := rawMsg.drop tcpHeader.dataOffset.toNat }
    else none

/-! ## What they need -/

theorem readUint16_isSome (b : List Byte) (offset : Nat) :
    (readUint16 b offset).isSome ↔ offset + 2 ≤ b.length := by
  have length := @List.length_drop _ offset b
  unfold readUint16
  split
  · rename_i b0 b1 rest split
    rw [split] at length
    simp only [List.length_cons] at length
    simp only [Option.isSome_some, true_iff]
    omega
  · rename_i short
    simp only [Option.isSome_none, Bool.false_eq_true, false_iff]
    intro enough
    match split : b.drop offset with
    | [] => simp only [split, List.length_nil] at length; omega
    | [_] => simp only [split, List.length_singleton] at length; omega
    | b0 :: b1 :: rest => exact short b0 b1 rest split

theorem readUint32_isSome {b : List Byte} {offset : Nat} (enough : offset + 4 ≤ b.length) :
    (readUint32 b offset).isSome := by
  have length := @List.length_drop _ offset b
  unfold readUint32
  match b.drop offset, length with
  | [], length => simp only [List.length_nil] at length; omega
  | [_], length => simp only [List.length_singleton] at length; omega
  | [_, _], length => simp only [List.length_cons, List.length_nil] at length; omega
  | [_, _, _], length => simp only [List.length_cons, List.length_nil] at length; omega
  | _ :: _ :: _ :: _ :: _, _ => rfl

/-- The length of a header up to the last field that is read, the checksum. -/
def parsedLen : Nat := 18

def claimedOffset (rawMsg : List Byte) : Nat := ((rawMsg.getD 12 0 >>> 4) * 4).toNat

theorem parseTCPHeader_long {b : List Byte} (enough : parsedLen ≤ b.length) :
    ∃ tcpHeader, parseTCPHeader b = some tcpHeader ∧ tcpHeader.dataOffset.toNat = claimedOffset b := by
  unfold parsedLen at enough
  obtain ⟨srcPort, src⟩ := Option.isSome_iff_exists.mp ((readUint16_isSome b 0).mpr (by omega))
  obtain ⟨dstPort, dst⟩ := Option.isSome_iff_exists.mp ((readUint16_isSome b 2).mpr (by omega))
  obtain ⟨seqNum, seq⟩ := Option.isSome_iff_exists.mp (@readUint32_isSome b 4 (by omega))
  obtain ⟨ackNum, ack⟩ := Option.isSome_iff_exists.mp (@readUint32_isSome b 8 (by omega))
  have offset : readByte b 12 = some b[12] := List.getElem?_eq_getElem _
  have flags : readByte b 13 = some b[13] := List.getElem?_eq_getElem _
  obtain ⟨windowSize, window⟩ := Option.isSome_iff_exists.mp ((readUint16_isSome b 14).mpr (by omega))
  obtain ⟨checksum, sum⟩ := Option.isSome_iff_exists.mp ((readUint16_isSome b 16).mpr (by omega))
  refine ⟨_, by simp only [parseTCPHeader, src, dst, seq, ack, offset, flags, window, sum]; rfl, ?_⟩
  rw [claimedOffset, List.getD_eq_getElem?_getD, List.getElem?_eq_getElem, Option.getD_some]

theorem parseTCPHeader_short {b : List Byte} (short : b.length < parsedLen) : parseTCPHeader b = none := by
  -- The checksum is the last field that is read, so it decides about the others.
  have last : readUint16 b 16 = none := by
    rw [← Option.not_isSome_iff_eq_none, readUint16_isSome]
    unfold parsedLen at short
    omega
  unfold parseTCPHeader
  rw [last]
  simp only [Option.bind_eq_bind, Option.bind_none, Option.bind_fun_none]

/-- A message is read without a panic exactly if it is long enough for the fields up to the
checksum, and for the data offset that it claims. -/
theorem unmarshalTcpPacket_isSome (rawMsg : List Byte) (srcIP : IntIP) :
    (unmarshalTcpPacket rawMsg srcIP).isSome ↔
      parsedLen ≤ rawMsg.length ∧ claimedOffset rawMsg ≤ rawMsg.length := by
  unfold unmarshalTcpPacket
  by_cases enough : parsedLen ≤ rawMsg.length
  · obtain ⟨tcpHeader, parsed, offset⟩ := parseTCPHeader_long enough
    rw [parsed, Option.bind_some, offset]
    split <;> simp_all
  · rw [parseTCPHeader_short (Nat.lt_of_not_le enough)]
    simp [enough]

end IpTcp.Tcp
