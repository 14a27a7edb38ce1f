import IpTcp.Lib.Stream
import IpTcp.Tcp.Types

/-! Lists of segments that carry one stream: how they are numbered, what they carry,
and what they occupy while they are in flight. -/

set_option autoImplicit false

namespace IpTcp.Tcp

open Lib

def payloads (packets : List TcpPacket) : List Byte := packets.flatMap (·.data)

@[simp] theorem payloads_nil : payloads [] = [] := rfl

@[simp] theorem payloads_append (first rest : List TcpPacket) :
    payloads (first ++ rest) = payloads first ++ payloads rest := by
  simp [payloads]

@[simp] theorem payloads_cons (packet : TcpPacket) (rest : List TcpPacket) :
    payloads (packet :: rest) = packet.data ++ payloads rest := by
  simp [payloads]

/-- The segments carry a stream from `offset` on: each starts where the one before ends. -/
def Contiguous (isn : UInt32) : (offset : Nat) → List TcpPacket → Prop
  | _, [] => True
  | offset, packet :: rest =>
      packet.header.seqNum = isn + 1 + UInt32.ofNat offset ∧
        Contiguous isn (offset + packet.data.length) rest

theorem contiguous_append (isn : UInt32) (offset : Nat) (first rest : List TcpPacket) :
    Contiguous isn offset (first ++ rest) ↔
      Contiguous isn offset first ∧ Contiguous isn (offset + (payloads first).length) rest := by
  induction first generalizing offset with
  | nil => simp [Contiguous]
  | cons packet first ih =>
      simp only [List.cons_append, Contiguous, ih, payloads_cons, List.length_append, and_assoc,
        Nat.add_assoc]

theorem Contiguous.seqNum {isn : UInt32} {before after : List TcpPacket} {packet : TcpPacket}
    (contiguous : Contiguous isn 0 (before ++ packet :: after)) :
    packet.header.seqNum = isn + 1 + UInt32.ofNat (payloads before).length := by
  have split := (contiguous_append isn 0 before (packet :: after)).mp contiguous
  rw [Nat.zero_add] at split
  exact split.2.1

structure IsData (packet : TcpPacket) : Prop where
  flags : packet.header.flags = tcpFlagAck
  nonempty : 1 ≤ packet.data.length
  bounded : packet.data.length ≤ tcpMaxSegmentSize

structure IsFin (packet : TcpPacket) : Prop where
  flags : packet.header.flags = tcpFlagFin
  empty : packet.data = []

theorem hasFin_of_ack {packet : TcpPacket} (flags : packet.header.flags = tcpFlagAck) :
    packet.hasFin = false := by
  simp only [TcpPacket.hasFin, flags]
  decide

theorem IsData.hasFin {packet : TcpPacket} (data : IsData packet) : packet.hasFin = false :=
  hasFin_of_ack data.flags

theorem IsFin.hasFin {packet : TcpPacket} (fin : IsFin packet) : packet.hasFin = true := by
  simp only [TcpPacket.hasFin, fin.flags]
  decide

theorem IsData.payloadSize {packet : TcpPacket} (data : IsData packet) :
    packet.payloadSize = packet.data.length := by
  have := data.nonempty
  simp only [TcpPacket.payloadSize]
  rw [if_neg (by omega)]

theorem IsFin.payloadSize {packet : TcpPacket} (fin : IsFin packet) : packet.payloadSize = 1 := by
  simp [TcpPacket.payloadSize, fin.empty]

def Segments (finished : Prop) (packets : List TcpPacket) : Prop :=
  ∃ data fin, packets = data ++ fin ∧ (∀ packet ∈ data, IsData packet) ∧
    ((finished ∧ ∃ packet, IsFin packet ∧ fin = [packet]) ∨ (¬ finished ∧ fin = []))

theorem Segments.before {finished : Prop} {before after : List TcpPacket} {packet : TcpPacket}
    (segments : Segments finished (before ++ packet :: after)) :
    (∀ other ∈ before, IsData other) ∧
      (IsData packet ∨ (finished ∧ IsFin packet ∧ after = [])) := by
  obtain ⟨data, fin, split, isData, kind⟩ := segments
  rcases kind with ⟨done, last, isFin, rfl⟩ | ⟨_, rfl⟩
  · rcases List.eq_nil_or_concat after with rfl | ⟨init, final, rfl⟩
    · obtain ⟨rfl, same⟩ := List.append_inj' split rfl
      obtain rfl : packet = last := by simpa using same
      exact ⟨isData, Or.inr ⟨done, isFin, rfl⟩⟩
    · have regroup : (before ++ packet :: init) ++ [final] = data ++ [last] := by
        simpa using split
      obtain ⟨rfl, _⟩ := List.append_inj' regroup rfl
      exact ⟨fun other member => isData other (by simp [member]), Or.inl (isData packet (by simp))⟩
  · rw [List.append_nil] at split
    subst split
    exact ⟨fun other member => isData other (by simp [member]), Or.inl (isData packet (by simp))⟩

theorem Segments.mem {finished : Prop} {packets : List TcpPacket} {packet : TcpPacket}
    (segments : Segments finished packets) (member : packet ∈ packets) :
    IsData packet ∨ (finished ∧ IsFin packet) := by
  obtain ⟨before, after, rfl⟩ := List.append_of_mem member
  rcases segments.before.2 with data | ⟨done, fin, _⟩
  · exact Or.inl data
  · exact Or.inr ⟨done, fin⟩

theorem Segments.snoc_data {packets : List TcpPacket} {packet : TcpPacket}
    (segments : Segments False packets) (data : IsData packet) : Segments False (packets ++ [packet]) := by
  obtain ⟨front, fin, rfl, isData, ⟨done, _⟩ | ⟨_, rfl⟩⟩ := segments
  · exact done.elim
  · refine ⟨front ++ [packet], [], by simp, ?_, Or.inr ⟨not_false, rfl⟩⟩
    intro other member
    rcases List.mem_append.mp member with early | last
    · exact isData other early
    · rw [List.mem_singleton] at last
      exact last ▸ data

theorem Segments.snoc_fin {packets : List TcpPacket} {packet : TcpPacket}
    (segments : Segments False packets) (fin : IsFin packet) : Segments True (packets ++ [packet]) := by
  obtain ⟨front, rest, rfl, isData, ⟨done, _⟩ | ⟨_, rfl⟩⟩ := segments
  · exact done.elim
  · exact ⟨front, [packet], by simp, isData, Or.inl ⟨trivial, packet, fin, rfl⟩⟩

/-- What the items of a list occupy in `HandlePacket`'s accounting. -/
def occupied : List TcpPacket → Nat
  | [] => 0
  | packet :: rest => packet.payloadSize + occupied rest

@[simp] theorem occupied_nil : occupied [] = 0 := rfl

@[simp] theorem occupied_cons (packet : TcpPacket) (rest : List TcpPacket) :
    occupied (packet :: rest) = packet.payloadSize + occupied rest := rfl

@[simp] theorem occupied_append (first rest : List TcpPacket) :
    occupied (first ++ rest) = occupied first + occupied rest := by
  induction first with
  | nil => simp
  | cons packet others ih => rw [List.cons_append, occupied_cons, occupied_cons, ih, Nat.add_assoc]

theorem occupied_of_data {packets : List TcpPacket} (data : ∀ packet ∈ packets, IsData packet) :
    occupied packets = (payloads packets).length := by
  induction packets with
  | nil => rfl
  | cons packet rest ih =>
      rw [occupied_cons, payloads_cons, List.length_append, (data packet (by simp)).payloadSize,
        ih fun other member => data other (by simp [member])]

end IpTcp.Tcp
