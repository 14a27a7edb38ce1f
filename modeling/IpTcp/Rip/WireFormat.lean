import IpTcp.Rip.Packet

/-! The decoder of `rip.go` with every slice it takes, and the format it accepts. A slice or a
read out of range is told apart from `ErrMalformedPacket`: the checks on the length of the message
are there to exclude it. -/

set_option autoImplicit false

namespace IpTcp.Rip

open Lib.Bytes

inductive Failure where
  | errMalformedPacket
  | outOfRange
  deriving DecidableEq, Repr

def slice (b : List Byte) (low high : Nat) : Except Failure (List Byte) :=
  if low ≤ high ∧ high ≤ b.length then .ok ((b.drop low).take (high - low)) else .error .outOfRange

def bigEndianUint16 : List Byte → Except Failure UInt16
  | b0 :: b1 :: _ => .ok (uint16 b0 b1)
  | _ => .error .outOfRange

def bigEndianUint32 : List Byte → Except Failure UInt32
  | b0 :: b1 :: b2 :: b3 :: _ => .ok (uint32 b0 b1 b2 b3)
  | _ => .error .outOfRange

def decodeEntry (rawMsg : List Byte) (i : Nat) : Except Failure RipEntry := do
  let entryOffset := ripPacketHeaderSize + i * ripEntrySize
  let entryBytes ← slice rawMsg entryOffset (entryOffset + ripEntrySize)
  let cost ← bigEndianUint32 (← slice entryBytes 0 4)
  if cost > infinity then .error .errMalformedPacket
  else
    let destIP ← bigEndianUint32 (← slice entryBytes 4 8)
    let mask ← bigEndianUint32 (← slice entryBytes 8 entryBytes.length)
    return { cost := cost, destIP := destIP, mask := mask }

def decodeEntries (rawMsg : List Byte) : (left i : Nat) → List RipEntry → Except Failure (List RipEntry)
  -- `left` turns are to go, and the entries are those read so far.
  | 0, _, entries => .ok entries
  | left + 1, i, entries => do
      let entry ← decodeEntry rawMsg i
      decodeEntries rawMsg left (i + 1) (entries ++ [entry])

def decodeRipPacket (rawMsg : List Byte) : Except Failure RipPacket :=
  if rawMsg.length < ripPacketHeaderSize ∨ (rawMsg.length - ripPacketHeaderSize) % ripEntrySize ≠ 0 then
    .error .errMalformedPacket
  else do
    let command ← bigEndianUint16 (← slice rawMsg 0 2)
    if command ≠ commandRequest ∧ command ≠ commandResponse then .error .errMalformedPacket
    else
      let numEntries ← bigEndianUint16 (← slice rawMsg 2 4)
      if command = commandRequest ∧ numEntries ≠ 0 then .error .errMalformedPacket
      else
        let numEntriesInPacket := (rawMsg.length - ripPacketHeaderSize) / ripEntrySize
        if numEntriesInPacket ≠ numEntries.toNat ∨ numEntries > 64 then .error .errMalformedPacket
        else
          let entries ← decodeEntries rawMsg numEntriesInPacket 0 []
          return { command := command, entries := entries }

/-! ## No slice is out of range -/

theorem slice_append {b front : List Byte} (rest : List Byte) {low high : Nat}
    (here : b.drop low = front ++ rest) (length : front.length + low = high) (inside : low ≤ b.length) :
    slice b low high = .ok front := by
  have total := congrArg List.length here
  rw [List.length_drop, List.length_append] at total
  rw [slice, if_pos (by omega), here, List.take_left' (by omega)]

@[simp] theorem ok_bind {α β : Type} (value : α) (next : α → Except Failure β) :
    (Except.ok value >>= next) = next value := by
  simp only [bind, Except.bind]

theorem decodeEntry_here {rawMsg rest : List Byte} {i : Nat} {c0 c1 c2 c3 d0 d1 d2 d3 m0 m1 m2 m3 : Byte}
    (here : rawMsg.drop (ripPacketHeaderSize + i * ripEntrySize) =
      c0 :: c1 :: c2 :: c3 :: d0 :: d1 :: d2 :: d3 :: m0 :: m1 :: m2 :: m3 :: rest) :
    decodeEntry rawMsg i =
      if uint32 c0 c1 c2 c3 > infinity then .error .errMalformedPacket
      else .ok {
        cost := uint32 c0 c1 c2 c3, destIP := uint32 d0 d1 d2 d3, mask := uint32 m0 m1 m2 m3 } := by
  have inside : ripPacketHeaderSize + i * ripEntrySize ≤ rawMsg.length := by
    have total := congrArg List.length here
    simp only [List.length_drop, List.length_cons] at total
    omega
  have entry : slice rawMsg (ripPacketHeaderSize + i * ripEntrySize)
      (ripPacketHeaderSize + i * ripEntrySize + ripEntrySize) =
        .ok [c0, c1, c2, c3, d0, d1, d2, d3, m0, m1, m2, m3] :=
    slice_append rest here (by simp [ripEntrySize, Nat.add_comm]) inside
  have cost : slice [c0, c1, c2, c3, d0, d1, d2, d3, m0, m1, m2, m3] 0 4 = .ok [c0, c1, c2, c3] := rfl
  have destIP : slice [c0, c1, c2, c3, d0, d1, d2, d3, m0, m1, m2, m3] 4 8 = .ok [d0, d1, d2, d3] := rfl
  have mask : slice [c0, c1, c2, c3, d0, d1, d2, d3, m0, m1, m2, m3] 8
      [c0, c1, c2, c3, d0, d1, d2, d3, m0, m1, m2, m3].length = .ok [m0, m1, m2, m3] := rfl
  have reads (b0 b1 b2 b3 : Byte) : bigEndianUint32 [b0, b1, b2, b3] = .ok (uint32 b0 b1 b2 b3) := rfl
  simp only [decodeEntry, entry, ok_bind, cost, destIP, mask, reads]
  rfl

theorem decodeEntries_eq {rawMsg bytes : List Byte} {left : Nat} (i : Nat) (entries : List RipEntry)
    (here : rawMsg.drop (ripPacketHeaderSize + i * ripEntrySize) = bytes)
    (enough : ripEntrySize * left ≤ bytes.length) :
    decodeEntries rawMsg left i entries =
      match readEntries left bytes with
      | some more => .ok (entries ++ more)
      | none => .error .errMalformedPacket := by
  fun_induction readEntries left bytes generalizing i entries with
  | case1 bytes => simp [decodeEntries]
  | case2 n c0 c1 c2 c3 d0 d1 d2 d3 m0 m1 m2 m3 rest cost large =>
      rw [decodeEntries, decodeEntry_here here, if_pos large]
      rfl
  | case3 n c0 c1 c2 c3 d0 d1 d2 d3 m0 m1 m2 m3 rest cost finite ih =>
      have next : rawMsg.drop (ripPacketHeaderSize + (i + 1) * ripEntrySize) = rest := by
        have moved : ripPacketHeaderSize + (i + 1) * ripEntrySize =
            ripPacketHeaderSize + i * ripEntrySize + 12 := by
          rw [Nat.succ_mul, ripEntrySize, Nat.add_assoc]
        rw [moved, ← List.drop_drop, here]
        rfl
      have further := ih (i + 1) (entries ++ [{
        cost := cost, destIP := uint32 d0 d1 d2 d3, mask := uint32 m0 m1 m2 m3 }]) next (by
          simp only [List.length_cons, Nat.mul_succ, ripEntrySize] at enough
          simp only [ripEntrySize]
          omega)
      rw [decodeEntries, decodeEntry_here here, if_neg finite]
      refine further.trans ?_
      cases readEntries n rest <;> simp
  | case4 n bytes short =>
      -- fewer bytes than an entry has
      exfalso
      simp only [ripEntrySize, Nat.mul_succ] at enough
      rcases bytes with _ | ⟨c0, _ | ⟨c1, _ | ⟨c2, _ | ⟨c3, _ | ⟨d0, _ | ⟨d1, _ | ⟨d2, _ | ⟨d3,
        _ | ⟨m0, _ | ⟨m1, _ | ⟨m2, _ | ⟨m3, rest⟩⟩⟩⟩⟩⟩⟩⟩⟩⟩⟩⟩
      case cons => exact short c0 c1 c2 c3 d0 d1 d2 d3 m0 m1 m2 m3 rest rfl
      all_goals simp at enough

/-- The decoder with its slices never panics, and returns what the decoder without them returns. -/
theorem decodeRipPacket_eq (rawMsg : List Byte) :
    decodeRipPacket rawMsg =
      match unmarshalRipPacket rawMsg with
      | some p => .ok p
      | none => .error .errMalformedPacket := by
  unfold decodeRipPacket unmarshalRipPacket
  split
  · rfl
  rename_i whole
  obtain ⟨long, multiple⟩ := not_or.mp whole
  match rawMsg with
  | c0 :: c1 :: n0 :: n1 :: entryBytes =>
      have command : slice (c0 :: c1 :: n0 :: n1 :: entryBytes) 0 2 = .ok [c0, c1] :=
        slice_append (n0 :: n1 :: entryBytes) rfl rfl (Nat.zero_le _)
      have count : slice (c0 :: c1 :: n0 :: n1 :: entryBytes) 2 4 = .ok [n0, n1] :=
        slice_append entryBytes rfl rfl (Nat.le_add_left 2 _)
      -- The loop starts behind the header and turns once for every whole entry.
      have loop : decodeEntries (c0 :: c1 :: n0 :: n1 :: entryBytes)
          (((c0 :: c1 :: n0 :: n1 :: entryBytes).length - ripPacketHeaderSize) / ripEntrySize) 0 [] = _ :=
        decodeEntries_eq 0 [] rfl (Nat.mul_div_le _ _)
      simp only [command, count, ok_bind, bigEndianUint16]
      split
      · rfl
      split
      · rfl
      split
      · rfl
      rw [loop]
      have rest : (c0 :: c1 :: n0 :: n1 :: entryBytes).drop (ripPacketHeaderSize + 0 * ripEntrySize) =
        entryBytes := rfl
      rw [rest]
      cases readEntries _ entryBytes <;> rfl
  | [] | [_] | [_, _] | [_, _, _] => exact absurd (by simp [ripPacketHeaderSize]) long

/-! ## The format -/

/-- An entry on the wire: twelve bytes, of which the first four are a cost up to infinity. -/
def EntryFormat (bytes : List Byte) : Prop :=
  bytes.length = 12 ∧ ∃ cost, putUint32 cost <+: bytes ∧ cost ≤ infinity

def PacketFormat (bytes : List Byte) : Prop :=
  ∃ (command count : UInt16) (entries : List (List Byte)),
    bytes = putUint16 command ++ putUint16 count ++ entries.flatten ∧
    (command = commandRequest ∨ command = commandResponse) ∧
    count ≤ 64 ∧ (command = commandRequest → count = 0) ∧
    entries.length = count.toNat ∧ ∀ entry ∈ entries, EntryFormat entry

theorem entryFormat_iff {bytes : List Byte} :
    EntryFormat bytes ↔ ∃ entry : RipEntry, entry.marshal = bytes ∧ entry.cost ≤ infinity := by
  constructor
  · rintro ⟨length, cost, ⟨rest, rfl⟩, finite⟩
    have eight : rest.length = 8 := by
      simp only [List.length_append, putUint32, List.length_cons, List.length_nil] at length
      omega
    obtain ⟨d0, d1, d2, d3, m0, m1, m2, m3, rfl⟩ : ∃ d0 d1 d2 d3 m0 m1 m2 m3,
        rest = [d0, d1, d2, d3, m0, m1, m2, m3] := by
      rcases rest with _ | ⟨d0, _ | ⟨d1, _ | ⟨d2, _ | ⟨d3, _ | ⟨m0, _ | ⟨m1, _ | ⟨m2, _ | ⟨m3,
        _ | ⟨_, _⟩⟩⟩⟩⟩⟩⟩⟩⟩
      all_goals simp at eight
      exact ⟨d0, d1, d2, d3, m0, m1, m2, m3, rfl⟩
    refine ⟨{ cost := cost, destIP := uint32 d0 d1 d2 d3, mask := uint32 m0 m1 m2 m3 }, ?_, finite⟩
    simp only [RipEntry.marshal, put_uint32, List.append_assoc, List.cons_append, List.nil_append]
  · rintro ⟨entry, rfl, finite⟩
    refine ⟨rfl, entry.cost, ?_, finite⟩
    rw [RipEntry.marshal, List.append_assoc]
    exact List.prefix_append _ _

theorem entryFormats_iff {pieces : List (List Byte)} :
    (∀ piece ∈ pieces, EntryFormat piece) ↔ ∃ entries : List RipEntry,
      entries.map RipEntry.marshal = pieces ∧ ∀ entry ∈ entries, entry.cost ≤ infinity := by
  induction pieces with
  | nil => simp
  | cons piece rest ih =>
      rw [List.forall_mem_cons, ih, entryFormat_iff]
      constructor
      · rintro ⟨⟨entry, rfl, finite⟩, entries, rfl, others⟩
        exact ⟨entry :: entries, rfl, List.forall_mem_cons.mpr ⟨finite, others⟩⟩
      · rintro ⟨entries, written, finite⟩
        obtain ⟨entry, others, rfl, rfl, rfl⟩ := List.map_eq_cons_iff.mp written
        obtain ⟨here, further⟩ := List.forall_mem_cons.mp finite
        exact ⟨⟨entry, rfl, here⟩, others, rfl, further⟩

/-- The format is what the encoder writes for messages of at most 64 entries. -/
theorem packetFormat_iff {bytes : List Byte} :
    PacketFormat bytes ↔ ∃ p : RipPacket, p.Emitted ∧ p.entries.length ≤ 64 ∧ p.marshal = bytes := by
  constructor
  · rintro ⟨command, count, pieces, rfl, known, few, empty, length, formats⟩
    obtain ⟨entries, rfl, finite⟩ := entryFormats_iff.mp formats
    rw [List.length_map] at length
    refine ⟨{ command := command, entries := entries }, ⟨?_, finite⟩, ?_, ?_⟩
    · rcases known with request | response
      · rw [empty request] at length
        exact Or.inl ⟨request, List.eq_nil_of_length_eq_zero length⟩
      · exact Or.inr response
    · rw [length]
      exact UInt16.le_iff_toNat_le.mp few
    · simp only [RipPacket.marshal, length, UInt16.ofNat_toNat, List.flatMap]
  · rintro ⟨p, emitted, few, rfl⟩
    have count : (UInt16.ofNat p.entries.length).toNat = p.entries.length := by
      rw [UInt16.toNat_ofNat']
      omega
    refine ⟨p.command, UInt16.ofNat p.entries.length, p.entries.map RipEntry.marshal, rfl, ?_, ?_, ?_, ?_,
      entryFormats_iff.mpr ⟨p.entries, rfl, emitted.finite⟩⟩
    · exact emitted.command.imp And.left id
    · rw [UInt16.le_iff_toNat_le, count]
      exact few
    · intro request
      rcases emitted.command with ⟨_, none⟩ | response
      · rw [none]
        rfl
      · rw [response] at request
        exact absurd request (by decide)
    · rw [List.length_map, count]

theorem decodeRipPacket_ok {rawMsg : List Byte} {p : RipPacket} :
    decodeRipPacket rawMsg = .ok p ↔ p.Emitted ∧ p.entries.length ≤ 64 ∧ p.marshal = rawMsg := by
  rw [decodeRipPacket_eq, ← unmarshal_iff]
  cases unmarshalRipPacket rawMsg <;> simp

/-- The decoder accepts the format and nothing else, what it accepts is what the encoder writes
for the packet it returns, so that one byte string at most is decoded to a packet, and it takes no
slice out of range. -/
theorem decode_canonical (b : List Byte) :
    ((∃ p, decodeRipPacket b = .ok p) ↔ PacketFormat b) ∧
    (∀ p, decodeRipPacket b = .ok p → p.marshal = b ∧ ∀ other, decodeRipPacket other = .ok p → other = b) ∧
    decodeRipPacket b ≠ .error .outOfRange := by
  refine ⟨?_, ?_, ?_⟩
  · simp only [packetFormat_iff, decodeRipPacket_ok]
  · intro p read
    obtain ⟨_, _, written⟩ := decodeRipPacket_ok.mp read
    refine ⟨written, fun other readOther => ?_⟩
    exact (decodeRipPacket_ok.mp readOther).2.2.symm.trans written
  · rw [decodeRipPacket_eq]
    cases unmarshalRipPacket b <;> simp

end IpTcp.Rip
