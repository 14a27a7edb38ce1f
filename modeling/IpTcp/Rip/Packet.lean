import IpTcp.Lib.Bytes

/-! The RIP messages of `rip.go` and their wire format. The encoder writes whatever number of
entries it is given; the decoder takes up to 64 of them, with costs up to infinity. -/

set_option autoImplicit false

namespace IpTcp.Rip

open Lib.Bytes

def ripEntrySize : Nat := 12
def ripPacketHeaderSize : Nat := 4
def commandRequest : UInt16 := 1
def commandResponse : UInt16 := 2

def infinity : UInt32 := 16

structure RipEntry where
  cost : UInt32
  destIP : UInt32
  mask : UInt32
  deriving DecidableEq, Repr

structure RipPacket where
  command : UInt16
  entries : List RipEntry
  deriving DecidableEq, Repr

def RipEntry.marshal (entry : RipEntry) : List Byte :=
  putUint32 entry.cost ++ putUint32 entry.destIP ++ putUint32 entry.mask

/-- `Marshal`, which returns no error: writing to a `bytes.Buffer` does not fail. -/
def RipPacket.marshal (p : RipPacket) : List Byte :=
  putUint16 p.command ++ putUint16 (UInt16.ofNat p.entries.length) ++ p.entries.flatMap RipEntry.marshal

def readEntries : (numEntriesInPacket : Nat) → List Byte → Option (List RipEntry)
  | 0, _ => some []
  | n + 1, c0 :: c1 :: c2 :: c3 :: d0 :: d1 :: d2 :: d3 :: m0 :: m1 :: m2 :: m3 :: rest =>
      let cost := uint32 c0 c1 c2 c3
      if cost > infinity then none
      else (readEntries n rest).map
        ({ cost := cost, destIP := uint32 d0 d1 d2 d3, mask := uint32 m0 m1 m2 m3 } :: ·)
  -- a slice out of range, which the length of the message excludes
  | _ + 1, _ => none

/-- Nothing is returned for `ErrMalformedPacket`. -/
def unmarshalRipPacket (rawMsg : List Byte) : Option RipPacket :=
  if rawMsg.length < ripPacketHeaderSize ∨ (rawMsg.length - ripPacketHeaderSize) % ripEntrySize ≠ 0 then
    none
  else
    match rawMsg with
    | c0 :: c1 :: n0 :: n1 :: entryBytes =>
        let command := uint16 c0 c1
        let numEntries := uint16 n0 n1
        let numEntriesInPacket := (rawMsg.length - ripPacketHeaderSize) / ripEntrySize
        if command ≠ commandRequest ∧ command ≠ commandResponse then none
        else if command = commandRequest ∧ numEntries ≠ 0 then none
        else if numEntriesInPacket ≠ numEntries.toNat ∨ numEntries > 64 then none
        else (readEntries numEntriesInPacket entryBytes).map fun entries =>
          { command := command, entries := entries }
    | _ => none

@[simp] theorem RipEntry.marshal_length (entry : RipEntry) : entry.marshal.length = 12 := rfl

theorem marshalEntries_length (entries : List RipEntry) :
    (entries.flatMap RipEntry.marshal).length = 12 * entries.length := by
  induction entries with
  | nil => rfl
  | cons entry rest ih =>
      rw [List.flatMap_cons, List.length_append, ih, RipEntry.marshal_length, List.length_cons]
      omega

theorem readEntries_marshal (entries : List RipEntry) (finite : ∀ entry ∈ entries, entry.cost ≤ infinity) :
    readEntries entries.length (entries.flatMap RipEntry.marshal) = some entries := by
  induction entries with
  | nil => rfl
  | cons entry rest ih =>
      have small : ¬ entry.cost > infinity := UInt32.not_lt.mpr (finite entry List.mem_cons_self)
      have further := ih fun other member => finite other (List.mem_cons_of_mem _ member)
      rw [List.flatMap_cons, List.length_cons]
      simp only [RipEntry.marshal, putUint32, List.cons_append, List.nil_append, readEntries,
        uint32_put, small, if_false, further, Option.map_some]

/-- A message that the sender can build: a request is empty, and no cost exceeds infinity. -/
structure RipPacket.Emitted (p : RipPacket) : Prop where
  command : p.command = commandRequest ∧ p.entries = [] ∨ p.command = commandResponse
  finite : ∀ entry ∈ p.entries, entry.cost ≤ infinity

/-- A message that can be built is read back exactly if it has no more than 64 entries; otherwise it is
malformed, also where the count on the wire has wrapped around. -/
theorem unmarshal_marshal (p : RipPacket) (emitted : p.Emitted) :
    unmarshalRipPacket p.marshal = if p.entries.length ≤ 64 then some p else none := by
  have size : p.marshal.length = 4 + 12 * p.entries.length := by
    rw [RipPacket.marshal, List.length_append, marshalEntries_length]
    rfl
  have whole : ¬ (p.marshal.length < ripPacketHeaderSize ∨
      (p.marshal.length - ripPacketHeaderSize) % ripEntrySize ≠ 0) := by
    rw [size, ripPacketHeaderSize, ripEntrySize]
    omega
  have count : (p.marshal.length - ripPacketHeaderSize) / ripEntrySize = p.entries.length := by
    rw [size, ripPacketHeaderSize, ripEntrySize]
    omega
  unfold unmarshalRipPacket
  rw [if_neg whole, count]
  simp only [RipPacket.marshal, putUint16, List.cons_append, List.nil_append, uint16_put]
  have known : ¬ (p.command ≠ commandRequest ∧ p.command ≠ commandResponse) := by
    rcases emitted.command with ⟨request, _⟩ | response
    · simp [request]
    · simp [response]
  have empty : ¬ (p.command = commandRequest ∧ UInt16.ofNat p.entries.length ≠ 0) := by
    rcases emitted.command with ⟨_, none⟩ | response
    · simp [none]
    · rw [response]
      rintro ⟨same, _⟩
      exact absurd same (by decide)
  rw [if_neg known, if_neg empty, readEntries_marshal p.entries emitted.finite]
  by_cases few : p.entries.length ≤ 64
  · have fits : ¬ (p.entries.length ≠ (UInt16.ofNat p.entries.length).toNat ∨
        UInt16.ofNat p.entries.length > 64) := by
      have value : (UInt16.ofNat p.entries.length).toNat = p.entries.length := by
        rw [UInt16.toNat_ofNat']
        omega
      rw [gt_iff_lt, UInt16.lt_iff_toNat_lt, value]
      simpa using few
    rw [if_neg fits, if_pos few]
    rfl
  · -- The count is above 64, or has wrapped around and disagrees with the length.
    have many : p.entries.length ≠ (UInt16.ofNat p.entries.length).toNat ∨
        UInt16.ofNat p.entries.length > 64 := by
      rw [gt_iff_lt, UInt16.lt_iff_toNat_lt]
      have bound : (64 : UInt16).toNat = 64 := rfl
      omega
    rw [if_pos many, if_neg few]

theorem readEntries_some {count : Nat} {bytes : List Byte} {entries : List RipEntry}
    (read : readEntries count bytes = some entries) :
    entries.length = count ∧ (∀ entry ∈ entries, entry.cost ≤ infinity) ∧
      entries.flatMap RipEntry.marshal = bytes.take (12 * count) := by
  fun_induction readEntries count bytes generalizing entries with
  | case1 _ =>
      cases read
      simp
  | case2 => cases read
  | case3 =>
      rename_i cost finite ih
      obtain ⟨later, further, rfl⟩ := Option.map_eq_some_iff.mp read
      obtain ⟨length, small, written⟩ := ih further
      refine ⟨by rw [List.length_cons, length], ?_, ?_⟩
      · intro entry member
        rcases List.mem_cons.mp member with rfl | rest
        · exact UInt32.not_lt.mp finite
        · exact small entry rest
      · rw [List.flatMap_cons, written, Nat.mul_succ]
        simp only [RipEntry.marshal, cost, put_uint32, List.cons_append, List.nil_append,
          List.take_succ_cons]
  | case4 => cases read

/-- The decoder accepts what the encoder writes for a message that can have been built, of at
most 64 entries, and nothing else. -/
theorem unmarshal_iff {rawMsg : List Byte} {p : RipPacket} :
    unmarshalRipPacket rawMsg = some p ↔ p.Emitted ∧ p.entries.length ≤ 64 ∧ p.marshal = rawMsg := by
  constructor
  · intro read
    unfold unmarshalRipPacket at read
    split at read
    · cases read
    rename_i whole
    split at read
    · rename_i c0 c1 n0 n1 entryBytes
      dsimp only at read
      split at read
      · cases read
      rename_i known
      split at read
      · cases read
      rename_i empty
      split at read
      · cases read
      rename_i few
      obtain ⟨entries, found, rfl⟩ := Option.map_eq_some_iff.mp read
      obtain ⟨length, finite, written⟩ := readEntries_some found
      simp only [List.length_cons, ripPacketHeaderSize, ripEntrySize] at whole few length written
      obtain ⟨same, bound⟩ := not_or.mp few
      have count : entries.length = (uint16 n0 n1).toNat := by omega
      have most : (uint16 n0 n1).toNat ≤ 64 := UInt16.le_iff_toNat_le.mp (UInt16.not_lt.mp bound)
      refine ⟨⟨?_, finite⟩, by dsimp only; omega, ?_⟩
      · -- A request has a count of zero, which leaves no entries.
        by_cases request : uint16 c0 c1 = commandRequest
        · have none : (uint16 n0 n1).toNat = 0 := by
            rw [not_not.mp fun some => empty ⟨request, some⟩]
            rfl
          exact Or.inl ⟨request, List.eq_nil_of_length_eq_zero (count.trans none)⟩
        · exact Or.inr (not_not.mp fun other => known ⟨request, other⟩)
      · simp only [RipPacket.marshal, written, count, UInt16.ofNat_toNat, put_uint16]
        rw [List.take_of_length_le (by omega)]
        rfl
    · cases read
  · rintro ⟨emitted, few, rfl⟩
    rw [unmarshal_marshal p emitted, if_pos few]

theorem unmarshal_some {rawMsg : List Byte} {p : RipPacket} (read : unmarshalRipPacket rawMsg = some p) :
    p.entries.length ≤ 64 ∧ (∀ entry ∈ p.entries, entry.cost ≤ infinity) ∧
      (p.command ≠ commandRequest → p.command = commandResponse) := by
  obtain ⟨emitted, few, _⟩ := unmarshal_iff.mp read
  exact ⟨few, emitted.finite, fun other => emitted.command.resolve_left fun request => other request.1⟩

/-! ## Messages that were cut off -/

theorem readEntries_cut {count : Nat} {bytes : List Byte} {entries read : List RipEntry}
    (cut : bytes <+: entries.flatMap RipEntry.marshal) (found : readEntries count bytes = some read) :
    read <+: entries := by
  fun_induction readEntries count bytes generalizing entries read with
  | case1 _ =>
      cases found
      exact List.nil_prefix
  | case2 => cases found
  | case3 =>
      rename_i cost _ ih
      obtain ⟨later, further, rfl⟩ := Option.map_eq_some_iff.mp found
      cases entries with
      | nil => simp at cut
      | cons entry rest =>
          simp only [List.flatMap_cons, RipEntry.marshal, putUint32, List.cons_append, List.nil_append,
            List.cons_prefix_cons] at cut
          obtain ⟨rfl, rfl, rfl, rfl, rfl, rfl, rfl, rfl, rfl, rfl, rfl, rfl, cut⟩ := cut
          refine List.cons_prefix_cons.mpr ⟨?_, ih cut further⟩
          simp only [cost, uint32_put]
  | case4 => cases found

theorem unmarshal_cut {rawMsg : List Byte} {p read : RipPacket} (cut : rawMsg <+: p.marshal)
    (found : unmarshalRipPacket rawMsg = some read) :
    read.command = p.command ∧ read.entries <+: p.entries := by
  unfold unmarshalRipPacket at found
  split at found
  · cases found
  split at found
  · simp only [RipPacket.marshal, putUint16, List.cons_append, List.nil_append, List.cons_prefix_cons] at cut
    obtain ⟨rfl, rfl, rfl, rfl, cut⟩ := cut
    simp only [uint16_put] at found
    split at found
    · cases found
    split at found
    · cases found
    split at found
    · cases found
    obtain ⟨entries, here, rfl⟩ := Option.map_eq_some_iff.mp found
    exact ⟨rfl, readEntries_cut cut here⟩
  · cases found

end IpTcp.Rip
