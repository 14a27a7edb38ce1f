import IpTcp.Network.HandlePacket

/-! What `HandlePacketSafe` does to the lock of the forwarding table. Every exit releases what
it has acquired, except the one for a packet whose time to live is over. -/

set_option autoImplicit false

namespace IpTcp.Network

open Lib Lib.Bytes Rip
open Tcp (Netstack)

structure RWMutex where
  readers : Nat
  writing : Bool
  deriving DecidableEq, Repr

namespace RWMutex

def free : RWMutex := { readers := 0, writing := false }

/-- An operation that goes through; nothing where it waits, or releases what is not held. -/
def perform (mutex : RWMutex) : LockOp → Option RWMutex
  | .rLock => if mutex.writing then none else some { mutex with readers := mutex.readers + 1 }
  | .rUnlock => if mutex.readers = 0 then none else some { mutex with readers := mutex.readers - 1 }
  | .lock => if mutex.writing ∨ mutex.readers ≠ 0 then none else some { mutex with writing := true }
  | .unlock => if mutex.writing then some { mutex with writing := false } else none

def performAll (mutex : RWMutex) (ops : List LockOp) : Option RWMutex := ops.foldlM perform mutex

theorem performAll_append {mutex middle : RWMutex} {ops more : List LockOp}
    (first : mutex.performAll ops = some middle) :
    mutex.performAll (ops ++ more) = middle.performAll more := by
  unfold performAll at first ⊢
  rw [List.foldlM_append, first]
  rfl

theorem performAll_counts {mutex after : RWMutex} {ops : List LockOp}
    (performs : mutex.performAll ops = some after) :
    after.readers + ops.count .rUnlock = mutex.readers + ops.count .rLock ∧
      after.writing.toNat + ops.count .unlock = mutex.writing.toNat + ops.count .lock := by
  induction ops generalizing mutex with
  | nil =>
      cases performs
      exact ⟨rfl, rfl⟩
  | cons op rest ih =>
      obtain ⟨next, first, later⟩ := Option.bind_eq_some_iff.mp performs
      obtain ⟨reads, writes⟩ := ih later
      cases op <;> grind [perform]

end RWMutex

def Balanced (ops : List LockOp) : Prop :=
  ops.count .rLock = ops.count .rUnlock ∧ ops.count .lock = ops.count .unlock

instance (ops : List LockOp) : Decidable (Balanced ops) := inferInstanceAs (Decidable (_ ∧ _))

structure Neutral (ops : List LockOp) : Prop where
  balanced : Balanced ops
  releases : RWMutex.free.performAll ops = some .free

theorem Neutral.append {ops more : List LockOp} (first : Neutral ops) (second : Neutral more) :
    Neutral (ops ++ more) := by
  refine ⟨?_, (RWMutex.performAll_append first.releases).trans second.releases⟩
  obtain ⟨reads, writes⟩ := first.balanced
  obtain ⟨moreReads, moreWrites⟩ := second.balanced
  refine ⟨?_, ?_⟩
  · rw [List.count_append, List.count_append, reads, moreReads]
  · rw [List.count_append, List.count_append, writes, moreWrites]

theorem Neutral.keeps {ops : List LockOp} (neutral : Neutral ops) {mutex after : RWMutex}
    (performs : mutex.performAll ops = some after) : after = mutex := by
  obtain ⟨reads, writes⟩ := RWMutex.performAll_counts performs
  obtain ⟨balanced, balancedToo⟩ := neutral.balanced
  obtain ⟨readers, writing⟩ := mutex
  obtain ⟨readersAfter, writingAfter⟩ := after
  dsimp only at reads writes
  congr 1
  · omega
  · cases writing <;> cases writingAfter <;> first | rfl | simp at writes; omega

theorem neutral_nil : Neutral [] := ⟨by decide, by decide⟩
theorem neutral_read : Neutral [.rLock, .rUnlock] := ⟨by decide, by decide⟩
theorem neutral_write : Neutral [.lock, .unlock] := ⟨by decide, by decide⟩

section
variable [Netstack] [Ipv4]

theorem ripHandler_neutral (ft : FwdTable) (order : Order) (now : Time) (srcIP : IntIP)
    (rawMsg : List Byte) : Neutral (ripHandler ft order now srcIP rawMsg).locks := by
  unfold ripHandler
  split
  · exact neutral_nil
  · split
    · exact neutral_read
    · exact neutral_write

namespace FwdTable

/-- The packet is in order and on its way to somewhere else, there is a route for it, and its
time to live is over. -/
def expires (ft : FwdTable) (order : Order) (buffer : List Byte) : Prop :=
  ∃ hdr, Ipv4.parseHeader buffer = some hdr ∧
    validateChecksum (buffer.take hdr.len) (UInt16.ofNat hdr.checksum) = UInt16.ofNat hdr.checksum ∧
    (message buffer hdr).isSome ∧ ft.getInterfaceByIp order hdr.dst = none ∧
    (ft.entryMap.get hdr.dst).isSome ∧ hdr.ttl - 1 ≤ 0

instance (ft : FwdTable) (order : Order) (buffer : List Byte) : Decidable (ft.expires order buffer) :=
  decidable_of_iff (∃ hdr ∈ (Ipv4.parseHeader buffer).toList,
    validateChecksum (buffer.take hdr.len) (UInt16.ofNat hdr.checksum) = UInt16.ofNat hdr.checksum ∧
    (message buffer hdr).isSome ∧ ft.getInterfaceByIp order hdr.dst = none ∧
    (ft.entryMap.get hdr.dst).isSome ∧ hdr.ttl - 1 ≤ 0) (by simp [expires])

theorem deliver_neutral (ft : FwdTable) (order : Order) (now : Time) (hdr : Header)
    (msgBytes : List Byte) (application : Application) :
    Neutral (ft.deliver order now hdr msgBytes application).locks := by
  cases application with
  | rip => exact neutral_read.append (ripHandler_neutral ft order now hdr.src msgBytes)
  | testProtocol | tcp => exact neutral_read

theorem forward_locks (ft : FwdTable) (hdr : Header) (msgBytes : List Byte) :
    (ft.forward hdr msgBytes).locks =
      if (ft.entryMap.get hdr.dst).isSome ∧ hdr.ttl - 1 ≤ 0 then lookupLocks ++ [.rLock]
      else lookupLocks ++ [.rLock, .rUnlock] := by
  unfold forward
  cases ft.entryMap.get hdr.dst with
  | none => rfl
  | some nextHopEntry =>
      dsimp only
      split
      · rename_i ends
        rw [if_pos ⟨rfl, ends⟩]
        rfl
      · rename_i goes
        rw [if_neg fun both => goes both.2]
        split
        · rfl
        · split <;> rfl

/-- The exits of `HandlePacketSafe`: the one for an expired packet, and the others. -/
theorem handlePacketSafe_locks (ft : FwdTable) (order : Order) (now : Time) (buffer : List Byte) :
    (ft.expires order buffer ∧
      (ft.handlePacketSafe order now buffer).locks = lookupLocks ++ [.rLock]) ∨
    (¬ ft.expires order buffer ∧ Neutral (ft.handlePacketSafe order now buffer).locks) := by
  unfold handlePacketSafe
  cases parsed : Ipv4.parseHeader buffer with
  | none =>
      refine Or.inr ⟨?_, neutral_nil⟩
      rintro ⟨hdr, found, _⟩
      cases parsed.symm.trans found
  | some hdr =>
      have only : ∀ other, Ipv4.parseHeader buffer = some other → other = hdr := by
        intro other found
        exact Option.some.inj (found.symm.trans parsed)
      dsimp only
      split
      · rename_i invalid
        refine Or.inr ⟨?_, neutral_nil⟩
        rintro ⟨other, found, valid, _⟩
        rw [only other found] at valid
        exact invalid valid
      rename_i valid
      cases slice : message buffer hdr with
      | none =>
          refine Or.inr ⟨?_, neutral_nil⟩
          rintro ⟨other, found, _, inside, _⟩
          rw [only other found, slice] at inside
          cases inside
      | some msgBytes =>
          dsimp only
          cases own : ft.getInterfaceByIp order hdr.dst with
          | some myInterface =>
              have arrived : ¬ ft.expires order buffer := by
                rintro ⟨other, found, _, _, elsewhere, _⟩
                rw [only other found, own] at elsewhere
                cases elsewhere
              refine Or.inr ⟨arrived, ?_⟩
              dsimp only
              split
              · exact neutral_read
              · split
                · exact neutral_read
                · exact deliver_neutral ft order now hdr msgBytes _
          | none =>
              dsimp only
              rw [forward_locks]
              split
              · rename_i ends
                exact Or.inl ⟨⟨hdr, parsed, not_not.mp valid, by simp [slice], own, ends.1, ends.2⟩, rfl⟩
              · rename_i goes
                refine Or.inr ⟨?_, neutral_read.append neutral_read⟩
                rintro ⟨other, found, _, _, _, known, ended⟩
                rw [only other found] at known ended
                exact goes ⟨known, ended⟩

def expiring (ft : FwdTable) (order : Order) : NodeEvent → Prop
  | .handlePacketSafe _ buffer => ft.expires order buffer
  | _ => False

instance (ft : FwdTable) (order : Order) : DecidablePred (ft.expiring order)
  | .handlePacketSafe _ buffer => inferInstanceAs (Decidable (ft.expires order buffer))
  | .registerHandlerSafe .. | .setInterfaceStateSafe .. | .sendMsgToDestIP .. | .ripHandler .. |
    .periodicExpiry _ | .periodicUpdate | .ripInit => .isFalse id

theorem perform_locks (ft : FwdTable) (order : Order) (event : NodeEvent) :
    (ft.expiring order event ∧ (ft.perform order event).locks = lookupLocks ++ [.rLock]) ∨
    (¬ ft.expiring order event ∧ Neutral (ft.perform order event).locks) := by
  cases event with
  | handlePacketSafe now buffer => exact ft.handlePacketSafe_locks order now buffer
  | ripHandler now srcIP rawMsg => exact Or.inr ⟨id, ripHandler_neutral ft order now srcIP rawMsg⟩
  | registerHandlerSafe | setInterfaceStateSafe | periodicExpiry => exact Or.inr ⟨id, neutral_write⟩
  | sendMsgToDestIP | periodicUpdate => exact Or.inr ⟨id, neutral_read⟩
  | ripInit => exact Or.inr ⟨id, neutral_write.append neutral_read⟩

end FwdTable

structure Call where
  table : FwdTable
  order : Order
  now : Time
  buffer : List Byte

def Call.outcome (call : Call) : Outcome := call.table.handlePacketSafe call.order call.now call.buffer

def Call.expires (call : Call) : Prop := call.table.expires call.order call.buffer

theorem Call.neutral (call : Call) (goes : ¬ call.expires) : Neutral call.outcome.locks := by
  rcases call.table.handlePacketSafe_locks call.order call.now call.buffer with ⟨ends, _⟩ | ⟨_, neutral⟩
  · exact absurd ends goes
  · exact neutral

theorem Call.not_balanced (call : Call) (ends : call.expires) : ¬ Balanced call.outcome.locks := by
  rcases call.table.handlePacketSafe_locks call.order call.now call.buffer with ⟨_, locks⟩ | ⟨goes, _⟩
  · intro balanced
    have same : call.outcome.locks = FwdTable.lookupLocks ++ [.rLock] := locks
    rw [same] at balanced
    exact absurd balanced (by decide)
  · exact absurd ends goes

theorem neutral_calls (calls : List Call) (go : ∀ call ∈ calls, ¬ call.expires) :
    Neutral (calls.flatMap fun call => call.outcome.locks) := by
  induction calls with
  | nil => exact neutral_nil
  | cons call rest ih =>
      rw [List.flatMap_cons]
      have first := call.neutral (go call List.mem_cons_self)
      exact first.append (ih fun other member => go other (List.mem_cons_of_mem _ member))

/-- Over any sequence of packets the calls release what they acquire, and leave no reader and
room for a writer, exactly if none of them is a packet that expires here. -/
theorem lock_released_iff (calls : List Call) :
    ((∀ call ∈ calls, Balanced call.outcome.locks) ∧
      ∃ mutex, RWMutex.free.performAll (calls.flatMap fun call => call.outcome.locks) = some mutex ∧
        mutex.readers = 0 ∧ (mutex.perform .lock).isSome) ↔
      ∀ call ∈ calls, ¬ call.expires := by
  constructor
  · rintro ⟨balanced, _⟩ call member ends
    exact call.not_balanced ends (balanced call member)
  · intro go
    exact ⟨fun call member => (call.neutral (go call member)).balanced,
      .free, (neutral_calls calls go).releases, rfl, rfl⟩

end

section
attribute [local instance] Netstack.standard Ipv4.linux

def lastHop : Call where
  table := announcedTable
  order := { entries := [], interfaces := [], lookups := [] }
  now := 0
  buffer := recv ((FwdTable.marshalWithChecksum
    { FwdTable.newHeader 0x0a000007 0x0a000009 0 [] with ttl := 1 }).getD [])

/-- The read lock is kept, and the next writer waits for ever. -/
theorem lastHop_keeps_lock :
    lastHop.outcome.returned = some none ∧ ¬ Balanced lastHop.outcome.locks ∧
      ∃ mutex, RWMutex.free.performAll lastHop.outcome.locks = some mutex ∧
        mutex.readers = 1 ∧ mutex.perform .lock = none := by
  refine ⟨by decide +kernel, by decide +kernel, { readers := 1, writing := false }, ?_, rfl, rfl⟩
  decide +kernel

end

end IpTcp.Network
