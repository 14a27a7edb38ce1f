import Mathlib.Algebra.Order.BigOperators.Group.List
import Mathlib.Algebra.Order.Group.Nat
import Mathlib.Data.List.Pairwise
import IpTcp.Lib.HeapOrder
import IpTcp.Lib.Run
import IpTcp.Lib.Word
import IpTcp.Tcp.EndpointMoves
import IpTcp.Tcp.Established
import IpTcp.Tcp.Segments

/-! The early arrivals of a receiver that gets the segments of one stream in any order, some
never and some again: the queue, the set of numbers seen and the size agree. The queue is a
heap, so that its root is the segment that is due next, if that is there. -/

set_option autoImplicit false

namespace IpTcp.Tcp

open RingBuffer Lib

/-! ## The queue as a heap -/

namespace PriorityQueue

theorem ranked : Heap.Ranked heapInterface entries Prod.snd := by
  intro pq i j boundI boundJ
  simp only [entries, List.length_map] at boundI boundJ
  simp only [heapInterface, less, Heap.rankAt, entries, List.getElem?_map,
    List.getElem?_eq_getElem boundI, List.getElem?_eq_getElem boundJ, Option.map_some, entry,
    decide_eq_true_eq, WithTop.coe_lt_coe]

def IsHeap (pq : PriorityQueue) : Prop := Heap.IsHeap entries Prod.snd pq

theorem isHeap_nil : IsHeap [] := fun _ _ bound => absurd bound (Nat.not_lt_zero _)

theorem IsHeap.heapPush {pq : PriorityQueue} (heap : IsHeap pq) (item : TcpPacketItem) :
    IsHeap (pq.heapPush item) :=
  heapInterface_lawful.push_heap ranked heap item

theorem IsHeap.heapPop {root : TcpPacketItem} {others : PriorityQueue}
    (heap : IsHeap (root :: others)) : IsHeap (PriorityQueue.heapPop (root :: others)) := by
  obtain ⟨item, rest, popped, still⟩ :=
    @Heap.Lawful.pop_heap _ _ _ _ _ _ _ _ _ (root :: others) heapInterface_lawful ranked heap
      (entry root) (entries others) rfl
  simp only [PriorityQueue.heapPop, popped]
  exact still

theorem IsHeap.root_le {root : TcpPacketItem} {others : PriorityQueue} (heap : IsHeap (root :: others)) :
    ∀ other ∈ entries (root :: others), root.priority ≤ other.2 :=
  Heap.IsHeap.root_le heap rfl

end PriorityQueue

/-! ## Segmented streams -/

def TcpPacket.number (isn : UInt32) (packet : TcpPacket) : Nat := (packet.header.seqNum - isn).toNat

def InSequence (isn : UInt32) : (number : Nat) → List TcpPacket → Prop
  | _, [] => True
  | number, packet :: rest =>
      packet.number isn = number ∧ InSequence isn (number + packet.data.length) rest

theorem inSequence_append {isn : UInt32} {first rest : List TcpPacket} {number : Nat} :
    InSequence isn number (first ++ rest) ↔
      InSequence isn number first ∧ InSequence isn (number + (payloads first).length) rest := by
  induction first generalizing number with
  | nil => simp [InSequence]
  | cons packet first ih =>
      simp only [List.cons_append, InSequence, ih, payloads_cons, List.length_append, and_assoc,
        Nat.add_assoc]

/-- Segments with a payload, then possibly a FIN, whatever its other flags. -/
structure SegmentedStream (isn : UInt32) (start : Nat) where
  data : List TcpPacket
  fin : Option TcpPacket
  payload : ∀ packet ∈ data, packet.data ≠ [] ∧ packet.hasFin = false
  last : ∀ packet ∈ fin, packet.data = [] ∧ packet.hasFin = true
  inSequence : InSequence isn start (data ++ fin.toList)
  short : start + (payloads data).length < 2 ^ 32

namespace SegmentedStream

variable {isn : UInt32} {start : Nat} (stream : SegmentedStream isn start)

def segments : List TcpPacket := stream.data ++ stream.fin.toList

def Before (isn : UInt32) (first second : TcpPacket) : Prop :=
  first.number isn < second.number isn ∧
    first.number isn + first.data.length ≤ second.number isn

theorem bounds_of_inSequence {packets : List TcpPacket} {number : Nat}
    (inSequence : InSequence isn number packets) :
    ∀ packet ∈ packets, number ≤ packet.number isn ∧
      packet.number isn + packet.data.length ≤ number + (payloads packets).length := by
  induction packets generalizing number with
  | nil => simp
  | cons first rest ih =>
      intro packet member
      obtain ⟨here, further⟩ := inSequence
      rw [payloads_cons, List.length_append]
      rcases List.mem_cons.mp member with rfl | later
      · omega
      · have := ih further packet later
        omega

theorem pairwise_of_inSequence {data : List TcpPacket} {fin : Option TcpPacket} {number : Nat}
    (inSequence : InSequence isn number (data ++ fin.toList))
    (payload : ∀ packet ∈ data, packet.data ≠ [] ∧ packet.hasFin = false) :
    (data ++ fin.toList).Pairwise (Before isn) := by
  induction data generalizing number with
  | nil =>
      cases fin with
      | none => exact List.Pairwise.nil
      | some fin => exact List.pairwise_singleton _ _
  | cons first rest ih =>
      obtain ⟨here, further⟩ := inSequence
      refine List.Pairwise.cons (fun later member => ?_) (ih further fun packet member =>
        payload packet (List.mem_cons_of_mem _ member))
      have beyond := bounds_of_inSequence further later member
      have some := List.length_pos_iff.mpr (payload first List.mem_cons_self).1
      exact ⟨by omega, by omega⟩

/-- Two segments do not overlap, and a number is the number of one segment only. -/
theorem apart {first second : TcpPacket} (member : first ∈ stream.segments)
    (other : second ∈ stream.segments) :
    first = second ∨ Before isn first second ∨ Before isn second first := by
  have pairwise := pairwise_of_inSequence stream.inSequence stream.payload
  let Apart := fun first second => first = second ∨ Before isn first second ∨ Before isn second first
  have forwards : stream.segments.Pairwise Apart := pairwise.imp fun before => Or.inr (Or.inl before)
  have backwards : stream.segments.Pairwise (flip Apart) :=
    pairwise.imp fun before => Or.inr (Or.inr before)
  have reflexive : ∀ packet ∈ stream.segments, Apart packet packet := fun _ _ => Or.inl rfl
  exact List.Pairwise.forall_of_forall_of_flip reflexive forwards backwards member other

theorem ends_before {first second : TcpPacket} (member : first ∈ stream.segments)
    (other : second ∈ stream.segments) (below : first.number isn < second.number isn) :
    first.number isn + first.data.length ≤ second.number isn := by
  rcases stream.apart member other with rfl | before | after
  · omega
  · exact before.2
  · have := after.1
    omega

theorem number_injective {first second : TcpPacket} (member : first ∈ stream.segments)
    (other : second ∈ stream.segments) (same : first.number isn = second.number isn) :
    first = second := by
  rcases stream.apart member other with equal | before | after
  · exact equal
  · have := before.1
    omega
  · have := after.1
    omega

theorem payloads_fin : payloads stream.fin.toList = [] := by
  cases fin : stream.fin with
  | none => rfl
  | some packet => simp [payloads, (stream.last packet fin).1]

theorem payloads_segments : payloads stream.segments = payloads stream.data := by
  rw [segments, payloads_append, stream.payloads_fin, List.append_nil]

theorem bounds {packet : TcpPacket} (member : packet ∈ stream.segments) :
    start ≤ packet.number isn ∧
      packet.number isn + packet.data.length ≤ start + (payloads stream.data).length := by
  have inside := bounds_of_inSequence stream.inSequence packet member
  change _ ∧ _ ≤ start + (payloads stream.segments).length at inside
  rwa [stream.payloads_segments] at inside

end SegmentedStream

/-! ## The bookkeeping -/

namespace TcpSocket

variable {Buffer : Type} {isn : UInt32} {start : Nat}

/-- The check after the drain loop, on the socket that `HandlePacket` leaves: is the root of the
queue behind `nextExpectedByte`? -/
def staleHead (sock : TcpSocket Buffer) : Bool :=
  match sock.earlyArrivalQueue with
  | [] => false
  | root :: _ => decide (root.priority < sock.nextExpectedByte.toNat)

structure SameQueue (before after : TcpSocket Buffer) : Prop where
  foreignInitSeqNum : after.foreignInitSeqNum = before.foreignInitSeqNum
  nextExpectedByte : after.nextExpectedByte = before.nextExpectedByte
  earlyArrivalQueue : after.earlyArrivalQueue = before.earlyArrivalQueue
  earlyArrivalSeqNumSet : after.earlyArrivalSeqNumSet = before.earlyArrivalSeqNumSet
  earlyArrivalPacketSize : after.earlyArrivalPacketSize = before.earlyArrivalPacketSize

def queuedBytes (pq : PriorityQueue) : Nat := ((PriorityQueue.entries pq).map (·.1.data.length)).sum

/-- The bookkeeping while the queue is drained, when the root may be due. The set and the size
count from what they were in `first`, before the stream. -/
structure Booked (stream : SegmentedStream isn start) (first sock : TcpSocket Buffer) : Prop where
  identity : sock.foreignInitSeqNum = isn
  past : start ≤ sock.nextExpectedByte.toNat
  heap : PriorityQueue.IsHeap sock.earlyArrivalQueue
  queued : ∀ entry ∈ PriorityQueue.entries sock.earlyArrivalQueue,
    entry.1 ∈ stream.segments ∧ entry.2 = entry.1.number isn
  distinct : ((PriorityQueue.entries sock.earlyArrivalQueue).map Prod.snd).Nodup
  ahead : ∀ entry ∈ PriorityQueue.entries sock.earlyArrivalQueue,
    sock.nextExpectedByte.toNat ≤ entry.2
  seen : ∀ number, sock.nextExpectedByte < number → (number ∈ sock.earlyArrivalSeqNumSet ↔
    number ∈ first.earlyArrivalSeqNumSet ∨
      ∃ entry ∈ PriorityQueue.entries sock.earlyArrivalQueue, entry.2 = number.toNat)
  size : sock.earlyArrivalPacketSize =
    first.earlyArrivalPacketSize + UInt32.ofNat (queuedBytes sock.earlyArrivalQueue)

def Settled (sock : TcpSocket Buffer) : Prop :=
  ∀ entry ∈ PriorityQueue.entries sock.earlyArrivalQueue, sock.nextExpectedByte.toNat < entry.2

variable {stream : SegmentedStream isn start} {first sock after : TcpSocket Buffer} {packet : TcpPacket}

theorem Booked.same (booked : Booked stream first sock) (same : SameQueue sock after) :
    Booked stream first after := by
  obtain ⟨identity, past, heap, queued, distinct, ahead, seen, size⟩ := booked
  constructor
  all_goals simp only [same.foreignInitSeqNum, same.nextExpectedByte, same.earlyArrivalQueue,
    same.earlyArrivalSeqNumSet, same.earlyArrivalPacketSize]
  all_goals assumption

theorem Settled.same (settled : Settled sock) (same : SameQueue sock after) : Settled after := by
  unfold Settled at settled ⊢
  rw [same.nextExpectedByte, same.earlyArrivalQueue]
  exact settled

theorem Booked.advance (booked : Booked stream first sock) (settled : Settled sock)
    (member : packet ∈ stream.segments) (due : packet.number isn = sock.nextExpectedByte.toNat)
    (same : SameQueue { sock with
      nextExpectedByte := sock.nextExpectedByte + UInt32.ofNat packet.data.length } after) :
    Booked stream first after := by
  have inside := (stream.bounds member).2
  have short := stream.short
  have next : (sock.nextExpectedByte + UInt32.ofNat packet.data.length).toNat =
      sock.nextExpectedByte.toNat + packet.data.length := Word.toNat_add (by omega)
  suffices moved : Booked stream first { sock with
      nextExpectedByte := sock.nextExpectedByte + UInt32.ofNat packet.data.length } from moved.same same
  refine { booked with past := ?_, ahead := ?_, seen := ?_ }
  · have := booked.past
    simp only [next]
    omega
  · intro entry found
    have beyond := settled entry found
    obtain ⟨segment, number⟩ := booked.queued entry found
    -- Segments of one stream do not overlap.
    have apart := stream.ends_before member segment (by omega)
    simp only [next]
    omega
  · intro number beyond
    refine booked.seen number ?_
    rw [UInt32.lt_iff_toNat_lt] at beyond ⊢
    simp only [next] at beyond
    omega

theorem Booked.popped (booked : Booked stream first sock) {root : TcpPacketItem} {others : PriorityQueue}
    (queue : sock.earlyArrivalQueue = root :: others)
    (due : root.priority = sock.nextExpectedByte.toNat) :
    Booked stream first (sock.popEarlyArrival root.value) ∧
      Settled (sock.popEarlyArrival root.value) := by
  have kept := PriorityQueue.heapPop_entries root others
  have isRoot : PriorityQueue.entries sock.earlyArrivalQueue =
      PriorityQueue.entry root :: PriorityQueue.entries others := by rw [queue]; rfl
  have old : ∀ entry ∈ PriorityQueue.entries others,
      entry ∈ PriorityQueue.entries sock.earlyArrivalQueue := fun entry member => by
    rw [isRoot]
    exact List.mem_cons_of_mem _ member
  have distinct := booked.distinct
  rw [isRoot, List.map_cons, List.nodup_cons] at distinct
  have settled : ∀ entry ∈ PriorityQueue.entries others, sock.nextExpectedByte.toNat < entry.2 := by
    intro entry member
    refine lt_of_le_of_ne (booked.ahead entry (old entry member)) fun same => distinct.1 ?_
    exact List.mem_map.mpr ⟨entry, member, by rw [← same, ← due]; rfl⟩
  have popped : (sock.popEarlyArrival root.value).earlyArrivalQueue =
      PriorityQueue.heapPop (root :: others) := by rw [← queue]; rfl
  refine ⟨⟨booked.identity, booked.past, ?_, ?_, ?_, ?_, ?_, ?_⟩, ?_⟩
  all_goals try rw [popped]
  · exact PriorityQueue.IsHeap.heapPop (queue ▸ booked.heap)
  · intro entry member
    exact booked.queued entry (old entry (kept.mem_iff.mp member))
  · exact (kept.map Prod.snd).nodup_iff.mpr distinct.2
  · intro entry member
    exact le_of_lt (settled entry (kept.mem_iff.mp member))
  · intro number beyond
    rw [UInt32.lt_iff_toNat_lt] at beyond
    refine (booked.seen number beyond).trans (or_congr_right ?_)
    simp only [isRoot, List.exists_mem_cons_iff, kept.mem_iff]
    -- The number of the root stays in the set, but is not ahead any more.
    refine or_iff_right fun same => ?_
    have : (PriorityQueue.entry root).2 = sock.nextExpectedByte.toNat := due
    change sock.nextExpectedByte.toNat < number.toNat at beyond
    omega
  · have total : queuedBytes sock.earlyArrivalQueue = root.value.data.length +
        queuedBytes (PriorityQueue.heapPop (root :: others)) := by
      unfold queuedBytes
      rw [isRoot, List.map_cons, List.sum_cons, (kept.map _).sum_nat]
      rfl
    change sock.earlyArrivalPacketSize - _ = _
    rw [booked.size, total, UInt32.ofNat_add]
    grind
  · intro entry member
    rw [popped] at member
    exact settled entry (kept.mem_iff.mp member)

theorem Booked.queue (booked : Booked stream first sock) (settled : Settled sock)
    (member : packet ∈ stream.segments) (early : sock.nextExpectedByte < sock.relSeqNum packet)
    (fresh : sock.relSeqNum packet ∉ sock.earlyArrivalSeqNumSet)
    (queued : after = { sock with
      earlyArrivalQueue := sock.earlyArrivalQueue.heapPush
        { value := packet, priority := (sock.relSeqNum packet).toNat }
      earlyArrivalSeqNumSet := insert (sock.relSeqNum packet) sock.earlyArrivalSeqNumSet
      earlyArrivalPacketSize := sock.earlyArrivalPacketSize + UInt32.ofNat packet.data.length }) :
    Booked stream first after ∧ Settled after := by
  subst queued
  have number : (sock.relSeqNum packet).toNat = packet.number isn := by
    rw [relSeqNum, booked.identity, TcpPacket.number]
  have unseen : ¬ (sock.relSeqNum packet ∈ first.earlyArrivalSeqNumSet ∨
      ∃ entry ∈ PriorityQueue.entries sock.earlyArrivalQueue, entry.2 = (sock.relSeqNum packet).toNat) :=
    fun known => fresh ((booked.seen _ early).mpr known)
  have pushed := PriorityQueue.heapPush_entries sock.earlyArrivalQueue
    { value := packet, priority := (sock.relSeqNum packet).toNat }
  have beyond : ∀ entry ∈ PriorityQueue.entries (sock.earlyArrivalQueue.heapPush
        { value := packet, priority := (sock.relSeqNum packet).toNat }),
      sock.nextExpectedByte.toNat < entry.2 := by
    intro entry found
    rcases List.mem_cons.mp (pushed.mem_iff.mp found) with rfl | old
    · exact UInt32.lt_iff_toNat_lt.mp early
    · exact settled entry old
  refine ⟨⟨booked.identity, booked.past, booked.heap.heapPush _, ?_, ?_, ?_, ?_, ?_⟩, beyond⟩
  · intro entry found
    rcases List.mem_cons.mp (pushed.mem_iff.mp found) with rfl | old
    · exact ⟨member, number⟩
    · exact booked.queued entry old
  · refine (pushed.map Prod.snd).nodup_iff.mpr (List.nodup_cons.mpr ⟨fun again => ?_, booked.distinct⟩)
    obtain ⟨entry, old, same⟩ := List.mem_map.mp again
    exact unseen (Or.inr ⟨entry, old, same⟩)
  · exact fun entry found => le_of_lt (beyond entry found)
  · intro other later
    simp only [Finset.mem_insert, booked.seen other later, pushed.mem_iff, List.exists_mem_cons_iff,
      PriorityQueue.entry, UInt32.toNat_inj, @eq_comm _ other]
    exact or_left_comm
  · have total : queuedBytes (sock.earlyArrivalQueue.heapPush
        { value := packet, priority := (sock.relSeqNum packet).toNat }) =
          packet.data.length + queuedBytes sock.earlyArrivalQueue := by
      unfold queuedBytes
      rw [(pushed.map _).sum_nat]
      rfl
    simp only [total, booked.size, UInt32.ofNat_add]
    grind

theorem Booked.queueEarlyArrival (booked : Booked stream first sock) (settled : Settled sock)
    (member : packet ∈ stream.segments) (early : sock.nextExpectedByte < sock.relSeqNum packet) :
    Booked stream first (sock.queueEarlyArrival packet) ∧ Settled (sock.queueEarlyArrival packet) := by
  unfold TcpSocket.queueEarlyArrival
  by_cases known : sock.relSeqNum packet ∈ sock.earlyArrivalSeqNumSet
  · simp only [known, if_true]
    exact ⟨booked, settled⟩
  · simp only [known, if_false]
    exact booked.queue settled member early known rfl

theorem Booked.queuedBytes_le (booked : Booked stream first sock) :
    queuedBytes sock.earlyArrivalQueue ≤ (payloads stream.data).length := by
  -- The size of the queue is that of different segments, and so within the stream.
  let packets := (PriorityQueue.entries sock.earlyArrivalQueue).map Prod.fst
  have inside : packets ⊆ stream.segments := by
    intro packet member
    obtain ⟨entry, found, rfl⟩ := List.mem_map.mp member
    exact (booked.queued entry found).1
  have numbers : packets.map (TcpPacket.number isn) =
      (PriorityQueue.entries sock.earlyArrivalQueue).map Prod.snd := by
    rw [List.map_map]
    exact List.map_congr_left fun entry found => (booked.queued entry found).2.symm
  have distinct : packets.Nodup := List.Nodup.of_map _ (numbers ▸ booked.distinct)
  obtain ⟨same, perm, sublist⟩ := distinct.subperm inside
  calc queuedBytes sock.earlyArrivalQueue
      = (packets.map (·.data.length)).sum := by rw [List.map_map]; rfl
    _ = (same.map (·.data.length)).sum := ((perm.map _).sum_nat).symm
    _ ≤ (stream.segments.map (·.data.length)).sum := (sublist.map _).sum_le_sum (by simp)
    _ = (payloads stream.data).length := by
        rw [← stream.payloads_segments, payloads, List.length_flatMap]

theorem Booked.settled (booked : Booked stream first sock)
    (notDue : ∀ root others, sock.earlyArrivalQueue = root :: others →
      root.priority ≠ sock.nextExpectedByte.toNat) : Settled sock := by
  intro entry member
  cases queue : sock.earlyArrivalQueue with
  | nil => rw [queue] at member; cases member
  | cons root others =>
      have heap : PriorityQueue.IsHeap (root :: others) := queue ▸ booked.heap
      have least := heap.root_le entry (queue ▸ member)
      have here : sock.nextExpectedByte.toNat ≤ root.priority :=
        booked.ahead (PriorityQueue.entry root) (by rw [queue]; exact List.mem_cons_self)
      exact lt_of_lt_of_le (lt_of_le_of_ne here (notDue root others queue).symm) least

/-- A socket that waits for the first segment of the stream and has seen none. -/
structure Awaits (stream : SegmentedStream isn start) (sock : TcpSocket Buffer) : Prop where
  identity : sock.foreignInitSeqNum = isn
  next : sock.nextExpectedByte.toNat = start
  queue : sock.earlyArrivalQueue = []

theorem Awaits.booked (awaits : Awaits stream sock) : Booked stream sock sock ∧ Settled sock := by
  refine ⟨⟨awaits.identity, awaits.next.ge, ?_, ?_, ?_, ?_, ?_, ?_⟩, ?_⟩
  all_goals try rw [awaits.queue]
  · exact PriorityQueue.isHeap_nil
  · exact fun _ member => by cases member
  · exact List.nodup_nil
  · exact fun _ member => by cases member
  · intro number _
    simp [PriorityQueue.entries]
  · exact (UInt32.add_zero _).symm
  · intro entry member
    rw [awaits.queue] at member
    cases member

structure Consistent (sock : TcpSocket Buffer) : Prop where
  distinct : (sock.earlyArrivalQueue.map (·.priority)).Nodup
  ahead : ∀ item ∈ sock.earlyArrivalQueue, sock.nextExpectedByte.toNat < item.priority
  seen : ∀ number, sock.nextExpectedByte < number → (number ∈ sock.earlyArrivalSeqNumSet ↔
    ∃ item ∈ sock.earlyArrivalQueue, item.priority = number.toNat)
  size : sock.earlyArrivalPacketSize.toNat =
    (sock.earlyArrivalQueue.map (·.value.data.length)).sum
  silent : sock.staleHead = false

theorem Booked.consistent (booked : Booked stream first sock) (settled : Settled sock)
    (seen : ∀ number ∈ first.earlyArrivalSeqNumSet, number.toNat ≤ start)
    (size : first.earlyArrivalPacketSize = 0) : Consistent sock := by
  have ahead : ∀ item ∈ sock.earlyArrivalQueue, sock.nextExpectedByte.toNat < item.priority :=
    fun item member => settled (PriorityQueue.entry item) (List.mem_map_of_mem member)
  refine ⟨?_, ahead, fun number beyond => ?_, ?_, ?_⟩
  · have distinct := booked.distinct
    rw [PriorityQueue.entries, List.map_map] at distinct
    exact distinct
  · have unseen : number ∉ first.earlyArrivalSeqNumSet := fun member => by
      have := seen number member
      have := booked.past
      have := UInt32.lt_iff_toNat_lt.mp beyond
      omega
    rw [booked.seen number beyond, PriorityQueue.entries]
    simp [PriorityQueue.entry, unseen]
  · have inside := booked.queuedBytes_le
    have short := stream.short
    rw [booked.size, size, UInt32.zero_add, Word.toNat_ofNat (by omega), queuedBytes,
      PriorityQueue.entries, List.map_map]
    rfl
  · unfold staleHead
    split
    · rfl
    · rename_i root others queue
      have := ahead root (by rw [queue]; exact List.mem_cons_self)
      exact decide_eq_false (by omega)

theorem receiveAck_sameQueue (sock : TcpSocket Buffer) (tcpHdr : TCPFields) :
    SameQueue sock (sock.receiveAck tcpHdr).1 := by
  obtain ⟨_, _, _, _, _, _, result⟩ := sock.receiveAck_frame tcpHdr
  rw [result]
  exact ⟨rfl, rfl, rfl, rfl, rfl⟩

section
variable [RingBuffer Buffer]

theorem Booked.drained (booked : Booked stream first sock) {root : TcpPacketItem} {others : PriorityQueue}
    (queue : sock.earlyArrivalQueue = root :: others)
    (due : root.priority = sock.nextExpectedByte.toNat) : Booked stream first (sock.drained root) := by
  -- One turn of the drain loop. A write that fails leaves the popped segment due.
  obtain ⟨popped, settled⟩ := booked.popped queue due
  have entry := booked.queued (PriorityQueue.entry root) (by rw [queue]; exact List.mem_cons_self)
  by_cases fits : root.value.data.length ≤ free sock.readBuffer
  · refine popped.advance settled entry.1 (entry.2.symm.trans due) ⟨rfl, ?_, rfl, rfl, rfl⟩
    exact if_pos fits
  · refine popped.same ⟨rfl, ?_, rfl, rfl, rfl⟩
    exact if_neg fits

theorem drainEarlyArrivals_loop {loop : TcpSocket Buffer → Prop}
    (turn : ∀ sock root others, loop sock → sock.earlyArrivalQueue = root :: others →
      root.priority = sock.nextExpectedByte.toNat → loop (sock.drained root))
    (fuel : Nat) (sock : TcpSocket Buffer) (enough : sock.earlyArrivalQueue.length ≤ fuel)
    (holds : loop sock) :
    loop (sock.drainEarlyArrivals fuel).1 ∧
      ∀ root others, (sock.drainEarlyArrivals fuel).1.earlyArrivalQueue = root :: others →
        root.priority ≠ (sock.drainEarlyArrivals fuel).1.nextExpectedByte.toNat := by
  induction fuel generalizing sock with
  | zero =>
      refine ⟨holds, fun root others queue => ?_⟩
      simp only [drainEarlyArrivals] at queue
      simp [queue] at enough
  | succ fuel ih =>
      cases queue : sock.earlyArrivalQueue with
      | nil =>
          simp only [drainEarlyArrivals, queue]
          exact ⟨holds, fun _ _ more => by cases more⟩
      | cons root others =>
          by_cases due : root.priority = sock.nextExpectedByte.toNat
          · obtain ⟨_, unfolded, _⟩ := drainEarlyArrivals_succ fuel sock root others queue due
            -- Every turn shortens the queue, so its length is enough fuel.
            have shorter := (PriorityQueue.heapPop_entries root others).length_eq
            simp only [PriorityQueue.entries, List.length_map] at shorter
            rw [unfolded]
            refine ih (sock.drained root) ?_ (turn sock root others holds queue due)
            simp only [TcpSocket.drained, queue, shorter]
            simpa [queue] using enough
          · simp only [drainEarlyArrivals, queue, due, if_false]
            refine ⟨holds, fun other rest same => ?_⟩
            cases same
            exact due

theorem Booked.drainEarlyArrivals (booked : Booked stream first sock) :
    Booked stream first (sock.drainEarlyArrivals sock.earlyArrivalQueue.length).1 ∧
      Settled (sock.drainEarlyArrivals sock.earlyArrivalQueue.length).1 := by
  have turn : ∀ (sock : TcpSocket Buffer) root others, Booked stream first sock →
      sock.earlyArrivalQueue = root :: others → root.priority = sock.nextExpectedByte.toNat →
      Booked stream first (sock.drained root) := fun _ _ _ booked queue due => booked.drained queue due
  obtain ⟨still, notDue⟩ := drainEarlyArrivals_loop turn _ sock (Nat.le_refl _) booked
  exact ⟨still, still.settled notDue⟩

variable [Netstack]

/-- What `HandlePacket` does to the receiving half, after the acknowledgement. -/
theorem handlePacket_receives (sock : TcpSocket Buffer) (packet : TcpPacket) :
    SameQueue sock (sock.handlePacket packet).1 ∨
    (∃ middle, SameQueue sock middle ∧ packet.data ≠ [] ∧
      (sock.handlePacket packet).1 = (middle.receiveData packet).1) ∨
    (packet.hasFin = true ∧ (sock.handlePacket packet).1 = (sock.receiveFin packet).1) := by
  have same : SameQueue sock sock := ⟨rfl, rfl, rfl, rfl, rfl⟩
  have acked := sock.receiveAck_sameQueue packet.header
  unfold handlePacket
  split
  · exact Or.inl same
  split
  · exact Or.inl same
  split
  · split
    · rename_i result
      rw [result] at acked
      exact Or.inl acked
    · rename_i result
      rw [result] at acked
      split
      · exact Or.inl acked
      · rename_i payload
        exact Or.inr (Or.inl ⟨_, acked, fun empty => payload (by simp [empty]), rfl⟩)
  split
  · rename_i fin
    exact Or.inr (Or.inr ⟨fin, rfl⟩)
  · exact Or.inl same

theorem Booked.receiveData (booked : Booked stream first sock) (settled : Settled sock)
    (member : packet ∈ stream.segments) :
    Booked stream first (sock.receiveData packet).1 ∧ Settled (sock.receiveData packet).1 := by
  have number : (sock.relSeqNum packet).toNat = packet.number isn := by
    rw [relSeqNum, booked.identity, TcpPacket.number]
  unfold TcpSocket.receiveData
  split
  · rename_i due
    split
    · rename_i fits
      refine (booked.advance settled member (number ▸ congrArg UInt32.toNat due) ?_).drainEarlyArrivals
      rw [writeIntoReadBuffer_fst, if_pos fits]
      exact ⟨rfl, rfl, rfl, rfl, rfl⟩
    · exact ⟨booked, settled⟩
  split
  · rename_i early
    exact booked.queueEarlyArrival settled member early
  · exact ⟨booked, settled⟩

theorem Booked.receiveFin (booked : Booked stream first sock) (settled : Settled sock)
    (member : packet ∈ stream.segments) :
    Booked stream first (sock.receiveFin packet).1 ∧ Settled (sock.receiveFin packet).1 := by
  unfold TcpSocket.receiveFin
  split
  · simp only [finReceived_fst]
    exact ⟨booked.same ⟨rfl, rfl, rfl, rfl, rfl⟩, settled.same ⟨rfl, rfl, rfl, rfl, rfl⟩⟩
  split
  · rename_i early
    exact booked.queueEarlyArrival settled member early
  · exact ⟨booked, settled⟩

def Feeds (stream : SegmentedStream isn start) (packet : TcpPacket) : Prop :=
  packet ∈ stream.segments ∨ (packet.data = [] ∧ packet.hasFin = false)

theorem Booked.handlePacket (booked : Booked stream first sock) (settled : Settled sock)
    (feeds : Feeds stream packet) :
    Booked stream first (sock.handlePacket packet).1 ∧ Settled (sock.handlePacket packet).1 := by
  rcases sock.handlePacket_receives packet with same | ⟨middle, same, payload, data⟩ | ⟨fin, marked⟩
  · exact ⟨booked.same same, settled.same same⟩
  · rw [data]
    exact (booked.same same).receiveData (settled.same same) (feeds.resolve_right fun bare => payload bare.1)
  · rw [marked]
    exact booked.receiveFin settled (feeds.resolve_right fun bare => by simp [fin] at bare)

end

end TcpSocket

namespace Endpoint

variable {Buffer : Type} {isn : UInt32} {start : Nat}

/-- The packets that come in are those of the stream, each any number of times and in any
order, and ones without payload and FIN. -/
def feeds (stream : SegmentedStream isn start) (_ : Endpoint Buffer) : Event → Prop
  | .handlePacket packet => TcpSocket.Feeds stream packet
  | _ => True

section
variable [RingBuffer Buffer] [Netstack]

/-- The bookkeeping of the early arrivals agrees in every run on the segments of one stream,
whatever is lost, repeated or reordered on the way and however the application reads. -/
theorem early_arrivals_consistent {stream : SegmentedStream isn start} {first current : Endpoint Buffer}
    (awaits : TcpSocket.Awaits stream first.sock)
    (seen : ∀ number ∈ first.sock.earlyArrivalSeqNumSet, number.toNat ≤ start)
    (size : first.sock.earlyArrivalPacketSize = 0) (run : Run move (feeds stream) first current) :
    TcpSocket.Consistent current.sock := by
  have kept : TcpSocket.Booked stream first.sock current.sock ∧ TcpSocket.Settled current.sock := by
    refine run_keeps
      (fun e => TcpSocket.Booked stream first.sock e.sock ∧ TcpSocket.Settled e.sock)
      (fun e event out after kept fed steps => ?_) run awaits.booked
    cases step_moves steps with
    | packet packet => exact kept.1.handlePacket kept.2 fed
    | _ => exact ⟨kept.1.same ⟨rfl, rfl, rfl, rfl, rfl⟩, kept.2.same ⟨rfl, rfl, rfl, rfl, rfl⟩⟩
  exact kept.1.consistent kept.2 seen size

end

section
attribute [local instance] Netstack.standard

def toServer (seqNum : UInt32) (flags : UInt8) (data : List Byte) : TcpPacket :=
  loopback.seal (handshakeHeader loopback seqNum 201 flags) data

def twoBytes : SegmentedStream 100 1 where
  data := [toServer 101 tcpFlagAck [7], toServer 102 tcpFlagAck [8]]
  fin := some (toServer 103 tcpFlagFin [])
  payload := by decide +kernel
  last := by decide +kernel
  inSequence := ⟨rfl, rfl, rfl, trivial⟩
  short := by decide +kernel

def ahead : Endpoint Fifo :=
  let first := ((accepted loopback.reversed 200 100).handlePacket (toServer 102 tcpFlagAck [8])).1
  (first.handlePacket (toServer 103 tcpFlagFin [])).1

theorem early_arrivals_consistent_ahead :
    ahead.sock.earlyArrivalQueue.map (·.priority) = [2, 3] ∧ TcpSocket.Consistent ahead.sock := by
  have awaits : TcpSocket.Awaits twoBytes (accepted loopback.reversed 200 100 : Endpoint Fifo).sock :=
    ⟨rfl, rfl, rfl⟩
  have run : Run move (feeds twoBytes) (accepted loopback.reversed 200 100) ahead :=
    Relation.ReflTransGen.tail (Relation.ReflTransGen.tail Relation.ReflTransGen.refl
      ⟨.handlePacket (toServer 102 tcpFlagAck [8]), Or.inl (by decide +kernel), rfl⟩)
      ⟨.handlePacket (toServer 103 tcpFlagFin []), Or.inl (by decide +kernel), rfl⟩
  exact ⟨by decide +kernel, early_arrivals_consistent awaits
    (fun _ member => absurd member (Finset.notMem_empty _)) rfl run⟩

end

end Endpoint

end IpTcp.Tcp
