import IpTcp.Tcp.Arrival

/-! Does it matter in which order the segments of a stream arrive? A FIN that waits in the queue
is recognised by its flags, and otherwise than one that comes in its turn; and a segment whose
number is in the set from before is not queued. Where neither happens the order does not
matter, and where one of them can happen it does. -/

set_option autoImplicit false

namespace IpTcp.Tcp

open RingBuffer Lib

variable {Buffer : Type}

namespace TcpSocket

variable {isn : UInt32} {start : Nat} {stream : SegmentedStream isn start}
  {first sock after : TcpSocket Buffer} {packet : TcpPacket}

section
variable [RingBuffer Buffer] [Netstack]

theorem handlePackets_append (sock : TcpSocket Buffer) (packets more : List TcpPacket) :
    sock.handlePackets (packets ++ more) = (sock.handlePackets packets).handlePackets more := by
  induction packets generalizing sock with
  | nil => rfl
  | cons packet rest ih => exact ih _

theorem handlePackets_closed (closed : sock.closed = true) (packets : List TcpPacket) :
    sock.handlePackets packets = sock := by
  induction packets with
  | nil => rfl
  | cons packet rest ih =>
      have same : (sock.handlePacket packet).1 = sock := by simp [handlePacket, closed]
      rw [handlePackets, same, ih]

/-- A socket that waits for the stream in ESTABLISHED, with room for all of it, and data segments
that carry the latest acknowledgement. -/
structure Offered (stream : SegmentedStream isn start) (first : TcpSocket Buffer) : Prop extends
    Awaits stream first where
  established : first.connState = .established
  room : (payloads stream.data).length ≤ free first.readBuffer
  acks : ∀ packet ∈ stream.data,
    packet.header.flags = tcpFlagAck ∧ packet.header.ackNum = first.largestAckReceived

/-- Every order in which all segments arrive, some of them again, ends as their own order does. -/
def OrderIndependent (stream : SegmentedStream isn start) (first : TcpSocket Buffer) : Prop :=
  ∀ order : List TcpPacket, (∀ packet, packet ∈ order ↔ packet ∈ stream.segments) →
    SameOutcome (first.handlePackets order) (first.handlePackets stream.segments)

/-- A FIN that can come early has no other flag, and no number to come is in the set. -/
def EarlyTaken (stream : SegmentedStream isn start) (first : TcpSocket Buffer) : Prop :=
  (stream.data ≠ [] → ∀ fin ∈ stream.fin, fin.header.flags = tcpFlagFin) ∧
    ∀ packet ∈ stream.segments, start < packet.number isn →
      packet.header.seqNum - isn ∉ first.earlyArrivalSeqNumSet

theorem Offered.orderIndependent (offered : Offered stream first) (live : first.closed = false)
    (taken : EarlyTaken stream first) : OrderIndependent stream first := by
  have expects : Expects stream first := ⟨offered.room, offered.acks, taken.1, taken.2⟩
  obtain ⟨booked, settled⟩ := offered.booked
  have nothing : ∀ packet, ¬ first.Waits packet := by
    rintro packet ⟨entry, member, _⟩
    rw [offered.queue] at member
    cases member
  have received : Received stream first [] first :=
    { booked := booked
      conn := rfl
      live := live
      ack := rfl
      stored := ⟨[], stream.data, rfl, by simp, by simp, by simp [offered.next]⟩
      queued := fun packet waits => absurd waits (nothing packet)
      ahead := fun packet _ known => absurd known List.not_mem_nil
      state := Or.inl offered.established }
  intro order all
  obtain ⟨later, known, result, calm⟩ := received.handlePackets expects order
    (fun packet member => (all packet).mp member) settled
  obtain ⟨later', known', result', calm'⟩ := received.handlePackets expects stream.segments
    (fun packet member => member) settled
  exact result.outcome calm result' calm' fun packet => by rw [known, known', all]

/-! ## Orders that end differently -/

structure Deliverable (sock : TcpSocket Buffer) (packet : TcpPacket) : Prop where
  valid : sock.Valid packet
  kind : (packet.header.flags = tcpFlagAck ∧ packet.header.ackNum = sock.largestAckReceived ∧
    packet.data ≠ []) ∨ packet.hasFin = true

omit [RingBuffer Buffer] in
theorem Deliverable.same (deliverable : Deliverable sock packet) (same : SameSession sock after) :
    Deliverable after packet := by
  obtain ⟨valid, kind⟩ := deliverable
  refine ⟨?_, ?_⟩
  · rwa [Valid, same.conn]
  · rwa [same.largestAckReceived]

theorem receiveData_early (early : sock.nextExpectedByte < sock.relSeqNum packet) :
    (sock.receiveData packet).1 = sock.queueEarlyArrival packet := by
  have notDue : sock.relSeqNum packet ≠ sock.nextExpectedByte := (UInt32.ne_of_lt early).symm
  unfold receiveData
  rw [if_neg notDue, if_pos early]

theorem handlePacket_early (live : sock.closed = false) (deliverable : Deliverable sock packet)
    (early : sock.nextExpectedByte < sock.relSeqNum packet) :
    ∃ window, (sock.handlePacket packet).1 =
      { sock with foreignWindowSize := window }.queueEarlyArrival packet := by
  rcases deliverable.kind with ⟨flags, latest, payload⟩ | fin
  · obtain ⟨window, result⟩ := handlePacket_sameAck live deliverable.valid flags latest payload
    exact ⟨window, result.trans (receiveData_early early)⟩
  · refine ⟨sock.foreignWindowSize, (handlePacket_fin live deliverable.valid fin).trans ?_⟩
    unfold receiveFin
    rw [if_neg (UInt32.ne_of_lt early).symm, if_pos early]

omit [RingBuffer Buffer] [Netstack] in
theorem queueEarlyArrival_frame (sock : TcpSocket Buffer) (packet : TcpPacket) :
    SameSession sock (sock.queueEarlyArrival packet) ∧
      (sock.queueEarlyArrival packet).nextExpectedByte = sock.nextExpectedByte ∧
      (sock.queueEarlyArrival packet).connState = sock.connState ∧
      (sock.queueEarlyArrival packet).foreignInitSeqNum = sock.foreignInitSeqNum := by
  unfold queueEarlyArrival
  dsimp only
  split <;> exact ⟨⟨rfl, rfl, rfl⟩, rfl, rfl, rfl⟩

theorem handlePackets_early (live : sock.closed = false) (packets : List TcpPacket)
    (deliverable : ∀ packet ∈ packets, Deliverable sock packet)
    (early : ∀ packet ∈ packets, sock.nextExpectedByte < sock.relSeqNum packet) :
    (sock.handlePackets packets).nextExpectedByte = sock.nextExpectedByte ∧
      (sock.handlePackets packets).connState = sock.connState := by
  induction packets generalizing sock with
  | nil => exact ⟨rfl, rfl⟩
  | cons packet rest ih =>
      obtain ⟨window, result⟩ := handlePacket_early live (deliverable packet List.mem_cons_self)
        (early packet List.mem_cons_self)
      obtain ⟨same, next, state, identity⟩ :=
        { sock with foreignWindowSize := window }.queueEarlyArrival_frame packet
      rw [handlePackets, result]
      obtain ⟨next', state'⟩ := ih (same.closed.trans live)
        (fun other member => (deliverable other (List.mem_cons_of_mem _ member)).same
          ⟨same.conn, same.closed, same.largestAckReceived⟩)
        (fun other member => by
          rw [relSeqNum, identity, next]
          exact early other (List.mem_cons_of_mem _ member))
      exact ⟨next'.trans next, state'.trans state⟩

structure Advanced (before after : TcpSocket Buffer) (amount : Nat) : Prop extends
    SameSession before after where
  identity : after.foreignInitSeqNum = before.foreignInitSeqNum
  next : after.nextExpectedByte.toNat = before.nextExpectedByte.toNat + amount
  queue : after.earlyArrivalQueue = []
  state : after.connState = before.connState

theorem receiveData_due (sock : TcpSocket Buffer) (queue : sock.earlyArrivalQueue = [])
    (due : sock.relSeqNum packet = sock.nextExpectedByte)
    (fits : packet.data.length ≤ free sock.readBuffer) :
    (sock.receiveData packet).1 = { sock with
      readBuffer := (write sock.readBuffer packet.data).1
      nextExpectedByte := sock.nextExpectedByte + UInt32.ofNat packet.data.length } := by
  have written := sock.writeIntoReadBuffer_fst packet.data
  rw [if_pos fits] at written
  have still : (sock.writeIntoReadBuffer packet.data).1.earlyArrivalQueue = [] := by
    rw [written]
    exact queue
  unfold receiveData
  rw [if_pos due, if_pos fits]
  simp only [still, List.length_nil, drainEarlyArrivals]
  exact written

theorem handlePacket_due (live : sock.closed = false) (queue : sock.earlyArrivalQueue = [])
    (deliverable : Deliverable sock packet) (data : packet.hasFin = false)
    (due : packet.number sock.foreignInitSeqNum = sock.nextExpectedByte.toNat)
    (fits : packet.data.length ≤ free sock.readBuffer)
    (short : sock.nextExpectedByte.toNat + packet.data.length < 2 ^ 32) :
    Advanced sock (sock.handlePacket packet).1 packet.data.length ∧
      free (sock.handlePacket packet).1.readBuffer + packet.data.length = free sock.readBuffer := by
  obtain ⟨flags, latest, payload⟩ := deliverable.kind.resolve_right fun fin => by simp [data] at fin
  obtain ⟨window, result⟩ := handlePacket_sameAck live deliverable.valid flags latest payload
  rw [result, receiveData_due { sock with foreignWindowSize := window } queue
    (UInt32.toNat_inj.mp due) fits]
  refine ⟨⟨⟨rfl, rfl, rfl⟩, rfl, Word.toNat_add short, queue, rfl⟩, ?_⟩
  have before := length_add_free sock.readBuffer
  have after := length_add_free (write sock.readBuffer packet.data).1
  rw [content_write_of_le _ _ fits, List.length_append] at after
  simp only
  omega

theorem handlePackets_inOrder (live : sock.closed = false) (packets : List TcpPacket)
    (queue : sock.earlyArrivalQueue = [])
    (deliverable : ∀ packet ∈ packets, Deliverable sock packet)
    (data : ∀ packet ∈ packets, packet.hasFin = false)
    (inSequence : InSequence sock.foreignInitSeqNum sock.nextExpectedByte.toNat packets)
    (room : (payloads packets).length ≤ free sock.readBuffer)
    (short : sock.nextExpectedByte.toNat + (payloads packets).length < 2 ^ 32) :
    Advanced sock (sock.handlePackets packets) (payloads packets).length := by
  induction packets generalizing sock with
  | nil => exact ⟨⟨rfl, rfl, rfl⟩, rfl, rfl, queue, rfl⟩
  | cons packet rest ih =>
      rw [payloads_cons, List.length_append] at room short
      obtain ⟨step, space⟩ := handlePacket_due live queue (deliverable packet List.mem_cons_self)
        (data packet List.mem_cons_self) inSequence.1 (by omega) (by omega)
      have further := ih (step.closed.trans live) step.queue
        (fun other member =>
          (deliverable other (List.mem_cons_of_mem _ member)).same step.toSameSession)
        (fun other member => data other (List.mem_cons_of_mem _ member))
        (by rw [step.identity, step.next]; exact inSequence.2) (by omega) (by rw [step.next]; omega)
      rw [handlePackets, payloads_cons, List.length_append]
      exact ⟨⟨further.conn.trans step.conn, further.closed.trans step.closed,
        further.largestAckReceived.trans step.largestAckReceived⟩,
        further.identity.trans step.identity, by rw [further.next, step.next, Nat.add_assoc],
        further.queue, further.state.trans step.state⟩

/-- Without a FIN of that one flag in the queue, data segments leave the state alone. -/
theorem handlePacket_data_state (live : sock.closed = false) (deliverable : Deliverable sock packet)
    (data : packet.hasFin = false)
    (unrecognised : ∀ entry ∈ PriorityQueue.entries sock.earlyArrivalQueue,
      entry.1.header.flags ≠ tcpFlagFin) :
    SameSession sock (sock.handlePacket packet).1 ∧
      (sock.handlePacket packet).1.connState = sock.connState ∧
      ∀ entry ∈ PriorityQueue.entries (sock.handlePacket packet).1.earlyArrivalQueue,
        entry.1.header.flags ≠ tcpFlagFin := by
  obtain ⟨flags, latest, payload⟩ := deliverable.kind.resolve_right fun fin => by simp [data] at fin
  obtain ⟨window, result⟩ := handlePacket_sameAck live deliverable.valid flags latest payload
  rw [result]
  -- The drain loop knows a FIN by its exact flags, which nothing in the queue has.
  let invariant : TcpSocket Buffer → Prop := fun later => SameSession sock later ∧
    later.connState = sock.connState ∧ ∀ entry ∈ PriorityQueue.entries later.earlyArrivalQueue,
      entry.1.header.flags ≠ tcpFlagFin
  have initially : invariant { sock with foreignWindowSize := window } :=
    ⟨⟨rfl, rfl, rfl⟩, rfl, unrecognised⟩
  change invariant ({ sock with foreignWindowSize := window }.receiveData packet).1
  generalize ({ sock with foreignWindowSize := window } : TcpSocket Buffer) = middle at initially ⊢
  obtain ⟨same, state, flagsOf⟩ := initially
  have turn : ∀ (later : TcpSocket Buffer) root others, invariant later →
      later.earlyArrivalQueue = root :: others → root.priority = later.nextExpectedByte.toNat →
      invariant (later.drained root) := by
    rintro later root others ⟨same, state, flagsOf⟩ queue _
    refine ⟨⟨same.conn, same.closed, same.largestAckReceived⟩, ?_, fun entry member =>
      flagsOf entry (drained_entries queue entry member)⟩
    have other : root.value.header.flags ≠ tcpFlagFin :=
      flagsOf (PriorityQueue.entry root) (by rw [queue]; exact List.mem_cons_self)
    exact (if_neg other).trans state
  unfold receiveData
  split
  · split
    · refine (drainEarlyArrivals_loop turn _ _ (Nat.le_refl _) ?_).1
      rw [writeIntoReadBuffer_fst]
      exact ⟨⟨same.conn, same.closed, same.largestAckReceived⟩, state, flagsOf⟩
    · exact ⟨same, state, flagsOf⟩
  split
  · unfold queueEarlyArrival
    dsimp only
    split
    · exact ⟨same, state, flagsOf⟩
    · refine ⟨⟨same.conn, same.closed, same.largestAckReceived⟩, state, fun entry member => ?_⟩
      rcases List.mem_cons.mp ((PriorityQueue.heapPush_entries _ _).mem_iff.mp member) with rfl | old
      · exact fun fin => ack_ne_fin (flags.symm.trans fin)
      · exact flagsOf entry old
  · exact ⟨same, state, flagsOf⟩

theorem handlePackets_data_state (live : sock.closed = false) (packets : List TcpPacket)
    (deliverable : ∀ packet ∈ packets, Deliverable sock packet)
    (data : ∀ packet ∈ packets, packet.hasFin = false)
    (unrecognised : ∀ entry ∈ PriorityQueue.entries sock.earlyArrivalQueue,
      entry.1.header.flags ≠ tcpFlagFin) :
    (sock.handlePackets packets).connState = sock.connState := by
  induction packets generalizing sock with
  | nil => rfl
  | cons packet rest ih =>
      obtain ⟨same, state, still⟩ := handlePacket_data_state live
        (deliverable packet List.mem_cons_self) (data packet List.mem_cons_self) unrecognised
      rw [handlePackets, ← state]
      exact ih (same.closed.trans live)
        (fun other member => (deliverable other (List.mem_cons_of_mem _ member)).same same)
        (fun other member => data other (List.mem_cons_of_mem _ member)) still

section
variable (offered : Offered stream first) (live : first.closed = false)
  (valid : ∀ packet ∈ stream.segments, first.Valid packet)
include offered

include valid in
theorem Offered.deliverable (segment : packet ∈ stream.segments) : Deliverable first packet := by
  refine ⟨valid packet segment, ?_⟩
  rcases stream.mem_segments.mp segment with data | fin
  · obtain ⟨flags, latest⟩ := offered.acks packet data
    exact Or.inl ⟨flags, latest, (stream.payload packet data).1⟩
  · exact Or.inr (stream.last packet fin).2

include live valid

theorem Offered.advanced (window : UInt32) {before after : List TcpPacket}
    (split : stream.segments = before ++ after) (data : ∀ packet ∈ before, packet ∈ stream.data) :
    Advanced first ({ first with foreignWindowSize := window }.handlePackets before)
      (payloads before).length := by
  have inside : (payloads before).length ≤ (payloads stream.data).length := by
    rw [← stream.payloads_segments, split, payloads_append, List.length_append]
    exact Nat.le_add_right _ _
  have sequence : InSequence isn start stream.segments := stream.inSequence
  rw [split, inSequence_append] at sequence
  have room := offered.room
  have short := stream.short
  have next := offered.next
  have advanced := @handlePackets_inOrder _ { first with foreignWindowSize := window } _ _ live before
    offered.queue
    (fun packet member => (offered.deliverable valid
      (stream.mem_segments.mpr (Or.inl (data packet member)))).same ⟨rfl, rfl, rfl⟩)
    (fun packet member => (stream.payload packet (data packet member)).2)
    (by simp only [offered.identity, next]; exact sequence.1) (by simp only; omega)
    (by simp only [next]; omega)
  exact ⟨⟨advanced.conn, advanced.closed, advanced.largestAckReceived⟩, advanced.identity,
    advanced.next, advanced.queue, advanced.state⟩

theorem Offered.inOrder :
    (first.handlePackets stream.segments).nextExpectedByte.toNat =
        start + (payloads stream.data).length ∧
      ∀ fin ∈ stream.fin, (first.handlePackets stream.segments).connState = .closeWait := by
  have advanced := offered.advanced live valid first.foreignWindowSize (rfl : stream.segments = _)
    fun _ => id
  have next := advanced.next
  rw [offered.next] at next
  cases isFin : stream.fin with
  | none =>
      refine ⟨?_, fun fin member => by cases member⟩
      rw [SegmentedStream.segments, isFin, Option.toList_none, List.append_nil]
      exact next
  | some fin =>
      have marked := (stream.last fin isFin).2
      have deliverable := (offered.deliverable valid
        (stream.mem_segments.mpr (Or.inr isFin))).same advanced.toSameSession
      have due : (first.handlePackets stream.data).relSeqNum fin =
          (first.handlePackets stream.data).nextExpectedByte := by
        refine UInt32.toNat_inj.mp (Eq.trans ?_ next.symm)
        rw [relSeqNum, advanced.identity, offered.identity]
        exact stream.fin_number isFin
      have last : (first.handlePackets stream.segments) =
          ((first.handlePackets stream.data).receiveFin fin).1 := by
        rw [SegmentedStream.segments, isFin, Option.toList_some, handlePackets_append]
        exact handlePacket_fin (advanced.closed.trans live) deliverable.valid marked
      rw [last]
      unfold TcpSocket.receiveFin
      simp only [due, if_true, finReceived_fst]
      refine ⟨next, fun _ _ => ?_⟩
      rw [advanced.state, offered.established]
      rfl

theorem Offered.dropped (segment : packet ∈ stream.segments) (later : start < packet.number isn)
    (known : packet.header.seqNum - isn ∈ first.earlyArrivalSeqNumSet) :
    ¬ OrderIndependent stream first := by
  -- A later segment whose number is in the set comes first, and is dropped for good.
  intro independent
  obtain ⟨before, after, split⟩ := List.append_of_mem segment
  obtain ⟨data, number, beyond⟩ := stream.around split
  have relative : first.relSeqNum packet = packet.header.seqNum - isn := by
    rw [relSeqNum, offered.identity]
  have early : first.nextExpectedByte < first.relSeqNum packet := by
    rw [UInt32.lt_iff_toNat_lt, offered.next, relative]
    exact later
  obtain ⟨window, result⟩ := handlePacket_early live (offered.deliverable valid segment) early
  have ignored : (first.handlePacket packet).1 = { first with foreignWindowSize := window } :=
    result.trans (if_pos (relative ▸ known))
  have advanced := offered.advanced live valid window split data
  have next : ({ first with foreignWindowSize := window }.handlePackets before).nextExpectedByte.toNat =
      packet.number isn := by
    rw [advanced.next, offered.next, number]
  obtain ⟨stays, state⟩ := handlePackets_early (advanced.closed.trans live) after
    (fun other found => (offered.deliverable valid (by
      rw [split]
      exact List.mem_append_right _ (List.mem_cons_of_mem _ found))).same advanced.toSameSession)
    (fun other found => by
      rw [UInt32.lt_iff_toNat_lt, next, relSeqNum, advanced.identity, offered.identity]
      exact beyond other found)
  -- the order that starts with the packet, and goes on with the others
  have same := independent (packet :: (before ++ after)) fun other => by
    rw [split]
    simp only [List.mem_cons, List.mem_append]
    tauto
  obtain ⟨inOrder, closes⟩ := offered.inOrder live valid
  have ends : first.handlePackets (packet :: (before ++ after)) =
      ({ first with foreignWindowSize := window }.handlePackets before).handlePackets after := by
    rw [handlePackets, ignored, handlePackets_append]
  rcases stream.mem_segments.mp segment with isData | fin
  · have reached := congrArg UInt32.toNat same.nextExpectedByte
    rw [ends, stays, next, inOrder] at reached
    have some := List.length_pos_iff.mpr (stream.payload packet isData).1
    have inside := (stream.bounds segment).2
    omega
  · have reached := same.connState
    rw [ends, state, advanced.state, offered.established, closes packet fin] at reached
    cases reached

theorem Offered.unrecognised (some : stream.data ≠ []) {fin : TcpPacket} (isFin : fin ∈ stream.fin)
    (flags : fin.header.flags ≠ tcpFlagFin) : ¬ OrderIndependent stream first := by
  -- A FIN with another flag comes first, and is not recognised when its turn comes.
  intro independent
  have segment := stream.mem_segments.mpr (Or.inr isFin)
  have early : first.nextExpectedByte < first.relSeqNum fin := by
    obtain ⟨packet, member⟩ := List.exists_mem_of_ne_nil _ some
    have inside := stream.bounds (stream.mem_segments.mpr (Or.inl member))
    have positive := List.length_pos_iff.mpr (stream.payload packet member).1
    have number := stream.fin_number isFin
    rw [UInt32.lt_iff_toNat_lt, offered.next, relSeqNum, offered.identity]
    change start < fin.number isn
    omega
  obtain ⟨window, result⟩ := handlePacket_early live (offered.deliverable valid segment) early
  obtain ⟨same, _, state, _⟩ :=
    { first with foreignWindowSize := window }.queueEarlyArrival_frame fin
  have others : ∀ entry ∈ PriorityQueue.entries
      ({ first with foreignWindowSize := window }.queueEarlyArrival fin).earlyArrivalQueue,
      entry.1.header.flags ≠ tcpFlagFin := by
    intro entry member
    unfold queueEarlyArrival at member
    dsimp only at member
    split at member
    · rw [offered.queue] at member
      cases member
    · rw [offered.queue] at member
      rcases List.mem_cons.mp ((PriorityQueue.heapPush_entries _ _).mem_iff.mp member) with rfl | none
      · exact flags
      · cases none
  have outcome := (independent (fin :: stream.data) fun other => by
    rw [SegmentedStream.segments, Option.mem_def.mp isFin]
    simp [or_comm]).connState
  have ends : (first.handlePackets (fin :: stream.data)).connState = .established := by
    rw [handlePackets, result, handlePackets_data_state (same.closed.trans live) stream.data
      (fun packet member => (offered.deliverable valid (stream.mem_segments.mpr (Or.inl member))).same
        ⟨same.conn, same.closed, same.largestAckReceived⟩)
      (fun packet member => (stream.payload packet member).2) others, state]
    exact offered.established
  rw [ends, (offered.inOrder live valid).2 fin isFin] at outcome
  cases outcome

end

/-- The order of arrival does not matter where a FIN that can be early has no other flag and no
number to come is in the set already. If the checksums are right, it does matter otherwise. -/
theorem delivery_order_iff (offered : Offered stream first) :
    (first.closed = true ∨ EarlyTaken stream first → OrderIndependent stream first) ∧
      ((∀ packet ∈ stream.segments, first.Valid packet) → OrderIndependent stream first →
        first.closed = true ∨ EarlyTaken stream first) := by
  by_cases closed : first.closed = true
  · refine ⟨fun _ order _ => ?_, fun _ _ => Or.inl closed⟩
    rw [handlePackets_closed closed, handlePackets_closed closed]
    exact ⟨rfl, rfl, rfl⟩
  · have live : first.closed = false := by simpa using closed
    refine ⟨fun taken => offered.orderIndependent live (taken.resolve_left closed),
      fun valid independent => Or.inr ⟨fun some fin isFin => ?_, fun packet segment later known => ?_⟩⟩
    · by_contra flags
      exact offered.unrecognised live valid some isFin flags independent
    · exact offered.dropped live valid segment later known independent

end

section
attribute [local instance] Netstack.standard
open Endpoint (twoBytes toServer accepted)

def waiting : TcpSocket Fifo :=
  { (accepted loopback.reversed 200 100 : Endpoint Fifo).sock with largestAckReceived := 201 }

theorem delivery_order_twoBytes :
    Offered twoBytes waiting ∧ OrderIndependent twoBytes waiting := by
  have offered : Offered twoBytes waiting :=
    ⟨⟨rfl, rfl, rfl⟩, rfl, by decide +kernel, by decide +kernel⟩
  have taken : EarlyTaken twoBytes waiting :=
    ⟨fun _ => by decide +kernel, fun _ _ _ => Finset.notMem_empty _⟩
  exact ⟨offered, (delivery_order_iff offered).1 (Or.inr taken)⟩

def byteThenFinAck : SegmentedStream 100 1 where
  data := [toServer 101 tcpFlagAck [7]]
  fin := some (toServer 102 (tcpFlagFin ||| tcpFlagAck) [])
  payload := by decide +kernel
  last := by decide +kernel
  inSequence := ⟨rfl, rfl, trivial⟩
  short := by decide +kernel

/-- With the FIN before the byte, the server has stored the byte and stays ESTABLISHED. -/
theorem delivery_order_matters :
    Offered byteThenFinAck waiting ∧
      (waiting.handlePackets byteThenFinAck.segments).connState = .closeWait ∧
      (waiting.handlePackets byteThenFinAck.segments.reverse).connState = .established ∧
      content (waiting.handlePackets byteThenFinAck.segments.reverse).readBuffer = [7] ∧
      ¬ OrderIndependent byteThenFinAck waiting := by
  have offered : Offered byteThenFinAck waiting :=
    ⟨⟨rfl, rfl, rfl⟩, rfl, by decide +kernel, by decide +kernel⟩
  have inOrder : (waiting.handlePackets byteThenFinAck.segments).connState = .closeWait := by
    decide +kernel
  have reversed : (waiting.handlePackets byteThenFinAck.segments.reverse).connState = .established := by
    decide +kernel
  refine ⟨offered, inOrder, reversed, by decide +kernel, fun independent => ?_⟩
  have same := (independent byteThenFinAck.segments.reverse fun _ => List.mem_reverse).connState
  rw [inOrder, reversed] at same
  cases same

end

end TcpSocket

end IpTcp.Tcp
