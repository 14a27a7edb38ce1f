import IpTcp.Tcp.EarlyArrivals

/-! What a receiver makes of the segments of a stream that have arrived. It has stored the
longest run of them from the first one on; what arrived beyond that waits in the queue. So
the outcome depends on what has arrived, and not on when. -/

set_option autoImplicit false

namespace IpTcp.Tcp

open RingBuffer Lib

variable {Buffer : Type}

theorem ack_ne_fin : tcpFlagAck ≠ tcpFlagFin := by decide

theorem TcpPacket.ne_ack_of_hasFin {packet : TcpPacket} (fin : packet.hasFin = true) :
    packet.header.flags ≠ tcpFlagAck := fun flags => by simp [hasFin_of_ack flags] at fin

namespace SegmentedStream

variable {isn : UInt32} {start : Nat} (stream : SegmentedStream isn start)

theorem mem_segments {packet : TcpPacket} :
    packet ∈ stream.segments ↔ packet ∈ stream.data ∨ packet ∈ stream.fin := by
  simp [segments, Option.mem_def]

theorem next_segment {stored rest : List TcpPacket} (split : stream.data = stored ++ rest)
    {packet : TcpPacket} (member : packet ∈ stream.data)
    (due : packet.number isn = start + (payloads stored).length) : ∃ more, rest = packet :: more := by
  have sequence := stream.inSequence
  rw [split, List.append_assoc, inSequence_append] at sequence
  have some := List.length_pos_iff.mpr (stream.payload packet member).1
  rw [split] at member
  rcases List.mem_append.mp member with early | late
  · have inside := (bounds_of_inSequence sequence.1 packet early).2
    omega
  · cases rest with
    | nil => cases late
    | cons first more =>
        refine ⟨more, ?_⟩
        have here : first.number isn = start + (payloads stored).length := sequence.2.1
        have both : packet ∈ stream.segments ∧ first ∈ stream.segments :=
          ⟨stream.mem_segments.mpr (Or.inl (split ▸ member)),
            stream.mem_segments.mpr (Or.inl (by simp [split]))⟩
        rw [stream.number_injective both.1 both.2 (due.trans here.symm)]

theorem fin_number {fin : TcpPacket} (member : fin ∈ stream.fin) :
    fin.number isn = start + (payloads stream.data).length := by
  have sequence := stream.inSequence
  rw [inSequence_append, Option.mem_def.mp member] at sequence
  exact sequence.2.1

theorem around {before after : List TcpPacket} {packet : TcpPacket}
    (split : stream.segments = before ++ packet :: after) :
    (∀ other ∈ before, other ∈ stream.data) ∧
      packet.number isn = start + (payloads before).length ∧
      ∀ other ∈ after, packet.number isn < other.number isn := by
  -- A segment starts where those before it end, which all have a payload, and those after it are beyond it.
  have apart : stream.segments.Pairwise (Before isn) :=
    pairwise_of_inSequence stream.inSequence stream.payload
  have sequence : InSequence isn start stream.segments := stream.inSequence
  have inside := stream.bounds (by rw [split]; simp : packet ∈ stream.segments)
  have members : ∀ other ∈ before, other ∈ stream.segments := fun other found => by
    rw [split]
    exact List.mem_append_left _ found
  rw [split, List.pairwise_append, List.pairwise_cons] at apart
  rw [split, inSequence_append] at sequence
  refine ⟨fun other found => ?_, sequence.2.1, fun other found => (apart.2.1.1 other found).1⟩
  rcases stream.mem_segments.mp (members other found) with data | fin
  · exact data
  · have earlier := (apart.2.2 other found packet List.mem_cons_self).1
    have last := stream.fin_number fin
    omega

end SegmentedStream

namespace TcpSocket

variable {isn : UInt32} {start : Nat} {stream : SegmentedStream isn start}
  {first sock : TcpSocket Buffer} {packet : TcpPacket} {arrived : List TcpPacket}

def Waits (sock : TcpSocket Buffer) (packet : TcpPacket) : Prop :=
  ∃ entry ∈ PriorityQueue.entries sock.earlyArrivalQueue, entry.1 = packet

variable [RingBuffer Buffer]

/-- What the socket has made of the segments that have arrived. -/
structure Received (stream : SegmentedStream isn start) (first : TcpSocket Buffer)
    (arrived : List TcpPacket) (sock : TcpSocket Buffer) : Prop where
  booked : Booked stream first sock
  conn : sock.conn = first.conn
  live : sock.closed = false
  ack : sock.largestAckReceived = first.largestAckReceived
  stored : ∃ stored rest, stream.data = stored ++ rest ∧ (∀ packet ∈ stored, packet ∈ arrived) ∧
    content sock.readBuffer = content first.readBuffer ++ payloads stored ∧
    sock.nextExpectedByte.toNat = start + (payloads stored).length
  queued : ∀ packet, sock.Waits packet → packet ∈ arrived
  ahead : ∀ packet ∈ stream.segments, packet ∈ arrived →
    sock.nextExpectedByte.toNat ≤ packet.number isn → sock.Waits packet ∨
      (packet.hasFin = true ∧ packet.number isn = sock.nextExpectedByte.toNat ∧
        sock.connState = .closeWait)
  state : sock.connState = .established ∨ (sock.connState = .closeWait ∧
    ∃ fin ∈ stream.fin, fin ∈ arrived ∧ fin.number isn = sock.nextExpectedByte.toNat)

structure SameSession (before after : TcpSocket Buffer) : Prop where
  conn : after.conn = before.conn
  closed : after.closed = before.closed
  largestAckReceived : after.largestAckReceived = before.largestAckReceived

variable {after : TcpSocket Buffer} {later : List TcpPacket}

theorem Received.window (received : Received stream first arrived sock) (window : UInt32) :
    Received stream first arrived { sock with foreignWindowSize := window } :=
  { received with booked := received.booked.same ⟨rfl, rfl, rfl, rfl, rfl⟩ }

theorem Received.fits (received : Received stream first arrived sock)
    (room : (payloads stream.data).length ≤ free first.readBuffer)
    (data : packet ∈ stream.data) (due : packet.number isn = sock.nextExpectedByte.toNat) :
    packet.data.length ≤ free sock.readBuffer := by
  obtain ⟨stored, rest, split, _, stores, next⟩ := received.stored
  obtain ⟨more, rfl⟩ := stream.next_segment split data (due.trans next)
  have space := length_add_free sock.readBuffer
  have space' := length_add_free first.readBuffer
  have length := congrArg List.length stores
  rw [List.length_append] at length
  rw [split, payloads_append, payloads_cons, List.length_append, List.length_append] at room
  omega

section
variable (received : Received stream first arrived sock)
  (booked : Booked stream first after) (same : SameSession sock after)
  (arrives : ∀ other, other ∈ later ↔ other = packet ∨ other ∈ arrived)
  (kept : ∀ other, other ≠ packet → sock.Waits other → after.Waits other)
include received booked same arrives kept

theorem Received.stores (data : packet ∈ stream.data)
    (due : packet.number isn = sock.nextExpectedByte.toNat)
    (waits : ∀ other, after.Waits other → sock.Waits other)
    (buffer : content after.readBuffer = content sock.readBuffer ++ packet.data)
    (next : after.nextExpectedByte = sock.nextExpectedByte + UInt32.ofNat packet.data.length)
    (state : after.connState = sock.connState) : Received stream first later after := by
  have segment := stream.mem_segments.mpr (Or.inl data)
  obtain ⟨payload, unmarked⟩ := stream.payload packet data
  have some := List.length_pos_iff.mpr payload
  have inside := (stream.bounds segment).2
  have short := stream.short
  have number : after.nextExpectedByte.toNat = sock.nextExpectedByte.toNat + packet.data.length := by
    rw [next]
    exact Word.toNat_add (by omega)
  -- only this segment has the number, and it is no FIN
  have noFin : ∀ other ∈ stream.segments, other.hasFin = true →
      other.number isn ≠ sock.nextExpectedByte.toNat := by
    intro other member fin here
    rw [stream.number_injective member segment (here.trans due.symm)] at fin
    simp [unmarked] at fin
  refine ⟨booked, same.conn.trans received.conn, same.closed.trans received.live,
    same.largestAckReceived.trans received.ack, ?_, ?_, ?_, ?_⟩
  · obtain ⟨stored, rest, split, all, stores, upTo⟩ := received.stored
    obtain ⟨more, rfl⟩ := stream.next_segment split data (due.trans upTo)
    refine ⟨stored ++ [packet], more, by simp [split], fun other member => ?_, ?_, ?_⟩
    · rcases List.mem_append.mp member with old | new
      · exact (arrives other).mpr (Or.inr (all other old))
      · exact (arrives other).mpr (Or.inl (List.mem_singleton.mp new))
    · rw [buffer, stores, payloads_append, List.append_assoc]
      simp
    · rw [number, upTo, payloads_append, List.length_append]
      simp [Nat.add_assoc]
  · intro other waiting
    exact (arrives other).mpr (Or.inr (received.queued other (waits other waiting)))
  · intro other member known beyond
    have different : other ≠ packet := fun equal => by
      rw [equal] at beyond
      omega
    have old := ((arrives other).mp known).resolve_left different
    rcases received.ahead other member old (by omega) with waiting | ⟨fin, here, _⟩
    · exact Or.inl (kept other different waiting)
    · exact absurd here (noFin other member fin)
  · rcases received.state with established | ⟨_, fin, member, _, here⟩
    · exact Or.inl (state.trans established)
    · exact absurd here (noFin fin (stream.mem_segments.mpr (Or.inr member)) (stream.last fin member).2)

theorem Received.absorbs (fin : packet ∈ stream.fin)
    (due : packet.number isn = sock.nextExpectedByte.toNat)
    (waits : ∀ other, after.Waits other → sock.Waits other)
    (buffer : content after.readBuffer = content sock.readBuffer)
    (next : after.nextExpectedByte = sock.nextExpectedByte)
    (state : after.connState = sock.connState.afterFin) : Received stream first later after := by
  have closed : after.connState = .closeWait := by
    rw [state]
    rcases received.state with established | ⟨closeWait, _⟩
    · rw [established]; rfl
    · rw [closeWait]; rfl
  have marked := (stream.last packet fin).2
  refine ⟨booked, same.conn.trans received.conn, same.closed.trans received.live,
    same.largestAckReceived.trans received.ack, ?_, ?_, ?_, ?_⟩
  · obtain ⟨stored, rest, split, all, stores, upTo⟩ := received.stored
    exact ⟨stored, rest, split, fun other member => (arrives other).mpr (Or.inr (all other member)),
      buffer.trans stores, by rw [next]; exact upTo⟩
  · intro other waiting
    exact (arrives other).mpr (Or.inr (received.queued other (waits other waiting)))
  · intro other member known beyond
    rw [next] at beyond ⊢
    by_cases itself : other = packet
    · rw [itself]
      exact Or.inr ⟨marked, due, closed⟩
    · rcases received.ahead other member (((arrives other).mp known).resolve_left itself) beyond with
        waiting | ⟨isFin, here, _⟩
      · exact Or.inl (kept other itself waiting)
      · exact Or.inr ⟨isFin, here, closed⟩
  · exact Or.inr ⟨closed, packet, fin, (arrives packet).mpr (Or.inl rfl), by rw [next]; exact due⟩

theorem Received.setsAside (waits : ∀ other, after.Waits other → other = packet ∨ sock.Waits other)
    (itself : sock.nextExpectedByte.toNat ≤ packet.number isn → after.Waits packet)
    (buffer : content after.readBuffer = content sock.readBuffer)
    (next : after.nextExpectedByte = sock.nextExpectedByte)
    (state : after.connState = sock.connState) : Received stream first later after := by
  refine ⟨booked, same.conn.trans received.conn, same.closed.trans received.live,
    same.largestAckReceived.trans received.ack, ?_, ?_, ?_, ?_⟩
  · obtain ⟨stored, rest, split, all, stores, upTo⟩ := received.stored
    exact ⟨stored, rest, split, fun other member => (arrives other).mpr (Or.inr (all other member)),
      buffer.trans stores, by rw [next]; exact upTo⟩
  · intro other waiting
    exact (arrives other).mpr ((waits other waiting).imp_right (received.queued other))
  · intro other member known beyond
    rw [next] at beyond ⊢
    by_cases new : other = packet
    · subst new
      exact Or.inl (itself beyond)
    · rw [state]
      exact (received.ahead other member (((arrives other).mp known).resolve_left new) beyond).imp_left
        (kept other new)
  · rw [state, next]
    refine received.state.imp_right fun ⟨closed, fin, member, old, here⟩ => ?_
    exact ⟨closed, fin, member, (arrives fin).mpr (Or.inr old), here⟩

end

theorem Received.drained (received : Received stream first arrived sock)
    (room : (payloads stream.data).length ≤ free first.readBuffer)
    (plain : ∀ fin ∈ stream.fin, fin.header.flags = tcpFlagFin) {root : TcpPacketItem}
    {others : PriorityQueue} (queue : sock.earlyArrivalQueue = root :: others)
    (inOrder : root.priority = sock.nextExpectedByte.toNat) :
    Received stream first arrived (sock.drained root) := by
  have present : PriorityQueue.entry root ∈ PriorityQueue.entries sock.earlyArrivalQueue := by
    rw [queue]
    exact List.mem_cons_self
  obtain ⟨segment, number⟩ := received.booked.queued _ present
  have due : root.value.number isn = sock.nextExpectedByte.toNat := number.symm.trans inOrder
  have arrives : ∀ other, other ∈ arrived ↔ other = root.value ∨ other ∈ arrived := fun other =>
    ⟨Or.inr, fun either => either.elim
      (fun equal => equal ▸ received.queued root.value ⟨_, present, rfl⟩) id⟩
  have kept : ∀ other, other ≠ root.value → sock.Waits other → (sock.drained root).Waits other := by
    rintro other different ⟨entry, member, rfl⟩
    rw [queue] at member
    refine ⟨entry, ?_, rfl⟩
    change entry ∈ PriorityQueue.entries (PriorityQueue.heapPop sock.earlyArrivalQueue)
    rw [queue, (PriorityQueue.heapPop_entries root others).mem_iff]
    exact (List.mem_cons.mp member).resolve_left fun equal => different (by rw [equal]; rfl)
  have waits : ∀ other, (sock.drained root).Waits other → sock.Waits other := by
    rintro other ⟨entry, member, rfl⟩
    exact ⟨entry, drained_entries queue entry member, rfl⟩
  have booked := received.booked.drained queue inOrder
  rcases stream.mem_segments.mp segment with data | fin
  · -- There is room for all the data, so the write succeeds.
    have fits := received.fits room data due
    refine received.stores booked ⟨rfl, rfl, rfl⟩ arrives kept data due waits
      (content_write_of_le _ _ fits) (if_pos fits) (if_neg fun flags => ?_)
    have unmarked : root.value.hasFin = false := (stream.payload _ data).2
    simp [TcpPacket.hasFin, flags, tcpFlagFin] at unmarked
  · -- The write that follows the FIN stores nothing.
    have empty : root.value.data = [] := (stream.last _ fin).1
    refine received.absorbs booked ⟨rfl, rfl, rfl⟩ arrives kept fin due waits ?_ ?_
      (if_pos (plain _ fin))
    · change content (write sock.readBuffer root.value.data).1 = _
      rw [empty, content_write, List.take_nil, List.append_nil]
    · simp [TcpSocket.drained, empty]

/-- What is asked of the socket and of the segments: there is room for all the data, the data
segments carry the latest acknowledgement, and no number to come is in the set from before. -/
structure Expects (stream : SegmentedStream isn start) (first : TcpSocket Buffer) : Prop where
  room : (payloads stream.data).length ≤ free first.readBuffer
  acks : ∀ packet ∈ stream.data,
    packet.header.flags = tcpFlagAck ∧ packet.header.ackNum = first.largestAckReceived
  plain : stream.data ≠ [] → ∀ fin ∈ stream.fin, fin.header.flags = tcpFlagFin
  fresh : ∀ packet ∈ stream.segments, start < packet.number isn →
    packet.header.seqNum - isn ∉ first.earlyArrivalSeqNumSet

theorem Received.queueEarlyArrival (received : Received stream first arrived sock)
    (expects : Expects stream first) (settled : Settled sock) (segment : packet ∈ stream.segments)
    (early : sock.nextExpectedByte < sock.relSeqNum packet) :
    Received stream first (packet :: arrived) (sock.queueEarlyArrival packet) := by
  have booked := (received.booked.queueEarlyArrival settled segment early).1
  have arrives : ∀ other, other ∈ packet :: arrived ↔ other = packet ∨ other ∈ arrived :=
    fun other => List.mem_cons
  have relative : sock.relSeqNum packet = packet.header.seqNum - isn := by
    rw [relSeqNum, received.booked.identity]
  unfold TcpSocket.queueEarlyArrival at booked ⊢
  by_cases known : sock.relSeqNum packet ∈ sock.earlyArrivalSeqNumSet
  · simp only [known, if_true] at booked ⊢
    refine received.setsAside booked ⟨rfl, rfl, rfl⟩ arrives (fun _ _ => id) (fun _ => Or.inr)
      (fun _ => ?_) rfl rfl rfl
    -- a number in the set is that of a segment in the queue
    have later : start < packet.number isn := by
      have := received.booked.past
      have := UInt32.lt_iff_toNat_lt.mp early
      rw [relative] at this
      exact lt_of_le_of_lt received.booked.past this
    rcases (received.booked.seen _ early).mp known with stale | ⟨entry, member, number⟩
    · exact absurd (relative ▸ stale) (expects.fresh packet segment later)
    · obtain ⟨other, same⟩ := received.booked.queued entry member
      refine ⟨entry, member, stream.number_injective other segment ?_⟩
      rw [← same, number, relative]
      rfl
  · simp only [known, if_false] at booked ⊢
    have pushed := PriorityQueue.heapPush_entries sock.earlyArrivalQueue
      { value := packet, priority := (sock.relSeqNum packet).toNat }
    refine received.setsAside booked ⟨rfl, rfl, rfl⟩ arrives ?_ ?_ (fun _ => ?_) rfl rfl rfl
    · rintro other _ ⟨entry, member, rfl⟩
      exact ⟨entry, pushed.mem_iff.mpr (List.mem_cons_of_mem _ member), rfl⟩
    · rintro other ⟨entry, member, rfl⟩
      rcases List.mem_cons.mp (pushed.mem_iff.mp member) with rfl | old
      · exact Or.inl rfl
      · exact Or.inr ⟨entry, old, rfl⟩
    · exact ⟨_, pushed.mem_iff.mpr List.mem_cons_self, rfl⟩

theorem Received.old (received : Received stream first arrived sock)
    (notDue : sock.relSeqNum packet ≠ sock.nextExpectedByte)
    (notEarly : ¬ sock.nextExpectedByte < sock.relSeqNum packet) :
    Received stream first (packet :: arrived) sock := by
  have number : (sock.relSeqNum packet).toNat = packet.number isn := by
    rw [relSeqNum, received.booked.identity, TcpPacket.number]
  have different : (sock.relSeqNum packet).toNat ≠ sock.nextExpectedByte.toNat :=
    fun same => notDue (UInt32.toNat_inj.mp same)
  rw [UInt32.lt_iff_toNat_lt] at notEarly
  exact received.setsAside received.booked ⟨rfl, rfl, rfl⟩ (fun _ => List.mem_cons) (fun _ _ => id)
    (fun _ => Or.inr) (fun beyond => absurd beyond (by omega)) rfl rfl rfl

variable [Netstack]

theorem Received.receiveData (received : Received stream first arrived sock)
    (expects : Expects stream first) (settled : Settled sock) (data : packet ∈ stream.data) :
    Received stream first (packet :: arrived) (sock.receiveData packet).1 := by
  have segment := stream.mem_segments.mpr (Or.inl data)
  have number : (sock.relSeqNum packet).toNat = packet.number isn := by
    rw [relSeqNum, received.booked.identity, TcpPacket.number]
  unfold TcpSocket.receiveData
  by_cases inOrder : sock.relSeqNum packet = sock.nextExpectedByte
  · have due : packet.number isn = sock.nextExpectedByte.toNat := by rw [← number, inOrder]
    have fits := received.fits expects.room data due
    have written := sock.writeIntoReadBuffer_fst packet.data
    rw [if_pos fits] at written
    have booked : Booked stream first (sock.writeIntoReadBuffer packet.data).1 :=
      received.booked.advance settled segment due (written ▸ ⟨rfl, rfl, rfl, rfl, rfl⟩)
    have stored : Received stream first (packet :: arrived) (sock.writeIntoReadBuffer packet.data).1 := by
      rw [written] at booked ⊢
      exact received.stores booked ⟨rfl, rfl, rfl⟩ (fun _ => List.mem_cons) (fun _ _ => id) data due
        (fun _ => id) (content_write_of_le _ _ fits) rfl rfl
    -- A turn of the drain loop moves what has arrived from the queue to the buffer.
    have turn : ∀ (sock : TcpSocket Buffer) root others,
        Received stream first (packet :: arrived) sock → sock.earlyArrivalQueue = root :: others →
        root.priority = sock.nextExpectedByte.toNat →
        Received stream first (packet :: arrived) (sock.drained root) :=
      fun _ _ _ received queue due =>
        received.drained expects.room (expects.plain (List.ne_nil_of_mem data)) queue due
    rw [if_pos inOrder, if_pos fits]
    exact (drainEarlyArrivals_loop turn _ _ (Nat.le_refl _) stored).1
  · rw [if_neg inOrder]
    split
    · rename_i early
      exact received.queueEarlyArrival expects settled segment early
    · rename_i late
      exact received.old inOrder late

theorem Received.receiveFin (received : Received stream first arrived sock)
    (expects : Expects stream first) (settled : Settled sock) (fin : packet ∈ stream.fin) :
    Received stream first (packet :: arrived) (sock.receiveFin packet).1 := by
  have segment := stream.mem_segments.mpr (Or.inr fin)
  have number : (sock.relSeqNum packet).toNat = packet.number isn := by
    rw [relSeqNum, received.booked.identity, TcpPacket.number]
  unfold TcpSocket.receiveFin
  by_cases inOrder : sock.relSeqNum packet = sock.nextExpectedByte
  · have due : packet.number isn = sock.nextExpectedByte.toNat := by rw [← number, inOrder]
    simp only [inOrder, if_true, finReceived_fst]
    exact received.absorbs (received.booked.same ⟨rfl, rfl, rfl, rfl, rfl⟩) ⟨rfl, rfl, rfl⟩
      (fun _ => List.mem_cons) (fun _ _ => id) fin due (fun _ => id) rfl rfl rfl
  · rw [if_neg inOrder]
    split
    · rename_i early
      exact received.queueEarlyArrival expects settled segment early
    · rename_i late
      exact received.old inOrder late

def Valid (sock : TcpSocket Buffer) (packet : TcpPacket) : Prop :=
  isValidTcpCheckSum packet.header sock.conn.foreignIP sock.conn.localIP packet.data = true
  deriving Decidable

theorem handlePacket_invalid (invalid : ¬ sock.Valid packet) : (sock.handlePacket packet).1 = sock := by
  unfold handlePacket
  split
  · rfl
  · rw [if_pos (by simpa [Valid] using invalid)]

theorem handlePacket_sameAck (live : sock.closed = false) (valid : sock.Valid packet)
    (flags : packet.header.flags = tcpFlagAck)
    (latest : packet.header.ackNum = sock.largestAckReceived) (payload : packet.data ≠ []) :
    ∃ window, (sock.handlePacket packet).1 =
      ({ sock with foreignWindowSize := window }.receiveData packet).1 := by
  have acked : ∃ window effects, sock.receiveAck packet.header =
      ({ sock with foreignWindowSize := window }, effects, true) := by
    unfold receiveAck
    rw [latest, if_neg (UInt32.lt_irrefl _), if_pos rfl]
    split
    · exact ⟨_, _, rfl⟩
    · exact ⟨sock.foreignWindowSize, _, rfl⟩
  obtain ⟨window, effects, result⟩ := acked
  refine ⟨window, ?_⟩
  unfold handlePacket
  simp only [Valid] at valid
  simp [live, valid, flags, result, payload]

theorem handlePacket_fin (live : sock.closed = false) (valid : sock.Valid packet)
    (fin : packet.hasFin = true) : (sock.handlePacket packet).1 = (sock.receiveFin packet).1 := by
  unfold handlePacket
  simp only [Valid] at valid
  simp [live, valid, TcpPacket.ne_ack_of_hasFin fin, fin]

theorem Received.handlePacket (received : Received stream first arrived sock)
    (expects : Expects stream first) (settled : Settled sock) (segment : packet ∈ stream.segments)
    (valid : sock.Valid packet) :
    Received stream first (packet :: arrived) (sock.handlePacket packet).1 := by
  rcases stream.mem_segments.mp segment with data | fin
  · obtain ⟨flags, latest⟩ := expects.acks packet data
    obtain ⟨window, result⟩ := handlePacket_sameAck received.live valid flags
      (latest.trans received.ack.symm) (stream.payload packet data).1
    rw [result]
    exact (received.window window).receiveData expects (settled.same ⟨rfl, rfl, rfl, rfl, rfl⟩) data
  · rw [handlePacket_fin received.live valid (stream.last packet fin).2]
    exact received.receiveFin expects settled fin

def handlePackets (sock : TcpSocket Buffer) : List TcpPacket → TcpSocket Buffer
  | [] => sock
  | packet :: rest => handlePackets (sock.handlePacket packet).1 rest

/-- Whatever has come, the segments with a right checksum have arrived. -/
theorem Received.handlePackets (expects : Expects stream first) (packets : List TcpPacket)
    (segments : ∀ packet ∈ packets, packet ∈ stream.segments)
    (received : Received stream first arrived sock) (settled : Settled sock) :
    ∃ later, (∀ packet, packet ∈ later ↔
        packet ∈ arrived ∨ (packet ∈ packets ∧ first.Valid packet)) ∧
      Received stream first later (sock.handlePackets packets) ∧ Settled (sock.handlePackets packets) := by
  induction packets generalizing sock arrived with
  | nil => exact ⟨arrived, by simp, received, settled⟩
  | cons packet rest ih =>
      have segment := segments packet List.mem_cons_self
      have others : ∀ other ∈ rest, other ∈ stream.segments := fun other member =>
        segments other (List.mem_cons_of_mem _ member)
      have same : sock.Valid packet ↔ first.Valid packet := by rw [Valid, Valid, received.conn]
      rw [TcpSocket.handlePackets]
      by_cases valid : sock.Valid packet
      · obtain ⟨later, known, result⟩ := ih others
          (received.handlePacket expects settled segment valid)
          (received.booked.handlePacket settled (Or.inl segment)).2
        refine ⟨later, fun other => (known other).trans ?_, result⟩
        have ok := same.mp valid
        simp only [List.mem_cons]
        constructor
        · rintro ((rfl | old) | ⟨member, right⟩)
          · exact Or.inr ⟨Or.inl rfl, ok⟩
          · exact Or.inl old
          · exact Or.inr ⟨Or.inr member, right⟩
        · rintro (old | ⟨rfl | member, right⟩)
          · exact Or.inl (Or.inr old)
          · exact Or.inl (Or.inl rfl)
          · exact Or.inr ⟨member, right⟩
      · -- A packet with a wrong checksum might as well not have come.
        rw [handlePacket_invalid valid]
        obtain ⟨later, known, result⟩ := ih others received settled
        refine ⟨later, fun other => (known other).trans (or_congr_right ?_), result⟩
        simp only [List.mem_cons]
        constructor
        · rintro ⟨member, right⟩
          exact ⟨Or.inr member, right⟩
        · rintro ⟨rfl | member, right⟩
          · exact absurd (same.mpr right) valid
          · exact ⟨member, right⟩

/-- The fields that an application sees of what was received. -/
structure SameOutcome (one other : TcpSocket Buffer) : Prop where
  readBuffer : content one.readBuffer = content other.readBuffer
  nextExpectedByte : one.nextExpectedByte = other.nextExpectedByte
  connState : one.connState = other.connState

omit [Netstack] in
theorem Received.stored_eq (received : Received stream first arrived sock) (settled : Settled sock) :
    content sock.readBuffer = content first.readBuffer ++
        payloads (stream.data.takeWhile fun packet => decide (packet ∈ arrived)) ∧
      sock.nextExpectedByte.toNat =
        start + (payloads (stream.data.takeWhile fun packet => decide (packet ∈ arrived))).length := by
  obtain ⟨stored, rest, split, all, stores, next⟩ := received.stored
  suffices longest : stream.data.takeWhile (fun packet => decide (packet ∈ arrived)) = stored by
    rw [longest]
    exact ⟨stores, next⟩
  rw [split, List.takeWhile_append_of_pos fun packet member => decide_eq_true (all packet member)]
  cases rest with
  | nil => simp
  | cons packet more =>
      have data : packet ∈ stream.data := by simp [split]
      have segment := stream.mem_segments.mpr (Or.inl data)
      have sequence := stream.inSequence
      rw [split, List.append_assoc, inSequence_append] at sequence
      have due : packet.number isn = sock.nextExpectedByte.toNat := sequence.2.1.trans next.symm
      -- Had the next data segment arrived, it would be due in a queue in which nothing is due.
      have missing : packet ∉ arrived := by
        intro known
        rcases received.ahead packet segment known due.ge with ⟨entry, member, rfl⟩ | ⟨fin, _⟩
        · have := settled entry member
          have := (received.booked.queued entry member).2
          omega
        · simp [(stream.payload packet data).2] at fin
      simp [missing]

omit [Netstack] in
theorem Received.connState_eq (received : Received stream first arrived sock) (settled : Settled sock) :
    sock.connState = .closeWait ↔
      ∃ fin ∈ stream.fin, fin ∈ arrived ∧ fin.number isn = sock.nextExpectedByte.toNat := by
  constructor
  · intro closed
    rcases received.state with established | ⟨_, known⟩
    · rw [established] at closed
      cases closed
    · exact known
  · rintro ⟨fin, member, known, due⟩
    rcases received.ahead fin (stream.mem_segments.mpr (Or.inr member)) known due.ge with
      ⟨entry, waiting, rfl⟩ | ⟨_, _, closed⟩
    · have := settled entry waiting
      have := (received.booked.queued entry waiting).2
      omega
    · exact closed

omit [Netstack] in
/-- The outcome depends on nothing but what has arrived. -/
theorem Received.outcome {other : TcpSocket Buffer} (received : Received stream first arrived sock)
    (settled : Settled sock) (received' : Received stream first later other) (settled' : Settled other)
    (same : ∀ packet, packet ∈ arrived ↔ packet ∈ later) : SameOutcome sock other := by
  have stored := received.stored_eq settled
  have stored' := received'.stored_eq settled'
  simp only [← same] at stored'
  have next : sock.nextExpectedByte = other.nextExpectedByte :=
    UInt32.toNat_inj.mp (stored.2.trans stored'.2.symm)
  refine ⟨stored.1.trans stored'.1.symm, next, ?_⟩
  have closed := received.connState_eq settled
  have closed' := received'.connState_eq settled'
  simp only [← same, ← next] at closed'
  have both := closed.trans closed'.symm
  rcases received.state with established | ⟨closeWait, _⟩
  · rcases received'.state with established' | ⟨closeWait', _⟩
    · rw [established, established']
    · exact (both.mpr closeWait').trans closeWait'.symm
  · exact closeWait.trans (both.mp closeWait).symm

end TcpSocket

end IpTcp.Tcp
