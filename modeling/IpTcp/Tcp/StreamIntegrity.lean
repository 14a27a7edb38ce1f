import IpTcp.Tcp.Joint
import IpTcp.Tcp.Progress
import IpTcp.Tcp.Receiver

/-! The stream arrives as it was written. The drain loop writes early arrivals without
looking at the space left, and a write that fails halfway keeps the head of its payload
but not its number; so the stream is intact in the runs where no early arrival lies across
the right edge of the window when the drain loop can reach it. -/

set_option autoImplicit false

namespace IpTcp.Tcp

open RingBuffer Lib

variable {Buffer : Type} [RingBuffer Buffer]

namespace TcpSocket

/-- The item lies across the right edge of the window. -/
def Straddles (sock : TcpSocket Buffer) (item : TcpPacketItem) : Prop :=
  item.priority < sock.edge ∧ sock.edge < item.priority + item.value.data.length

def Drainable (sock : TcpSocket Buffer) : Prop :=
  ∀ entry ∈ PriorityQueue.entries sock.earlyArrivalQueue, entry.1.data ≠ [] →
    (entry.2 < sock.edge → entry.2 + entry.1.data.length ≤ sock.edge) ∧
      entry.2 + entry.1.data.length < 2 ^ 32

theorem free_write_full {buffer : Buffer} (full : free buffer = 0) (data : List Byte) :
    free (write buffer data).1 = 0 := by
  have before := length_add_free buffer
  have after := length_add_free (write buffer data).1
  rw [content_write, full, List.take_zero, List.append_nil] at after
  omega

theorem Drainable.drained {sock : TcpSocket Buffer} (drainable : sock.Drainable)
    {root : TcpPacketItem} {others : PriorityQueue} (queue : sock.earlyArrivalQueue = root :: others)
    (inOrder : root.priority = sock.nextExpectedByte.toNat) :
    (root.value.data.length ≤ free sock.readBuffer ∨ free sock.readBuffer = 0) ∧
      (sock.drained root).Drainable := by
  suffices bounded : (root.value.data.length ≤ free sock.readBuffer ∨ free sock.readBuffer = 0) ∧
      (sock.drained root).edge = sock.edge by
    refine ⟨bounded.1, fun entry member => ?_⟩
    rw [bounded.2]
    exact drainable entry (drained_entries queue entry member)
  have small := sock.nextExpectedByte.toNat_lt
  by_cases fits : root.value.data.length ≤ free sock.readBuffer
  · refine ⟨Or.inl fits, drained_edge fits ?_⟩
    by_cases empty : root.value.data = []
    · simpa [empty] using small
    · have short := (drainable (PriorityQueue.entry root)
        (by simp [queue, PriorityQueue.entries]) empty).2
      simp only [PriorityQueue.entry, inOrder] at short
      exact short
  · have payload : root.value.data ≠ [] := by
      rintro empty
      simp [empty] at fits
    have inside := (drainable (PriorityQueue.entry root)
      (by simp [queue, PriorityQueue.entries]) payload).1
    simp only [PriorityQueue.entry, inOrder, edge] at inside
    -- An item that starts inside the window ends inside it; one that does not fit starts at its edge.
    have full : free sock.readBuffer = 0 := by omega
    refine ⟨Or.inr full, ?_⟩
    rw [edge, edge, TcpSocket.drained]
    simp only [fits, if_false]
    rw [free_write_full full, full]

end TcpSocket

namespace Connection

open Endpoint TcpSocket

/-- When a payload arrives in order, no early arrival lies across the right edge. -/
def noStraddle (c : Connection Buffer) (action : Action) : Prop :=
  action.onPacket fun side packet => packet.data ≠ [] →
    (c.ends side).sock.relSeqNum packet = (c.ends side).sock.nextExpectedByte →
    ∀ item ∈ (c.ends side).sock.earlyArrivalQueue, ¬ (c.ends side).sock.Straddles item

instance (sock : TcpSocket Buffer) (item : TcpPacketItem) : Decidable (sock.Straddles item) := by
  unfold Straddles
  infer_instance

instance (c : Connection Buffer) (action : Action) : Decidable (c.noStraddle action) := by
  unfold noStraddle
  infer_instance

section
variable [Netstack]

theorem handles_whole {x e : Endpoint Buffer} {packet : TcpPacket} {toY toX : List TcpPacket}
    (flow : Flow True False x e toY toX) (bound : x.transmitted.length + 2 < 2 ^ 32)
    (member : packet ∈ toY)
    (clear : packet.data ≠ [] → e.sock.relSeqNum packet = e.sock.nextExpectedByte →
      ∀ item ∈ e.sock.earlyArrivalQueue, ¬ e.sock.Straddles item) :
    Handles True False e packet := by
  have drains : ∀ (sock : TcpSocket Buffer) (root : TcpPacketItem) (others : PriorityQueue),
      sock.Drainable → sock.earlyArrivalQueue = root :: others →
      root.priority = sock.nextExpectedByte.toNat →
      (root.value.data.length ≤ free sock.readBuffer ∨ free sock.readBuffer = 0) ∧
        (sock.drained root).Drainable :=
    fun _ _ _ drainable queue inOrder => drainable.drained queue inOrder
  refine ⟨fun sock data => data.length ≤ free sock.readBuffer ∨ free sock.readBuffer = 0,
    fun _ => True, ?_, fun _ _ fits _ => fits, fun _ _ never => never.elim⟩
  refine handlePacket_acts_of drains e.sock ?_ fun _ _ _ => trivial
  intro after effects result payload inOrder space
  have same : SameReceiver e.sock after := by
    simpa only [result] using e.sock.receiveAck_receiver packet.header
  have inside : ∀ {packet : TcpPacket}, x.Carries packet → packet.data ≠ [] →
      (packet.header.seqNum - x.sock.myInitSeqNum).toNat + packet.data.length < 2 ^ 32 := by
    intro packet carries payload
    obtain ⟨offset, number, slice, _⟩ := carries (Or.inl payload)
    have := slice.length_le
    rw [number, Word.toNat_offset _ (by omega)]
    omega
  have here : e.sock.relSeqNum packet = e.sock.nextExpectedByte := by
    rw [relSeqNum, ← same.foreignInitSeqNum, ← same.nextExpectedByte]
    exact inOrder
  have short : after.nextExpectedByte.toNat + packet.data.length < 2 ^ 32 := by
    rw [← inOrder, relSeqNum, same.foreignInitSeqNum, flow.isn]
    exact inside (flow.carried packet member) payload
  -- The payload that arrives does not move the edge, so what did not straddle it still does not.
  have edge : (after.writeIntoReadBuffer packet.data).1.edge = e.sock.edge := by
    rw [writeIntoReadBuffer_fst, if_pos space]
    refine (after.edge_stored space short).trans ?_
    rw [TcpSocket.edge, TcpSocket.edge, same.readBuffer, same.nextExpectedByte]
  intro entry queued kept
  rw [writeIntoReadBuffer_fst, same.earlyArrivalQueue] at queued
  rw [edge]
  obtain ⟨carries, _, priority⟩ := flow.queued entry queued
  obtain ⟨item, found, rfl⟩ := List.mem_map.mp queued
  have free := clear payload here item found
  simp only [Straddles, not_and_or, not_lt] at free
  refine ⟨fun below => ?_, ?_⟩
  · rcases free with beyond | within
    · exact absurd below (Nat.not_lt.mpr beyond)
    · exact within
  · rw [priority]
    exact inside carries kept

theorem Joint.whole {conn : TcpConn} {clientIsn serverIsn : UInt32} {c : Connection Buffer}
    (run : Run Connection.step noStraddle (established conn clientIsn serverIsn) c) :
    Joint True False c := by
  refine run.preserves (Joint True False)
    (fun before action after joint meets stepped => joint.step stepped ?_)
    (joint_established conn clientIsn serverIsn True False)
  rintro side packet rfl member bound
  exact handles_whole (joint.incoming bound) bound member meets

end

section
attribute [local instance] Netstack.standard

def comesEarly : List Action :=
  -- The client sends two segments, and the second one comes first.
  sendsByte .client 7 ++ sendsByte .client 8 ++
    [.act .server (.handlePacket (fromClient 102 201 tcpFlagAck [8]))]

def readsBytes : List Action :=
  comesEarly ++ [.act .server (.handlePacket (fromClient 101 201 tcpFlagAck [7])), .act .server (.vRead 2),
    .act .server (.vReadLoop 0)]

theorem readsBytes_isSome :
    (exec step noStraddle (established loopback 100 200 : Connection Fifo) readsBytes).isSome := by
  decide +kernel

end

/-! ## A stream that arrives otherwise

The client sends 64 full segments, one byte more than the server can store. -/

section
attribute [local instance] Netstack.standard

@[irreducible] def block : List Byte := List.replicate 1024 0

theorem block_length : block.length = 1024 := by
  rw [block, List.length_replicate]

theorem block_ne_nil : block ≠ [] := List.ne_nil_of_length_pos (by rw [block_length]; decide)

def segment (j : Nat) : TcpPacket :=
  fromClient (101 + UInt32.ofNat (1024 * j)) 201 tcpFlagAck block

theorem segment_length (j : Nat) : (segment j).data.length = 1024 := block_length

theorem ofNat_block (k : Nat) : UInt32.ofNat (1024 * k) + 1024 = UInt32.ofNat (1024 * (k + 1)) := by
  rw [Nat.mul_add, UInt32.ofNat_add]
  rfl

/-- The client has sent `k` segments, and the server has seen none of them. -/
structure Sent (k : Nat) (c : Connection Fifo) : Prop where
  idle : (c.ends .client).Idle
  conn : (c.ends .client).sock.conn = loopback
  header : (c.ends .client).sock.getAckHeader =
    handshakeHeader loopback (101 + UInt32.ofNat (1024 * k)) 201 tcpFlagAck
  inFlight : (c.ends .client).sock.inFlightPacketSize = UInt32.ofNat (1024 * k)
  window : (c.ends .client).sock.foreignWindowSize = 65535
  written : (c.ends .client).written.length = 1024 * k
  transmitted : (c.ends .client).transmitted.length = 1024 * k
  server : c.ends .server = accepted loopback.reversed 200 100
  net : ∀ j < k, segment j ∈ c.net .server
  ack : fromClient 101 201 tcpFlagAck [] ∈ c.net .server

theorem sent_zero : Sent 0 (established loopback 100 200) where
  idle := ⟨rfl, rfl, rfl, rfl, rfl⟩
  conn := rfl
  header := by decide
  inFlight := rfl
  window := rfl
  written := rfl
  transmitted := rfl
  server := rfl
  net := by simp
  ack := by decide +kernel

theorem Sent.next {k : Nat} {c : Connection Fifo} (sent : Sent k c) (room : k < 64) :
    ∃ after, Run step anyEvent c after ∧ Sent (k + 1) after := by
  -- 64512 bytes are in flight at most, and the writer finds the window open.
  have small : UInt32.ofNat (1024 * k) < 65535 := by
    rw [UInt32.lt_iff_toNat_lt, Word.toNat_ofNat (by omega)]
    change 1024 * k < 65535
    omega
  have packet : (c.ends .client).sock.conn.seal (c.ends .client).sock.getAckHeader block =
      segment k := by
    rw [sent.conn, sent.header]
    rfl
  obtain ⟨buffer, empty, emits⟩ := sent.idle.sends block_ne_nil
    (by rw [block_length]; decide) (by rw [sent.inFlight, sent.window]; exact small)
    (by rw [block_length, sent.window]; decide)
  rw [packet] at emits
  refine ⟨_, run_emits emits, ?_⟩
  have ends := moved_ends c .client ((c.ends .client).sentData buffer block) [segment k]
  have net := moved_net_other c .client ((c.ends .client).sentData buffer block) [segment k]
  constructor
  · rw [ends]
    exact ⟨sent.idle.writer, sent.idle.vWrites, sent.idle.deleted, sent.idle.canWrite, empty⟩
  · rw [ends]
    exact sent.conn
  · have seqNum := congrArg TCPFields.seqNum sent.header
    simp only [getAckHeader, handshakeHeader] at seqNum
    have header : ((c.ends .client).sentData buffer block).sock.getAckHeader =
        { (c.ends .client).sock.getAckHeader with
          seqNum := (c.ends .client).sock.getAckHeader.seqNum + UInt32.ofNat block.length } := by
      simp only [getAckHeader, sentData, TCPFields.mk.injEq, and_true, true_and]
      grind
    rw [ends, header, sent.header, block_length]
    simp only [handshakeHeader, TCPFields.mk.injEq, and_true, true_and, ← ofNat_block]
    exact UInt32.add_assoc ..
  · rw [ends]
    simp only [sentData, sent.inFlight, block_length, ← ofNat_block]
    rfl
  · rw [ends]
    exact sent.window
  · rw [ends]
    simp only [sentData, List.length_append, sent.written, block_length]
    omega
  · have transmitted := sent.transmitted
    rw [ends]
    simp only [Endpoint.transmitted, sentData, payloads_append, payloads_cons, payloads_nil,
      List.length_append, List.append_nil, seal_data, block_length] at transmitted ⊢
    rw [transmitted]
    omega
  · exact (moved_ends_other c .client _ _).trans sent.server
  · intro j below
    rw [show Side.server = Side.client.other from rfl, net]
    rcases Nat.lt_succ_iff_lt_or_eq.mp below with earlier | rfl
    · exact List.mem_append_left _ (sent.net j earlier)
    · simp
  · rw [show Side.server = Side.client.other from rfl, net]
    exact List.mem_append_left _ sent.ack

theorem sent_all :
    ∃ c : Connection Fifo, Run step anyEvent (established loopback 100 200) c ∧ Sent 64 c := by
  suffices reached : ∀ k ≤ 64, ∃ c : Connection Fifo,
      Run step anyEvent (established loopback 100 200) c ∧ Sent k c from reached 64 (le_refl 64)
  intro k bound
  induction k with
  | zero => exact ⟨_, Run.refl, sent_zero⟩
  | succ k ih =>
      obtain ⟨c, run, sent⟩ := ih (by omega)
      obtain ⟨after, further, next⟩ := sent.next (by omega)
      exact ⟨after, run.trans further, next⟩

def receiving (buffer : Fifo) (next : UInt32) (queue : PriorityQueue) (seqNums : Finset UInt32)
    (size : UInt32) : TcpSocket Fifo :=
  { (accepted loopback.reversed 200 100 : Endpoint Fifo).sock with
    largestAckReceived := 201
    readBuffer := buffer
    nextExpectedByte := next
    earlyArrivalQueue := queue
    earlyArrivalSeqNumSet := seqNums
    earlyArrivalPacketSize := size }

section
variable {buffer : Fifo} {next : UInt32} {queue : PriorityQueue} {seqNums : Finset UInt32} {size : UInt32}
  {j : Nat}

theorem receiving_handlePacket : (receiving buffer next queue seqNums size).handlePacket (segment j) =
    (((receiving buffer next queue seqNums size).receiveData (segment j)).1,
      .broadcast .windowNotEmpty :: ((receiving buffer next queue seqNums size).receiveData (segment j)).2) := by
  have valid : isValidTcpCheckSum (segment j).header loopback.localIP loopback.foreignIP
      (segment j).data = true := isValidTcpCheckSum_seal ..
  have payload : (segment j).data.length ≠ 0 := by
    rw [segment_length]
    decide
  have acks : (receiving buffer next queue seqNums size).receiveAck (segment j).header =
      (receiving buffer next queue seqNums size, [.broadcast .windowNotEmpty], true) := rfl
  have opened : (receiving buffer next queue seqNums size).closed = false := rfl
  have flags : (segment j).header.flags = tcpFlagAck := rfl
  have foreignIP : (receiving buffer next queue seqNums size).conn.foreignIP = loopback.localIP := rfl
  have localIP : (receiving buffer next queue seqNums size).conn.localIP = loopback.foreignIP := rfl
  rw [TcpSocket.handlePacket, opened, foreignIP, localIP, valid, flags, acks]
  simp [payload]

theorem segment_relSeqNum : (receiving buffer next queue seqNums size).relSeqNum (segment j) =
    1 + UInt32.ofNat (1024 * j) := by
  change 101 + UInt32.ofNat (1024 * j) - 100 = 1 + UInt32.ofNat (1024 * j)
  grind

theorem receiving_inOrder (space : 1024 ≤ free buffer) :
    ((receiving buffer (1 + UInt32.ofNat (1024 * j)) queue seqNums size).handlePacket (segment j)).1 =
      ((receiving (write buffer block).1 (1 + UInt32.ofNat (1024 * (j + 1))) queue seqNums
        size).drainEarlyArrivals queue.length).1 := by
  have fits : (segment j).data.length ≤ free (receiving buffer (1 + UInt32.ofNat (1024 * j)) queue
      seqNums size).readBuffer := by
    rw [segment_length]
    exact space
  have stored : ((receiving buffer (1 + UInt32.ofNat (1024 * j)) queue seqNums size).writeIntoReadBuffer
      (segment j).data).1 =
      receiving (write buffer block).1 (1 + UInt32.ofNat (1024 * (j + 1))) queue seqNums size := by
    rw [writeIntoReadBuffer_fst, if_pos fits, ← ofNat_block, segment_length]
    simp only [receiving, UInt32.add_assoc]
    rfl
  have here : (receiving buffer (1 + UInt32.ofNat (1024 * j)) queue seqNums size).relSeqNum (segment j) =
      (receiving buffer (1 + UInt32.ofNat (1024 * j)) queue seqNums size).nextExpectedByte :=
    segment_relSeqNum
  rw [receiving_handlePacket, receiveData, if_pos here, if_pos fits]
  change (drainEarlyArrivals (List.length ((receiving buffer (1 + UInt32.ofNat (1024 * j)) queue seqNums
    size).writeIntoReadBuffer (segment j).data).1.earlyArrivalQueue) _).1 = _
  rw [stored]
  rfl

theorem heapPush_nil (item : TcpPacketItem) :
    PriorityQueue.heapPush [] item = [{ item with index := 0 }] := by
  simp [PriorityQueue.heapPush, Lib.Heap.push, PriorityQueue.heapInterface, PriorityQueue.push,
    PriorityQueue.len, Lib.Heap.up]

theorem receiving_early : ((receiving buffer (1 + UInt32.ofNat (1024 * 62)) [] ∅ 0).handlePacket
    (segment 63)).1 = receiving buffer (1 + UInt32.ofNat (1024 * 62))
      [{ value := segment 63, priority := 64513 }] (insert 64513 ∅) 1024 := by
  have number : 1 + UInt32.ofNat (1024 * 63) = 64513 := by decide
  have early : (1 + UInt32.ofNat (1024 * 62) : UInt32) < 64513 := by decide
  have next : (receiving buffer (1 + UInt32.ofNat (1024 * 62)) [] ∅ 0).nextExpectedByte =
      1 + UInt32.ofNat (1024 * 62) := rfl
  rw [receiving_handlePacket, receiveData, segment_relSeqNum, number, next,
    if_neg (UInt32.ne_of_lt early).symm, if_pos early]
  simp only [queueEarlyArrival, segment_relSeqNum, number, segment_length]
  rw [if_neg (show 64513 ∉ (receiving buffer (1 + UInt32.ofNat (1024 * 62)) [] ∅ 0).earlyArrivalSeqNumSet
    from Finset.notMem_empty _)]
  simp only [receiving, heapPush_nil]
  rfl

theorem receiving_drain (excess : free buffer < 1024) :
    ((receiving buffer (1 + UInt32.ofNat (1024 * 63)) [{ value := segment 63, priority := 64513 }]
      (insert 64513 ∅) 1024).drainEarlyArrivals 1).1 =
    receiving (write buffer block).1 (1 + UInt32.ofNat (1024 * 63)) [] (insert 64513 ∅) 0 := by
  obtain ⟨turn, unfolded, _⟩ := drainEarlyArrivals_succ 0 (receiving buffer (1 + UInt32.ofNat (1024 * 63))
    [{ value := segment 63, priority := 64513 }] (insert 64513 ∅) 1024)
    { value := segment 63, priority := 64513 } [] rfl (show 64513 = (1 + UInt32.ofNat (1024 * 63)).toNat by decide)
  rw [unfolded]
  simp only [drainEarlyArrivals, drained, segment_length, receiving, Nat.not_le.mpr excess, if_false]
  rfl

def receiver (sock : TcpSocket Fifo) (delivered : List Byte) : Endpoint Fifo :=
  { (accepted loopback.reversed 200 100 : Endpoint Fifo) with
    sock := sock
    acks := [201]
    delivered := delivered }

theorem receiver_received {c : Connection Fifo} {before : Fifo} {expected : UInt32}
    {items : PriorityQueue} {seen : Finset UInt32} {bytes : UInt32} {delivered : List Byte}
    {packet : TcpPacket}
    (server : c.ends .server = receiver (receiving before expected items seen bytes) delivered)
    (result : ((receiving before expected items seen bytes).handlePacket packet).1 =
      receiving buffer next queue seqNums size) :
    (c.received .server packet).ends .server =
      receiver (receiving buffer next queue seqNums size) delivered := by
  have kept : .deleteConnSafe ∉ ((receiving before expected items seen bytes).handlePacket packet).2 := by
    intro deletes
    have closed := handlePacket_deletes _ packet deletes
    rw [result] at closed
    cases closed
  rw [received, moved_ends, server]
  simp only [Endpoint.handlePacket, settle, receiver, kept, result]
  rfl

theorem run_receiver {c : Connection Fifo} {sock : TcpSocket Fifo} {delivered : List Byte} {packet : TcpPacket}
    (server : c.ends .server = receiver sock delivered) (member : packet ∈ c.net .server) :
    Run step anyEvent c (c.received .server packet) := by
  refine run_received ?_ member
  rw [server]
  exact WriterPc.noConfusion

theorem receiver_reads (n : Nat) (stored : content buffer ≠ []) (delivered : List Byte) :
    Emits (receiver (receiving buffer next queue seqNums size) delivered) []
      (receiver (receiving (read buffer n).1 next queue seqNums size)
        (delivered ++ (content buffer).take n)) :=
  emits_read n rfl rfl rfl stored

end

structure Filled (k : Nat) (c : Connection Fifo) : Prop where
  written : (c.ends .client).written.length = 65536
  transmitted : (c.ends .client).transmitted.length = 65536
  server : ∃ buffer : Fifo, (content buffer).length = 1024 * k ∧
    c.ends .server = receiver (receiving buffer (1 + UInt32.ofNat (1024 * k)) [] ∅ 0) []
  net : ∀ j, k ≤ j → j < 64 → segment j ∈ c.net .server

theorem segment_inj {i j : Nat} (smallI : i < 64) (smallJ : j < 64) (same : segment i = segment j) :
    i = j := by
  have seqNum : (101 + UInt32.ofNat (1024 * i) : UInt32) = 101 + UInt32.ofNat (1024 * j) :=
    congrArg (fun packet => packet.header.seqNum) same
  have := Word.ofNat_inj (by omega) (by omega) ((UInt32.add_right_inj 101).mp seqNum)
  omega

theorem received_client (c : Connection Fifo) (packet : TcpPacket) :
    (c.received .server packet).ends .client = c.ends .client := by
  rw [received]
  exact moved_ends_other _ .server _ _

theorem received_net (c : Connection Fifo) (packet : TcpPacket) :
    (c.received .server packet).net .server = (c.net .server).erase packet := by
  rw [received, moved_net]
  simp

theorem Sent.receives {k : Nat} {c : Connection Fifo} (sent : Sent k c) :
    Run step anyEvent c (c.received .server (fromClient 101 201 tcpFlagAck [])) := by
  refine run_received ?_ sent.ack
  rw [sent.server]
  exact WriterPc.noConfusion

theorem Sent.filled {c : Connection Fifo} (sent : Sent 64 c) :
    ∃ after, Run step anyEvent c after ∧ Filled 0 after := by
  refine ⟨_, sent.receives, ?_⟩
  constructor
  · rw [received_client]
    exact sent.written
  · rw [received_client]
    exact sent.transmitted
  · refine ⟨new, rfl, ?_⟩
    rw [received, moved_ends, sent.server]
    rfl
  · intro j _ below
    rw [received_net]
    refine (List.mem_erase_of_ne fun same => block_ne_nil ?_).mpr (sent.net j below)
    exact congrArg TcpPacket.data same

theorem Filled.next {k : Nat} {c : Connection Fifo} (filled : Filled k c) (room : k < 63) :
    ∃ after, Run step anyEvent c after ∧ Filled (k + 1) after := by
  obtain ⟨buffer, stored, server⟩ := filled.server
  have space : 1024 ≤ free buffer := by
    have := length_add_free buffer
    have : bufferSize = 65535 := rfl
    omega
  refine ⟨_, run_receiver server (filled.net k (le_refl k) (by omega)), ?_⟩
  constructor
  · rw [received_client]
    exact filled.written
  · rw [received_client]
    exact filled.transmitted
  · refine ⟨(write buffer block).1, ?_, receiver_received server (receiving_inOrder space)⟩
    rw [content_write_of_le _ _ (by rw [block_length]; exact space), List.length_append, block_length]
    omega
  · intro j above below
    rw [received_net]
    refine (List.mem_erase_of_ne fun same => ?_).mpr (filled.net j (by omega) below)
    have := segment_inj below (by omega) same
    omega

theorem filled_almost : ∃ c : Connection Fifo,
    Run step anyEvent (established loopback 100 200) c ∧ Filled 62 c := by
  obtain ⟨sender, sends, sent⟩ := sent_all
  obtain ⟨opened, opens, empty⟩ := sent.filled
  suffices reached : ∀ k ≤ 62, ∃ c : Connection Fifo, Run step anyEvent opened c ∧ Filled k c by
    obtain ⟨c, fills, filled⟩ := reached 62 (le_refl 62)
    exact ⟨c, (sends.trans opens).trans fills, filled⟩
  intro k bound
  induction k with
  | zero => exact ⟨opened, Run.refl, empty⟩
  | succ k ih =>
      obtain ⟨c, run, filled⟩ := ih (by omega)
      obtain ⟨after, further, next⟩ := filled.next (by omega)
      exact ⟨after, run.trans further, next⟩

/-- The server has stored segment 63 but for its last byte, and still waits for all of it. -/
structure Overrun (c : Connection Fifo) : Prop where
  written : (c.ends .client).written.length = 65536
  transmitted : (c.ends .client).transmitted.length = 65536
  server : ∃ buffer : Fifo, (content buffer).length = 65535 ∧ ∃ seqNums : Finset UInt32,
    c.ends .server = receiver (receiving buffer (1 + UInt32.ofNat (1024 * 63)) [] seqNums 0) []
  net : segment 63 ∈ c.net .server

theorem Filled.overrun {c : Connection Fifo} (filled : Filled 62 c) :
    ∃ after, Run step anyEvent c after ∧ Overrun after := by
  -- Segment 63 is doubled and comes early; segment 62 closes the gap.
  obtain ⟨buffer, stored, server⟩ := filled.server
  have last := filled.net 63 (by decide) (by decide)
  have capacity : bufferSize = 65535 := rfl
  have sum := length_add_free buffer
  have space : block.length ≤ free buffer := by
    rw [block_length]
    omega
  have rest := free_write_add space
  rw [block_length] at space rest
  let doubled : Connection Fifo :=
    { c with net := Function.update c.net .server (segment 63 :: c.net .server) }
  have doubles : c.step (.duplicate .server (segment 63)) = some doubled := by
    simp only [step, last, if_true]
    rfl
  have waiting : doubled.net .server = segment 63 :: c.net .server := by simp [doubled]
  have arrives : segment 63 ∈ doubled.net .server := by
    rw [waiting]
    exact List.mem_cons_self
  have queued : (doubled.received .server (segment 63)).ends .server = _ :=
    receiver_received server receiving_early
  have left : (doubled.received .server (segment 63)).net .server = c.net .server := by
    rw [received_net, waiting, List.erase_cons_head]
  have closes : segment 62 ∈ (doubled.received .server (segment 63)).net .server := by
    rw [left]
    exact filled.net 62 (le_refl 62) (by decide)
  have receives := run_receiver (c := doubled) server arrives
  have drains := run_receiver queued closes
  refine ⟨_, ((Run.refl.tail trivial doubles).trans receives).trans drains, ?_⟩
  constructor
  · rw [received_client, received_client]
    exact filled.written
  · rw [received_client, received_client]
    exact filled.transmitted
  · refine ⟨_, ?_, _, receiver_received queued
      ((receiving_inOrder space).trans (receiving_drain (by omega)))⟩
    have whole := length_add_free (write buffer block).1
    rw [content_write, List.length_append, List.length_take, block_length]
    omega
  · rw [received_net, left]
    exact (List.mem_erase_of_ne fun same => by cases segment_inj (by decide) (by decide) same).mpr last

theorem run_reads {c : Connection Fifo} {buffer : Fifo} {next : UInt32} {seqNums : Finset UInt32}
    {delivered : List Byte}
    (server : c.ends .server = receiver (receiving buffer next [] seqNums 0) delivered)
    (n : Nat) (stored : content buffer ≠ []) :
    ∃ after, Run step anyEvent c after ∧
      after.ends .server = receiver (receiving (read buffer n).1 next [] seqNums 0)
        (delivered ++ (content buffer).take n) ∧
      after.ends .client = c.ends .client ∧ after.net .server = c.net .server := by
  have reads : Emits (c.ends .server) [] _ := server ▸ receiver_reads n stored delivered
  exact ⟨_, run_emits reads, moved_ends .., moved_ends_other c .server _ _, moved_net ..⟩

end

end Connection

end IpTcp.Tcp
