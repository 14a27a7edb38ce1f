import IpTcp.Lib.Run
import IpTcp.Lib.Word
import IpTcp.Tcp.EndpointMoves
import IpTcp.Tcp.Established

/-! The receiving half of a socket against a sender that stays within what was
advertised. The right edge of the window is `nextExpectedByte + readBuffer.Free()`;
storing bytes leaves it in place and reading moves it on. -/

set_option autoImplicit false

namespace IpTcp.Tcp

open RingBuffer Lib

variable {Buffer : Type} [RingBuffer Buffer]

namespace TcpSocket

def edge (sock : TcpSocket Buffer) : Nat := sock.nextExpectedByte.toNat + free sock.readBuffer

def Within (sock : TcpSocket Buffer) : Prop :=
  ∀ item ∈ PriorityQueue.entries sock.earlyArrivalQueue, item.1.data ≠ [] →
    item.2 + item.1.data.length ≤ sock.edge ∧ item.2 + item.1.data.length < 2 ^ 32

theorem edge_stored (sock : TcpSocket Buffer) {data : List Byte}
    (fits : data.length ≤ free sock.readBuffer)
    (short : sock.nextExpectedByte.toNat + data.length < 2 ^ 32) :
    (sock.nextExpectedByte + UInt32.ofNat data.length).toNat + free (write sock.readBuffer data).1 =
      sock.edge := by
  have space := free_write_add fits
  rw [Word.toNat_add short, edge]
  omega

theorem Within.root {sock : TcpSocket Buffer} (within : sock.Within) {root : TcpPacketItem}
    {others : PriorityQueue} (queue : sock.earlyArrivalQueue = root :: others)
    (inOrder : root.priority = sock.nextExpectedByte.toNat) :
    root.value.data.length ≤ free sock.readBuffer ∧
      sock.nextExpectedByte.toNat + root.value.data.length < 2 ^ 32 := by
  by_cases empty : root.value.data = []
  · have := sock.nextExpectedByte.toNat_lt
    simp [empty, this]
  · obtain ⟨inside, short⟩ := within (PriorityQueue.entry root)
      (by simp [queue, PriorityQueue.entries]) empty
    simp only [PriorityQueue.entry, inOrder, edge] at inside short
    exact ⟨by omega, by omega⟩

theorem drained_edge {sock : TcpSocket Buffer} {root : TcpPacketItem}
    (fits : root.value.data.length ≤ free sock.readBuffer)
    (short : sock.nextExpectedByte.toNat + root.value.data.length < 2 ^ 32) :
    (sock.drained root).edge = sock.edge := by
  rw [edge, drained]
  simp only [fits, if_true]
  exact sock.edge_stored fits short

theorem Within.of_edge {sock after : TcpSocket Buffer} (within : sock.Within)
    (edge : after.edge = sock.edge)
    (queue : ∀ item ∈ PriorityQueue.entries after.earlyArrivalQueue,
      item ∈ PriorityQueue.entries sock.earlyArrivalQueue) : after.Within := by
  intro item member
  rw [edge]
  exact within item (queue item member)

theorem Within.drained {sock : TcpSocket Buffer} (within : sock.Within) {root : TcpPacketItem}
    {others : PriorityQueue} (queue : sock.earlyArrivalQueue = root :: others)
    (inOrder : root.priority = sock.nextExpectedByte.toNat) :
    root.value.data.length ≤ free sock.readBuffer ∧ (sock.drained root).Within ∧
      (sock.drained root).edge = sock.edge := by
  obtain ⟨fits, short⟩ := within.root queue inOrder
  have same := drained_edge fits short
  exact ⟨fits, within.of_edge same (drained_entries queue), same⟩

def Fits (sock : TcpSocket Buffer) (packet : TcpPacket) : Prop :=
  packet.data ≠ [] → (sock.relSeqNum packet).toNat + packet.data.length ≤ sock.edge ∧
    (sock.relSeqNum packet).toNat + packet.data.length < 2 ^ 32

structure Keeps (packet : TcpPacket) (before after : TcpSocket Buffer) (effects : List Effect) :
    Prop where
  within : after.Within
  edge : after.edge = before.edge
  identity : after.foreignInitSeqNum = before.foreignInitSeqNum
  succeeded : ∀ err, .writeIntoReadBuffer err ∈ effects → err = none

variable {packet : TcpPacket} {first sock after : TcpSocket Buffer} {effects more : List Effect}

theorem Keeps.quiet (keeps : Keeps packet first sock effects)
    (buffer : after.readBuffer = sock.readBuffer)
    (next : after.nextExpectedByte = sock.nextExpectedByte)
    (queue : after.earlyArrivalQueue = sock.earlyArrivalQueue)
    (isn : after.foreignInitSeqNum = sock.foreignInitSeqNum)
    (silent : ∀ err, .writeIntoReadBuffer err ∉ more) : Keeps packet first after (effects ++ more) := by
  have same : after.edge = sock.edge := by rw [TcpSocket.edge, TcpSocket.edge, buffer, next]
  refine ⟨keeps.within.of_edge same (by simp [queue]), same.trans keeps.edge,
    isn.trans keeps.identity, ?_⟩
  · intro err member
    rcases List.mem_append.mp member with early | late
    · exact keeps.succeeded err early
    · exact (silent err late).elim

theorem Within.queued (within : sock.Within) (fits : sock.Fits packet) :
    Within { sock with
      earlyArrivalQueue := sock.earlyArrivalQueue.heapPush
        { value := packet, priority := (sock.relSeqNum packet).toNat }
      earlyArrivalSeqNumSet := insert (sock.relSeqNum packet) sock.earlyArrivalSeqNumSet
      earlyArrivalPacketSize :=
        sock.earlyArrivalPacketSize + UInt32.ofNat packet.data.length } := by
  intro item member payload
  have found := (PriorityQueue.heapPush_entries sock.earlyArrivalQueue _).mem_iff.mp member
  rcases List.mem_cons.mp found with new | old
  · subst new
    exact fits payload
  · exact within item old payload

variable [Netstack] {absorbs : ConnState → Prop}

theorem Keeps.act (keeps : Keeps packet first sock effects) (fits : first.Fits packet)
    (act : Act packet (fun sock data => data.length ≤ free sock.readBuffer) absorbs sock more after) :
    Keeps packet first after (effects ++ more) := by
  have fitsHere : sock.Fits packet := by
    intro payload
    rw [relSeqNum, keeps.identity, keeps.edge]
    exact fits payload
  cases act with
  | sameAck | newAck | acked | closing | sendAck => exact keeps.quiet rfl rfl rfl rfl (by simp [sendAck])
  | wake =>
      refine keeps.quiet rfl rfl rfl rfl fun err member => ?_
      unfold wakeProbe at member
      split at member <;> simp at member
  | finInOrder _ _ _ _ _ quiet =>
      refine keeps.quiet rfl rfl rfl rfl fun err member => ?_
      simp only [List.mem_cons, reduceCtorEq, false_or] at member
      simpa using quiet _ member
  | queue =>
      refine ⟨keeps.within.queued fitsHere, keeps.edge, keeps.identity, ?_⟩
      simpa using keeps.succeeded
  | store flags payload inOrder space =>
      obtain ⟨_, short⟩ := fitsHere payload
      rw [inOrder] at short
      -- What the buffer loses in space, `nextExpectedByte` gains.
      have same := sock.edge_stored space short
      refine ⟨keeps.within.of_edge same (by simp), same.trans keeps.edge, keeps.identity, ?_⟩
      intro err member
      rcases List.mem_append.mp member with early | late
      · exact keeps.succeeded err early
      · simpa using late
  | drain root others _ queue inOrder space _ written _ _ =>
      obtain ⟨_, within, same⟩ := keeps.within.drained queue inOrder
      refine ⟨within, same.trans keeps.edge, keeps.identity, ?_⟩
      intro err member
      rcases List.mem_append.mp member with early | late
      · exact keeps.succeeded err early
      · rcases written err late with none | excess
        · exact none
        · omega

/-- A packet that ends within the window is handled without a failed write. -/
theorem handlePacket_keeps (within : sock.Within) (fits : sock.Fits packet) :
    Keeps packet sock (sock.handlePacket packet).1 (sock.handlePacket packet).2 := by
  have drains : ∀ (sock : TcpSocket Buffer) (root : TcpPacketItem) (others : PriorityQueue),
      sock.Within → sock.earlyArrivalQueue = root :: others →
      root.priority = sock.nextExpectedByte.toNat →
      root.value.data.length ≤ free sock.readBuffer ∧ (sock.drained root).Within := by
    intro sock root others holds queue inOrder
    obtain ⟨space, still, _⟩ := holds.drained queue inOrder
    exact ⟨space, still⟩
  have acts : Acts packet (fun sock data => data.length ≤ free sock.readBuffer) (fun _ => True)
      sock (sock.handlePacket packet).2 (sock.handlePacket packet).1 := by
    refine handlePacket_acts_of drains sock ?_ fun _ _ _ => trivial
    intro after effects result payload inOrder space
    have same : SameReceiver sock after := by
      simpa only [result] using sock.receiveAck_receiver packet.header
    have edge : after.edge = sock.edge := by
      rw [TcpSocket.edge, TcpSocket.edge, same.readBuffer, same.nextExpectedByte]
    have short : after.nextExpectedByte.toNat + packet.data.length < 2 ^ 32 := by
      rw [← inOrder, relSeqNum, same.foreignInitSeqNum]
      exact (fits payload).2
    have stored := after.edge_stored space short
    rw [writeIntoReadBuffer_fst, if_pos space]
    exact within.of_edge (stored.trans edge) fun item member => same.earlyArrivalQueue ▸ member
  exact acts.preserves (Keeps packet sock) (fun _ _ _ _ keeps act => keeps.act fits act)
    ⟨within, rfl, rfl, by simp⟩

end TcpSocket

namespace Endpoint

theorem Within.step [Netstack] {e after : Endpoint Buffer} {event : Event} {out : List TcpPacket}
    (moves : Moves e event out after) (within : e.sock.Within)
    (fits : ∀ packet, event = .handlePacket packet → e.sock.Fits packet) :
    after.sock.Within ∧ e.sock.edge ≤ after.sock.edge := by
  cases moves with
  | delivered call len vReads =>
      have wider : e.sock.edge ≤
          e.sock.nextExpectedByte.toNat + free (read e.sock.readBuffer len).1 :=
        Nat.add_le_add_left (free_le_read _ _) _
      refine ⟨fun item member payload => ?_, wider⟩
      obtain ⟨inside, short⟩ := within item member payload
      exact ⟨inside.trans wider, short⟩
  | packet packet =>
      have keeps := TcpSocket.handlePacket_keeps within (fits packet rfl)
      exact ⟨keeps.within, keeps.edge.ge⟩
  | _ => exact ⟨within, le_refl _⟩

/-- Every arriving payload ends within the window as it was at some point of the
past, and below the wrap of the numbers. -/
def advertised : List (Endpoint Buffer) → Event → Prop
  | current :: past, .handlePacket packet => packet.data ≠ [] →
      ∃ earlier ∈ current :: past,
        (current.sock.relSeqNum packet).toNat + packet.data.length ≤ earlier.sock.edge ∧
        (current.sock.relSeqNum packet).toNat + packet.data.length < 2 ^ 32
  | _, _ => True

structure Receives (states : List (Endpoint Buffer)) : Prop where
  within : ∀ current, states.head? = some current → current.sock.Within
  advances : states.Pairwise fun later earlier => earlier.sock.edge ≤ later.sock.edge

section
variable {current earlier first : Endpoint Buffer} {past : List (Endpoint Buffer)} {packet : TcpPacket}

theorem Receives.reached (receives : Receives (current :: past)) (member : earlier ∈ current :: past) :
    earlier.sock.edge ≤ current.sock.edge := by
  rcases List.mem_cons.mp member with rfl | old
  · exact le_refl _
  · exact List.rel_of_pairwise_cons receives.advances old

theorem Receives.fits (receives : Receives (current :: past))
    (sent : advertised (current :: past) (.handlePacket packet)) : current.sock.Fits packet := by
  -- A window that was advertised once is still open.
  intro payload
  obtain ⟨earlier, member, inside, short⟩ := sent payload
  exact ⟨inside.trans (receives.reached member), short⟩

theorem Opened.receives (opened : Opened first) : Receives [first] := by
  refine ⟨?_, List.pairwise_singleton _ _⟩
  rintro _ ⟨rfl⟩
  cases opened with
  | client => exact fun _ member => absurd member List.not_mem_nil
  | server => exact fun _ member => absurd member List.not_mem_nil

end

section
variable [Netstack]

theorem Receives.step {current after : Endpoint Buffer} {past : List (Endpoint Buffer)} {event : Event}
    (receives : Receives (current :: past)) (sent : advertised (current :: past) event)
    (moves : current.move event = some after) : Receives (after :: current :: past) := by
  obtain ⟨⟨_, out⟩, stepped, rfl⟩ := Option.map_eq_some_iff.mp moves
  obtain ⟨within, advance⟩ := Within.step (step_moves stepped) (receives.within current rfl) (by
    rintro packet rfl
    exact receives.fits sent)
  refine ⟨?_, List.pairwise_cons.mpr ⟨fun earlier member => ?_, receives.advances⟩⟩
  · rintro _ ⟨rfl⟩
    exact within
  · exact (receives.reached member).trans advance

theorem Receives.trace {first : Endpoint Buffer} {states : List (Endpoint Buffer)}
    (opened : Opened first) (trace : Trace move advertised first states) : Receives states :=
  trace.preserves (fun _ _ _ _ receives sent moves => receives.step sent moves) opened.receives

/-- A socket never reneges on a window it advertised: while every arriving payload ends
within one of them, every write into the read buffer succeeds, the edge never goes
back, and what is queued ends within it. A bare FIN, which carries no payload, does so
if it ended within the edge at some point. -/
theorem window_never_reneges {first current : Endpoint Buffer} {past : List (Endpoint Buffer)}
    (opened : Opened first) (trace : Trace move advertised first (current :: past)) :
    (∀ packet, advertised (current :: past) (.handlePacket packet) →
        ∀ err, .writeIntoReadBuffer err ∈ (current.sock.handlePacket packet).2 → err = none) ∧
      (current :: past).Pairwise (fun later earlier => earlier.sock.edge ≤ later.sock.edge) ∧
      ∀ item ∈ current.sock.earlyArrivalQueue,
        item.value.data ≠ [] ∨ (∃ earlier ∈ current :: past, item.priority ≤ earlier.sock.edge) →
          item.priority + item.value.data.length ≤ current.sock.edge := by
  have receives := Receives.trace opened trace
  refine ⟨fun packet sent => ?_, receives.advances, fun item member kind => ?_⟩
  · exact (TcpSocket.handlePacket_keeps (receives.within current rfl) (receives.fits sent)).succeeded
  · by_cases empty : item.value.data = []
    · rcases kind with payload | ⟨earlier, seen, inside⟩
      · exact absurd empty payload
      · rw [empty]
        exact inside.trans (receives.reached seen)
    · exact (receives.within current rfl (PriorityQueue.entry item) (List.mem_map_of_mem member) empty).1

end

section
attribute [local instance] Netstack.standard

def earlyByte : TcpPacket :=
  loopback.seal { handshakeAckHeader loopback (synAckHeader loopback.reversed 200 (synHeader loopback 100))
    with seqNum := 103 } [9]

theorem window_never_reneges_earlyByte :
    (((accepted loopback.reversed 200 100 : Endpoint Fifo).handlePacket earlyByte).1.sock.earlyArrivalQueue.map
        fun item => (item.priority, item.value.data)) = [(3, [9])] ∧
      ∀ item ∈ ((accepted loopback.reversed 200 100 : Endpoint Fifo).handlePacket
          earlyByte).1.sock.earlyArrivalQueue, item.value.data ≠ [] →
        item.priority + item.value.data.length ≤
          ((accepted loopback.reversed 200 100 : Endpoint Fifo).handlePacket earlyByte).1.sock.edge := by
  have sent : advertised [(accepted loopback.reversed 200 100 : Endpoint Fifo)]
      (.handlePacket earlyByte) :=
    fun _ => ⟨_, List.mem_singleton_self _, by decide +kernel, by decide +kernel⟩
  have trace : Trace move advertised (accepted loopback.reversed 200 100 : Endpoint Fifo)
      [((accepted loopback.reversed 200 100).handlePacket earlyByte).1,
        accepted loopback.reversed 200 100] := Trace.next Trace.start sent rfl
  have within := (window_never_reneges (opened_accepted loopback.reversed 200 100) trace).2.2
  exact ⟨by decide +kernel, fun item member payload => within item member (Or.inl payload)⟩

end

end Endpoint

end IpTcp.Tcp
