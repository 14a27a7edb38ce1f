import IpTcp.Lib.Word
import IpTcp.Tcp.AckProcessing
import IpTcp.Tcp.Established

/-! The same connection with another initial sequence number. Everything this end numbers
itself moves by the same amount modulo 2^32: its own sequence numbers and the
acknowledgements it gets for them. `HandlePacket` compares acknowledgements as plain
numbers, and notices the difference exactly where only one of the two wraps. -/

set_option autoImplicit false

namespace IpTcp.Tcp

open RingBuffer

def TcpPacketItem.map (rewrite : TcpPacket → TcpPacket) (item : TcpPacketItem) : TcpPacketItem :=
  { item with value := rewrite item.value }

@[simp] theorem TcpPacketItem.map_value (rewrite : TcpPacket → TcpPacket) (item : TcpPacketItem) :
    (item.map rewrite).value = rewrite item.value := rfl

namespace PriorityQueue

theorem natural_map (rewrite : TcpPacket → TcpPacket) :
    Lib.Heap.Natural heapInterface (TcpPacketItem.map rewrite) (List.map (TcpPacketItem.map rewrite)) where
  len items := List.length_map _
  less items i j := by
    -- The heap looks at priorities only.
    simp only [heapInterface, less, List.getElem?_map]
    cases items[i]? <;> cases items[j]? <;> rfl
  swap items i j := by
    simp only [heapInterface, swap, List.getElem?_map]
    cases items[i]? <;> cases items[j]? <;> simp [List.map_set, TcpPacketItem.map]
  push items item := by simp [heapInterface, push, TcpPacketItem.map]
  pop items := by
    simp only [heapInterface, pop, List.getLast?_map]
    cases items.getLast? <;> simp [TcpPacketItem.map]

theorem heapPush_map (rewrite : TcpPacket → TcpPacket) (pq : PriorityQueue) (item : TcpPacketItem) :
    heapPush (pq.map (TcpPacketItem.map rewrite)) (item.map rewrite) =
      (heapPush pq item).map (TcpPacketItem.map rewrite) :=
  (natural_map rewrite).simulates.heapPush pq item

theorem heapPop_map (rewrite : TcpPacket → TcpPacket) (pq : PriorityQueue) :
    heapPop (pq.map (TcpPacketItem.map rewrite)) = (heapPop pq).map (TcpPacketItem.map rewrite) := by
  simp only [heapPop, (natural_map rewrite).simulates.heapPop pq]
  cases Lib.Heap.pop heapInterface pq <;> rfl

end PriorityQueue

theorem ite_map {α β : Type} {condition : Prop} [Decidable condition] {rewrite : α → β} {a b : α}
    {c d : β} (holds : condition → c = rewrite a) (fails : ¬ condition → d = rewrite b) :
    (if condition then c else d) = rewrite (if condition then a else b) := by
  split
  · exact holds ‹_›
  · exact fails ‹_›

section
variable [Netstack]

def TcpPacket.resealed (packet : TcpPacket) (sourceIP destIP : IntIP) : TcpPacket :=
  { packet with header := { packet.header with
      checksum := computeTCPChecksum { packet.header with checksum := 0 } sourceIP destIP packet.data } }

/-- A packet this end sends, numbered from an initial sequence number that is `k` larger. -/
def TcpPacket.shiftSeq (conn : TcpConn) (k : UInt32) (packet : TcpPacket) : TcpPacket :=
  TcpPacket.resealed { packet with header := { packet.header with seqNum := packet.header.seqNum + k } }
    conn.localIP conn.foreignIP

/-- A packet this end receives, where it acknowledges numbers that are `k` larger. -/
def TcpPacket.shiftAck (conn : TcpConn) (k : UInt32) (packet : TcpPacket) : TcpPacket :=
  TcpPacket.resealed { packet with header := { packet.header with ackNum := packet.header.ackNum + k } }
    conn.foreignIP conn.localIP

section
variable (conn : TcpConn) (k : UInt32) (packet : TcpPacket)

@[simp] theorem shiftAck_data : (packet.shiftAck conn k).data = packet.data := rfl
@[simp] theorem shiftAck_flags : (packet.shiftAck conn k).header.flags = packet.header.flags := rfl
@[simp] theorem shiftAck_hasFin : (packet.shiftAck conn k).hasFin = packet.hasFin := rfl
@[simp] theorem shiftSeq_hasFin : (packet.shiftSeq conn k).hasFin = packet.hasFin := rfl
@[simp] theorem shiftSeq_payloadSize : (packet.shiftSeq conn k).payloadSize = packet.payloadSize := rfl

end

def Effect.shift (conn : TcpConn) (k : UInt32) : Effect → Effect
  | .sendTcp packet => .sendTcp (packet.shiftSeq conn k)
  | effect => effect

namespace TcpSocket

variable {Buffer : Type}

/-- The socket as it would be had it drawn an initial sequence number `k` larger. -/
def shift (k : UInt32) (sock : TcpSocket Buffer) : TcpSocket Buffer :=
  { sock with
    myInitSeqNum := sock.myInitSeqNum + k
    largestAckReceived := sock.largestAckReceived + k
    inFlightList := sock.inFlightList.map (TcpPacketItem.map (TcpPacket.shiftSeq sock.conn k))
    earlyArrivalQueue := sock.earlyArrivalQueue.map (TcpPacketItem.map (TcpPacket.shiftAck sock.conn k)) }

def shiftResult (conn : TcpConn) (k : UInt32) (result : TcpSocket Buffer × List Effect) :
    TcpSocket Buffer × List Effect :=
  (result.1.shift k, result.2.map (Effect.shift conn k))

variable (sock : TcpSocket Buffer) (packet : TcpPacket) (k : UInt32)

theorem finReceived_shift : (sock.shift k).finReceived = shiftResult sock.conn k sock.finReceived := by
  unfold finReceived
  cases state : sock.connState <;> simp [shift, state, shiftResult, Effect.shift]

theorem queueEarlyArrival_shift :
    (sock.shift k).queueEarlyArrival (packet.shiftAck sock.conn k) =
      (sock.queueEarlyArrival packet).shift k := by
  have pushed := PriorityQueue.heapPush_map (TcpPacket.shiftAck sock.conn k) sock.earlyArrivalQueue
    { value := packet, priority := (sock.relSeqNum packet).toNat }
  unfold queueEarlyArrival
  by_cases seen : sock.relSeqNum packet ∈ sock.earlyArrivalSeqNumSet
  · simp only [seen, if_true]
    exact if_pos seen
  · simp only [seen, if_false]
    refine (if_neg seen).trans ?_
    simp only [shift, ← pushed]
    rfl

theorem popEarlyArrival_shift :
    (sock.shift k).popEarlyArrival (packet.shiftAck sock.conn k) =
      (sock.popEarlyArrival packet).shift k := by
  simp only [popEarlyArrival, shift, PriorityQueue.heapPop_map]
  rfl

theorem shift_earlyArrivalQueue_length :
    List.length (sock.shift k).earlyArrivalQueue = List.length sock.earlyArrivalQueue :=
  List.length_map _

theorem wakeProbe_shift (conn : TcpConn) :
    (sock.shift k).wakeProbe = sock.wakeProbe.map (Effect.shift conn k) := by
  unfold wakeProbe
  exact ite_map (fun _ => rfl) fun _ => rfl

theorem removeAcked_shift (rel : UInt32) (items : List TcpPacketItem) :
    removeAcked rel (sock.shift k) (items.map (TcpPacketItem.map (TcpPacket.shiftSeq sock.conn k))) =
      Prod.map (shift k) id (removeAcked rel sock items) := by
  induction items generalizing sock with
  | nil => rfl
  | cons item rest ih =>
      refine ite_map (fun _ => ite_map (fun _ => rfl) fun _ => ?_) fun _ => rfl
      exact ih (sock.ackedItem item)

theorem receiveAck_shift (order : packet.header.ackNum < sock.largestAckReceived ↔
      packet.header.ackNum + k < sock.largestAckReceived + k) :
    (sock.shift k).receiveAck (packet.shiftAck sock.conn k).header =
      ((sock.receiveAck packet.header).1.shift k,
        (sock.receiveAck packet.header).2.1.map (Effect.shift sock.conn k),
        (sock.receiveAck packet.header).2.2) := by
  unfold receiveAck
  by_cases old : packet.header.ackNum < sock.largestAckReceived
  · rw [if_pos old]
    exact if_pos (order.mp old)
  · rw [if_neg old]
    refine (if_neg fun less => old (order.mpr less)).trans ?_
    by_cases same : packet.header.ackNum = sock.largestAckReceived
    · rw [if_pos same]
      refine (if_pos (congrArg (· + k) same)).trans ?_
      have widened : (if sock.foreignWindowSize < packet.header.windowSize.toUInt32 then
          { sock.shift k with foreignWindowSize := packet.header.windowSize.toUInt32 } else sock.shift k) =
          shift k (if sock.foreignWindowSize < packet.header.windowSize.toUInt32 then
            { sock with foreignWindowSize := packet.header.windowSize.toUInt32 } else sock) :=
        ite_map (fun _ => rfl) fun _ => rfl
      exact Prod.ext widened (Prod.ext ((congrArg wakeProbe widened).trans (wakeProbe_shift ..)) rfl)
    · rw [if_neg same]
      refine (if_neg fun equal => same ((UInt32.add_left_inj k).mp equal)).trans ?_
      -- Past the comparison only the distance from the initial sequence number counts.
      have distance : packet.header.ackNum + k - (sock.myInitSeqNum + k) =
          packet.header.ackNum - sock.myInitSeqNum := by grind
      have removed : removeAcked ((packet.shiftAck sock.conn k).header.ackNum - (sock.shift k).myInitSeqNum)
          ((sock.shift k).storeAck (packet.shiftAck sock.conn k).header) (sock.shift k).inFlightList =
          Prod.map (shift k) id (removeAcked (packet.header.ackNum - sock.myInitSeqNum)
            (sock.storeAck packet.header) sock.inFlightList) := by
        change removeAcked (packet.header.ackNum + k - (sock.myInitSeqNum + k)) _ _ = _
        rw [distance]
        exact removeAcked_shift (sock.storeAck packet.header) k _ sock.inFlightList
      rw [removed]
      generalize removeAcked _ (sock.storeAck packet.header) _ = result
      obtain ⟨after, ended⟩ := result
      cases ended with
      | true => rfl
      | false => exact Prod.ext rfl (Prod.ext (wakeProbe_shift ..) rfl)

theorem isValid_shiftAck : isValidTcpCheckSum (packet.shiftAck sock.conn k).header sock.conn.foreignIP
    sock.conn.localIP (packet.shiftAck sock.conn k).data = true := by
  simp [isValidTcpCheckSum, TcpPacket.shiftAck, TcpPacket.resealed]

variable [RingBuffer Buffer]

theorem writeIntoReadBuffer_shift (data : List Byte) :
    (sock.shift k).writeIntoReadBuffer data = shiftResult sock.conn k (sock.writeIntoReadBuffer data) := by
  refine Prod.ext ?_ ?_
  · rw [writeIntoReadBuffer_fst, shiftResult, writeIntoReadBuffer_fst]
    rfl
  · rw [writeIntoReadBuffer_snd, shiftResult, writeIntoReadBuffer_snd]
    change (if data.length ≤ free sock.readBuffer then _ else _) = _
    split <;> rfl

theorem drainEarlyArrivals_shift (fuel : Nat) :
    (sock.shift k).drainEarlyArrivals fuel = shiftResult sock.conn k (sock.drainEarlyArrivals fuel) := by
  induction fuel generalizing sock with
  | zero => rfl
  | succ fuel ih =>
      cases queue : sock.earlyArrivalQueue with
      | nil => simp [drainEarlyArrivals, queue, shift, shiftResult]
      | cons root others =>
          have shifted : (sock.shift k).earlyArrivalQueue =
              root.map (TcpPacket.shiftAck sock.conn k) ::
                others.map (TcpPacketItem.map (TcpPacket.shiftAck sock.conn k)) := by
            simp [shift, queue]
          by_cases inOrder : root.priority = sock.nextExpectedByte.toNat
          · -- the turn's own effects send nothing, so they stay as they are
            have fin : (if root.value.header.flags = tcpFlagFin then
                  ((sock.popEarlyArrival root.value).shift k).finReceived
                else ((sock.popEarlyArrival root.value).shift k, [])) =
                shiftResult sock.conn k (if root.value.header.flags = tcpFlagFin then
                  (sock.popEarlyArrival root.value).finReceived
                else (sock.popEarlyArrival root.value, [])) := by
              split
              · exact finReceived_shift _ k
              · rfl
            have conn : (if root.value.header.flags = tcpFlagFin then
                  (sock.popEarlyArrival root.value).finReceived
                else (sock.popEarlyArrival root.value, [])).1.conn = sock.conn := by
              split
              · rw [finReceived_fst]
                rfl
              · rfl
            rw [drainEarlyArrivals_turn fuel sock root others queue inOrder,
              drainEarlyArrivals_turn fuel (sock.shift k) _ _ shifted inOrder]
            simp only [TcpPacketItem.map_value, shiftAck_flags, shiftAck_data, popEarlyArrival_shift, fin]
            generalize (if root.value.header.flags = tcpFlagFin then
              (sock.popEarlyArrival root.value).finReceived
              else (sock.popEarlyArrival root.value, [])) = absorbed at conn ⊢
            simp only [shiftResult, writeIntoReadBuffer_shift, ih, writeIntoReadBuffer_conn, conn,
              List.map_append]
          · simp only [drainEarlyArrivals, queue, shifted]
            refine (if_neg inOrder).trans ?_
            simp only [inOrder, if_false]
            rfl

theorem getAckHeader_shift : (sock.shift k).getAckHeader =
    { sock.getAckHeader with seqNum := sock.getAckHeader.seqNum + k } := by
  have seqNum : sock.myInitSeqNum + k + sock.numBytesSent + 1 =
      sock.myInitSeqNum + sock.numBytesSent + 1 + k := by grind
  simp only [getAckHeader, shift, seqNum]

theorem sendAck_shift : (sock.shift k).sendAck = sock.sendAck.map (Effect.shift sock.conn k) := by
  simp only [sendAck, getAckHeader_shift]
  rfl

theorem receiveData_shift : (sock.shift k).receiveData (packet.shiftAck sock.conn k) =
    shiftResult sock.conn k (sock.receiveData packet) := by
  have queued : (sock.queueEarlyArrival packet).conn = sock.conn := by
    simp only [queueEarlyArrival]
    split <;> rfl
  refine ite_map (fun _ => ite_map (fun _ => ?_) fun _ => rfl) fun _ => ite_map (fun _ => ?_) fun _ => ?_
  · simp only [shiftAck_data, writeIntoReadBuffer_shift, shiftResult, drainEarlyArrivals_shift,
      sendAck_shift, drainEarlyArrivals_conn, writeIntoReadBuffer_conn, shift_earlyArrivalQueue_length,
      List.map_append]
  · simp only [queueEarlyArrival_shift, sendAck_shift, queued, shiftResult]
  · rw [sendAck_shift]
    rfl

theorem receiveFin_shift : (sock.shift k).receiveFin (packet.shiftAck sock.conn k) =
    shiftResult sock.conn k (sock.receiveFin packet) := by
  refine ite_map (fun _ => ?_) fun _ => ite_map (fun _ => ?_) fun _ => rfl
  · have header : (sock.shift k).getFinAckHeader =
        { sock.getFinAckHeader with seqNum := sock.getFinAckHeader.seqNum + k } := by
      simp only [getFinAckHeader, getAckHeader_shift]
    simp only [header, finReceived_shift, shiftResult, List.map_cons]
    rfl
  · rw [queueEarlyArrival_shift]
    rfl

/-! ## The whole handler -/

theorem handlePacket_shift (opened : sock.closed = false)
    (valid : isValidTcpCheckSum packet.header sock.conn.foreignIP sock.conn.localIP packet.data = true)
    (order : packet.header.flags = tcpFlagAck → (packet.header.ackNum < sock.largestAckReceived ↔
      packet.header.ackNum + k < sock.largestAckReceived + k)) :
    (sock.shift k).handlePacket (packet.shiftAck sock.conn k) =
      shiftResult sock.conn k (sock.handlePacket packet) := by
  have shiftedOpened : (sock.shift k).closed = false := opened
  have shiftedValid := isValid_shiftAck sock packet k
  by_cases flags : packet.header.flags = tcpFlagAck
  · have acked := receiveAck_shift sock packet k (order flags)
    have conn := (sock.receiveAck_receiver packet.header).conn
    rw [handlePacket_ack opened valid flags, handlePacket_ack shiftedOpened shiftedValid flags, acked]
    generalize sock.receiveAck packet.header = result at conn ⊢
    obtain ⟨after, effects, goesOn⟩ := result
    cases goesOn with
    | false => rfl
    | true =>
        refine ite_map (fun _ => rfl) fun _ => ?_
        simp only at conn
        rw [← conn, receiveData_shift, shiftResult, shiftResult, List.map_append]
  · rw [handlePacket_other opened valid flags, handlePacket_other shiftedOpened shiftedValid flags]
    exact ite_map (fun _ => receiveFin_shift sock packet k) fun _ => rfl

/-- `HandlePacket` behaves the same whatever initial sequence number this end drew, up
to the numbers it counts from there, exactly where adding the difference wraps neither
or both of the acknowledgement numbers that it compares. -/
theorem handlePacket_shift_iff (opened : sock.closed = false)
    (valid : isValidTcpCheckSum packet.header sock.conn.foreignIP sock.conn.localIP packet.data = true) :
    (sock.shift k).handlePacket (packet.shiftAck sock.conn k) =
        shiftResult sock.conn k (sock.handlePacket packet) ↔
      (packet.header.flags = tcpFlagAck →
        (2 ^ 32 ≤ packet.header.ackNum.toNat + k.toNat ↔
          2 ^ 32 ≤ sock.largestAckReceived.toNat + k.toNat)) := by
  constructor
  · intro same flags
    rw [← Lib.Word.lt_add_iff_wrap]
    have shiftedOpened : (sock.shift k).closed = false := opened
    have largest := handlePacket_largest opened valid flags
    have shifted : ((sock.shift k).handlePacket (packet.shiftAck sock.conn k)).1.largestAckReceived =
        if packet.header.ackNum + k < sock.largestAckReceived + k then sock.largestAckReceived + k
        else packet.header.ackNum + k :=
      handlePacket_largest shiftedOpened (isValid_shiftAck sock packet k) flags
    rw [same] at shifted
    change (sock.handlePacket packet).1.largestAckReceived + k = _ at shifted
    rw [largest] at shifted
    -- one of the two drops the packet and the other stores its number, or both do the same
    by_cases old : packet.header.ackNum < sock.largestAckReceived
    · by_cases shiftedOld : packet.header.ackNum + k < sock.largestAckReceived + k
      · exact iff_of_true old shiftedOld
      · rw [if_pos old, if_neg shiftedOld] at shifted
        rw [(UInt32.add_left_inj k).mp shifted] at old
        exact absurd old (UInt32.lt_irrefl _)
    · by_cases shiftedOld : packet.header.ackNum + k < sock.largestAckReceived + k
      · rw [if_neg old, if_pos shiftedOld] at shifted
        rw [shifted] at shiftedOld
        exact absurd shiftedOld (UInt32.lt_irrefl _)
      · exact iff_of_false old shiftedOld
  · intro wraps
    refine handlePacket_shift sock packet k opened valid fun flags => ?_
    exact (Lib.Word.lt_add_iff_wrap ..).mpr (wraps flags)

end TcpSocket

end

namespace TcpSocket

section
attribute [local instance] Netstack.standard

def threeSent : TcpSocket Fifo :=
  let sock := (Endpoint.connected loopback 100 200 : Endpoint Fifo).sock
  { sock with
    numBytesSent := 3
    inFlightList := [Endpoint.inFlightItem sock (loopback.seal sock.getAckHeader [1, 2, 3]) false]
    inFlightPacketSize := 3 }

def threeAcked : TcpPacket :=
  loopback.reversed.seal (handshakeHeader loopback.reversed 201 104 tcpFlagAck) []

theorem handlePacket_shift_iff_five :
    (threeSent.shift 5).handlePacket (threeAcked.shiftAck threeSent.conn 5) =
      shiftResult threeSent.conn 5 (threeSent.handlePacket threeAcked) :=
  (handlePacket_shift_iff threeSent threeAcked 5 rfl (by decide +kernel)).mpr (by decide)

/-- With an initial sequence number of 2^32 - 2 the acknowledgement wraps, and is dropped
as an old one. -/
theorem handlePacket_shift_wraps :
    ∃ (sock : TcpSocket Fifo) (packet : TcpPacket) (k : UInt32), sock.closed = false ∧
      isValidTcpCheckSum packet.header sock.conn.foreignIP sock.conn.localIP packet.data = true ∧
      sock.largestAckReceived - (sock.myInitSeqNum + 1) ≤ sock.numBytesSent ∧
      packet.header.ackNum - (sock.myInitSeqNum + 1) ≤ sock.numBytesSent ∧
      (sock.shift k).handlePacket (packet.shiftAck sock.conn k) ≠
        shiftResult sock.conn k (sock.handlePacket packet) := by
  refine ⟨threeSent, threeAcked, 4294967194, rfl, by decide +kernel, by decide, by decide, fun same => ?_⟩
  have largest := congrArg (·.1.largestAckReceived) same
  revert largest
  decide +kernel

end

end TcpSocket

end IpTcp.Tcp
