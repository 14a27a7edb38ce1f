import IpTcp.Tcp.AckProcessing
import IpTcp.Tcp.Joint

/-! What becomes of the segment an end is waiting for. `HandlePacket` looks at the
acknowledgement number first, and drops the whole packet where it is older than the
largest one it has seen; the payload is stored exactly where it is not. -/

set_option autoImplicit false

namespace IpTcp.Tcp

open RingBuffer Lib

variable {Buffer : Type}

namespace TcpSocket

theorem removeAcked_closes (rel : UInt32) (sock : TcpSocket Buffer) (items : List TcpPacketItem)
    (closes : (removeAcked rel sock items).2 = true) :
    ∃ item rest, (removeAcked rel sock items).1.inFlightList = item :: rest ∧
      item.value.hasFin = true ∧ item.priority + item.value.payloadSize ≤ rel.toNat := by
  induction items generalizing sock with
  | nil => cases closes
  | cons item rest ih =>
      by_cases covered : item.priority + item.value.payloadSize ≤ rel.toNat
      · by_cases ends : item.value.hasFin = true ∧ sock.connState = .lastAck
        · refine ⟨item, rest, ?_, ends.1, covered⟩
          simp [removeAcked, covered, ends]
        · simp only [removeAcked] at closes ⊢
          rw [if_pos covered, if_neg ends] at closes ⊢
          exact ih (sock.ackedItem item) closes
      · simp only [removeAcked] at closes
        rw [if_neg covered] at closes
        cases closes

theorem receiveAck_stops (sock : TcpSocket Buffer) (tcpHdr : TCPFields)
    (recent : sock.largestAckReceived ≤ tcpHdr.ackNum)
    (stops : (sock.receiveAck tcpHdr).2.2 = false) :
    ∃ item rest, (sock.receiveAck tcpHdr).1.inFlightList = item :: rest ∧
      item.value.hasFin = true ∧
      item.priority + item.value.payloadSize ≤ (tcpHdr.ackNum - sock.myInitSeqNum).toNat := by
  have notOld : ¬ tcpHdr.ackNum < sock.largestAckReceived := UInt32.not_lt.mpr recent
  unfold receiveAck at stops ⊢
  rw [if_neg notOld] at stops ⊢
  by_cases same : tcpHdr.ackNum = sock.largestAckReceived
  · rw [if_pos same] at stops
    cases stops
  · rw [if_neg same] at stops ⊢
    have closes := removeAcked_closes (tcpHdr.ackNum - sock.myInitSeqNum) (sock.storeAck tcpHdr)
      sock.inFlightList
    generalize (sock.storeAck tcpHdr).removeAcked (tcpHdr.ackNum - sock.myInitSeqNum)
      sock.inFlightList = result at stops closes ⊢
    obtain ⟨after, ended⟩ := result
    cases ended with
    | true => exact closes rfl
    | false => cases stops

variable [RingBuffer Buffer]

/-- The read buffer got `data`, and then perhaps more; `nextExpectedByte` moved past
`data`, and past a part of the rest. -/
def Appends (before after : TcpSocket Buffer) (data : List Byte) : Prop :=
  ∃ rest further, content after.readBuffer = content before.readBuffer ++ data ++ rest ∧
    further ≤ rest.length ∧
    after.nextExpectedByte = before.nextExpectedByte + UInt32.ofNat (data.length + further)

theorem Appends.refl (sock : TcpSocket Buffer) : Appends sock sock [] :=
  ⟨[], 0, by simp, le_refl _, by simp⟩

theorem Appends.trans {first middle last : TcpSocket Buffer} {data : List Byte}
    (front : Appends first middle data) (back : Appends middle last []) : Appends first last data := by
  obtain ⟨rest, further, buffer, part, next⟩ := front
  obtain ⟨more, evenFurther, laterBuffer, laterPart, laterNext⟩ := back
  refine ⟨rest ++ more, further + evenFurther, ?_, ?_, ?_⟩
  · rw [laterBuffer, buffer]
    simp
  · rw [List.length_append]
    omega
  · rw [laterNext, next, List.length_nil, Nat.zero_add, ← Nat.add_assoc,
      UInt32.ofNat_add (data.length + further), UInt32.add_assoc]

theorem Appends.after {before middle last : TcpSocket Buffer} {data : List Byte}
    (same : SameReceiver before middle) (appends : Appends middle last data) :
    Appends before last data := by
  rw [Appends, same.readBuffer, same.nextExpectedByte] at appends
  exact appends

theorem drained_appends (sock : TcpSocket Buffer) (root : TcpPacketItem) :
    Appends sock (sock.drained root) [] := by
  refine ⟨root.value.data.take (free sock.readBuffer),
    if root.value.data.length ≤ free sock.readBuffer then root.value.data.length else 0, ?_, ?_, ?_⟩
  · rw [List.append_nil]
    exact content_write _ _
  · rw [List.length_take]
    split <;> omega
  · simp only [drained]
    split <;> simp

theorem drainEarlyArrivals_appends (fuel : Nat) (sock : TcpSocket Buffer) :
    Appends sock (sock.drainEarlyArrivals fuel).1 [] := by
  induction fuel generalizing sock with
  | zero => exact Appends.refl sock
  | succ fuel ih =>
      cases queue : sock.earlyArrivalQueue with
      | nil =>
          simp only [drainEarlyArrivals, queue]
          exact Appends.refl sock
      | cons root others =>
          by_cases inOrder : root.priority = sock.nextExpectedByte.toNat
          · obtain ⟨turn, unfolded, _⟩ := drainEarlyArrivals_succ fuel sock root others queue inOrder
            rw [unfolded]
            exact (sock.drained_appends root).trans (ih (sock.drained root))
          · simp only [drainEarlyArrivals, queue, inOrder, if_false]
            exact Appends.refl sock

theorem Appends.moves {before : TcpSocket Buffer} {data : List Byte} (appends : Appends before before data) :
    data = [] := by
  obtain ⟨rest, _, buffer, _⟩ := appends
  have := congrArg List.length buffer
  simp only [List.length_append] at this
  exact List.length_eq_zero_iff.mp (by omega)

variable [Netstack]

structure Awaited (sock : TcpSocket Buffer) (packet : TcpPacket) : Prop where
  opened : sock.closed = false
  valid : isValidTcpCheckSum packet.header sock.conn.foreignIP sock.conn.localIP packet.data = true
  flags : packet.header.flags = tcpFlagAck
  payload : packet.data ≠ []
  inOrder : sock.relSeqNum packet = sock.nextExpectedByte
  fits : packet.data.length ≤ free sock.readBuffer

theorem receiveData_appends {sock : TcpSocket Buffer} {packet : TcpPacket}
    (inOrder : sock.relSeqNum packet = sock.nextExpectedByte)
    (fits : packet.data.length ≤ free sock.readBuffer) :
    Appends sock (sock.receiveData packet).1 packet.data := by
  have stored : Appends sock (sock.writeIntoReadBuffer packet.data).1 packet.data := by
    rw [writeIntoReadBuffer_fst, if_pos fits]
    refine ⟨[], 0, ?_, le_refl _, by simp⟩
    rw [content_write_of_le _ _ fits, List.append_nil]
  unfold receiveData
  rw [if_pos inOrder, if_pos fits]
  exact stored.trans (drainEarlyArrivals_appends _ _)

/-- The awaited segment is stored once its acknowledgement was processed, and dropped
where that is old. -/
theorem handlePacket_awaited {sock : TcpSocket Buffer} {packet : TcpPacket}
    (awaited : Awaited sock packet) :
    (packet.header.ackNum < sock.largestAckReceived → (sock.handlePacket packet).1 = sock) ∧
    ((sock.receiveAck packet.header).2.2 = true →
      Appends sock (sock.handlePacket packet).1 packet.data) ∧
    ((sock.receiveAck packet.header).2.2 = false →
      (sock.handlePacket packet).1 = (sock.receiveAck packet.header).1) := by
  have same := sock.receiveAck_receiver packet.header
  rw [handlePacket_ack awaited.opened awaited.valid awaited.flags]
  refine ⟨fun old => ?_, ?_, ?_⟩
  · have stops : sock.receiveAck packet.header = (sock, [], false) := by
      unfold receiveAck
      rw [if_pos old]
    rw [stops]
  · generalize sock.receiveAck packet.header = result at same
    obtain ⟨after, effects, goesOn⟩ := result
    rintro rfl
    have inOrder : after.relSeqNum packet = after.nextExpectedByte := by
      rw [relSeqNum, same.foreignInitSeqNum, same.nextExpectedByte]
      exact awaited.inOrder
    have fits : packet.data.length ≤ free after.readBuffer := same.readBuffer ▸ awaited.fits
    simp only [List.length_eq_zero_iff, awaited.payload, if_false]
    exact Appends.after same (receiveData_appends inOrder fits)
  · generalize sock.receiveAck packet.header = result
    obtain ⟨after, effects, goesOn⟩ := result
    rintro rfl
    rfl

end TcpSocket

namespace Connection

open Endpoint

section
variable [RingBuffer Buffer] [Netstack]

/-- In every reachable state, a segment on the way that its end is waiting for is stored
exactly where its acknowledgement number is not older than the largest one received. -/
theorem awaited_stored_iff {conn : TcpConn} {clientIsn serverIsn : UInt32} {c : Connection Buffer}
    (run : Run step anyEvent (established conn clientIsn serverIsn) c) {side : Side}
    {packet : TcpPacket} (member : packet ∈ c.net side)
    (awaited : TcpSocket.Awaited (c.ends side).sock packet) :
    TcpSocket.Appends (c.ends side).sock ((c.ends side).sock.handlePacket packet).1 packet.data ↔
      (c.ends side).sock.largestAckReceived ≤ packet.header.ackNum := by
  obtain ⟨dropped, stored, closes⟩ := TcpSocket.handlePacket_awaited awaited
  constructor
  · intro appends
    by_contra old
    rw [dropped (UInt32.not_le.mp old)] at appends
    exact awaited.payload appends.moves
  · intro recent
    cases goesOn : ((c.ends side).sock.receiveAck packet.header).2.2 with
    | true => exact stored goesOn
    | false =>
        -- the acknowledgement would cover this end's FIN, but a data segment never does
        exfalso
        have joint := Joint.run run
        obtain ⟨item, rest, front, fin, covered⟩ :=
          TcpSocket.receiveAck_stops _ packet.header recent goesOn
        rw [← closes goesOn] at front
        have past := ((joint.sender side).numbered.settle packet).fin_covered front fin covered
        change (c.ends side).transmitted.length + 2 ≤ _ at past
        have below := (packet.header.ackNum - (c.ends side).sock.myInitSeqNum).toNat_lt
        have flow := joint.flow side (by omega)
        have notSyn : packet.header.flags ≠ tcpFlagSyn := by
          rw [awaited.flags]
          decide
        rcases flow.answers packet member notSyn with known | ⟨empty, _⟩
        · have := flow.stored.below
          omega
        · exact awaited.payload empty

end

section
attribute [local instance] Netstack.standard

theorem sendsByte_isSome :
    (exec step anyEvent (established loopback 100 200 : Connection Fifo)
      (sendsByte .client 7)).isSome := by
  decide +kernel

theorem awaited_stored_byte :
    ∃ c : Connection Fifo, Run step anyEvent (established loopback 100 200) c ∧
      TcpSocket.Appends (c.ends .server).sock
        ((c.ends .server).sock.handlePacket (fromClient 101 201 tcpFlagAck [7])).1 [7] := by
  have run := Run.ofSome sendsByte_isSome
  have awaited : TcpSocket.Awaited (((exec step anyEvent (established loopback 100 200 : Connection Fifo)
      (sendsByte .client 7)).get sendsByte_isSome).ends .server).sock
      (fromClient 101 201 tcpFlagAck [7]) := by
    constructor <;> decide +kernel
  exact ⟨_, run, (awaited_stored_iff run (by decide +kernel) awaited).mpr (by decide +kernel)⟩

def resendsByte : List Action :=
  -- The client's byte is lost. It answers a byte of the server, and then sends its own again, with the
  -- acknowledgement number it had at first.
  sendsByte .client 7 ++ [.lose .server (fromClient 101 201 tcpFlagAck [7])] ++ sendsByte .server 9 ++
    [.act .client (.handlePacket (fromServer 201 101 tcpFlagAck [9])),
      .act .server (.handlePacket (loopback.seal
        { handshakeHeader loopback 102 202 tcpFlagAck with windowSize := 65534 } [])),
      .act .client (.handleRetransmission false), .act .client (.handleRetransmission true)]

theorem resendsByte_isSome :
    (exec step anyEvent (established loopback 100 200 : Connection Fifo) resendsByte).isSome := by
  decide +kernel

/-- The server waits for the byte, has space for it and drops it. -/
theorem awaited_dropped :
    ∃ c : Connection Fifo, Run step anyEvent (established loopback 100 200) c ∧
      fromClient 101 201 tcpFlagAck [7] ∈ c.net .server ∧
      TcpSocket.Awaited (c.ends .server).sock (fromClient 101 201 tcpFlagAck [7]) ∧
      ¬ TcpSocket.Appends (c.ends .server).sock
        ((c.ends .server).sock.handlePacket (fromClient 101 201 tcpFlagAck [7])).1 [7] := by
  refine ⟨_, Run.ofSome resendsByte_isSome, by decide +kernel, by constructor <;> decide +kernel, ?_⟩
  rintro ⟨rest, further, buffer, _⟩
  have empty : (content (((((exec step anyEvent (established loopback 100 200 : Connection Fifo)
      resendsByte).get resendsByte_isSome).ends .server).sock.handlePacket
        (fromClient 101 201 tcpFlagAck [7])).1.readBuffer)).length = 0 := by
    decide +kernel
  rw [buffer] at empty
  simp at empty

end

end Connection

end IpTcp.Tcp
