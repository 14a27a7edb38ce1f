import IpTcp.Tcp.StreamIntegrity

/-! A run in which the client fills the server's read buffer, segment after segment, each of them
acknowledged before the next one; and the probe it then sends. -/

set_option autoImplicit false

namespace IpTcp.Tcp

open RingBuffer Lib

variable {Buffer : Type}

namespace TcpSocket

theorem receiveAck_only {sock : TcpSocket Buffer} {item : TcpPacketItem} {tcpHdr : TCPFields}
    (only : sock.inFlightList = [item]) (newer : sock.largestAckReceived < tcpHdr.ackNum)
    (covered : item.priority + item.value.payloadSize ≤ (tcpHdr.ackNum - sock.myInitSeqNum).toNat)
    (data : item.value.hasFin = false) : sock.receiveAck tcpHdr =
      let acked := ((sock.storeAck tcpHdr).ackedItem item).withInFlight []
      (acked, acked.wakeProbe, true) := by
  have notOld : ¬ tcpHdr.ackNum < sock.largestAckReceived := UInt32.not_lt.mpr (UInt32.le_of_lt newer)
  have notSame : tcpHdr.ackNum ≠ sock.largestAckReceived := (UInt32.ne_of_lt newer).symm
  rw [receiveAck, if_neg notOld, if_neg notSame, only, removeAcked, if_pos covered, data]
  rfl

variable [RingBuffer Buffer] [Netstack]

theorem handlePacket_bareAck {sock : TcpSocket Buffer} {packet : TcpPacket} (opened : sock.closed = false)
    (valid : isValidTcpCheckSum packet.header sock.conn.foreignIP sock.conn.localIP packet.data = true)
    (flags : packet.header.flags = tcpFlagAck) (bare : packet.data = []) :
    sock.handlePacket packet = ((sock.receiveAck packet.header).1, (sock.receiveAck packet.header).2.1) := by
  unfold handlePacket
  rw [opened, valid]
  simp only [Bool.false_eq_true, if_false, Bool.true_eq_false, flags, if_true, bare, List.length_nil]
  split
  · rename_i received
    rw [received]
  · rename_i received
    rw [received]

end TcpSocket

namespace Endpoint

theorem settle_asleep {e : Endpoint Buffer} {sock : TcpSocket Buffer} {effects : List Effect}
    (asleep : .broadcast .windowNotEmpty ∉ effects) : (e.settle sock effects).writer = e.writer :=
  if_neg fun wakes => asleep wakes.2

variable [RingBuffer Buffer] [Netstack]

def wrote (e : Endpoint Buffer) (byte : Byte) : Endpoint Buffer :=
  { e with
    sock := { e.sock with writeBuffer := (write e.sock.writeBuffer [byte]).1 }
    written := e.written ++ [byte] }

def sentProbe (e : Endpoint Buffer) (buffer : Buffer) (byte : Byte) : Endpoint Buffer :=
  let packet := e.sock.conn.seal e.sock.getAckHeader [byte]
  { e with
    sock := { e.sock with
      writeBuffer := buffer
      numBytesSent := e.sock.numBytesSent + 1
      inFlightList := e.sock.inFlightList ++ [inFlightItem e.sock packet true]
      inFlightPacketSize := e.sock.inFlightPacketSize + 1 }
    writer := .waiting
    written := e.written ++ [byte]
    sent := e.sent ++ [packet] }

theorem Emits.trans {e middle last : Endpoint Buffer} {out more : List TcpPacket} (first : Emits e out middle)
    (rest : Emits middle more last) : Emits e (out ++ more) last := by
  induction first with
  | none => exact rest
  | quiet event own moves _ ih => exact .quiet event own moves (ih rest)
  | sent event own moves _ ih => exact .sent event own moves (ih rest)

theorem emits_write {e : Endpoint Buffer} (vWrites : e.vWrites = []) (deleted : e.deleted = false)
    (canWrite : e.sock.canWrite = true) (empty : content e.sock.writeBuffer = []) (byte : Byte) :
    Emits e [] (e.wrote byte) := by
  have count : (write e.sock.writeBuffer [byte]).2.1 = 1 := by
    rw [write_count, empty]
    rfl
  have notFull : isFull e.sock.writeBuffer = false := by
    simp [isFull, empty, bufferSize]
  have calls : e.step (.vWrite [byte]) = some ({ e with vWrites := [[byte]] }, []) := by
    simp [Endpoint.step, vWrite, inTable, deleted, canWrite, vWrites]
  refine .quiet (.vWrite [byte]) (by simp) calls <| .quiet (.vWriteLoop 0) (by simp) ?_ .none
  simp [Endpoint.step, vWriteLoop, notFull, count, wrote, vWrites]

theorem Idle.probes {e : Endpoint Buffer} (idle : e.Idle)
    (usedUp : e.sock.foreignWindowSize ≤ e.sock.inFlightPacketSize) (byte : Byte) :
    ∃ buffer, content buffer = [] ∧
      Emits e [e.sock.conn.seal e.sock.getAckHeader [byte]] (e.sentProbe buffer byte) := by
  obtain ⟨writer, vWrites, deleted, canWrite, empty⟩ := idle
  have written := emits_write vWrites deleted canWrite empty byte
  have stored : content (write e.sock.writeBuffer [byte]).1 = [byte] := by
    rw [content_write_of_le _ _ (by simp [free, empty, bufferSize]), empty]
    rfl
  have taken : (readInto (write e.sock.writeBuffer [byte]).1 1).2 = [byte] := by
    rw [readInto_snd (by rw [stored]; exact le_refl _), stored]
    rfl
  refine ⟨(readInto (write e.sock.writeBuffer [byte]).1 1).1, by rw [readInto_fst, stored]; rfl, ?_⟩
  have notEmpty : isEmpty (write e.sock.writeBuffer [byte]).1 = false := by simp [isEmpty, stored]
  have tests : (e.wrote byte).step .handleWrites = some ({ e.wrote byte with writer := .probe }, []) := by
    simp [Endpoint.step, handleWrites, wrote, writer, notEmpty, usedUp]
  have sends : Endpoint.step { e.wrote byte with writer := .probe } .handleWrites =
      some ({ (e.wrote byte).takeBytes 1 with
        sock := { ((e.wrote byte).takeBytes 1).sock with numBytesSent := e.sock.numBytesSent + 1 }
        writer := .probePush (e.sock.conn.seal e.sock.getAckHeader [byte])
        sent := e.sent ++ [e.sock.conn.seal e.sock.getAckHeader [byte]] },
        [e.sock.conn.seal e.sock.getAckHeader [byte]]) := by
    simp only [Endpoint.step, handleWrites, sendSegment, wrote, taken]
    rfl
  exact written.trans <| .quiet .handleWrites (by simp) tests <| .sent .handleWrites (by simp) sends <|
    .quiet .handleWrites (by simp) rfl .none

end Endpoint

namespace Connection

open Endpoint TcpSocket

section
attribute [local instance] Netstack.standard

def dataPacket (m : Nat) (data : List Byte) : TcpPacket :=
  fromClient (101 + UInt32.ofNat m) 201 tcpFlagAck data

def ackPacket (m window : Nat) : TcpPacket :=
  loopback.reversed.seal { handshakeHeader loopback.reversed 201 (101 + UInt32.ofNat m) tcpFlagAck with
    windowSize := UInt16.ofNat window } []

def awaiting (buffer : Fifo) (m : Nat) : TcpSocket Fifo :=
  receiving buffer (1 + UInt32.ofNat m) [] ∅ 0

section
variable {buffer : Fifo} {m : Nat} {data : List Byte}

theorem awaiting_largest : (awaiting buffer m).largestAckReceived = 201 := rfl

theorem awaiting_ack : (awaiting buffer m).sendAck =
    [.sendTcp (ackPacket m (free buffer))] := by
  have ackNum : 1 + UInt32.ofNat m + 100 = 101 + UInt32.ofNat m := by grind
  have header : (awaiting buffer m).getAckHeader =
      { handshakeHeader loopback.reversed 201 (101 + UInt32.ofNat m) tcpFlagAck with
        windowSize := UInt16.ofNat (free buffer) } := by
    rw [← ackNum]
    rfl
  rw [sendAck, header]
  rfl

theorem awaiting_stores (payload : data ≠ []) (space : data.length ≤ free buffer) :
    (awaiting buffer m).handlePacket (dataPacket m data) =
      (awaiting (write buffer data).1 (m + data.length),
        [.broadcast .windowNotEmpty, .broadcast .readBufferIsNotEmpty, .writeIntoReadBuffer none,
          .sendTcp (ackPacket (m + data.length) (free (write buffer data).1))]) := by
  have valid : isValidTcpCheckSum (dataPacket m data).header loopback.localIP loopback.foreignIP
      (dataPacket m data).data = true := isValidTcpCheckSum_seal ..
  have some : (dataPacket m data).data.length ≠ 0 := (List.length_pos_iff.mpr payload).ne'
  have acks : (awaiting buffer m).receiveAck (dataPacket m data).header =
      (awaiting buffer m, [.broadcast .windowNotEmpty], true) := rfl
  have opened : (awaiting buffer m).closed = false := rfl
  have flags : (dataPacket m data).header.flags = tcpFlagAck := rfl
  have foreignIP : (awaiting buffer m).conn.foreignIP = loopback.localIP := rfl
  have localIP : (awaiting buffer m).conn.localIP = loopback.foreignIP := rfl
  have here : (awaiting buffer m).relSeqNum (dataPacket m data) =
      (awaiting buffer m).nextExpectedByte := by
    change 101 + UInt32.ofNat m - 100 = 1 + UInt32.ofNat m
    grind
  have stored : (awaiting buffer m).writeIntoReadBuffer data =
      (awaiting (write buffer data).1 (m + data.length),
        [.broadcast .readBufferIsNotEmpty, .writeIntoReadBuffer none]) := by
    have fits : data.length ≤ free (awaiting buffer m).readBuffer := space
    refine Prod.ext ?_ ?_
    · rw [writeIntoReadBuffer_fst, if_pos fits]
      simp only [awaiting, UInt32.ofNat_add, ← UInt32.add_assoc]
      rfl
    · rw [writeIntoReadBuffer_snd, if_pos fits]
  have received : (awaiting buffer m).receiveData (dataPacket m data) =
      (awaiting (write buffer data).1 (m + data.length),
        [.broadcast .readBufferIsNotEmpty, .writeIntoReadBuffer none,
          .sendTcp (ackPacket (m + data.length) (free (write buffer data).1))]) := by
    have fits : (dataPacket m data).data.length ≤
        free (awaiting buffer m).readBuffer := space
    have same : (awaiting buffer m).writeIntoReadBuffer (dataPacket m data).data =
        _ := stored
    rw [receiveData, if_pos here, if_pos fits, same]
    dsimp only
    rw [show (awaiting (write buffer data).1 (m + data.length)).drainEarlyArrivals
      _ = (awaiting (write buffer data).1 (m + data.length), []) from rfl]
    dsimp only
    rw [awaiting_ack]
    rfl
  rw [TcpSocket.handlePacket, opened, foreignIP, localIP, valid, flags, acks]
  simp only [Bool.false_eq_true, if_false, Bool.true_eq_false, if_true, some, received]
  rfl

theorem receiver_stores (payload : data ≠ []) (space : data.length ≤ free buffer) (delivered : List Byte) :
    (receiver (awaiting buffer m) delivered).handlePacket (dataPacket m data) =
      (receiver (awaiting (write buffer data).1 (m + data.length)) delivered,
        [ackPacket (m + data.length) (free (write buffer data).1)]) := by
  have handled := awaiting_stores (m := m) payload space
  have kept : .deleteConnSafe ∉ ([.broadcast .windowNotEmpty, .broadcast .readBufferIsNotEmpty,
      .writeIntoReadBuffer none, .sendTcp (ackPacket (m + data.length) (free (write buffer data).1))] :
      List Effect) := by
    simp
  have sock : (receiver (awaiting buffer m) delivered).sock = awaiting buffer m := rfl
  rw [Endpoint.handlePacket, sock, handled]
  dsimp only
  refine Prod.ext ?_ rfl
  rw [settle, decide_eq_false kept, sock, awaiting_largest, awaiting_largest, if_pos rfl]
  rfl

/-- The client has had its first `m` bytes acknowledged, and sent no more. -/
structure Flowing (m : Nat) (e : Endpoint Fifo) : Prop where
  idle : e.Idle
  conn : e.sock.conn = loopback
  header : e.sock.getAckHeader = handshakeHeader loopback (101 + UInt32.ofNat m) 201 tcpFlagAck
  myInitSeqNum : e.sock.myInitSeqNum = 100
  inFlightList : e.sock.inFlightList = []
  inFlightPacketSize : e.sock.inFlightPacketSize = 0
  window : e.sock.foreignWindowSize = UInt32.ofNat (65535 - m)
  largestAckReceived : e.sock.largestAckReceived = 101 + UInt32.ofNat m
  opened : e.sock.closed = false

theorem toNat_relative (small : m < 2 ^ 16 + 1) : (101 + UInt32.ofNat m - 100 : UInt32).toNat = m + 1 := by
  have offset := Word.toNat_offset (n := m) 100 (by omega)
  exact offset

theorem number_lt {n : Nat} (positive : 0 < n) (small : m + n < 2 ^ 16 + 1) :
    (101 + UInt32.ofNat m : UInt32) < 101 + UInt32.ofNat (m + n) := by
  have first : (101 : UInt32).toNat = 101 := rfl
  rw [UInt32.lt_iff_toNat_lt, Word.toNat_add (by omega), Word.toNat_add (by omega)]
  omega

section
variable {e : Endpoint Fifo}

theorem Flowing.covered (flowing : Flowing m e) (payload : data ≠ []) (small : m + data.length < 2 ^ 16 + 1)
    (isZwp : Bool) :
    (inFlightItem e.sock (e.sock.conn.seal e.sock.getAckHeader data) isZwp).priority +
      (e.sock.conn.seal e.sock.getAckHeader data).payloadSize ≤
        (101 + UInt32.ofNat (m + data.length) - 100 : UInt32).toNat := by
  have priority : (inFlightItem e.sock (e.sock.conn.seal e.sock.getAckHeader data) isZwp).priority = m + 1 := by
    rw [inFlightItem, seal_seqNum, flowing.header, flowing.myInitSeqNum]
    exact toNat_relative (by omega)
  have size : (e.sock.conn.seal e.sock.getAckHeader data).payloadSize = data.length :=
    if_neg (List.length_pos_iff.mpr payload).ne'
  rw [priority, size, toNat_relative small]
  omega

theorem handles_ack {sock : TcpSocket Fifo} {item : TcpPacketItem} {n window : Nat}
    (opened : sock.closed = false) (conn : sock.conn = loopback) (isn : sock.myInitSeqNum = 100)
    (only : sock.inFlightList = [item]) (newer : sock.largestAckReceived < 101 + UInt32.ofNat n)
    (covered : item.priority + item.value.payloadSize ≤ (101 + UInt32.ofNat n - 100 : UInt32).toNat)
    (flags : item.value.header.flags = tcpFlagAck) :
    let acked := ((sock.storeAck (ackPacket n window).header).ackedItem item).withInFlight []
    sock.handlePacket (ackPacket n window) = (acked, acked.wakeProbe) := by
  have valid : isValidTcpCheckSum (ackPacket n window).header sock.conn.foreignIP sock.conn.localIP
      (ackPacket n window).data = true := by
    rw [conn]
    exact isValidTcpCheckSum_seal loopback.reversed _ []
  have received : sock.receiveAck (ackPacket n window).header = _ :=
    receiveAck_only only newer (by rw [isn]; exact covered) (hasFin_of_ack flags)
  rw [handlePacket_bareAck opened valid rfl rfl, received]

theorem window_toNat {window : Nat} (small : window ≤ 65535) :
    (UInt16.ofNat window).toUInt32 = UInt32.ofNat window := by
  apply UInt32.toNat_inj.mp
  rw [UInt16.toNat_toUInt32, UInt16.toNat_ofNat', Word.toNat_ofNat (by omega)]
  omega

theorem wakeProbe_keeps (sock : TcpSocket Fifo) : .deleteConnSafe ∉ sock.wakeProbe := by
  unfold wakeProbe
  split <;> simp

theorem Flowing.sentData_header (flowing : Flowing m e) (buffer : Fifo) :
    (e.sentData buffer data).sock.getAckHeader =
      handshakeHeader loopback (101 + UInt32.ofNat (m + data.length)) 201 tcpFlagAck := by
  have header : (e.sentData buffer data).sock.getAckHeader =
      { e.sock.getAckHeader with seqNum := e.sock.getAckHeader.seqNum + UInt32.ofNat data.length } := by
    simp only [getAckHeader, sentData, TCPFields.mk.injEq, and_true, true_and]
    grind
  rw [header, flowing.header, UInt32.ofNat_add, ← UInt32.add_assoc]
  rfl

theorem Flowing.acked (flowing : Flowing m e) (payload : data ≠ []) (small : m + data.length ≤ 65535)
    {buffer : Fifo} (empty : content buffer = []) :
    Flowing (m + data.length)
      ((e.sentData buffer data).handlePacket (ackPacket (m + data.length) (65535 - (m + data.length)))).1 := by
  have positive := List.length_pos_iff.mpr payload
  have handled : (e.sentData buffer data).sock.handlePacket
      (ackPacket (m + data.length) (65535 - (m + data.length))) = _ :=
    handles_ack flowing.opened flowing.conn flowing.myInitSeqNum
      (by simp only [sentData, flowing.inFlightList, List.nil_append])
      (by
        change e.sock.largestAckReceived < _
        rw [flowing.largestAckReceived]
        exact number_lt positive (by omega))
      (flowing.covered payload (by omega) false)
      (by
        change e.sock.getAckHeader.flags = _
        rw [flowing.header]
        rfl)
  rw [Endpoint.handlePacket, handled]
  dsimp only
  constructor
  · refine ⟨?_, flowing.idle.vWrites, ?_, flowing.idle.canWrite, empty⟩
    · change (if _ then WriterPc.top else e.writer) = _
      rw [flowing.idle.writer, ite_self]
    · change (e.deleted || decide _) = _
      rw [flowing.idle.deleted, decide_eq_false (wakeProbe_keeps _)]
      rfl
  · exact flowing.conn
  · exact flowing.sentData_header buffer
  · exact flowing.myInitSeqNum
  · rfl
  · have size : (e.sock.conn.seal e.sock.getAckHeader data).payloadSize = data.length :=
      if_neg positive.ne'
    change e.sock.inFlightPacketSize + UInt32.ofNat data.length -
      UInt32.ofNat (e.sock.conn.seal e.sock.getAckHeader data).payloadSize = 0
    rw [flowing.inFlightPacketSize, size]
    grind
  · exact window_toNat (by omega)
  · rfl
  · exact flowing.opened

end

/-- The client has sent `m` bytes, the server has stored and acknowledged them and read none. -/
structure Round (m : Nat) (c : Connection Fifo) : Prop where
  client : Flowing m (c.ends .client)
  server : ∃ buffer : Fifo, (content buffer).length = m ∧ c.ends .server = receiver (awaiting buffer m) []

theorem free_of_length {n : Nat} (stored : (content buffer).length = n) : free buffer = 65535 - n := by
  rw [free, stored]
  rfl

theorem run_stores {c : Connection Fifo} {delivered : List Byte} (member : dataPacket m data ∈ c.net .server)
    (server : c.ends .server = receiver (awaiting buffer m) delivered) (payload : data ≠ [])
    (space : data.length ≤ free buffer) :
    ∃ after, Run step anyEvent c after ∧ after.ends .client = c.ends .client ∧
      after.ends .server = receiver (awaiting (write buffer data).1 (m + data.length)) delivered ∧
      ackPacket (m + data.length) (free (write buffer data).1) ∈ after.net .client := by
  have stores := receiver_stores (m := m) payload space delivered
  refine ⟨_, run_receiver server member, received_client c _, ?_, ?_⟩
  · rw [received, moved_ends, server, stores]
  · rw [received, show Side.client = Side.server.other from rfl, moved_net_other, server, stores]
    exact List.mem_append_right _ List.mem_cons_self

theorem Round.next {c : Connection Fifo} (round : Round m c) (payload : data ≠ []) (segment : data.length ≤ 1024)
    (fits : m + data.length ≤ 65535) : ∃ after, Run step anyEvent c after ∧ Round (m + data.length) after := by
  obtain ⟨flowing, stored, length, server⟩ := round
  have positive := List.length_pos_iff.mpr payload
  have window : (c.ends .client).sock.foreignWindowSize.toNat = 65535 - m := by
    rw [flowing.window, Word.toNat_ofNat (by omega)]
  obtain ⟨buffer, empty, emits⟩ := flowing.idle.sends payload segment
    (by
      rw [UInt32.lt_iff_toNat_lt, flowing.inFlightPacketSize, window]
      change 0 < _
      omega)
    (by omega)
  have packet : (c.ends .client).sock.conn.seal (c.ends .client).sock.getAckHeader data = dataPacket m data := by
    rw [flowing.conn, flowing.header]
    rfl
  rw [packet] at emits
  have onWay : dataPacket m data ∈
      (c.moved .client ((c.ends .client).sentData buffer data) [dataPacket m data]).net .server := by
    rw [show Side.server = Side.client.other from rfl, moved_net_other]
    exact List.mem_append_right _ List.mem_cons_self
  obtain ⟨later, stores, client, laterServer, acks⟩ := run_stores onWay
    ((moved_ends_other c .client _ _).trans server) payload (by rw [free_of_length length]; omega)
  have written : (content (write stored data).1).length = m + data.length := by
    rw [content_write_of_le _ _ (by rw [free_of_length length]; omega), List.length_append, length]
  rw [free_of_length written] at acks
  have free : (later.ends .client).writer ≠ .fin := by
    rw [client, moved_ends]
    simp [sentData, flowing.idle.writer]
  refine ⟨_, ((run_emits emits).trans stores).trans (run_received free acks), ?_, (write stored data).1,
    written, ?_⟩
  · rw [received, moved_ends, client, moved_ends]
    exact flowing.acked payload fits empty
  · rw [received, show Side.server = Side.client.other from rfl, moved_ends_other]
    exact laterServer

end

theorem round_zero : ∃ c, Run step anyEvent (established loopback 100 200 : Connection Fifo) c ∧ Round 0 c := by
  refine ⟨_, sent_zero.receives, ?_, new, rfl, ?_⟩
  · rw [received_client]
    exact ⟨sent_zero.idle, rfl, sent_zero.header, rfl, rfl, rfl, rfl, rfl, rfl⟩
  · rw [received, moved_ends, sent_zero.server]
    rfl

theorem round_full :
    ∃ c, Run step anyEvent (established loopback 100 200 : Connection Fifo) c ∧ Round 65535 c := by
  have blocks : ∀ k ≤ 63, ∃ c, Run step anyEvent (established loopback 100 200 : Connection Fifo) c ∧
      Round (1024 * k) c := by
    intro k bound
    induction k with
    | zero => exact round_zero
    | succ k ih =>
        obtain ⟨c, run, round⟩ := ih (by omega)
        obtain ⟨after, more, next⟩ := round.next block_ne_nil (le_of_eq block_length)
          (by rw [block_length]; omega)
        rw [block_length] at next
        exact ⟨after, run.trans more, next⟩
  obtain ⟨c, run, round⟩ := blocks 63 (le_refl 63)
  have length : (block.drop 1).length = 1023 := by rw [List.length_drop, block_length]
  obtain ⟨after, more, next⟩ := round.next (List.ne_nil_of_length_pos (by rw [length]; decide))
    (by rw [length]; decide) (by rw [length])
  rw [length] at next
  exact ⟨after, run.trans more, next⟩

/-- The writer waits after a probe; the end has sent all it was given, and is told of all of it. -/
structure Waiting (e : Endpoint Fifo) : Prop where
  writer : e.writer = .waiting
  inFlightList : e.sock.inFlightList = []
  vWrites : e.vWrites = []
  deleted : e.deleted = false
  canWrite : e.sock.canWrite = true
  writeBuffer : content e.sock.writeBuffer = []

theorem Flowing.probed {e : Endpoint Fifo} (flowing : Flowing 65535 e) {buffer : Fifo}
    (empty : content buffer = []) (byte : Byte) :
    Waiting ((e.sentProbe buffer byte).handlePacket (ackPacket 65536 0)).1 := by
  have newer : e.sock.largestAckReceived < 101 + UInt32.ofNat 65536 := by
    rw [flowing.largestAckReceived]
    decide
  have covered := flowing.covered (List.cons_ne_nil byte []) (by simp) true
  have handled : (e.sentProbe buffer byte).sock.handlePacket (ackPacket 65536 0) = _ :=
    handles_ack flowing.opened flowing.conn flowing.myInitSeqNum
      (by simp only [sentProbe, flowing.inFlightList, List.nil_append]) newer covered
      (by
        change e.sock.getAckHeader.flags = _
        rw [flowing.header]
        rfl)
  rw [Endpoint.handlePacket, handled]
  dsimp only
  refine ⟨?_, rfl, flowing.idle.vWrites, ?_, flowing.idle.canWrite, empty⟩
  · refine settle_asleep ?_
    -- The probe filled the buffer again: nothing is in flight, and the window is closed.
    have closed : ¬ e.sock.inFlightPacketSize + 1 - 1 < 0 := by
      rw [flowing.inFlightPacketSize]
      decide
    rw [wakeProbe]
    change _ ∉ (if e.sock.inFlightPacketSize + 1 - 1 < 0 then _ else _)
    rw [if_neg closed]
    exact List.not_mem_nil
  · change (e.deleted || decide _) = _
    rw [flowing.idle.deleted, decide_eq_false (wakeProbe_keeps _)]
    rfl

/-- The client probes the full buffer just when the server has read a byte: the probe takes its
place, and the window stays closed. -/
theorem run_probed : ∃ c : Connection Fifo, Run step anyEvent (established loopback 100 200) c ∧
    Waiting (c.ends .client) ∧ ∃ (buffer : Fifo) (delivered : List Byte), content buffer ≠ [] ∧
      c.ends .server = receiver (awaiting buffer 65536) delivered := by
  obtain ⟨full, fills, flowing, stored, length, server⟩ := round_full
  have nonempty : content stored ≠ [] := List.ne_nil_of_length_pos (by rw [length]; decide)
  -- The server has room for one byte again, and does not say so.
  obtain ⟨c, reads, cServer, cClient, -⟩ := run_reads server 1 nonempty
  rw [← cClient] at flowing
  obtain ⟨buffer, empty, emits⟩ := flowing.idle.probes
    (by rw [flowing.window, flowing.inFlightPacketSize]; decide) 7
  have packet : (c.ends .client).sock.conn.seal (c.ends .client).sock.getAckHeader [7] = dataPacket 65535 [7] := by
    rw [flowing.conn, flowing.header]
    rfl
  rw [packet] at emits
  have onWay : dataPacket 65535 [7] ∈
      (c.moved .client ((c.ends .client).sentProbe buffer 7) [dataPacket 65535 [7]]).net .server := by
    rw [show Side.server = Side.client.other from rfl, moved_net_other]
    exact List.mem_append_right _ List.mem_cons_self
  have left : (content (read stored 1).1).length = 65534 := by
    rw [read_content, List.length_drop, length]
  have space : [(7 : Byte)].length ≤ free (read stored 1).1 := by
    rw [free_of_length left]
    decide
  obtain ⟨later, stores, client, laterServer, acks⟩ := run_stores onWay
    ((moved_ends_other c .client _ _).trans cServer) (List.cons_ne_nil _ _) space
  have written : (content (write (read stored 1).1 [7]).1).length = 65535 := by
    rw [content_write_of_le _ _ space, List.length_append, left]
    rfl
  rw [free_of_length written] at acks
  have free : (later.ends .client).writer ≠ .fin := by
    rw [client, moved_ends]
    nofun
  refine ⟨_, (((fills.trans reads).trans (run_emits emits)).trans stores).trans (run_received free acks), ?_,
    (write (read stored 1).1 [7]).1, [] ++ (content stored).take 1,
    List.ne_nil_of_length_pos (by rw [written]; decide), ?_⟩
  · rw [received, moved_ends, client, moved_ends]
    exact flowing.probed empty 7
  · rw [received, show Side.server = Side.client.other from rfl, moved_ends_other]
    exact laterServer

end

end Connection

end IpTcp.Tcp
