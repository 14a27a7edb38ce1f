import IpTcp.Tcp.PacketActions
import IpTcp.Tcp.Segments

/-! What a packet does to the sending half of a socket. Only an acknowledgement
touches it: it removes the items it covers from the front of the in-flight list,
and the rest of `HandlePacket` leaves what it stored alone. -/

set_option autoImplicit false

namespace IpTcp.Tcp.TcpSocket

open RingBuffer

variable {Buffer : Type}

/-- The fields the acknowledgement half works on are the same. -/
structure SameSender (before after : TcpSocket Buffer) : Prop where
  inFlightList : after.inFlightList = before.inFlightList
  inFlightPacketSize : after.inFlightPacketSize = before.inFlightPacketSize
  largestAckReceived : after.largestAckReceived = before.largestAckReceived
  foreignWindowSize : after.foreignWindowSize = before.foreignWindowSize

theorem SameSender.refl (sock : TcpSocket Buffer) : SameSender sock sock := ⟨rfl, rfl, rfl, rfl⟩

theorem SameSender.trans {first middle last : TcpSocket Buffer} (front : SameSender first middle)
    (back : SameSender middle last) : SameSender first last :=
  ⟨back.1.trans front.1, back.2.trans front.2, back.3.trans front.3, back.4.trans front.4⟩

/-- The header's acknowledgement was processed: `removed` are the items it covers. -/
structure Acknowledges (tcpHdr : TCPFields) (sock : TcpSocket Buffer) (removed : List TcpPacketItem)
    (after : TcpSocket Buffer) : Prop where
  list : sock.inFlightList = removed ++ after.inFlightList
  size : after.inFlightPacketSize =
    sock.inFlightPacketSize - UInt32.ofNat (occupied (removed.map (·.value)))
  covered : ∀ item ∈ removed,
    item.priority + item.value.payloadSize ≤ (tcpHdr.ackNum - sock.myInitSeqNum).toNat
  stored : (removed = [] ∧ after.largestAckReceived = sock.largestAckReceived ∧
      (after.foreignWindowSize = sock.foreignWindowSize ∨
        (sock.foreignWindowSize < after.foreignWindowSize ∧
          after.foreignWindowSize = tcpHdr.windowSize.toUInt32))) ∨
    (sock.largestAckReceived < tcpHdr.ackNum ∧ after.largestAckReceived = tcpHdr.ackNum ∧
      after.foreignWindowSize = tcpHdr.windowSize.toUInt32)

theorem Acknowledges.none (tcpHdr : TCPFields) (sock : TcpSocket Buffer) :
    Acknowledges tcpHdr sock [] sock := by
  refine ⟨rfl, ?_, by simp, Or.inl ⟨rfl, rfl, Or.inl rfl⟩⟩
  simp

theorem Acknowledges.sameSender {tcpHdr : TCPFields} {sock middle after : TcpSocket Buffer}
    {removed : List TcpPacketItem} (acknowledges : Acknowledges tcpHdr sock removed middle)
    (same : SameSender middle after) : Acknowledges tcpHdr sock removed after := by
  obtain ⟨list, size, covered, stored⟩ := acknowledges
  refine ⟨?_, ?_, covered, ?_⟩
  · rw [same.inFlightList]
    exact list
  · rw [same.inFlightPacketSize]
    exact size
  · rw [same.largestAckReceived, same.foreignWindowSize]
    exact stored

theorem removeAcked_front (rel : UInt32) (sock : TcpSocket Buffer) (items : List TcpPacketItem) :
    ∃ removed, items = removed ++ (removeAcked rel sock items).1.inFlightList ∧
      (removeAcked rel sock items).1.inFlightPacketSize =
        sock.inFlightPacketSize - UInt32.ofNat (occupied (removed.map (·.value))) ∧
      (∀ item ∈ removed, item.priority + item.value.payloadSize ≤ rel.toNat) ∧
      (removeAcked rel sock items).1.largestAckReceived = sock.largestAckReceived ∧
      (removeAcked rel sock items).1.foreignWindowSize = sock.foreignWindowSize := by
  induction items generalizing sock with
  | nil => exact ⟨[], by simp [removeAcked, withInFlight]⟩
  | cons item rest ih =>
      by_cases covered : item.priority + item.value.payloadSize ≤ rel.toNat
      · by_cases ends : item.value.hasFin = true ∧ sock.connState = .lastAck
        · -- `HandlePacket` returns here, with the FIN and all after it still in the list.
          exact ⟨[], by simp [removeAcked, covered, ends]⟩
        · obtain ⟨removed, list, size, reach, largest, window⟩ := ih (sock.ackedItem item)
          have unfolded : removeAcked rel sock (item :: rest) =
              removeAcked rel (sock.ackedItem item) rest := by
            simp only [removeAcked]
            rw [if_pos covered, if_neg ends]
          rw [unfolded]
          refine ⟨item :: removed, by rw [List.cons_append, ← list], ?_, ?_, largest, window⟩
          · rw [size, List.map_cons, occupied_cons, UInt32.ofNat_add]
            simp only [ackedItem]
            grind
          · intro other member
            rcases List.mem_cons.mp member with rfl | later
            · exact covered
            · exact reach other later
      · exact ⟨[], by simp [removeAcked, covered, withInFlight]⟩

theorem receiveAck_acknowledges (sock : TcpSocket Buffer) (tcpHdr : TCPFields) :
    ∃ removed, Acknowledges tcpHdr sock removed (sock.receiveAck tcpHdr).1 := by
  unfold receiveAck
  by_cases old : tcpHdr.ackNum < sock.largestAckReceived
  · rw [if_pos old]
    exact ⟨[], Acknowledges.none tcpHdr sock⟩
  by_cases same : tcpHdr.ackNum = sock.largestAckReceived
  · rw [if_neg old, if_pos same]
    by_cases wider : sock.foreignWindowSize < tcpHdr.windowSize.toUInt32
    · rw [if_pos wider]
      exact ⟨[], rfl, by simp, by simp, Or.inl ⟨rfl, rfl, Or.inr ⟨wider, rfl⟩⟩⟩
    · rw [if_neg wider]
      exact ⟨[], Acknowledges.none tcpHdr sock⟩
  · have newer : sock.largestAckReceived < tcpHdr.ackNum :=
      UInt32.lt_of_le_of_ne (UInt32.not_lt.mp old) (Ne.symm same)
    rw [if_neg old, if_neg same]
    obtain ⟨removed, list, size, covered, largest, window⟩ := removeAcked_front
      (tcpHdr.ackNum - sock.myInitSeqNum) (sock.storeAck tcpHdr) sock.inFlightList
    have acknowledges : Acknowledges tcpHdr sock removed
        ((sock.storeAck tcpHdr).removeAcked (tcpHdr.ackNum - sock.myInitSeqNum) sock.inFlightList).1 :=
      ⟨list, size, covered, Or.inr ⟨newer, largest, window⟩⟩
    generalize (sock.storeAck tcpHdr).removeAcked (tcpHdr.ackNum - sock.myInitSeqNum)
      sock.inFlightList = result at acknowledges
    obtain ⟨after, ended⟩ := result
    cases ended with
    | true => exact ⟨removed, acknowledges⟩
    | false => exact ⟨removed, acknowledges⟩

theorem receiveAck_largest (sock : TcpSocket Buffer) (tcpHdr : TCPFields) :
    (sock.receiveAck tcpHdr).1.largestAckReceived =
    if tcpHdr.ackNum < sock.largestAckReceived then sock.largestAckReceived else tcpHdr.ackNum := by
  unfold receiveAck
  by_cases old : tcpHdr.ackNum < sock.largestAckReceived
  · rw [if_pos old, if_pos old]
  · rw [if_neg old, if_neg old]
    by_cases same : tcpHdr.ackNum = sock.largestAckReceived
    · rw [if_pos same, same]
      dsimp only
      split <;> rfl
    · rw [if_neg same]
      obtain ⟨_, _, _, _, largest, _⟩ := removeAcked_front (tcpHdr.ackNum - sock.myInitSeqNum)
        (sock.storeAck tcpHdr) sock.inFlightList
      generalize removeAcked _ (sock.storeAck tcpHdr) _ = result at largest ⊢
      obtain ⟨after, ended⟩ := result
      cases ended <;> exact largest

theorem receiveAck_wakes (sock : TcpSocket Buffer) (tcpHdr : TCPFields)
    (woken : .broadcast .windowNotEmpty ∈ (sock.receiveAck tcpHdr).2.1) :
    (sock.receiveAck tcpHdr).1.inFlightPacketSize < (sock.receiveAck tcpHdr).1.foreignWindowSize := by
  have room : ∀ other : TcpSocket Buffer, .broadcast .windowNotEmpty ∈ other.wakeProbe →
      other.inFlightPacketSize < other.foreignWindowSize := by
    intro other member
    unfold wakeProbe at member
    split at member
    · assumption
    · cases member
  revert woken
  unfold receiveAck
  split
  · simp
  split
  · exact room _
  · split
    · simp
    · exact room _

variable [RingBuffer Buffer]

theorem drainEarlyArrivals_sender (fuel : Nat) (sock : TcpSocket Buffer) :
    SameSender sock (sock.drainEarlyArrivals fuel).1 ∧
      .broadcast .windowNotEmpty ∉ (sock.drainEarlyArrivals fuel).2 := by
  induction fuel generalizing sock with
  | zero => exact ⟨SameSender.refl sock, by simp [drainEarlyArrivals]⟩
  | succ fuel ih =>
      cases queue : sock.earlyArrivalQueue with
      | nil =>
          simp only [drainEarlyArrivals, queue]
          exact ⟨SameSender.refl sock, by simp⟩
      | cons root others =>
          by_cases inOrder : root.priority = sock.nextExpectedByte.toNat
          · obtain ⟨turn, unfolded, _, _, _, asleep⟩ :=
              drainEarlyArrivals_succ fuel sock root others queue inOrder
            obtain ⟨same, quiet⟩ := ih (sock.drained root)
            rw [unfolded]
            refine ⟨⟨same.1, same.2, same.3, same.4⟩, fun member => ?_⟩
            rcases List.mem_append.mp member with early | late
            · exact asleep early
            · exact quiet late
          · simp only [drainEarlyArrivals, queue, inOrder, if_false]
            exact ⟨SameSender.refl sock, by simp⟩

variable [Netstack]

theorem receiveData_sender (sock : TcpSocket Buffer) (packet : TcpPacket) :
    SameSender sock (sock.receiveData packet).1 ∧
      .broadcast .windowNotEmpty ∉ (sock.receiveData packet).2 := by
  have queued : SameSender sock (sock.queueEarlyArrival packet) := by
    unfold queueEarlyArrival
    dsimp only
    split
    · exact SameSender.refl sock
    · exact ⟨rfl, rfl, rfl, rfl⟩
  unfold receiveData
  split
  · split
    · have stored : SameSender sock (sock.writeIntoReadBuffer packet.data).1 := by
        rw [writeIntoReadBuffer_fst]
        exact ⟨rfl, rfl, rfl, rfl⟩
      have silent := (sock.writeIntoReadBuffer_quiet packet.data).2.2.2
      obtain ⟨same, quiet⟩ := drainEarlyArrivals_sender
        (sock.writeIntoReadBuffer packet.data).1.earlyArrivalQueue.length
        (sock.writeIntoReadBuffer packet.data).1
      refine ⟨stored.trans same, fun member => ?_⟩
      simp only [List.mem_append, sendAck, List.mem_singleton, reduceCtorEq, or_false] at member
      rcases member with early | late
      · exact silent early
      · exact quiet late
    · exact ⟨SameSender.refl sock, by simp⟩
  split
  · exact ⟨queued, by simp [sendAck]⟩
  · exact ⟨SameSender.refl sock, by simp [sendAck]⟩

theorem receiveFin_sender (sock : TcpSocket Buffer) (packet : TcpPacket) :
    SameSender sock (sock.receiveFin packet).1 ∧
      .broadcast .windowNotEmpty ∉ (sock.receiveFin packet).2 := by
  unfold receiveFin
  split
  · rw [finReceived_fst]
    refine ⟨⟨rfl, rfl, rfl, rfl⟩, fun member => ?_⟩
    simp only [List.mem_cons, reduceCtorEq, false_or] at member
    simpa using finReceived_snd sock _ member
  split
  · unfold queueEarlyArrival
    dsimp only
    split
    · exact ⟨SameSender.refl sock, by simp⟩
    · exact ⟨⟨rfl, rfl, rfl, rfl⟩, by simp⟩
  · exact ⟨SameSender.refl sock, by simp⟩

theorem handlePacket_ack {sock : TcpSocket Buffer} {packet : TcpPacket} (opened : sock.closed = false)
    (valid : isValidTcpCheckSum packet.header sock.conn.foreignIP sock.conn.localIP packet.data = true)
    (flags : packet.header.flags = tcpFlagAck) : sock.handlePacket packet =
      match sock.receiveAck packet.header with
      | (sock, effects, false) => (sock, effects)
      | (sock, effects, true) =>
          if packet.data.length = 0 then (sock, effects)
          else ((sock.receiveData packet).1, effects ++ (sock.receiveData packet).2) := by
  unfold handlePacket
  rw [if_neg (by simp [opened]), if_neg (by simp [valid])]
  exact if_pos flags

theorem handlePacket_other {sock : TcpSocket Buffer} {packet : TcpPacket} (opened : sock.closed = false)
    (valid : isValidTcpCheckSum packet.header sock.conn.foreignIP sock.conn.localIP packet.data = true)
    (flags : packet.header.flags ≠ tcpFlagAck) : sock.handlePacket packet =
      if packet.hasFin then sock.receiveFin packet else (sock, []) := by
  unfold handlePacket
  rw [if_neg (by simp [opened]), if_neg (by simp [valid]), if_neg flags]

theorem handlePacket_largest {sock : TcpSocket Buffer} {packet : TcpPacket} (opened : sock.closed = false)
    (valid : isValidTcpCheckSum packet.header sock.conn.foreignIP sock.conn.localIP packet.data = true)
    (flags : packet.header.flags = tcpFlagAck) : (sock.handlePacket packet).1.largestAckReceived =
      if packet.header.ackNum < sock.largestAckReceived then sock.largestAckReceived
      else packet.header.ackNum := by
  rw [handlePacket_ack opened valid flags, ← receiveAck_largest]
  generalize sock.receiveAck packet.header = result
  obtain ⟨after, effects, goesOn⟩ := result
  cases goesOn with
  | false => rfl
  | true =>
      dsimp only
      split
      · rfl
      · exact (after.receiveData_sender packet).1.largestAckReceived

/-- `HandlePacket` on the sending half: nothing, or the acknowledgement of a packet
with the ACK flag. -/
theorem handlePacket_sender (sock : TcpSocket Buffer) (packet : TcpPacket) :
    (SameSender sock (sock.handlePacket packet).1 ∧
      .broadcast .windowNotEmpty ∉ (sock.handlePacket packet).2) ∨
    (packet.header.flags = tcpFlagAck ∧
      (∃ removed, Acknowledges packet.header sock removed (sock.handlePacket packet).1) ∧
      (.broadcast .windowNotEmpty ∈ (sock.handlePacket packet).2 →
        (sock.handlePacket packet).1.inFlightPacketSize <
          (sock.handlePacket packet).1.foreignWindowSize)) := by
  unfold handlePacket
  split
  · exact Or.inl ⟨SameSender.refl sock, by simp⟩
  split
  · exact Or.inl ⟨SameSender.refl sock, by simp⟩
  split
  · rename_i flags
    obtain ⟨removed, acknowledges⟩ := sock.receiveAck_acknowledges packet.header
    have wakes := sock.receiveAck_wakes packet.header
    refine Or.inr ⟨flags, ?_⟩
    split
    · rename_i result
      rw [result] at acknowledges wakes
      exact ⟨⟨removed, acknowledges⟩, wakes⟩
    · rename_i after effects result
      rw [result] at acknowledges wakes
      split
      · exact ⟨⟨removed, acknowledges⟩, wakes⟩
      · -- The payload comes after the acknowledgement and leaves the sending half alone.
        obtain ⟨same, quiet⟩ := after.receiveData_sender packet
        refine ⟨⟨removed, acknowledges.sameSender same⟩, fun member => ?_⟩
        rcases List.mem_append.mp member with early | late
        · rw [same.inFlightPacketSize, same.foreignWindowSize]
          exact wakes early
        · exact (quiet late).elim
  split
  · exact Or.inl (sock.receiveFin_sender packet)
  · exact Or.inl ⟨SameSender.refl sock, by simp⟩

end IpTcp.Tcp.TcpSocket
