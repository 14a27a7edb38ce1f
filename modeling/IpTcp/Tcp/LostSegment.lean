import IpTcp.Tcp.AckNumbers

/-! A lost segment for which there is no remedy. `HandleRetransmission` sends the front of
`inFlightList` and nothing else, and only an acknowledgement above `largestAckReceived` takes the
front away. This fails in two ways. `HandleWrites` lists a segment after it has sent it, so that
its acknowledgement can come first; the segment then stays in front, and the ones behind it are
not sent again. And a segment is sent again with the acknowledgement number it had at first, which
`HandlePacket` takes for an old one once a later number has arrived; it drops the payload with it. -/

set_option autoImplicit false

namespace IpTcp.Tcp

open RingBuffer Lib

variable {Buffer : Type}

namespace TcpSocket

theorem receiveAck_old {sock : TcpSocket Buffer} {tcpHdr : TCPFields}
    (old : tcpHdr.ackNum ≤ sock.largestAckReceived) :
    (sock.receiveAck tcpHdr).1.inFlightList = sock.inFlightList ∧
      (sock.receiveAck tcpHdr).1.largestAckReceived = sock.largestAckReceived := by
  unfold receiveAck
  by_cases older : tcpHdr.ackNum < sock.largestAckReceived
  · rw [if_pos older]
    exact ⟨rfl, rfl⟩
  · have same : tcpHdr.ackNum = sock.largestAckReceived :=
      UInt32.le_antisymm old (UInt32.not_lt.mp older)
    rw [if_neg older, if_pos same]
    dsimp only
    split <;> exact ⟨rfl, rfl⟩

theorem receiveAck_goesOn {sock after : TcpSocket Buffer} {tcpHdr : TCPFields} {effects : List Effect}
    (received : sock.receiveAck tcpHdr = (after, effects, true)) :
    sock.largestAckReceived ≤ tcpHdr.ackNum := by
  refine UInt32.not_lt.mp fun old => ?_
  rw [receiveAck, if_pos old] at received
  cases received

theorem queueEarlyArrival_receiver (sock : TcpSocket Buffer) (packet : TcpPacket) :
    (sock.queueEarlyArrival packet).nextExpectedByte = sock.nextExpectedByte ∧
      (sock.queueEarlyArrival packet).readBuffer = sock.readBuffer := by
  unfold queueEarlyArrival
  dsimp only
  split <;> exact ⟨rfl, rfl⟩

variable [RingBuffer Buffer] [Netstack]

theorem handlePacket_old {sock : TcpSocket Buffer} {packet : TcpPacket}
    (old : packet.header.flags = tcpFlagAck → packet.header.ackNum ≤ sock.largestAckReceived) :
    (sock.handlePacket packet).1.inFlightList = sock.inFlightList ∧
      (sock.handlePacket packet).1.largestAckReceived = sock.largestAckReceived := by
  unfold handlePacket
  split
  · exact ⟨rfl, rfl⟩
  split
  · exact ⟨rfl, rfl⟩
  split
  · rename_i flags
    have acked := receiveAck_old (old flags)
    split
    · rename_i received
      rw [received] at acked
      exact acked
    · rename_i after _ received
      rw [received] at acked
      split
      · exact acked
      · have same := (after.receiveData_sender packet).1
        exact ⟨same.inFlightList.trans acked.1, same.largestAckReceived.trans acked.2⟩
  split
  · have same := (sock.receiveFin_sender packet).1
    exact ⟨same.inFlightList, same.largestAckReceived⟩
  · exact ⟨rfl, rfl⟩

end TcpSocket

namespace Endpoint

/-- The packet brings what `y` waits for, and is not dropped for its acknowledgement number. -/
def Awaits (y : Endpoint Buffer) (packet : TcpPacket) : Prop :=
  (packet.data ≠ [] ∨ packet.hasFin = true) ∧ y.sock.relSeqNum packet = y.sock.nextExpectedByte ∧
    (packet.header.flags = tcpFlagAck → y.sock.largestAckReceived ≤ packet.header.ackNum)

theorem unawaited_of_next {x y : Endpoint Buffer} (numbered : x.Numbered)
    (short : x.transmitted.length + 2 < 2 ^ 32) (isn : y.sock.foreignInitSeqNum = x.sock.myInitSeqNum)
    (missing : y.sock.nextExpectedByte.toNat ≤ x.transmitted.length) (running : x.writer ≠ .returned)
    {packet : TcpPacket} (number : packet.header.seqNum = x.sock.myInitSeqNum + x.sock.numBytesSent + 1) :
    ¬ y.Awaits packet := by
  rintro ⟨-, here, -⟩
  have count := numbered.counted
  rw [if_neg running, Nat.add_zero] at count
  have rel : y.sock.relSeqNum packet = UInt32.ofNat x.transmitted.length + 1 := by
    rw [TcpSocket.relSeqNum, number, isn, count]
    grind
  have value : (UInt32.ofNat x.transmitted.length + 1).toNat = x.transmitted.length + 1 := by
    rw [UInt32.toNat_add, Word.toNat_ofNat (by omega)]
    change (x.transmitted.length + 1) % 2 ^ 32 = _
    omega
  rw [← here, rel, value] at missing
  omega

variable [RingBuffer Buffer]

def received (y : Endpoint Buffer) : List Byte := y.delivered ++ content y.sock.readBuffer

/-- `y` waits for a byte that `x` has sent, and neither a packet on the way nor the front of the list
brings it; and whatever `y` sends or has sent acknowledges no more than `x` knows. -/
structure Lost (x y : Endpoint Buffer) (toY toX : List TcpPacket) : Prop where
  missing : y.sock.nextExpectedByte.toNat ≤ x.transmitted.length
  front : ∃ item rest, x.sock.inFlightList = item :: rest ∧ ¬ y.Awaits item.value
  onWay : ∀ packet ∈ toY, ¬ y.Awaits packet
  current : y.sock.getAckHeader.ackNum ≤ x.sock.largestAckReceived
  answers : ∀ packet ∈ toX, packet.header.flags = tcpFlagAck →
    packet.header.ackNum ≤ x.sock.largestAckReceived
  replies : ∀ packet ∈ y.sent, packet.header.flags = tcpFlagAck →
    packet.header.ackNum ≤ x.sock.largestAckReceived

theorem Lost.subset {x y : Endpoint Buffer} {toY toX : List TcpPacket} (lost : Lost x y toY toX)
    {lessY lessX : List TcpPacket} (kept : lessY ⊆ toY) (keptX : lessX ⊆ toX) : Lost x y lessY lessX :=
  { lost with
    onWay := fun packet member => lost.onWay packet (kept member)
    answers := fun packet member => lost.answers packet (keptX member) }

variable [Netstack]

/-- Nothing is stored but what `y` waits for. -/
theorem handlePacket_unawaited {y : Endpoint Buffer} {packet : TcpPacket} (unawaited : ¬ y.Awaits packet) :
    (y.sock.handlePacket packet).1.nextExpectedByte = y.sock.nextExpectedByte ∧
      (y.sock.handlePacket packet).1.readBuffer = y.sock.readBuffer := by
  unfold TcpSocket.handlePacket
  split
  · exact ⟨rfl, rfl⟩
  split
  · exact ⟨rfl, rfl⟩
  split
  · have same := y.sock.receiveAck_receiver packet.header
    split
    · rename_i received
      rw [received] at same
      exact ⟨same.nextExpectedByte, same.readBuffer⟩
    · rename_i after _ received
      rw [received] at same
      split
      · exact ⟨same.nextExpectedByte, same.readBuffer⟩
      · rename_i payload
        have elsewhere : after.relSeqNum packet ≠ after.nextExpectedByte := by
          intro here
          rw [TcpSocket.relSeqNum, same.foreignInitSeqNum, same.nextExpectedByte] at here
          exact unawaited ⟨.inl fun empty => payload (by rw [empty]; rfl), here,
            fun _ => TcpSocket.receiveAck_goesOn received⟩
        have queued := after.queueEarlyArrival_receiver packet
        by_cases early : after.nextExpectedByte < after.relSeqNum packet
        · rw [TcpSocket.receiveData, if_neg elsewhere, if_pos early]
          exact ⟨queued.1.trans same.nextExpectedByte, queued.2.trans same.readBuffer⟩
        · rw [TcpSocket.receiveData, if_neg elsewhere, if_neg early]
          exact ⟨same.nextExpectedByte, same.readBuffer⟩
  rename_i flags
  split
  · rename_i fin
    have elsewhere : y.sock.relSeqNum packet ≠ y.sock.nextExpectedByte :=
      fun here => unawaited ⟨.inr fin, here, fun ack => absurd ack flags⟩
    rw [TcpSocket.receiveFin, if_neg elsewhere]
    split
    · exact y.sock.queueEarlyArrival_receiver packet
    · exact ⟨rfl, rfl⟩
  · exact ⟨rfl, rfl⟩

section
variable {x y after : Endpoint Buffer} {event : Event} {out : List TcpPacket}

theorem Moves.front (moves : Moves x event out after) (own : ∀ packet, event ≠ .handlePacket packet)
    {item : TcpPacketItem} {rest : List TcpPacketItem} (list : x.sock.inFlightList = item :: rest) :
    ∃ front others, after.sock.inFlightList = front :: others ∧ front.value = item.value := by
  cases moves with
  | packet packet => exact absurd rfl (own packet)
  | resend first others front =>
      rw [list] at front
      cases front
      exact ⟨_, _, rfl, rfl⟩
  | fin | probePush | push =>
      exact ⟨item, _, congrArg (· ++ _) list, rfl⟩
  | _ => exact ⟨item, rest, list, rfl⟩

/-- The largest acknowledgement number never falls. -/
theorem Moves.largest_le (moves : Moves y event out after) :
    y.sock.largestAckReceived ≤ after.sock.largestAckReceived := by
  cases moves with
  | packet packet =>
      refine (y.sock.handlePacket_acts packet).preserves
        (fun sock _ => y.sock.largestAckReceived ≤ sock.largestAckReceived) ?_ (UInt32.le_refl _)
      intro sock done more later held act
      cases act with
      | newAck flags newer => exact UInt32.le_trans held (UInt32.le_of_lt newer)
      | _ => exact held
  | _ => exact UInt32.le_refl _

theorem Moves.largest (moves : Moves x event out after) (own : ∀ packet, event ≠ .handlePacket packet) :
    after.sock.largestAckReceived = x.sock.largestAckReceived := by
  cases moves with
  | packet packet => exact absurd rfl (own packet)
  | _ => rfl

theorem Moves.front_or_next (moves : Moves x event out after) (own : ∀ packet, event ≠ .handlePacket packet)
    {item : TcpPacketItem} {rest : List TcpPacketItem} (list : x.sock.inFlightList = item :: rest) :
    ∀ packet ∈ out, packet = item.value ∨
      x.writer ≠ .returned ∧ packet.header.seqNum = x.sock.myInitSeqNum + x.sock.numBytesSent + 1 := by
  intro packet member
  cases moves with
  | packet packet => exact absurd rfl (own packet)
  | resend first others front =>
      rw [list] at front
      cases front
      exact .inl (List.mem_singleton.mp member)
  | fin pc | probe pc | send _ pc =>
      refine .inr ⟨by rw [pc]; simp, ?_⟩
      rw [List.mem_singleton.mp member]
      rfl
  | _ => cases member

theorem Moves.received (moves : Moves y event out after)
    (unawaited : ∀ packet, event = .handlePacket packet → ¬ y.Awaits packet) :
    after.sock.nextExpectedByte = y.sock.nextExpectedByte ∧ after.received = y.received := by
  cases moves with
  | delivered call len =>
      refine ⟨rfl, ?_⟩
      simp only [Endpoint.received, read_content, List.append_assoc, List.take_append_drop]
  | packet packet =>
      obtain ⟨next, buffer⟩ := handlePacket_unawaited (unawaited packet rfl)
      refine ⟨next, ?_⟩
      change y.delivered ++ content (y.sock.handlePacket packet).1.readBuffer = _
      rw [buffer]
      rfl
  | _ => exact ⟨rfl, rfl⟩

variable {toY toX : List TcpPacket}

theorem Lost.sender (lost : Lost x y toY toX) (numbered : x.Numbered)
    (short : x.transmitted.length + 2 < 2 ^ 32) (isn : y.sock.foreignInitSeqNum = x.sock.myInitSeqNum)
    (moves : Moves x event out after)
    (arrived : ∀ packet, event = .handlePacket packet → packet ∈ toX) :
    Lost after y (toY ++ out) toX := by
  obtain ⟨missing, ⟨item, rest, list, elsewhere⟩, onWay, current, answers, replies⟩ := lost
  have kept : (∃ front others, after.sock.inFlightList = front :: others ∧ front.value = item.value) ∧
      after.sock.largestAckReceived = x.sock.largestAckReceived ∧ ∀ packet ∈ out, ¬ y.Awaits packet := by
    rcases event.own_or_packet with own | ⟨packet, rfl⟩
    · refine ⟨moves.front own list, moves.largest own, fun packet member => ?_⟩
      rcases moves.front_or_next own list packet member with rfl | ⟨running, number⟩
      · exact elsewhere
      · exact unawaited_of_next numbered short isn missing running number
    · cases moves with
      | calls => exact ⟨⟨item, rest, list, rfl⟩, rfl, fun _ member => absurd member List.not_mem_nil⟩
      | packet =>
          -- Nothing on the way acknowledges more than is known, so the front stays.
          obtain ⟨same, largest⟩ := TcpSocket.handlePacket_old (answers packet (arrived packet rfl))
          refine ⟨⟨item, rest, same.trans list, rfl⟩, largest, fun answer member awaits => ?_⟩
          obtain ⟨empty, noFin⟩ := handlePacket_bare _ packet answer member
          simp [Awaits, empty, noFin] at awaits
  obtain ⟨⟨front, others, now, value⟩, largest, unawaited⟩ := kept
  refine ⟨missing.trans moves.transmitted_le, ⟨front, others, now, value ▸ elsewhere⟩, ?_, ?_, ?_, ?_⟩
  · intro packet member
    rcases List.mem_append.mp member with old | new
    · exact onWay packet old
    · exact unawaited packet new
  all_goals
    rw [largest]
    assumption

theorem Lost.receiver (lost : Lost x y toY toX) (numbered : y.Numbered)
    (moves : Moves y event out after)
    (arrived : ∀ packet, event = .handlePacket packet → packet ∈ toY) :
    Lost x after toY (toX ++ out) := by
  obtain ⟨missing, ⟨item, rest, list, elsewhere⟩, onWay, current, answers, replies⟩ := lost
  obtain ⟨next, -⟩ := moves.received fun packet handles => onWay packet (arrived packet handles)
  have foreign := moves.foreign
  have before : ∀ packet, after.Awaits packet → y.Awaits packet := by
    rintro packet ⟨some, here, recent⟩
    rw [TcpSocket.relSeqNum, next, foreign] at here
    exact ⟨some, here, fun flags => UInt32.le_trans moves.largest_le (recent flags)⟩
  have number : after.sock.getAckHeader.ackNum = y.sock.getAckHeader.ackNum := by
    simp only [TcpSocket.getAckHeader, next, foreign]
  have built : (∀ packet ∈ after.sent, packet.header.flags = tcpFlagAck →
      packet.header.ackNum ≤ x.sock.largestAckReceived) ∧
      ∀ packet ∈ out, packet.header.flags = tcpFlagAck →
        packet.header.ackNum ≤ x.sock.largestAckReceived := by
    rcases event.own_or_packet with own | ⟨packet, rfl⟩
    · have sent : ∀ packet ∈ after.sent, packet.header.flags = tcpFlagAck →
          packet.header.ackNum ≤ x.sock.largestAckReceived := by
        intro packet member flags
        rcases moves.sent own with old | ⟨new, appended, ackNum⟩
        · exact replies packet (old ▸ member) flags
        · rw [appended] at member
          rcases List.mem_append.mp member with old | last
          · exact replies packet old flags
          · rw [List.mem_singleton.mp last, ackNum]
            exact current
      exact ⟨sent, fun packet member => sent packet (moves.out_sent numbered own packet member)⟩
    · cases moves with
      | calls => exact ⟨replies, fun _ member => absurd member List.not_mem_nil⟩
      | packet =>
          refine ⟨replies, fun answer member _ => ?_⟩
          -- A FIN that is answered would have been awaited.
          have built := y.sock.handlePacket_ackNum packet answer member
          by_cases fin : packet.hasFin = true
          · rw [if_pos fin] at built
            refine absurd ⟨.inr fin, built.1, fun flags => ?_⟩ (onWay packet (arrived packet rfl))
            rw [hasFin_of_ack flags] at fin
            cases fin
          · rw [if_neg fin] at built
            rw [built]
            exact (le_of_eq (congrArg UInt32.toNat number)).trans current
  refine ⟨by rw [next]; exact missing, ⟨item, rest, list, fun awaits => elsewhere (before _ awaits)⟩,
    fun packet member awaits => onWay packet member (before _ awaits), by rw [number]; exact current,
    fun packet member => ?_, built.1⟩
  rcases List.mem_append.mp member with old | new
  · exact answers packet old
  · exact built.2 packet new

end

end Endpoint

namespace Connection

open Endpoint

variable [RingBuffer Buffer]

def Loses (c : Connection Buffer) (side : Side) : Prop :=
  Lost (c.ends side) (c.ends side.other) (c.net side.other) (c.net side)

section
variable [Netstack] {c after : Connection Buffer} {side : Side}

theorem Loses.step {action : Action} (loses : c.Loses side) (joint : Joint False False c)
    (short : (c.ends side).transmitted.length + 2 < 2 ^ 32) (steps : Steps c action after) :
    after.Loses side ∧
      (after.ends side.other).sock.nextExpectedByte = (c.ends side.other).sock.nextExpectedByte ∧
      (after.ends side.other).received = (c.ends side.other).received := by
  cases steps with
  | network ends net =>
      rw [Loses, ends]
      exact ⟨loses.subset (net _) (net _), rfl, rfl⟩
  | @act _ actor event out arrived moves still taken sent =>
      have moved := step_moves moves
      rcases actor.eq_or_other side with rfl | rfl
      · rw [Loses, still, sent]
        have kept := loses.sender (joint.sender actor).numbered short (joint.flow actor short).isn moved arrived
        exact ⟨kept.subset (List.Subset.refl _) taken, rfl, rfl⟩
      · rw [Side.other_other] at still sent
        rw [Loses, still, sent]
        have kept := loses.receiver (joint.sender side.other).numbered moved arrived
        exact ⟨kept.subset taken (List.Subset.refl _),
          moved.received fun packet handles => loses.onWay packet (arrived packet handles)⟩

theorem transmitted_le {action : Action} (steps : Steps c action after) (side : Side) :
    (c.ends side).transmitted.length ≤ (after.ends side).transmitted.length := by
  cases steps with
  | network ends => rw [ends]
  | @act _ actor event out arrived moves still =>
      rcases actor.eq_or_other side with rfl | rfl
      · exact (step_moves moves).transmitted_le
      · rw [Side.other_other] at still
        rw [still]

end

section
attribute [local instance] Netstack.standard

instance (y : Endpoint Buffer) (packet : TcpPacket) : Decidable (y.Awaits packet) := by
  unfold Awaits
  infer_instance

def losesSecond : List Action :=
  -- The client's first byte is acknowledged before its segment is listed; its second byte is lost.
  [.act .client (.vWrite [7]), .act .client (.vWriteLoop 0)] ++ List.replicate 3 (.act .client .handleWrites) ++
    [.act .server (.handlePacket (fromClient 101 201 tcpFlagAck [7])),
      .act .client (.handlePacket (loopback.reversed.seal
        { handshakeHeader loopback.reversed 201 102 tcpFlagAck with windowSize := 65534 } [])),
      .act .client .handleWrites, .act .client .handleWrites] ++ sendsByte .client 8 ++
    [.lose .server (fromClient 102 201 tcpFlagAck [8])]

theorem losesSecond_isSome :
    (exec step anyEvent (established loopback 100 200 : Connection Fifo) losesSecond).isSome := by
  decide +kernel

def lostSecond : Connection Fifo :=
  (exec step anyEvent (established loopback 100 200) losesSecond).get losesSecond_isSome

def losesFirst : List Action :=
  -- The client's byte is lost, and a byte of the server arrives and is acknowledged.
  sendsByte .client 7 ++ [.lose .server (fromClient 101 201 tcpFlagAck [7])] ++ sendsByte .server 9 ++
    [.act .client (.handlePacket (fromServer 201 101 tcpFlagAck [9])),
      .act .server (.handlePacket (loopback.seal
        { handshakeHeader loopback 102 202 tcpFlagAck with windowSize := 65534 } []))]

theorem losesFirst_isSome :
    (exec step anyEvent (established loopback 100 200 : Connection Fifo) losesFirst).isSome := by
  decide +kernel

def lostFirst : Connection Fifo :=
  (exec step anyEvent (established loopback 100 200) losesFirst).get losesFirst_isSome

theorem exists_front {list : List TcpPacketItem} {property : TcpPacketItem → Prop} (listed : 0 < list.length)
    (front : ∀ item ∈ list.head?, property item) : ∃ item rest, list = item :: rest ∧ property item := by
  obtain ⟨item, rest, rfl⟩ := List.exists_cons_of_length_pos listed
  exact ⟨item, rest, rfl, front item rfl⟩

theorem lostSecond_loses : lostSecond.Loses .client where
  missing := by decide +kernel
  front := exists_front (by decide +kernel) (by decide +kernel)
  onWay := by decide +kernel
  current := by decide +kernel
  answers := by decide +kernel
  replies := by decide +kernel

theorem lostFirst_loses : lostFirst.Loses .client where
  missing := by decide +kernel
  front := exists_front (by decide +kernel) (by decide +kernel)
  onWay := by decide +kernel
  current := by decide +kernel
  answers := by decide +kernel
  replies := by decide +kernel

end

end Connection

end IpTcp.Tcp
