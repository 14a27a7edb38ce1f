import IpTcp.Tcp.Teardown

/-! One direction of a connection: `x` sends, `y` receives. What is on the way to `y`
and what waits in its early-arrival queue are slices of the stream of `x`; what is on
the way back acknowledges no more than `y` has stored. -/

set_option autoImplicit false

namespace IpTcp.Tcp

open RingBuffer Lib

variable {Buffer : Type}

namespace Endpoint

/-- A packet with a payload or a FIN carries a part of what `x` has sent. -/
def Carries (x : Endpoint Buffer) (packet : TcpPacket) : Prop :=
  packet.data ≠ [] ∨ packet.hasFin = true →
    ∃ offset, packet.header.seqNum = x.sock.myInitSeqNum + 1 + UInt32.ofNat offset ∧
      Slice x.transmitted offset packet.data ∧
      (packet.hasFin = true → packet.header.flags = tcpFlagFin ∧ packet.data = [] ∧ x.finished ∧
        offset = x.transmitted.length)

def Queued (x y : Endpoint Buffer) : Prop :=
  ∀ entry ∈ PriorityQueue.entries y.sock.earlyArrivalQueue,
    x.Carries entry.1 ∧ (entry.1.data ≠ [] ∨ entry.1.hasFin = true) ∧
      entry.2 = (entry.1.header.seqNum - x.sock.myInitSeqNum).toNat

/-- An acknowledgement of `y`: of bytes it has stored, or of the FIN that follows all
of them. Where the teardown is graceful, the FIN was taken in. -/
def Truth (graceful : Prop) (x y : Endpoint Buffer) (fin : Prop) (ackNum : UInt32) : Prop :=
  (ackNum - x.sock.myInitSeqNum).toNat ≤ y.sock.nextExpectedByte.toNat ∨
    (fin ∧ x.finished ∧ (ackNum - x.sock.myInitSeqNum).toNat = x.transmitted.length + 2 ∧
      y.sock.nextExpectedByte.toNat = x.transmitted.length + 1 ∧
      (graceful → y.sock.connState.pastFin = true))

structure Grows (x y laterX laterY : Endpoint Buffer) : Prop where
  isn : laterX.sock.myInitSeqNum = x.sock.myInitSeqNum
  stream : x.finished → laterX.finished ∧ laterX.transmitted = x.transmitted
  next : y.sock.nextExpectedByte.toNat ≤ laterY.sock.nextExpectedByte.toNat
  complete : x.finished → y.sock.nextExpectedByte.toNat = x.transmitted.length + 1 →
    laterY.sock.nextExpectedByte.toNat = x.transmitted.length + 1
  past : y.sock.connState.pastFin = true → laterY.sock.connState.pastFin = true

theorem Truth.grow {graceful fin : Prop} {x y laterX laterY : Endpoint Buffer} {ackNum : UInt32}
    (truth : Truth graceful x y fin ackNum) (grows : Grows x y laterX laterY) :
    Truth graceful laterX laterY fin ackNum := by
  unfold Truth at truth ⊢
  rw [grows.isn]
  rcases truth with stored | ⟨isFin, finished, number, complete, past⟩
  · exact Or.inl (stored.trans grows.next)
  · obtain ⟨still, same⟩ := grows.stream finished
    rw [same]
    exact Or.inr ⟨isFin, still, number, grows.complete finished complete,
      fun gently => grows.past (past gently)⟩

theorem Truth.weaken {graceful fin other : Prop} {x y : Endpoint Buffer} {ackNum : UInt32}
    (truth : Truth graceful x y fin ackNum) (implies : fin → other) :
    Truth graceful x y other ackNum :=
  truth.imp_right fun known => ⟨implies known.1, known.2⟩

/-- The packets acknowledge truthfully; those with a payload only stored bytes. A SYN
acknowledges nothing. -/
def Truthful (graceful : Prop) (x y : Endpoint Buffer) (packets : List TcpPacket) : Prop :=
  ∀ packet ∈ packets, packet.header.flags ≠ tcpFlagSyn →
    Truth graceful x y (packet.data = []) packet.header.ackNum

theorem Truthful.grow {graceful : Prop} {x y laterX laterY : Endpoint Buffer} {packets : List TcpPacket}
    (truthful : Truthful graceful x y packets) (grows : Grows x y laterX laterY) :
    Truthful graceful laterX laterY packets :=
  fun packet member flags => (truthful packet member flags).grow grows

theorem Truthful.append {graceful : Prop} {x y : Endpoint Buffer} {packets more : List TcpPacket}
    (truthful : Truthful graceful x y packets) (others : Truthful graceful x y more) :
    Truthful graceful x y (packets ++ more) := by
  intro packet member
  rcases List.mem_append.mp member with early | late
  · exact truthful packet early
  · exact others packet late

variable [RingBuffer Buffer]

/-- `y` has stored the stream up to `nextExpectedByte`. Where no write failed halfway,
it has stored nothing else. -/
structure Stored (whole : Prop) (x y : Endpoint Buffer) : Prop where
  positive : 1 ≤ y.sock.nextExpectedByte.toNat
  below : y.sock.nextExpectedByte.toNat ≤ x.transmitted.length + 1
  placed : (x.transmitted.take (y.sock.nextExpectedByte.toNat - 1)).Sublist
    (y.delivered ++ content y.sock.readBuffer)
  exactly : whole →
    x.transmitted.take (y.sock.nextExpectedByte.toNat - 1) = y.delivered ++ content y.sock.readBuffer

structure Flow (whole graceful : Prop) (x y : Endpoint Buffer) (toY toX : List TcpPacket) : Prop where
  isn : y.sock.foreignInitSeqNum = x.sock.myInitSeqNum
  carried : ∀ packet ∈ toY, x.Carries packet
  queued : Queued x y
  stored : Stored whole x y
  answers : Truthful graceful x y toX
  replies : Truthful graceful x y y.sent
  acks : ∀ ackNum ∈ x.acks, Truth graceful x y True ackNum
  received : y.sock.connState.pastFin = true →
    x.finished ∧ y.sock.nextExpectedByte.toNat = x.transmitted.length + 1
  confirmed : x.sock.connState.finAcked = true → x.finished ∧
    y.sock.nextExpectedByte.toNat = x.transmitted.length + 1 ∧
    (graceful → y.sock.connState.pastFin = true)

section
variable {whole graceful : Prop} {x y after : Endpoint Buffer} {toY toX : List TcpPacket}

theorem Flow.subset (flow : Flow whole graceful x y toY toX) {lessY lessX : List TcpPacket}
    (kept : lessY ⊆ toY) (keptX : lessX ⊆ toX) : Flow whole graceful x y lessY lessX :=
  { flow with
    carried := fun packet member => flow.carried packet (kept member)
    answers := fun packet member => flow.answers packet (keptX member) }

theorem Flow.answer (flow : Flow whole graceful x y toY toX) {out : List TcpPacket}
    (truthful : Truthful graceful x y out) : Flow whole graceful x y toY (toX ++ out) :=
  { flow with answers := flow.answers.append truthful }

theorem Flow.advance (flow : Flow whole graceful x y toY toX)
    (isn : after.sock.foreignInitSeqNum = y.sock.foreignInitSeqNum) (queued : Queued x after)
    (stored : Stored whole x after)
    (next : y.sock.nextExpectedByte.toNat ≤ after.sock.nextExpectedByte.toNat)
    (replies : Truthful graceful x y after.sent)
    (past : y.sock.connState.pastFin = true → after.sock.connState.pastFin = true)
    (received : after.sock.connState.pastFin = true → y.sock.connState.pastFin = true ∨
      (x.finished ∧ after.sock.nextExpectedByte.toNat = x.transmitted.length + 1)) :
    Flow whole graceful x after toY toX := by
  have grows : Grows x y x after := by
    refine ⟨rfl, fun finished => ⟨finished, rfl⟩, next, fun _ complete => ?_, past⟩
    have := stored.below
    omega
  refine ⟨isn.trans flow.isn, flow.carried, queued, stored, flow.answers.grow grows,
    replies.grow grows, ?_, ?_, ?_⟩
  · exact fun ackNum member => (flow.acks ackNum member).grow grows
  · intro isPast
    rcases received isPast with before | known
    · obtain ⟨finished, complete⟩ := flow.received before
      exact ⟨finished, grows.complete finished complete⟩
    · exact known
  · intro acked
    obtain ⟨finished, complete, before⟩ := flow.confirmed acked
    exact ⟨finished, grows.complete finished complete, fun gently => past (before gently)⟩

/-- A slice of the stream that starts at `nextExpectedByte` is stored as a whole. -/
theorem Stored.extend (stored : Stored whole x y) {data : List Byte} {offset : Nat}
    (slice : Slice x.transmitted offset data) (here : y.sock.nextExpectedByte.toNat = offset + 1)
    (bound : x.transmitted.length + 2 < 2 ^ 32) (delivered : after.delivered = y.delivered)
    (buffer : content after.sock.readBuffer = content y.sock.readBuffer ++ data)
    (next : after.sock.nextExpectedByte = y.sock.nextExpectedByte + UInt32.ofNat data.length) :
    Stored whole x after ∧ y.sock.nextExpectedByte.toNat ≤ after.sock.nextExpectedByte.toNat := by
  have inside := slice.length_le
  have number : after.sock.nextExpectedByte.toNat = offset + data.length + 1 := by
    rw [next, Word.toNat_add (by omega)]
    omega
  have reach : x.transmitted.take (after.sock.nextExpectedByte.toNat - 1) =
      x.transmitted.take (y.sock.nextExpectedByte.toNat - 1) ++ data := by
    rw [number, here]
    exact slice.take_add
  refine ⟨⟨by omega, by omega, ?_, fun all => ?_⟩, by omega⟩
  · rw [reach, delivered, buffer, ← List.append_assoc]
    exact stored.placed.append (List.Sublist.refl data)
  · rw [reach, delivered, buffer, ← List.append_assoc, stored.exactly all]

theorem Stored.failed (stored : Stored whole x y) {extra : List Byte}
    (delivered : after.delivered = y.delivered)
    (buffer : content after.sock.readBuffer = content y.sock.readBuffer ++ extra)
    (next : after.sock.nextExpectedByte = y.sock.nextExpectedByte) (none : whole → extra = []) :
    Stored whole x after := by
  -- A write that failed may have stored the head of its payload all the same.
  refine ⟨next ▸ stored.positive, next ▸ stored.below, ?_, fun all => ?_⟩
  · rw [next, delivered, buffer, ← List.append_assoc]
    exact stored.placed.trans (List.sublist_append_left _ _)
  · rw [next, delivered, buffer, none all, List.append_nil]
    exact stored.exactly all

theorem Flow.relSeqNum (flow : Flow whole graceful x y toY toX) {packet : TcpPacket} {offset : Nat}
    (number : packet.header.seqNum = x.sock.myInitSeqNum + 1 + UInt32.ofNat offset)
    (short : offset + 1 < 2 ^ 32) : (y.sock.relSeqNum packet).toNat = offset + 1 := by
  rw [TcpSocket.relSeqNum, flow.isn, number]
  exact Word.toNat_offset _ short

theorem Flow.ackNum (flow : Flow whole graceful x y toY toX) (fin : Prop) :
    Truth graceful x y fin y.sock.getAckHeader.ackNum := by
  refine Or.inl (le_of_eq ?_)
  have cancel : y.sock.getAckHeader.ackNum - x.sock.myInitSeqNum = y.sock.nextExpectedByte := by
    simp only [TcpSocket.getAckHeader, flow.isn]
    grind
  rw [cancel]

end

/-! ## What `HandlePacket` does at the receiver -/

section
variable {whole graceful : Prop} {x y : Endpoint Buffer} {toY toX : List TcpPacket}
  {sock after : TcpSocket Buffer} {packet : TcpPacket}

/-- A payload whose turn has come is the next slice of the stream. -/
theorem Flow.stored_store (flow : Flow whole graceful x { y with sock := sock } toY toX)
    (bound : x.transmitted.length + 2 < 2 ^ 32) (carries : x.Carries packet)
    (payload : packet.data ≠ []) (inOrder : sock.relSeqNum packet = sock.nextExpectedByte)
    (fits : packet.data.length ≤ free sock.readBuffer) :
    Stored whole x { y with sock := { sock with
        readBuffer := (write sock.readBuffer packet.data).1
        nextExpectedByte := sock.nextExpectedByte + UInt32.ofNat packet.data.length } } ∧
      sock.nextExpectedByte.toNat ≤
        (sock.nextExpectedByte + UInt32.ofNat packet.data.length).toNat := by
  obtain ⟨offset, number, slice, _⟩ := carries (Or.inl payload)
  have inside := slice.length_le
  have here : sock.nextExpectedByte.toNat = offset + 1 := by
    rw [← inOrder]
    exact flow.relSeqNum number (by omega)
  exact flow.stored.extend slice here bound rfl (content_write_of_le _ _ fits) rfl

theorem Flow.store (flow : Flow whole graceful x { y with sock := sock } toY toX)
    (bound : x.transmitted.length + 2 < 2 ^ 32) (carries : x.Carries packet)
    (payload : packet.data ≠ []) (inOrder : sock.relSeqNum packet = sock.nextExpectedByte)
    (fits : packet.data.length ≤ free sock.readBuffer) :
    Flow whole graceful x { y with sock := { sock with
      readBuffer := (write sock.readBuffer packet.data).1
      nextExpectedByte := sock.nextExpectedByte + UInt32.ofNat packet.data.length } } toY toX := by
  have stored := flow.stored_store bound carries payload inOrder fits
  exact flow.advance rfl flow.queued stored.1 stored.2 flow.replies id Or.inl

theorem Flow.root_place (flow : Flow whole graceful x { y with sock := sock } toY toX)
    (bound : x.transmitted.length + 2 < 2 ^ 32) {root : TcpPacketItem} {others : PriorityQueue}
    (queue : sock.earlyArrivalQueue = root :: others)
    (inOrder : root.priority = sock.nextExpectedByte.toNat) :
    ∃ offset, sock.nextExpectedByte.toNat = offset + 1 ∧ Slice x.transmitted offset root.value.data ∧
      (root.value.hasFin = true → root.value.header.flags = tcpFlagFin ∧ x.finished ∧
        offset = x.transmitted.length) := by
  obtain ⟨carries, kind, priority⟩ := flow.queued (PriorityQueue.entry root)
    (by simp [queue, PriorityQueue.entries])
  obtain ⟨offset, number, slice, isFin⟩ := carries kind
  have inside := slice.length_le
  refine ⟨offset, ?_, slice, fun fin => ?_⟩
  · rw [← inOrder]
    exact priority.trans (by rw [number]; exact Word.toNat_offset _ (by omega))
  · obtain ⟨flags, _, finished, last⟩ := isFin fin
    exact ⟨flags, finished, last⟩

theorem Flow.stored_drain (flow : Flow whole graceful x { y with sock := sock } toY toX)
    (bound : x.transmitted.length + 2 < 2 ^ 32) {root : TcpPacketItem} {others : PriorityQueue}
    (queue : sock.earlyArrivalQueue = root :: others)
    (inOrder : root.priority = sock.nextExpectedByte.toNat)
    (condition : whole → root.value.data.length ≤ free sock.readBuffer ∨ free sock.readBuffer = 0) :
    Stored whole x { y with sock := sock.drained root } ∧
      sock.nextExpectedByte.toNat ≤ (sock.drained root).nextExpectedByte.toNat := by
  obtain ⟨offset, here, slice, _⟩ := flow.root_place bound queue inOrder
  by_cases fits : root.value.data.length ≤ free sock.readBuffer
  · exact flow.stored.extend slice here bound rfl (content_write_of_le _ _ fits) (if_pos fits)
  · refine ⟨flow.stored.failed rfl (content_write _ _) (if_neg fits) fun all => ?_, ?_⟩
    · rcases condition all with enough | full
      · exact absurd enough fits
      · rw [full, List.take_zero]
    · exact le_of_eq (congrArg UInt32.toNat (if_neg fits).symm)

theorem Flow.drain (flow : Flow whole graceful x { y with sock := sock } toY toX)
    (bound : x.transmitted.length + 2 < 2 ^ 32) {root : TcpPacketItem} {others : PriorityQueue}
    (queue : sock.earlyArrivalQueue = root :: others)
    (inOrder : root.priority = sock.nextExpectedByte.toNat)
    (condition : whole → root.value.data.length ≤ free sock.readBuffer ∨ free sock.readBuffer = 0) :
    Flow whole graceful x { y with sock := sock.drained root } toY toX := by
  obtain ⟨offset, here, _, isFin⟩ := flow.root_place bound queue inOrder
  have queued : Queued x { y with sock := sock.drained root } := by
    intro entry member
    exact flow.queued entry (TcpSocket.drained_entries queue entry member)
  have stored := flow.stored_drain bound queue inOrder condition
  by_cases fin : root.value.hasFin = true
  · obtain ⟨flags, finished, last⟩ := isFin fin
    have state : (sock.drained root).connState = sock.connState.afterFin := if_pos flags
    refine flow.advance rfl queued stored.1 stored.2 flow.replies ?_ fun _ => Or.inr ⟨finished, ?_⟩
    · simp only [state]
      exact ConnState.pastFin_afterFin
    · have := stored.1.below
      have := stored.2
      simp only at *
      omega
  · have state : (sock.drained root).connState = sock.connState := by
      refine if_neg fun flags => fin ?_
      simp only [TcpPacket.hasFin, flags]
      decide
    refine flow.advance rfl queued stored.1 stored.2 flow.replies ?_ fun isPast => Or.inl ?_
    · simp only [state]
      exact id
    · simpa only [state] using isPast

theorem Flow.untouched (flow : Flow whole graceful x { y with sock := sock } toY toX)
    (same : TcpSocket.SameReceiver sock after)
    (past : after.connState.pastFin = sock.connState.pastFin) :
    Flow whole graceful x { y with sock := after } toY toX := by
  have queued : Queued x { y with sock := after } := by
    intro entry
    simp only [same.earlyArrivalQueue]
    exact flow.queued entry
  have stored : Stored whole x { y with sock := after } := by
    obtain ⟨positive, below, placed, exactly⟩ := flow.stored
    refine ⟨?_, ?_, ?_, ?_⟩
    all_goals simp only [same.nextExpectedByte, same.readBuffer]
    · exact positive
    · exact below
    · exact placed
    · exact exactly
  refine flow.advance same.foreignInitSeqNum queued stored ?_ flow.replies ?_ ?_
  · simp only [same.nextExpectedByte, le_refl]
  · simp only [past]
    exact id
  · simp only [past]
    exact Or.inl

theorem Flow.quietly {receiver : Endpoint Buffer} {effects : List Effect}
    (flow : Flow whole graceful x receiver toY toX) (silent : sends effects = []) :
    Flow whole graceful x receiver toY (toX ++ sends effects) := by
  rw [silent, List.append_nil]
  exact flow

variable [Netstack] {effects : List Effect} {stores : TcpSocket Buffer → List Byte → Prop}
  {absorbs : ConnState → Prop}

theorem Flow.finInOrder (flow : Flow whole graceful x { y with sock := sock } toY toX)
    (bound : x.transmitted.length + 2 < 2 ^ 32) (carries : x.Carries packet)
    (fin : packet.hasFin = true) (inOrder : sock.relSeqNum packet = sock.nextExpectedByte)
    (absorbed : graceful → sock.connState.afterFin.pastFin = true) :
    Flow whole graceful x { y with sock := { sock with connState := sock.connState.afterFin } } toY
      (toX ++ [sock.conn.seal sock.getFinAckHeader []]) := by
  obtain ⟨offset, number, slice, isFin⟩ := carries (Or.inr fin)
  obtain ⟨_, _, finished, last⟩ := isFin fin
  have here : sock.nextExpectedByte.toNat = x.transmitted.length + 1 := by
    rw [← inOrder, ← last]
    exact flow.relSeqNum number (by omega)
  have taken : Flow whole graceful x { y with sock :=
      { sock with connState := sock.connState.afterFin } } toY toX :=
    flow.advance rfl flow.queued ⟨flow.stored.1, flow.stored.2, flow.stored.3, flow.stored.4⟩
      (le_refl _) flow.replies ConnState.pastFin_afterFin fun _ => Or.inr ⟨finished, here⟩
  refine taken.answer fun answer member flags => ?_
  rw [List.mem_singleton] at member
  subst member
  have isn : sock.foreignInitSeqNum = x.sock.myInitSeqNum := flow.isn
  have past : sock.getFinAckHeader.ackNum - x.sock.myInitSeqNum = sock.nextExpectedByte + 1 := by
    simp only [TcpSocket.getFinAckHeader, TcpSocket.getAckHeader, isn]
    grind
  refine Or.inr ⟨rfl, finished, ?_, here, absorbed⟩
  have one : UInt32.ofNat 1 = 1 := rfl
  rw [seal_ackNum, past, ← one, Word.toNat_add (by omega), here]

theorem Flow.act (flow : Flow whole graceful x { y with sock := sock } toY toX)
    (bound : x.transmitted.length + 2 < 2 ^ 32) (carries : x.Carries packet)
    (condition : ∀ sock data, stores sock data → whole →
      data.length ≤ free sock.readBuffer ∨ free sock.readBuffer = 0)
    (absorbed : ∀ state, absorbs state → graceful → state.afterFin.pastFin = true)
    (act : TcpSocket.Act packet stores absorbs sock effects after) :
    Flow whole graceful x { y with sock := after } toY (toX ++ sends effects) := by
  cases act with
  | sameAck | newAck =>
      refine Flow.quietly (flow.untouched ⟨rfl, rfl, rfl, rfl, rfl, rfl⟩ ?_) rfl
      rfl
  | acked item rest =>
      refine Flow.quietly (flow.untouched ⟨rfl, rfl, rfl, rfl, rfl, rfl⟩ ?_) rfl
      change (sock.ackedItem item).connState.pastFin = _
      rw [TcpSocket.ackedItem_connState]
      split <;> simp
  | closing item rest flags latest front covered fin last =>
      refine Flow.quietly (flow.untouched ⟨rfl, rfl, rfl, rfl, rfl, rfl⟩ ?_) rfl
      rw [last]
      rfl
  | wake =>
      refine flow.quietly ?_
      unfold TcpSocket.wakeProbe
      split <;> rfl
  | queue kind =>
      refine Flow.quietly (flow.advance rfl ?_
        ⟨flow.stored.1, flow.stored.2, flow.stored.3, flow.stored.4⟩ (le_refl _) flow.replies id Or.inl) rfl
      intro entry member
      have found := (PriorityQueue.heapPush_entries sock.earlyArrivalQueue _).mem_iff.mp member
      rcases List.mem_cons.mp found with new | old
      · subst new
        refine ⟨carries, ?_, ?_⟩
        · rcases kind with ⟨_, payload⟩ | fin
          · exact Or.inl payload
          · exact Or.inr fin
        · have isn : sock.foreignInitSeqNum = x.sock.myInitSeqNum := flow.isn
          simp only [PriorityQueue.entry, TcpSocket.relSeqNum, isn]
      · exact flow.queued entry old
  | store flags payload inOrder fits => exact (flow.store bound carries payload inOrder fits).quietly rfl
  | drain root others _ queue inOrder stored quiet =>
      exact (flow.drain bound queue inOrder (condition _ _ stored)).quietly (sends_of_quiet quiet)
  | sendAck flags payload =>
      refine flow.answer fun answer member _ => ?_
      obtain rfl : answer = sock.conn.seal sock.getAckHeader [] := by
        simpa [TcpSocket.sendAck, sends] using member
      exact flow.ackNum _
  | finInOrder rest flags fin inOrder absorbs quiet =>
      have silent : sends rest = [] := sends_of_quiet fun packet member => by
        simpa using quiet _ member
      simp only [sends, silent]
      exact flow.finInOrder bound carries fin inOrder (absorbed _ absorbs)

end

end Endpoint

end IpTcp.Tcp
