import IpTcp.Tcp.FlowControl

/-! `inFlightPacketSize` against `inFlightList`. A segment is counted after it is pushed, and the FIN
is never counted; `HandlePacket` subtracts for every item it removes. So the counter lags behind
by the last segment, or by the FIN, and goes below zero when that is removed. -/

set_option autoImplicit false

namespace IpTcp.Tcp

open RingBuffer Lib

/-- What `inFlightPacketSize` is short of. -/
def WriterPc.owed : WriterPc → Nat
  | .counting packet _ => packet.data.length
  | .returned => 1
  | _ => 0

theorem WriterPc.owed_running {pc : WriterPc} (running : pc ≠ .returned) : pc.owed = pc.uncounted := by
  cases pc <;> first | rfl | exact absurd rfl running

/-- Some subtraction of the loop of `HandlePacket`, over the items that it removes, goes below zero. -/
def wrapsBelow : UInt32 → List TcpPacketItem → Bool
  | _, [] => false
  | size, item :: rest =>
      decide (size.toNat < item.value.payloadSize) ||
        wrapsBelow (size - UInt32.ofNat item.value.payloadSize) rest

theorem wrapsBelow_iff (size : UInt32) (items : List TcpPacketItem) :
    wrapsBelow size items = true ↔ size.toNat < occupied (items.map (·.value)) := by
  induction items generalizing size with
  | nil => simp [wrapsBelow]
  | cons item rest ih =>
      rw [wrapsBelow, Bool.or_eq_true, decide_eq_true_eq, ih, List.map_cons, occupied_cons]
      by_cases less : size.toNat < item.value.payloadSize
      · exact iff_of_true (Or.inl less) (by omega)
      · have small := size.toNat_lt
        have remaining : (size - UInt32.ofNat item.value.payloadSize).toNat =
            size.toNat - item.value.payloadSize := by
          rw [UInt32.toNat_sub_of_le _ _ ?_, Word.toNat_ofNat (by omega)]
          rw [UInt32.le_iff_toNat_le, Word.toNat_ofNat (by omega)]
          omega
        rw [remaining]
        omega

def EndsWith (packets : List TcpPacket) (size : Nat) : Prop :=
  ∃ front last, packets = front ++ [last] ∧ last.payloadSize = size

theorem EndsWith.of_append {front rest : List TcpPacket} {size : Nat} (ends : EndsWith (front ++ rest) size)
    (some : rest ≠ []) : EndsWith rest size := by
  obtain ⟨before, last, split, sized⟩ := ends
  rw [← List.dropLast_append_getLast some, ← List.append_assoc] at split
  have same := (List.append_inj' split rfl).2
  exact ⟨rest.dropLast, last, by rw [← same, List.dropLast_append_getLast some], sized⟩

theorem EndsWith.le_occupied {packets : List TcpPacket} {size : Nat} (ends : EndsWith packets size) :
    size ≤ occupied packets := by
  obtain ⟨front, last, rfl, rfl⟩ := ends
  simp

namespace TcpSocket

variable {Buffer : Type}

theorem removeAcked_eq_nil_iff (rel : UInt32) (sock : TcpSocket Buffer) (items : List TcpPacketItem) :
    (removeAcked rel sock items).1.inFlightList = [] ↔
      (∀ item ∈ items, item.priority + item.value.payloadSize ≤ rel.toNat) ∧
        (sock.connState = .lastAck → ∀ item ∈ items, item.value.hasFin = false) := by
  induction items generalizing sock with
  | nil => simp [removeAcked, withInFlight]
  | cons item rest ih =>
      simp only [removeAcked]
      split
      · rename_i covered
        split
        · rename_i ends
          -- The FIN that closes the socket stays in the list.
          refine iff_of_false (List.cons_ne_nil _ _) fun all => ?_
          have noFin := all.2 ends.2 item List.mem_cons_self
          rw [ends.1] at noFin
          cases noFin
        · rename_i goes
          have state : (sock.ackedItem item).connState = .lastAck ↔ sock.connState = .lastAck := by
            simp only [ackedItem]
            split
            · rename_i waits
              simp [waits.2]
            · rfl
          have plain : sock.connState = .lastAck → item.value.hasFin = false := fun last =>
            Bool.eq_false_iff.mpr fun fin => goes ⟨fin, last⟩
          rw [ih, state, List.forall_mem_cons]
          simp only [List.forall_mem_cons, covered, true_and]
          refine and_congr_right fun _ => forall_congr' fun last => ?_
          simp only [plain last, true_and]
      · rename_i uncovered
        exact iff_of_false (List.cons_ne_nil _ _) fun all => uncovered (all.1 item List.mem_cons_self)

theorem receiveAck_eq_nil_iff {sock : TcpSocket Buffer} (pending : sock.inFlightList ≠ [])
    (tcpHdr : TCPFields) :
    (sock.receiveAck tcpHdr).1.inFlightList = [] ↔ sock.largestAckReceived < tcpHdr.ackNum ∧
      (∀ item ∈ sock.inFlightList,
        item.priority + item.value.payloadSize ≤ (tcpHdr.ackNum - sock.myInitSeqNum).toNat) ∧
      (sock.connState = .lastAck → ∀ item ∈ sock.inFlightList, item.value.hasFin = false) := by
  unfold receiveAck
  by_cases old : tcpHdr.ackNum < sock.largestAckReceived
  · rw [if_pos old]
    exact iff_of_false pending fun all => UInt32.lt_asymm old all.1
  by_cases same : tcpHdr.ackNum = sock.largestAckReceived
  · rw [if_neg old, if_pos same]
    refine iff_of_false ?_ fun all => UInt32.ne_of_lt all.1 same.symm
    dsimp only
    split <;> exact pending
  · have newer : sock.largestAckReceived < tcpHdr.ackNum :=
      UInt32.lt_of_le_of_ne (UInt32.not_lt.mp old) (Ne.symm same)
    rw [if_neg old, if_neg same]
    have loop := removeAcked_eq_nil_iff (tcpHdr.ackNum - sock.myInitSeqNum) (sock.storeAck tcpHdr)
      sock.inFlightList
    generalize removeAcked _ (sock.storeAck tcpHdr) _ = result at loop ⊢
    obtain ⟨after, ended⟩ := result
    cases ended <;> exact loop.trans ⟨fun all => ⟨newer, all⟩, And.right⟩

variable [RingBuffer Buffer] [Netstack]

/-- The packet is taken for a new acknowledgement, which covers all items in flight and does not close
the socket. -/
structure AcksAll (sock : TcpSocket Buffer) (packet : TcpPacket) : Prop where
  opened : sock.closed = false
  valid : isValidTcpCheckSum packet.header sock.conn.foreignIP sock.conn.localIP packet.data = true
  flags : packet.header.flags = tcpFlagAck
  newer : sock.largestAckReceived < packet.header.ackNum
  covers : ∀ item ∈ sock.inFlightList,
    item.priority + item.value.payloadSize ≤ (packet.header.ackNum - sock.myInitSeqNum).toNat
  stays : sock.connState = .lastAck → ∀ item ∈ sock.inFlightList, item.value.hasFin = false

theorem handlePacket_eq_nil_iff {sock : TcpSocket Buffer} (pending : sock.inFlightList ≠ [])
    (packet : TcpPacket) : (sock.handlePacket packet).1.inFlightList = [] ↔ sock.AcksAll packet := by
  -- Whatever else the packet does, it leaves a list that is not empty as it is.
  have stops : ¬ sock.AcksAll packet → SameSender sock (sock.handlePacket packet).1 →
      ((sock.handlePacket packet).1.inFlightList = [] ↔ sock.AcksAll packet) := by
    intro notAll same
    rw [same.inFlightList]
    exact iff_of_false pending notAll
  cases opened : sock.closed with
  | true =>
      refine stops (fun acks => ?_) (by simp [handlePacket, opened, SameSender.refl])
      cases opened.symm.trans acks.opened
  | false =>
      cases valid : isValidTcpCheckSum packet.header sock.conn.foreignIP sock.conn.localIP packet.data with
      | false =>
          refine stops (fun acks => ?_) (by simp [handlePacket, opened, valid, SameSender.refl])
          cases valid.symm.trans acks.valid
      | true =>
          by_cases flags : packet.header.flags = tcpFlagAck
          · have list : (sock.handlePacket packet).1.inFlightList =
                (sock.receiveAck packet.header).1.inFlightList := by
              rw [handlePacket_ack opened valid flags]
              generalize sock.receiveAck packet.header = result
              obtain ⟨after, effects, goesOn⟩ := result
              cases goesOn with
              | false => rfl
              | true =>
                  dsimp only
                  split
                  · rfl
                  · exact (after.receiveData_sender packet).1.inFlightList
            rw [list, receiveAck_eq_nil_iff pending]
            constructor
            · rintro ⟨newer, covers, stays⟩
              exact ⟨opened, valid, flags, newer, covers, stays⟩
            · exact fun acks => ⟨acks.newer, acks.covers, acks.stays⟩
          · refine stops (fun acks => flags acks.flags) ?_
            rw [handlePacket_other opened valid flags]
            split
            · exact (sock.receiveFin_sender packet).1
            · exact SameSender.refl sock

end TcpSocket

namespace Endpoint

variable {Buffer : Type}

/-- The counter is short of the last segment or of the FIN, whichever is not counted. -/
structure Accounted (e : Endpoint Buffer) : Prop where
  size : e.sock.inFlightPacketSize + UInt32.ofNat e.writer.owed = UInt32.ofNat e.inFlight
  last : e.writer.owed ≠ 0 → EndsWith e.sent e.writer.owed

theorem Metered.accounted {e : Endpoint Buffer} (metered : e.Metered) (running : e.writer ≠ .returned)
    (last : e.writer.owed ≠ 0 → EndsWith e.sent e.writer.owed) : e.Accounted := by
  refine ⟨?_, last⟩
  rw [WriterPc.owed_running running]
  exact metered.size running

theorem Accounted.toNat {e : Endpoint Buffer} (accounted : e.Accounted) (metered : e.Metered)
    (listed : e.writer.owed ≤ e.inFlight) :
    e.sock.inFlightPacketSize.toNat = e.inFlight - e.writer.owed := by
  have load := metered.load
  have size : e.sock.inFlightPacketSize = UInt32.ofNat (e.inFlight - e.writer.owed) := by
    have whole := accounted.size
    rw [show e.inFlight = e.inFlight - e.writer.owed + e.writer.owed by omega, UInt32.ofNat_add] at whole
    grind
  rw [size, Word.toNat_ofNat (by omega)]

theorem Accounted.ends {e : Endpoint Buffer} (accounted : e.Accounted) (numbered : e.Numbered)
    (owes : e.writer.owed ≠ 0) {removed rest : List TcpPacketItem}
    (list : e.sock.inFlightList = removed ++ rest) (left : rest ≠ []) :
    EndsWith (rest.map (·.value)) e.writer.owed := by
  obtain ⟨acked, split, _⟩ := numbered.inFlight
  have pushed : e.writer.unpushed = [] := by
    generalize e.writer = pc at owes
    cases pc <;> first | rfl | exact absurd rfl owes
  rw [pushed, List.append_nil, list, List.map_append, ← List.append_assoc] at split
  have ends := accounted.last owes
  rw [split] at ends
  exact ends.of_append (by simpa using left)

variable [RingBuffer Buffer]

structure Balanced (e : Endpoint Buffer) : Prop where
  sender : e.Sender
  metered : e.Metered
  accounted : e.Accounted

theorem Opened.balanced {first : Endpoint Buffer} (opened : Opened first) : first.Balanced := by
  have throttled := opened.throttled
  have top : first.writer = .top := by cases opened <;> rfl
  exact ⟨throttled.sender, throttled.metered,
    throttled.metered.accounted (by simp [top]) (fun owes => absurd (by rw [top]; rfl) owes)⟩

section
variable [Netstack]

theorem handlePacket_owed (e : Endpoint Buffer) (packet : TcpPacket) :
    (e.handlePacket packet).1.writer.owed = e.writer.owed :=
  e.handlePacket_writer_same packet WriterPc.owed rfl

theorem Accounted.settle {e : Endpoint Buffer} (accounted : e.Accounted) (packet : TcpPacket) :
    (e.handlePacket packet).1.Accounted := by
  have owed := e.handlePacket_owed packet
  refine ⟨?_, by rw [owed]; exact accounted.last⟩
  rw [owed]
  have before := accounted.size
  change (e.sock.handlePacket packet).1.inFlightPacketSize + _ = UInt32.ofNat
    (occupied ((e.sock.handlePacket packet).1.inFlightList.map (·.value)))
  rcases e.sock.handlePacket_sender packet with ⟨same, _⟩ | ⟨_, ⟨removed, removes⟩, _⟩
  · rw [same.inFlightList, same.inFlightPacketSize]
    exact before
  · rw [inFlight_of_append removes.list, UInt32.ofNat_add] at before
    rw [removes.size]
    grind

theorem Accounted.step {e after : Endpoint Buffer} {event : Event} {out : List TcpPacket}
    (sender : e.Sender) (metered : e.Metered) (accounted : e.Accounted) (moves : Moves e event out after) :
    after.Accounted := by
  have meteredAfter := metered.step sender moves
  cases moves with
  | calls | stored | delivered | shutdown | expired | timer => exact ⟨accounted.size, accounted.last⟩
  | toFin | toProbe | toSegment | none | take | probe | probePush | send =>
      exact meteredAfter.accounted (by simp [sendSegment]) (fun owes => absurd rfl owes)
  | count packet payload =>
      refine meteredAfter.accounted ?_ fun owes => absurd ?_ owes
      · dsimp only
        split <;> simp
      · dsimp only
        split <;> rfl
  | push packet payload pc =>
      have held : e.writer.unpushed = [packet] := by simp [pc, WriterPc.unpushed]
      have data := sender.numbered.unpushed_data held (by simp [pc])
      obtain ⟨_, split, _⟩ := sender.numbered.inFlight
      rw [held] at split
      exact meteredAfter.accounted (by simp) fun _ => ⟨_, packet, split, data.payloadSize⟩
  | fin pc =>
      refine ⟨?_, fun _ => ⟨e.sent, _, rfl, rfl⟩⟩
      -- All was counted before the FIN, which is pushed and not counted.
      have paid : e.writer.owed = 0 := by rw [pc]; rfl
      have size := accounted.size
      rw [paid] at size
      simp only [sendFin, WriterPc.owed, inFlight, List.map_append, occupied_append, List.map_cons,
        List.map_nil, inFlightItem, occupied_cons, occupied_nil, TcpPacket.payloadSize, seal_data,
        List.length_nil, if_true, Nat.add_zero, UInt32.ofNat_add]
      change _ = UInt32.ofNat e.inFlight + _
      rw [← size]
      grind
  | resend item rest front =>
      refine ⟨?_, accounted.last⟩
      have same :
          (e.sock.withInFlight ({ item with retransmitted := true } :: rest)).inFlightList.map (·.value) =
            e.sock.inFlightList.map (·.value) := by
        rw [front]
        rfl
      have flight : inFlight { e with
          sock := e.sock.withInFlight ({ item with retransmitted := true } :: rest)
          retransmitter := .test } = e.inFlight := congrArg occupied same
      rw [flight]
      exact accounted.size
  | packet packet => exact accounted.settle packet

theorem Balanced.run {first last : Endpoint Buffer} (run : Run move anyEvent first last)
    (balanced : first.Balanced) : last.Balanced := by
  refine run_keeps Balanced (fun e event out after kept _ stepped => ?_) run balanced
  exact ⟨kept.sender.step stepped, kept.metered.step kept.sender (step_moves stepped),
    kept.accounted.step kept.sender kept.metered (step_moves stepped)⟩

/-! ## The items that a packet removes -/

def removedBy (e : Endpoint Buffer) (packet : TcpPacket) : List TcpPacketItem :=
  e.sock.inFlightList.take
    (e.sock.inFlightList.length - (e.sock.handlePacket packet).1.inFlightList.length)

theorem removedBy_append (e : Endpoint Buffer) (packet : TcpPacket) :
    e.sock.inFlightList = e.removedBy packet ++ (e.sock.handlePacket packet).1.inFlightList := by
  have front : ∃ removed, e.sock.inFlightList =
      removed ++ (e.sock.handlePacket packet).1.inFlightList := by
    rcases e.sock.handlePacket_sender packet with ⟨same, _⟩ | ⟨_, ⟨removed, removes⟩, _⟩
    · exact ⟨[], same.inFlightList.symm⟩
    · exact ⟨removed, removes.list⟩
  obtain ⟨removed, list⟩ := front
  rw [removedBy, list, List.length_append, Nat.add_sub_cancel, List.take_left]

def removesUncounted (e : Endpoint Buffer) (packet : TcpPacket) : Prop :=
  -- The packet acknowledges the whole list while the last segment in it is not counted.
  e.writer.owed ≠ 0 ∧ e.sock.inFlightList ≠ [] ∧ e.sock.AcksAll packet

theorem Balanced.wraps_iff {e : Endpoint Buffer} (balanced : e.Balanced) (packet : TcpPacket) :
    wrapsBelow e.sock.inFlightPacketSize (e.removedBy packet) = true ↔ e.removesUncounted packet := by
  have list := e.removedBy_append packet
  have total := inFlight_of_append list
  rw [wrapsBelow_iff]
  by_cases paid : e.writer.owed = 0
  · have exact := balanced.accounted.toNat balanced.metered (by omega)
    refine iff_of_false (by omega) fun removes => removes.1 paid
  by_cases empty : e.sock.inFlightList = []
  · rw [empty] at list
    rw [(List.append_eq_nil_iff.mp list.symm).1]
    exact iff_of_false (by simp) fun removes => removes.2.1 empty
  -- The list ends with what the counter is short of.
  have ends := balanced.accounted.ends balanced.sender.numbered paid (List.nil_append _).symm empty
  have short := balanced.accounted.toNat balanced.metered ends.le_occupied
  have listed := ends.le_occupied
  change _ ≤ e.inFlight at listed
  by_cases left : (e.sock.handlePacket packet).1.inFlightList = []
  · rw [left] at total
    exact iff_of_true (by simp at total; omega)
      ⟨paid, empty, (TcpSocket.handlePacket_eq_nil_iff empty packet).mp left⟩
  · have still := (balanced.accounted.ends balanced.sender.numbered paid list left).le_occupied
    exact iff_of_false (by omega) fun removes =>
      left ((TcpSocket.handlePacket_eq_nil_iff empty packet).mpr removes.2.2)

/-- Where no segment is pushed and not counted, the counter is the amount that will be subtracted,
until the FIN is sent and never after that. A subtraction goes below zero exactly where the packet
empties the list while its last segment, or the FIN, is not counted. -/
theorem size_exact_iff {first e : Endpoint Buffer} (opened : Opened first)
    (run : Run move anyEvent first e) :
    ((∀ packet payload, e.writer ≠ .counting packet payload) →
      (e.sock.inFlightPacketSize.toNat = e.inFlight ↔ e.writer ≠ .returned)) ∧
    ∀ packet, wrapsBelow e.sock.inFlightPacketSize (e.removedBy packet) = true ↔
      e.removesUncounted packet := by
  have balanced := Opened.balanced opened |>.run run
  refine ⟨fun between => ?_, balanced.wraps_iff⟩
  constructor
  · intro same returned
    have size := balanced.accounted.size
    rw [returned, ← same, UInt32.ofNat_toNat] at size
    have one : WriterPc.owed .returned = 1 := rfl
    rw [one] at size
    grind
  · intro running
    have paid : e.writer.owed = 0 := by
      cases pc : e.writer with
      | counting packet payload => exact absurd pc (between packet payload)
      | returned => exact absurd pc running
      | _ => rfl
    have exact := balanced.accounted.toNat balanced.metered (by omega)
    omega

end

section
attribute [local instance] Netstack.standard

theorem byteSent_reached :
    (exec move anyEvent (connected loopback 100 200 : Endpoint Fifo) (sendByte 1)).isSome := by
  decide +kernel

theorem size_exact_byteSent :
    ∃ e : Endpoint Fifo, Run move anyEvent (connected loopback 100 200) e ∧ e.inFlight = 1 ∧
      e.sock.inFlightPacketSize.toNat = e.inFlight ∧ (e.removedBy narrowAck).length = 1 ∧
      wrapsBelow e.sock.inFlightPacketSize (e.removedBy narrowAck) = false := by
  have top : ((exec move anyEvent (connected loopback 100 200 : Endpoint Fifo) (sendByte 1)).get
      byteSent_reached).writer = .top := by decide +kernel
  have exact := size_exact_iff (opened_connected loopback 100 200) (Run.ofSome byteSent_reached)
  refine ⟨_, Run.ofSome byteSent_reached, by decide +kernel, ?_, by decide +kernel, ?_⟩
  · exact (exact.1 (by simp [top])).mpr (by simp [top])
  · rw [Bool.eq_false_iff, ne_eq, exact.2]
    exact fun removes => absurd (by rw [top]; rfl) removes.1

def finAcked : TcpPacket :=
  loopback.reversed.seal (handshakeHeader loopback.reversed 201 102 tcpFlagAck) []

theorem finSent_reached :
    (exec move anyEvent (connected loopback 100 200 : Endpoint Fifo)
      [.vShutdown .write, .handleWrites, .handleWrites]).isSome := by
  decide +kernel

theorem bytePushed_reached :
    (exec move anyEvent (connected loopback 100 200 : Endpoint Fifo) (sendByte 1).dropLast).isSome := by
  decide +kernel

/-- The FIN is in the list and not counted: its acknowledgement takes one from zero. So does the
acknowledgement of a byte that comes before the byte is counted. -/
theorem size_wraps :
    (∃ e : Endpoint Fifo, Run move anyEvent (connected loopback 100 200) e ∧ e.writer = .returned ∧
      e.sock.inFlightPacketSize = 0 ∧ e.inFlight = 1 ∧
      wrapsBelow e.sock.inFlightPacketSize (e.removedBy finAcked) = true ∧
      (e.sock.handlePacket finAcked).1.inFlightList = [] ∧
      (e.sock.handlePacket finAcked).1.inFlightPacketSize = 4294967295) ∧
    ∃ e : Endpoint Fifo, Run move anyEvent (connected loopback 100 200) e ∧ e.writer ≠ .returned ∧
      wrapsBelow e.sock.inFlightPacketSize (e.removedBy narrowAck) = true :=
  ⟨⟨_, Run.ofSome finSent_reached, by decide +kernel, by decide +kernel, by decide +kernel,
      by decide +kernel, by decide +kernel, by decide +kernel⟩,
    ⟨_, Run.ofSome bytePushed_reached, by decide +kernel, by decide +kernel⟩⟩

end

end Endpoint

end IpTcp.Tcp
