import IpTcp.Lib.Run
import IpTcp.Lib.Word
import IpTcp.Tcp.EndpointMoves
import IpTcp.Tcp.Established
import IpTcp.Tcp.Segments

/-! The sending half of an end, whatever packets come in: the segments sent are the
bytes of the write buffer in order, numbered one after the other. -/

set_option autoImplicit false

namespace IpTcp.Tcp

open RingBuffer Lib

/-- The bytes `HandleWrites` has taken from the write buffer and not sent yet. -/
def WriterPc.pending : WriterPc → List Byte
  | .sending payload => payload
  | .pushing _ payload => payload
  | .counting _ payload => payload
  | _ => []

/-- The segment that was sent and is not in `inFlightList` yet. -/
def WriterPc.unpushed : WriterPc → List TcpPacket
  | .probePush packet => [packet]
  | .pushing packet _ => [packet]
  | _ => []

variable {Buffer : Type}

namespace Endpoint

def transmitted (e : Endpoint Buffer) : List Byte := payloads e.sent

def finished (e : Endpoint Buffer) : Prop := e.writer = .returned

/-- The sent segments are numbered one after the other, and the in-flight list is
the tail of them; the head of them, acknowledged and removed, ends below 2^32. -/
structure Numbered (e : Endpoint Buffer) : Prop where
  counted : e.sock.numBytesSent =
    UInt32.ofNat (e.transmitted.length + if e.writer = .returned then 1 else 0)
  contiguous : Contiguous e.sock.myInitSeqNum 0 e.sent
  segments : Segments e.finished e.sent
  inFlight : ∃ acked, e.sent = acked ++ e.sock.inFlightList.map (·.value) ++ e.writer.unpushed ∧
    occupied acked + 1 < 2 ^ 32
  priorities : ∀ item ∈ e.sock.inFlightList,
    item.priority = (item.value.header.seqNum - e.sock.myInitSeqNum).toNat

theorem Numbered.pushInFlight {e : Endpoint Buffer} (numbered : e.Numbered) {packet : TcpPacket}
    (held : e.writer.unpushed = [packet]) (running : e.writer ≠ .returned) (isZwp : Bool)
    {writer : WriterPc} (still : writer ≠ .returned) (none : writer.unpushed = []) :
    Numbered { e.pushInFlight packet isZwp with writer := writer } := by
  have count := numbered.counted
  rw [if_neg running] at count
  have unfinished : e.finished = False := eq_false running
  refine ⟨?_, numbered.contiguous, ?_, ?_, ?_⟩
  · simp only [still, if_false]
    exact count
  · have same : Endpoint.finished { e.pushInFlight packet isZwp with writer := writer } = e.finished := by
      rw [unfinished]
      exact eq_false still
    rw [same]
    exact numbered.segments
  · obtain ⟨acked, split, bound⟩ := numbered.inFlight
    refine ⟨acked, ?_, bound⟩
    simp only [Endpoint.pushInFlight, none, List.append_nil, List.map_append, List.map_cons,
      List.map_nil, inFlightItem]
    rw [split, held, List.append_assoc]
  · intro item member
    rcases List.mem_append.mp member with early | last
    · exact numbered.priorities item early
    · rw [List.mem_singleton] at last
      rw [last]
      rfl

theorem Numbered.moved {e other : Endpoint Buffer} (numbered : e.Numbered)
    (isn : other.sock.myInitSeqNum = e.sock.myInitSeqNum)
    (count : other.sock.numBytesSent = e.sock.numBytesSent)
    (list : PriorityQueue.entries other.sock.inFlightList = PriorityQueue.entries e.sock.inFlightList)
    (sent : other.sent = e.sent)
    (returned : other.writer = .returned ↔ e.writer = .returned)
    (unpushed : other.writer.unpushed = e.writer.unpushed) : other.Numbered := by
  have transmits : other.transmitted = e.transmitted := congrArg payloads sent
  refine ⟨?_, ?_, ?_, ?_, ?_⟩
  · rw [count, numbered.counted, transmits]
    simp only [returned]
  · rw [isn, sent]
    exact numbered.contiguous
  · have same : other.finished = e.finished := propext returned
    rw [same, sent]
    exact numbered.segments
  · rw [sent, unpushed, PriorityQueue.values_of_entries list]
    exact numbered.inFlight
  · intro item member
    have entry : PriorityQueue.entry item ∈ PriorityQueue.entries e.sock.inFlightList := by
      rw [← list]
      exact List.mem_map_of_mem member
    obtain ⟨original, found, same⟩ := List.mem_map.mp entry
    obtain ⟨value, priority⟩ := Prod.mk.inj same
    rw [← priority, ← value, isn]
    exact numbered.priorities original found

theorem Numbered.priority {e : Endpoint Buffer} (numbered : e.Numbered) {item : TcpPacketItem}
    (member : item ∈ e.sock.inFlightList) {before after : List TcpPacket}
    (split : e.sent = before ++ item.value :: after) (bound : occupied before + 1 < 2 ^ 32) :
    item.priority = occupied before + 1 := by
  -- What precedes an item in flight is all data, so the item's number is its end.
  have segments := numbered.segments
  have contiguous := numbered.contiguous
  rw [split] at segments contiguous
  have size := occupied_of_data segments.before.1
  rw [numbered.priorities item member, contiguous.seqNum, size]
  exact Word.toNat_offset _ (by omega)

theorem Numbered.acked {e : Endpoint Buffer} {sock : TcpSocket Buffer}
    (numbered : Numbered { e with sock := sock }) (item : TcpPacketItem) (rest : List TcpPacketItem)
    (front : sock.inFlightList = item :: rest) {reached : UInt32}
    (covered : item.priority + item.value.payloadSize ≤ reached.toNat) :
    Numbered { e with sock := (sock.ackedItem item).withInFlight rest } := by
  obtain ⟨acked, split, bound⟩ := numbered.inFlight
  simp only [front, List.map_cons] at split
  have regroup : e.sent = acked ++ item.value :: (rest.map (·.value) ++ e.writer.unpushed) := by
    simpa using split
  have priority := numbered.priority (by simp [front]) regroup bound
  refine ⟨numbered.counted, numbered.contiguous, numbered.segments, ?_, ?_⟩
  · refine ⟨acked ++ [item.value], ?_, ?_⟩
    · simpa [TcpSocket.withInFlight] using regroup
    · have := reached.toNat_lt
      simp only [occupied_append, occupied_cons, occupied_nil]
      omega
  · intro other member
    exact numbered.priorities other (by simp only [front]; exact List.mem_cons_of_mem item member)

def relNum (e : Endpoint Buffer) (packet : TcpPacket) : Nat :=
  (packet.header.seqNum - e.sock.myInitSeqNum).toNat

theorem Numbered.relNum {e : Endpoint Buffer} (numbered : e.Numbered)
    (short : e.transmitted.length + 2 < 2 ^ 32) {before after : List TcpPacket} {packet : TcpPacket}
    (split : e.sent = before ++ packet :: after) : e.relNum packet = (payloads before).length + 1 := by
  have contiguous := numbered.contiguous
  rw [transmitted, split, payloads_append, List.length_append] at short
  rw [split] at contiguous
  rw [Endpoint.relNum, contiguous.seqNum]
  exact Word.toNat_offset _ (by omega)

/-- The FIN comes last, after all of the payload. -/
theorem Numbered.endsWithFin {e : Endpoint Buffer} (numbered : e.Numbered) (finished : e.finished) :
    ∃ data fin, e.sent = data ++ [fin] ∧ fin.hasFin = true ∧
      (∀ packet ∈ data, packet.hasFin = false) ∧ payloads data = e.transmitted := by
  obtain ⟨data, fin, split, isData, ⟨_, packet, isFin, rfl⟩ | ⟨running, _⟩⟩ := numbered.segments
  · refine ⟨data, packet, split, isFin.hasFin, fun other member => (isData other member).hasFin, ?_⟩
    rw [transmitted, split, payloads_append]
    simp [isFin.empty]
  · exact absurd finished running

variable [RingBuffer Buffer]

structure Conserved (e : Endpoint Buffer) : Prop where
  bytes : e.written = e.transmitted ++ e.writer.pending ++ content e.sock.writeBuffer
  ready : e.writer = .probe ∨ e.writer = .segment → content e.sock.writeBuffer ≠ []
  payload : ∀ bytes, e.writer = .sending bytes → bytes ≠ []

structure Sender (e : Endpoint Buffer) : Prop where
  numbered : e.Numbered
  conserved : e.Conserved

theorem Conserved.same {e other : Endpoint Buffer} (conserved : e.Conserved)
    (written : other.written = e.written) (sent : other.sent = e.sent)
    (buffer : other.sock.writeBuffer = e.sock.writeBuffer) (writer : other.writer = e.writer) :
    other.Conserved := by
  refine ⟨?_, ?_, ?_⟩
  · rw [written, transmitted, sent, writer, buffer]
    exact conserved.bytes
  · rw [writer, buffer]
    exact conserved.ready
  · rw [writer]
    exact conserved.payload

theorem sender_start {sock : TcpSocket Buffer} (acks : List UInt32) (none : sock.numBytesSent = 0)
    (idle : sock.inFlightList = []) (buffer : sock.writeBuffer = RingBuffer.new) :
    (start sock acks).Sender := by
  constructor
  · refine ⟨none, trivial, ⟨[], [], rfl, by simp, Or.inr ⟨by simp [finished, start], rfl⟩⟩,
      ⟨[], ?_, by simp⟩, ?_⟩
    · simp [start, idle, WriterPc.unpushed]
    · simp [start, idle]
  · refine ⟨?_, by simp [start], by simp [start]⟩
    simp [start, buffer, transmitted, WriterPc.pending, content_new]

theorem Opened.sender {e : Endpoint Buffer} (opened : Opened e) : e.Sender := by
  cases opened with
  | client => exact sender_start _ rfl rfl rfl
  | server => exact sender_start _ rfl rfl rfl

section
variable [Netstack]

/-! ## What `HandleWrites` sends -/

theorem Numbered.sendSegment {e : Endpoint Buffer} (numbered : e.Numbered)
    (running : e.writer ≠ .returned) (none : e.writer.unpushed = []) {payload : List Byte}
    {writer : TcpPacket → WriterPc} (nonempty : 1 ≤ payload.length)
    (bounded : payload.length ≤ tcpMaxSegmentSize) (holds : ∀ packet, (writer packet).unpushed = [packet])
    (still : ∀ packet, writer packet ≠ .returned) : (e.sendSegment payload writer).1.Numbered := by
  have count := numbered.counted
  rw [if_neg running, Nat.add_zero] at count
  have data : IsData (e.sock.conn.seal e.sock.getAckHeader payload) := ⟨rfl, nonempty, bounded⟩
  have segments : Segments False e.sent := by
    have given := numbered.segments
    rwa [show e.finished = False from eq_false running] at given
  refine ⟨?_, ?_, ?_, ?_, numbered.priorities⟩
  · simp only [Endpoint.sendSegment, transmitted, payloads_append, payloads_cons, payloads_nil,
      List.append_nil, List.length_append, seal_data, count, still, if_false, Nat.add_zero,
      UInt32.ofNat_add]
  · refine (contiguous_append _ 0 e.sent _).mpr ⟨numbered.contiguous, ?_, trivial⟩
    rw [Nat.zero_add]
    change e.sock.myInitSeqNum + e.sock.numBytesSent + 1 =
      e.sock.myInitSeqNum + 1 + UInt32.ofNat e.transmitted.length
    rw [count, Word.add_right_comm_one]
  · have done : (e.sendSegment payload writer).1.finished = False := eq_false (still _)
    rw [done]
    exact segments.snoc_data data
  · obtain ⟨acked, split, bound⟩ := numbered.inFlight
    refine ⟨acked, ?_, bound⟩
    simp only [Endpoint.sendSegment, holds]
    rw [split, none, List.append_nil]

theorem Numbered.sendFin {e : Endpoint Buffer} (numbered : e.Numbered)
    (pc : e.writer = .fin) : e.sendFin.1.Numbered := by
  have count := numbered.counted
  rw [if_neg (by rw [pc]; decide), Nat.add_zero] at count
  have segments : Segments False e.sent := by
    have given := numbered.segments
    rwa [show e.finished = False from eq_false (by rw [finished, pc]; decide)] at given
  refine ⟨?_, ?_, ?_, ?_, ?_⟩
  · simp only [Endpoint.sendFin, transmitted, payloads_append, payloads_cons, payloads_nil,
      List.append_nil, seal_data, count, if_true, UInt32.ofNat_add]
    rfl
  · refine (contiguous_append _ 0 e.sent _).mpr ⟨numbered.contiguous, ?_, trivial⟩
    rw [Nat.zero_add]
    change e.sock.myInitSeqNum + e.sock.numBytesSent + 1 =
      e.sock.myInitSeqNum + 1 + UInt32.ofNat e.transmitted.length
    rw [count, Word.add_right_comm_one]
  · have done : e.sendFin.1.finished = True := eq_true rfl
    rw [done]
    exact segments.snoc_fin ⟨rfl, rfl⟩
  · obtain ⟨acked, split, bound⟩ := numbered.inFlight
    refine ⟨acked, ?_, bound⟩
    simp only [Endpoint.sendFin, WriterPc.unpushed, List.append_nil, List.map_append, List.map_cons,
      List.map_nil, inFlightItem]
    rw [split, pc]
    simp [WriterPc.unpushed]
  · intro item member
    rcases List.mem_append.mp member with early | last
    · exact numbered.priorities item early
    · rw [List.mem_singleton] at last
      rw [last]
      rfl

/-! ## What `HandlePacket` leaves of it -/

theorem Numbered.act {e : Endpoint Buffer} {sock after : TcpSocket Buffer} {effects : List Effect}
    {packet : TcpPacket} {stores : TcpSocket Buffer → List Byte → Prop} {absorbs : ConnState → Prop}
    (numbered : Numbered { e with sock := sock })
    (act : TcpSocket.Act packet stores absorbs sock effects after) :
    Numbered { e with sock := after } := by
  cases act with
  | acked item rest _ _ front covered _ => exact numbered.acked item rest front covered
  | _ => exact numbered.moved rfl rfl rfl rfl Iff.rfl rfl

/-- `HandlePacket` can only wake a waiting `HandleWrites`. -/
theorem handlePacket_writer (e : Endpoint Buffer) (packet : TcpPacket) :
    (e.handlePacket packet).1.writer = e.writer ∨
      (e.writer = .waiting ∧ .broadcast .windowNotEmpty ∈ (e.sock.handlePacket packet).2 ∧
        (e.handlePacket packet).1.writer = .top) := by
  simp only [handlePacket, settle]
  split
  · rename_i woken
    exact Or.inr ⟨woken.1, woken.2, rfl⟩
  · exact Or.inl rfl

theorem handlePacket_writer_same {α : Type} (e : Endpoint Buffer) (packet : TcpPacket)
    (observe : WriterPc → α) (blind : observe .top = observe .waiting) :
    observe (e.handlePacket packet).1.writer = observe e.writer := by
  rcases e.handlePacket_writer packet with same | ⟨waited, _, woken⟩
  · rw [same]
  · rw [waited, woken, blind]

theorem handlePacket_unpushed (e : Endpoint Buffer) (packet : TcpPacket) :
    (e.handlePacket packet).1.writer.unpushed = e.writer.unpushed :=
  e.handlePacket_writer_same packet WriterPc.unpushed rfl

theorem handlePacket_returned (e : Endpoint Buffer) (packet : TcpPacket) :
    (e.handlePacket packet).1.writer = .returned ↔ e.writer = .returned :=
  iff_of_eq (e.handlePacket_writer_same packet (· = .returned) (by simp))

theorem Moves.afterFin {e after : Endpoint Buffer} {event : Event} {out : List TcpPacket}
    (moves : Moves e event out after) (finished : e.finished) :
    after.finished ∧ after.sent = e.sent := by
  -- After the FIN there is nothing left for `HandleWrites` to do.
  unfold Endpoint.finished at finished ⊢
  cases moves with
  | packet packet => exact ⟨(handlePacket_returned e packet).mpr finished, rfl⟩
  | toFin pc | fin pc | toProbe pc | toSegment pc | probe pc | probePush _ pc | none pc | take pc
  | send _ pc | push _ _ pc | count _ _ pc =>
      rw [finished] at pc
      cases pc
  | _ => exact ⟨finished, rfl⟩

theorem Numbered.settle {e : Endpoint Buffer} (numbered : e.Numbered) (packet : TcpPacket) :
    (e.handlePacket packet).1.Numbered := by
  have acts := e.sock.handlePacket_acts packet
  have after : Numbered { e with sock := (e.sock.handlePacket packet).1 } :=
    acts.preserves (fun sock _ => Numbered { e with sock := sock })
      (fun _ _ _ _ held act => held.act act) numbered
  exact after.moved rfl rfl rfl rfl (e.handlePacket_returned packet) (e.handlePacket_unpushed packet)

theorem Numbered.step {e after : Endpoint Buffer} {event : Event} {out : List TcpPacket}
    (numbered : e.Numbered) (conserved : e.Conserved) (moves : Moves e event out after) :
    after.Numbered := by
  cases moves with
  | calls | stored | delivered | shutdown | expired | timer =>
      exact numbered.moved rfl rfl rfl rfl Iff.rfl rfl
  | fin pc => exact numbered.sendFin pc
  | toFin pc | toProbe pc | toSegment pc | none pc =>
      exact numbered.moved rfl rfl rfl rfl (by simp [pc]) (by simp [pc, WriterPc.unpushed])
  | take pc =>
      exact numbered.moved rfl rfl rfl rfl (by simp [pc]) (by simp [pc, WriterPc.unpushed])
  | probe pc =>
      have data := conserved.ready (Or.inl pc)
      have taken : (readInto e.sock.writeBuffer 1).2.length = 1 := by
        have := List.length_pos_of_ne_nil data
        rw [readInto_snd (by omega), List.length_take]
        omega
      have same : (e.takeBytes 1).Numbered := numbered.moved rfl rfl rfl rfl Iff.rfl rfl
      refine same.sendSegment ?_ ?_ (by omega) (by rw [taken]; decide) (fun _ => rfl) (fun _ => by simp)
      · simp [takeBytes, pc]
      · simp [takeBytes, pc, WriterPc.unpushed]
  | probePush packet pc =>
      exact numbered.pushInFlight (by simp [pc, WriterPc.unpushed]) (by simp [pc]) true
        (by simp) rfl |>.moved rfl rfl rfl rfl Iff.rfl rfl
  | send payload pc =>
      have nonempty := List.length_pos_of_ne_nil (conserved.payload payload pc)
      refine numbered.sendSegment (by simp [pc]) (by simp [pc, WriterPc.unpushed]) ?_ ?_
        (fun _ => rfl) (fun _ => by simp)
      · rw [List.length_take]
        simp only [tcpMaxSegmentSize]
        omega
      · rw [List.length_take]
        omega
  | push packet payload pc =>
      exact numbered.pushInFlight (by simp [pc, WriterPc.unpushed]) (by simp [pc]) false (by simp) rfl
  | count packet payload pc =>
      refine numbered.moved rfl rfl rfl rfl ?_ ?_
      · rw [pc]
        split <;> simp
      · rw [pc]
        split <;> simp [WriterPc.unpushed]
  | resend item rest front =>
      exact numbered.moved rfl rfl (by simp [TcpSocket.withInFlight, front, PriorityQueue.entries,
        PriorityQueue.entry]) rfl Iff.rfl rfl
  | packet packet => exact numbered.settle packet

/-! ## Conservation -/

theorem transmitted_sendSegment (e : Endpoint Buffer) (payload : List Byte)
    (writer : TcpPacket → WriterPc) :
    (e.sendSegment payload writer).1.transmitted = e.transmitted ++ payload := by
  simp [sendSegment, transmitted]

theorem transmitted_sendFin (e : Endpoint Buffer) : e.sendFin.1.transmitted = e.transmitted := by
  simp [sendFin, transmitted]

theorem handlePacket_writeBuffer (e : Endpoint Buffer) (packet : TcpPacket) :
    (e.handlePacket packet).1.sock.writeBuffer = e.sock.writeBuffer :=
  (e.sock.handlePacket_acts packet).sameIdentity.writeBuffer

theorem Conserved.step {e after : Endpoint Buffer} {event : Event} {out : List TcpPacket}
    (conserved : e.Conserved) (moves : Moves e event out after) : after.Conserved := by
  have bytes := conserved.bytes
  cases moves with
  | calls | delivered | shutdown | expired | timer | resend =>
      exact conserved.same rfl rfl rfl rfl
  | stored call buff vWrites =>
      refine ⟨?_, fun ready => ?_, conserved.payload⟩
      · simp only [content_write, transmitted] at bytes ⊢
        rw [bytes, List.append_assoc]
      · simp only [content_write]
        exact List.append_ne_nil_of_left_ne_nil (conserved.ready ready) _
  | toFin pc =>
      refine ⟨?_, by simp, by simp⟩
      rw [pc] at bytes
      exact bytes
  | fin pc =>
      refine ⟨?_, by simp [sendFin], by simp [sendFin]⟩
      rw [transmitted_sendFin]
      rw [pc] at bytes
      exact bytes
  | toProbe pc data _ | toSegment pc data _ =>
      refine ⟨?_, fun _ => data, by simp⟩
      rw [pc] at bytes
      exact bytes
  | probe pc =>
      have data := conserved.ready (Or.inl pc)
      have enough : 1 ≤ (content e.sock.writeBuffer).length := List.length_pos_of_ne_nil data
      refine ⟨?_, by simp [sendSegment], by simp [sendSegment]⟩
      rw [transmitted_sendSegment, readInto_snd enough]
      simp only [sendSegment, WriterPc.pending, takeBytes, transmitted, List.append_nil, readInto_fst]
      rw [pc] at bytes
      simp only [WriterPc.pending, List.append_nil, transmitted] at bytes
      rw [bytes, List.append_assoc, List.take_append_drop]
  | probePush packet pc =>
      refine ⟨?_, by simp, by simp⟩
      rw [pc] at bytes
      exact bytes
  | none pc _ =>
      refine ⟨?_, by simp, by simp⟩
      rw [pc] at bytes
      exact bytes
  | take pc some =>
      have enough : e.sizeToWrite ≤ (content e.sock.writeBuffer).length := Nat.min_le_right _ _
      refine ⟨?_, by simp, ?_⟩
      · rw [pc] at bytes
        simp only [WriterPc.pending, List.append_nil, transmitted] at bytes
        simp only [takeBytes, transmitted, WriterPc.pending, readInto_snd enough, readInto_fst]
        rw [bytes, List.append_assoc, List.take_append_drop]
      · intro payload same
        obtain rfl : (readInto e.sock.writeBuffer e.sizeToWrite).2 = payload := by simpa using same
        rw [readInto_snd enough]
        intro empty
        have := congrArg List.length empty
        rw [List.length_take, List.length_nil] at this
        omega
  | send payload pc =>
      refine ⟨?_, by simp [sendSegment], by simp [sendSegment]⟩
      rw [transmitted_sendSegment]
      rw [pc] at bytes
      simp only [WriterPc.pending, transmitted] at bytes
      simp only [sendSegment, WriterPc.pending, transmitted]
      rw [bytes, List.append_assoc _ (payload.take _), List.take_append_drop]
  | push packet payload pc =>
      refine ⟨?_, by simp, by simp⟩
      rw [pc] at bytes
      exact bytes
  | count packet payload pc =>
      rw [pc] at bytes
      by_cases done : payload = []
      · refine ⟨?_, by simp [done], by simp [done]⟩
        simpa [done, WriterPc.pending, transmitted, countInFlight] using bytes
      · refine ⟨?_, by simp [done], ?_⟩
        · simpa [done, WriterPc.pending, transmitted, countInFlight] using bytes
        · intro rest same
          simp only [done, if_false, WriterPc.sending.injEq] at same
          exact same ▸ done
  | packet packet =>
      have buffer := e.handlePacket_writeBuffer packet
      -- At most the writer is woken up, which holds nothing then.
      rcases e.handlePacket_writer packet with same | ⟨waited, _, woken⟩
      · exact conserved.same rfl rfl buffer same
      · refine ⟨?_, by simp [woken], by simp [woken]⟩
        rw [buffer, woken]
        rw [waited] at bytes
        exact bytes

theorem Sender.step {e after : Endpoint Buffer} {event : Event} {out : List TcpPacket}
    (sender : e.Sender) (moves : e.step event = some (after, out)) : after.Sender :=
  ⟨sender.numbered.step sender.conserved (step_moves moves), sender.conserved.step (step_moves moves)⟩

/-- The invariant of the sending half over every run of an end on its own. -/
theorem Sender.run {first last : Endpoint Buffer} {guard : Endpoint Buffer → Event → Prop}
    (run : Run move guard first last) (sender : first.Sender) : last.Sender :=
  run_keeps Sender (fun _ _ _ _ held _ steps => held.step steps) run sender

/-! ## The accounting of a run -/

/-- The segments of every run are numbered without gaps from 1 on, carry the written
bytes in order, and end with the FIN. Between two turns of `HandleWrites` nothing is
pending. -/
theorem segments_account_for_written {first e : Endpoint Buffer} (opened : Opened first)
    (run : Run move anyEvent first e) (short : e.written.length < 2 ^ 32 - 2) :
    (∀ packet, e.sent.head? = some packet → e.relNum packet = 1) ∧
      (∀ before packet next after, e.sent = before ++ packet :: next :: after →
        e.relNum next = e.relNum packet + packet.data.length) ∧
      (∀ packet ∈ e.sent, packet.hasFin = false →
        1 ≤ packet.data.length ∧ packet.data.length ≤ tcpMaxSegmentSize) ∧
      payloads e.sent ++ e.writer.pending ++ content e.sock.writeBuffer = e.written ∧
      (e.writer = .top ∨ e.writer = .waiting ∨ e.writer = .returned →
        payloads e.sent ++ content e.sock.writeBuffer = e.written) ∧
      (∀ before packet after, e.sent = before ++ packet :: after → packet.hasFin = true →
        after = [] ∧ packet.data = [] ∧ e.relNum packet = 1 + (payloads e.sent).length) := by
  obtain ⟨numbered, conserved⟩ := Sender.run run opened.sender
  have bytes := conserved.bytes
  -- What was sent was written, so the numbers do not wrap.
  have below : e.transmitted.length + 2 < 2 ^ 32 := by
    have total := congrArg List.length bytes
    simp only [List.length_append] at total
    omega
  refine ⟨?_, ?_, ?_, bytes.symm, ?_, ?_⟩
  · intro packet head
    obtain ⟨rest, split⟩ := List.head?_eq_some_iff.mp head
    have front : e.sent = [] ++ packet :: rest := split
    exact numbered.relNum below front
  · intro before packet next after split
    have later : e.sent = (before ++ [packet]) ++ next :: after := by simp [split]
    rw [numbered.relNum below split, numbered.relNum below later]
    simp
    omega
  · intro packet member data
    rcases numbered.segments.mem member with isData | ⟨_, isFin⟩
    · exact ⟨isData.nonempty, isData.bounded⟩
    · rw [isFin.hasFin] at data
      cases data
  · intro between
    have none : e.writer.pending = [] := by
      rcases between with pc | pc | pc <;> rw [pc] <;> rfl
    rw [none, List.append_nil] at bytes
    exact bytes.symm
  · intro before packet after split fin
    have segments := numbered.segments
    rw [split] at segments
    rcases segments.before.2 with isData | ⟨_, isFin, rfl⟩
    · rw [isData.hasFin] at fin
      cases fin
    · refine ⟨rfl, isFin.empty, ?_⟩
      rw [numbered.relNum below split, split]
      simp [isFin.empty]
      omega

end

section
attribute [local instance] Netstack.standard

def closingRun : List Event :=
  -- A run that writes two bytes, sends them, shuts down and sends its FIN.
  [.vWrite [7, 8], .vWriteLoop 0, .vShutdown .both] ++ List.replicate 7 .handleWrites

theorem closingRun_isSome :
    (exec move anyEvent (connected loopback 100 200 : Endpoint Fifo) closingRun).isSome := by
  decide +kernel

theorem segments_account_for_written_closingRun :
    let e := (exec move anyEvent (connected loopback 100 200 : Endpoint Fifo) closingRun).get closingRun_isSome
    e.sent.length = 2 ∧ payloads e.sent ++ content e.sock.writeBuffer = [7, 8] := by
  have account := segments_account_for_written (opened_connected loopback 100 200)
    (Run.ofSome closingRun_isSome) (by decide +kernel)
  refine ⟨by decide +kernel, ?_⟩
  rw [account.2.2.2.2.1 (by decide +kernel)]
  decide +kernel

end

end Endpoint

end IpTcp.Tcp
