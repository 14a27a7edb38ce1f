import IpTcp.Tcp.AckProcessing
import IpTcp.Tcp.Sender

/-! Flow control: how many bytes are sent and not acknowledged, against the window
of the peer. `HandleWrites` compares `inFlightPacketSize` with the window before
it takes bytes, but takes as many as the whole window; the amount stays within the
window in runs where the two together never exceed it. -/

set_option autoImplicit false

namespace IpTcp.Tcp

open RingBuffer Lib

/-- The bytes in `inFlightList` that `inFlightPacketSize` does not count yet. -/
def WriterPc.uncounted : WriterPc → Nat
  | .counting packet _ => packet.data.length
  | _ => 0

/-- What `HandleWrites` can still add to the in-flight list before it next looks at
the window, and one more for a probe. -/
def WriterPc.load : WriterPc → Nat
  | .top => 1
  | .fin => 1
  | .probe => 1
  | .segment => 2 ^ 16 + 1
  | .probePush packet => packet.data.length
  | .waiting => 0
  | .sending payload => payload.length + 1
  | .pushing packet payload => packet.data.length + payload.length + 1
  | .counting _ payload => payload.length + 1
  | .returned => 0

namespace Endpoint

variable {Buffer : Type}

/-- The acknowledgement number reached so far, relative to the initial sequence number. -/
def ackedTo (e : Endpoint Buffer) : Nat :=
  (e.acks.map fun ackNum => (ackNum - e.sock.myInitSeqNum).toNat).foldl max 1

def unacked (e : Endpoint Buffer) : Nat := e.transmitted.length + 1 - e.ackedTo

def inFlight (e : Endpoint Buffer) : Nat := occupied (e.sock.inFlightList.map (·.value))

structure Metered (e : Endpoint Buffer) : Prop where
  acked : ∃ acked, e.sent = acked ++ e.sock.inFlightList.map (·.value) ++ e.writer.unpushed ∧
    occupied acked + 1 ≤ e.ackedTo
  size : e.writer ≠ .returned →
    e.sock.inFlightPacketSize + UInt32.ofNat e.writer.uncounted = UInt32.ofNat e.inFlight
  load : e.inFlight + e.writer.load < 2 ^ 17
  window : e.sock.foreignWindowSize.toNat < 2 ^ 16

theorem Metered.same {e other : Endpoint Buffer} (metered : e.Metered) (sent : other.sent = e.sent)
    (list : PriorityQueue.entries other.sock.inFlightList = PriorityQueue.entries e.sock.inFlightList)
    (size : other.sock.inFlightPacketSize = e.sock.inFlightPacketSize)
    (window : other.sock.foreignWindowSize = e.sock.foreignWindowSize)
    (reached : other.ackedTo = e.ackedTo) (unpushed : other.writer.unpushed = e.writer.unpushed)
    (uncounted : other.writer.uncounted = e.writer.uncounted)
    (running : other.writer ≠ .returned → e.writer ≠ .returned)
    (load : e.inFlight + other.writer.load < 2 ^ 17) : other.Metered := by
  have values := PriorityQueue.values_of_entries list
  have flight : other.inFlight = e.inFlight := by rw [inFlight, inFlight, values]
  refine ⟨?_, ?_, by rw [flight]; exact load, by rw [window]; exact metered.window⟩
  · rw [sent, values, unpushed, reached]
    exact metered.acked
  · intro still
    rw [size, uncounted, flight]
    exact metered.size (running still)

/-- Everything sent was acknowledged, is in flight, or is about to be put there. -/
theorem Metered.transmitted_le {e : Endpoint Buffer} (metered : e.Metered) (numbered : e.Numbered)
    (running : e.writer ≠ .returned) :
    e.transmitted.length + 1 ≤ e.ackedTo + e.inFlight + occupied e.writer.unpushed := by
  obtain ⟨acked, split, reached⟩ := metered.acked
  have data : ∀ packet ∈ e.sent, IsData packet := by
    intro packet member
    rcases numbered.segments.mem member with isData | ⟨finished, _⟩
    · exact isData
    · exact absurd finished running
  have total := occupied_of_data data
  rw [split, occupied_append, occupied_append, ← split] at total
  rw [transmitted, ← total, inFlight]
  omega

theorem Metered.size_toNat {e : Endpoint Buffer} (metered : e.Metered)
    (running : e.writer ≠ .returned) (counted : e.writer.uncounted = 0) :
    e.sock.inFlightPacketSize.toNat = e.inFlight := by
  have size := metered.size running
  have load := metered.load
  have same : e.sock.inFlightPacketSize = UInt32.ofNat e.inFlight := by simpa [counted] using size
  rw [same]
  exact Word.toNat_ofNat (by omega)

theorem Metered.pushed {e after : Endpoint Buffer} (metered : e.Metered) {packet : TcpPacket}
    {isZwp : Bool} (data : IsData packet) (held : e.writer.unpushed = [packet])
    (running : e.writer ≠ .returned) (counted : e.writer.uncounted = 0) (sent : after.sent = e.sent)
    (list : after.sock.inFlightList = e.sock.inFlightList ++ [inFlightItem e.sock packet isZwp])
    (size : after.sock.inFlightPacketSize + UInt32.ofNat after.writer.uncounted =
      e.sock.inFlightPacketSize + UInt32.ofNat packet.data.length)
    (window : after.sock.foreignWindowSize = e.sock.foreignWindowSize)
    (reached : after.ackedTo = e.ackedTo) (none : after.writer.unpushed = [])
    (load : packet.data.length + after.writer.load ≤ e.writer.load) : after.Metered := by
  have flight : after.inFlight = e.inFlight + packet.data.length := by
    simp [inFlight, list, inFlightItem, data.payloadSize]
  have before := metered.load
  refine ⟨?_, fun _ => ?_, by omega, window ▸ metered.window⟩
  · obtain ⟨acked, split, bound⟩ := metered.acked
    refine ⟨acked, ?_, reached ▸ bound⟩
    rw [sent, split, held, none, list]
    simp [inFlightItem]
  · have counting := metered.size running
    rw [counted] at counting
    rw [size, flight, UInt32.ofNat_add, ← counting]
    simp

theorem inFlight_of_append {e : Endpoint Buffer} {removed rest : List TcpPacketItem}
    (list : e.sock.inFlightList = removed ++ rest) :
    e.inFlight = occupied (removed.map (·.value)) + occupied (rest.map (·.value)) := by
  rw [inFlight, list, List.map_append, occupied_append]

theorem Numbered.unpushed_data {e : Endpoint Buffer} (numbered : e.Numbered) {packet : TcpPacket}
    (held : e.writer.unpushed = [packet]) (running : e.writer ≠ .returned) : IsData packet := by
  obtain ⟨_, split, _⟩ := numbered.inFlight
  have member : packet ∈ e.sent := by
    rw [split, held]
    simp
  rcases numbered.segments.mem member with data | ⟨finished, _⟩
  · exact data
  · exact absurd finished running

variable [RingBuffer Buffer]

theorem taken_length (e : Endpoint Buffer) :
    (readInto e.sock.writeBuffer e.sizeToWrite).2.length = e.sizeToWrite := by
  have enough : e.sizeToWrite ≤ (content e.sock.writeBuffer).length := Nat.min_le_right _ _
  rw [readInto_snd enough, List.length_take]
  omega

/-! ## Runs that stay within the window -/

/-- When `HandleWrites` takes bytes, they fit in the window next to what is in flight;
and while it sends them, no acknowledgement moves the right edge of the window back. -/
def withinWindow (e : Endpoint Buffer) : Event → Prop
  | .handleWrites => e.writer = .segment →
      e.sock.inFlightPacketSize.toNat + e.sizeToWrite ≤ e.sock.foreignWindowSize.toNat
  | .handlePacket packet => e.writer.pending ≠ [] → packet.header.flags = tcpFlagAck →
      e.sock.largestAckReceived < packet.header.ackNum →
      e.ackedTo + e.sock.foreignWindowSize.toNat ≤
        (packet.header.ackNum - e.sock.myInitSeqNum).toNat + packet.header.windowSize.toNat
  | _ => True

instance (e : Endpoint Buffer) (event : Event) : Decidable (e.withinWindow event) := by
  cases event <;> unfold withinWindow <;> infer_instance

def Paced (e : Endpoint Buffer) : Prop :=
  e.writer.pending ≠ [] → e.transmitted.length + 1 + e.writer.pending.length ≤
    e.ackedTo + e.sock.foreignWindowSize.toNat

structure Throttled (e : Endpoint Buffer) : Prop where
  sender : e.Sender
  metered : e.Metered
  paced : e.Paced

theorem start_throttled {sock : TcpSocket Buffer} {acks : List UInt32}
    (sender : (start sock acks).Sender) (idle : sock.inFlightList = []) (none : sock.inFlightPacketSize = 0)
    (window : sock.foreignWindowSize.toNat < 2 ^ 16) : (start sock acks).Throttled := by
  have reached : 1 ≤ (start sock acks).ackedTo := by
    have grows : ∀ (numbers : List Nat) (least : Nat), least ≤ numbers.foldl max least := by
      intro numbers
      induction numbers with
      | nil => exact fun least => le_refl least
      | cons number rest ih => exact fun least => (Nat.le_max_left least number).trans (ih _)
    exact grows _ 1
  refine ⟨sender, ⟨⟨[], ?_, by simpa using reached⟩, fun _ => ?_, ?_, window⟩, ?_⟩
  · simp [start, idle, WriterPc.unpushed]
  · simp [start, idle, none, inFlight, WriterPc.uncounted]
  · simp [start, idle, inFlight, WriterPc.load]
  · exact fun some => absurd rfl some

theorem Opened.throttled {first : Endpoint Buffer} (opened : Opened first) : first.Throttled := by
  have sender := opened.sender
  cases opened with
  | client conn isn synAck => exact start_throttled sender rfl rfl synAck.windowSize.toNat_lt
  | server conn isn syn ack => exact start_throttled sender rfl rfl ack.windowSize.toNat_lt

section
variable [Netstack]

/-! ## Acknowledgements -/

theorem Numbered.covered {e : Endpoint Buffer} (numbered : e.Numbered) (packet : TcpPacket)
    {removed : List TcpPacketItem} {acked : List TcpPacket}
    (split : e.sent = acked ++ e.sock.inFlightList.map (·.value) ++ e.writer.unpushed)
    (removes : TcpSocket.Acknowledges packet.header e.sock removed (e.sock.handlePacket packet).1)
    (some : removed ≠ []) :
    occupied (acked ++ removed.map (·.value)) + 1 ≤
      (packet.header.ackNum - e.sock.myInitSeqNum).toNat := by
  obtain ⟨known, after, bound⟩ := (numbered.settle packet).inFlight
  have unpushed := e.handlePacket_unpushed packet
  have prefixes : acked ++ removed.map (·.value) = known := by
    have regroup : (acked ++ removed.map (·.value)) ++
        ((e.sock.handlePacket packet).1.inFlightList.map (·.value) ++ e.writer.unpushed) =
        known ++ ((e.sock.handlePacket packet).1.inFlightList.map (·.value) ++ e.writer.unpushed) := by
      rw [unpushed] at after
      rw [removes.list] at split
      simp only [List.map_append, List.append_assoc] at split ⊢
      rw [← split, ← List.append_assoc]
      exact after
    exact List.append_cancel_right regroup
  -- the last removed item ends where everything removed ends
  obtain ⟨init, last, rfl⟩ := (List.eq_nil_or_concat removed).resolve_left some
  have ends := removes.covered last (by simp)
  have member : last ∈ e.sock.inFlightList := by
    rw [removes.list]
    simp
  have place : e.sent = (acked ++ init.map (·.value)) ++ last.value ::
      ((e.sock.handlePacket packet).1.inFlightList.map (·.value) ++ e.writer.unpushed) := by
    rw [split, removes.list]
    simp
  have total : occupied (acked ++ (init.concat last).map (·.value)) =
      occupied (acked ++ init.map (·.value)) + last.value.payloadSize := by
    simp
    omega
  rw [← prefixes, total] at bound
  have priority := numbered.priority member place (by omega)
  rw [total]
  omega

theorem ackedTo_handlePacket (e : Endpoint Buffer) (packet : TcpPacket) :
    (e.handlePacket packet).1.ackedTo =
      if (e.sock.handlePacket packet).1.largestAckReceived = e.sock.largestAckReceived then e.ackedTo
      else max e.ackedTo
        ((e.sock.handlePacket packet).1.largestAckReceived - e.sock.myInitSeqNum).toNat := by
  have isn := (e.sock.handlePacket_acts packet).sameIdentity.myInitSeqNum
  simp only [ackedTo, handlePacket, settle, isn]
  split
  · rfl
  · simp

theorem handlePacket_uncounted (e : Endpoint Buffer) (packet : TcpPacket) :
    (e.handlePacket packet).1.writer.uncounted = e.writer.uncounted :=
  e.handlePacket_writer_same packet WriterPc.uncounted rfl

/-- The bookkeeping after an acknowledgement, wherever `HandleWrites` stands. -/
theorem Metered.acknowledged {e : Endpoint Buffer} (metered : e.Metered) (numbered : e.Numbered)
    {packet : TcpPacket} {removed : List TcpPacketItem}
    (removes : TcpSocket.Acknowledges packet.header e.sock removed (e.sock.handlePacket packet).1) :
    (∃ acked, (e.handlePacket packet).1.sent = acked ++
        (e.handlePacket packet).1.sock.inFlightList.map (·.value) ++ e.writer.unpushed ∧
      occupied acked + 1 ≤ (e.handlePacket packet).1.ackedTo) ∧
    (e.writer ≠ .returned → (e.handlePacket packet).1.sock.inFlightPacketSize +
      UInt32.ofNat e.writer.uncounted = UInt32.ofNat (e.handlePacket packet).1.inFlight) ∧
    (e.handlePacket packet).1.inFlight ≤ e.inFlight ∧
    (e.handlePacket packet).1.sock.foreignWindowSize.toNat < 2 ^ 16 := by
  have flight : e.inFlight = occupied (removed.map (·.value)) + (e.handlePacket packet).1.inFlight :=
    inFlight_of_append removes.list
  refine ⟨?_, ?_, by omega, ?_⟩
  · obtain ⟨acked, split, reached⟩ := metered.acked
    refine ⟨acked ++ removed.map (·.value), ?_, ?_⟩
    · have regroup : e.sent = acked ++ removed.map (·.value) ++
          (e.sock.handlePacket packet).1.inFlightList.map (·.value) ++ e.writer.unpushed := by
        rw [split, removes.list]
        simp
      exact regroup
    · rw [ackedTo_handlePacket]
      rcases removes.stored with ⟨rfl, largest, _⟩ | ⟨newer, largest, _⟩
      · rw [if_pos largest]
        simpa using reached
      · rw [if_neg (largest ▸ (UInt32.ne_of_lt newer).symm), largest]
        by_cases nothing : removed = []
        · simp only [nothing, List.map_nil, List.append_nil]
          omega
        · -- The new number is past all that was removed.
          have covered := numbered.covered packet split removes nothing
          omega
  · intro running
    have before := metered.size running
    rw [flight, UInt32.ofNat_add] at before
    change (e.sock.handlePacket packet).1.inFlightPacketSize + _ = _
    rw [removes.size]
    grind
  · change (e.sock.handlePacket packet).1.foreignWindowSize.toNat < 2 ^ 16
    rcases removes.stored with ⟨_, _, same | ⟨_, stored⟩⟩ | ⟨_, _, stored⟩
    · rw [same]
      exact metered.window
    · rw [stored]
      exact packet.header.windowSize.toNat_lt
    · rw [stored]
      exact packet.header.windowSize.toNat_lt

theorem Metered.settle {e : Endpoint Buffer} (metered : e.Metered) (numbered : e.Numbered)
    (packet : TcpPacket) : (e.handlePacket packet).1.Metered := by
  have load := metered.load
  rcases e.sock.handlePacket_sender packet with ⟨same, asleep⟩ | ⟨_, ⟨removed, removes⟩, wakes⟩
  · have writer : (e.handlePacket packet).1.writer = e.writer := by
      rcases e.handlePacket_writer packet with same | ⟨_, woken, _⟩
      · exact same
      · exact absurd woken asleep
    refine metered.same rfl (congrArg _ same.inFlightList) same.inFlightPacketSize
      same.foreignWindowSize ?_ (by rw [writer]) (by rw [writer]) (by rw [writer]; exact id)
      (by rw [writer]; exact load)
    rw [ackedTo_handlePacket, if_pos same.largestAckReceived]
  · obtain ⟨acked, size, less, window⟩ := metered.acknowledged numbered removes
    have sized := fun running => size ((e.handlePacket_returned packet).not.mp running)
    rw [← e.handlePacket_unpushed packet] at acked
    rw [← e.handlePacket_uncounted packet] at sized
    refine ⟨acked, sized, ?_, window⟩
    rcases e.handlePacket_writer packet with same | ⟨waited, woken, top⟩
    · rw [same]
      omega
    · -- a probe that is woken saw room in the window, which bounds what is in flight
      have room := wakes woken
      have counting : (e.handlePacket packet).1.sock.inFlightPacketSize =
          UInt32.ofNat (e.handlePacket packet).1.inFlight := by
        simpa [top, WriterPc.uncounted] using sized (by simp [top])
      rw [UInt32.lt_iff_toNat_lt] at room
      change (e.handlePacket packet).1.sock.inFlightPacketSize.toNat <
        (e.handlePacket packet).1.sock.foreignWindowSize.toNat at room
      rw [counting, Word.toNat_ofNat (by omega)] at room
      rw [top, WriterPc.load]
      omega

theorem Metered.sendSegment {e : Endpoint Buffer} (metered : e.Metered)
    (running : e.writer ≠ .returned) (none : e.writer.unpushed = []) (counted : e.writer.uncounted = 0)
    {payload : List Byte} {writer : TcpPacket → WriterPc}
    (holds : ∀ packet, (writer packet).unpushed = [packet])
    (counts : ∀ packet, (writer packet).uncounted = 0)
    (load : ∀ packet, packet.data = payload → (writer packet).load ≤ e.writer.load) :
    (e.sendSegment payload writer).1.Metered := by
  have before := metered.load
  have after := load (e.sock.conn.seal e.sock.getAckHeader payload) rfl
  refine ⟨?_, fun _ => ?_, ?_, metered.window⟩
  · obtain ⟨acked, split, reached⟩ := metered.acked
    refine ⟨acked, ?_, reached⟩
    simp only [Endpoint.sendSegment, holds]
    rw [split, none, List.append_nil]
  · have size := metered.size running
    rw [counted] at size
    simp only [Endpoint.sendSegment, counts]
    exact size
  · change e.inFlight + (writer _).load < _
    omega

theorem Metered.step {e after : Endpoint Buffer} {event : Event} {out : List TcpPacket}
    (sender : e.Sender) (metered : e.Metered) (moves : Moves e event out after) : after.Metered := by
  obtain ⟨numbered, conserved⟩ := sender
  have load := metered.load
  cases moves with
  | calls | stored | delivered | shutdown | expired | timer =>
      exact metered.same rfl rfl rfl rfl rfl rfl rfl id load
  | fin pc =>
      refine ⟨?_, fun running => absurd rfl running, ?_, metered.window⟩
      · obtain ⟨acked, split, reached⟩ := metered.acked
        refine ⟨acked, ?_, reached⟩
        simp only [sendFin, WriterPc.unpushed, List.append_nil, List.map_append, List.map_cons,
          List.map_nil, inFlightItem]
        rw [split, pc]
        simp [WriterPc.unpushed]
      · rw [pc] at load
        simpa [inFlight, sendFin, WriterPc.load, inFlightItem, TcpPacket.payloadSize] using load
  | toFin pc _ _ | toProbe pc _ _ =>
      refine metered.same rfl rfl rfl rfl rfl (by simp [pc, WriterPc.unpushed])
        (by simp [pc, WriterPc.uncounted]) (by simp [pc]) ?_
      rw [pc] at load
      exact load
  | toSegment pc _ opened =>
      -- The window was found open, so what is in flight is below 2^16.
      have counting := metered.size_toNat (by simp [pc]) (by simp [pc, WriterPc.uncounted])
      have window := metered.window
      rw [UInt32.lt_iff_toNat_lt, counting] at opened
      refine metered.same rfl rfl rfl rfl rfl (by simp [pc, WriterPc.unpushed])
        (by simp [pc, WriterPc.uncounted]) (by simp [pc]) ?_
      simp only [WriterPc.load]
      omega
  | none pc _ =>
      refine metered.same rfl rfl rfl rfl rfl (by simp [pc, WriterPc.unpushed])
        (by simp [pc, WriterPc.uncounted]) (by simp [pc]) ?_
      simp only [pc, WriterPc.load] at load ⊢
      omega
  | take pc _ =>
      refine metered.same rfl rfl rfl rfl rfl (by simp [pc, WriterPc.unpushed])
        (by simp [pc, WriterPc.uncounted]) (by simp [pc]) ?_
      have taken : e.sizeToWrite ≤ e.sock.foreignWindowSize.toNat := Nat.min_le_left _ _
      have window := metered.window
      simp only [pc, WriterPc.load] at load
      simp only [WriterPc.load, taken_length]
      omega
  | probe pc =>
      have same : (e.takeBytes 1).Metered := metered.same rfl rfl rfl rfl rfl rfl rfl id load
      refine same.sendSegment ?_ ?_ ?_ (fun _ => rfl) (fun _ => rfl) ?_
      · simp [takeBytes, pc]
      · simp [takeBytes, pc, WriterPc.unpushed]
      · simp [takeBytes, pc, WriterPc.uncounted]
      · intro packet data
        have enough := List.length_pos_of_ne_nil (conserved.ready (Or.inl pc))
        simp only [takeBytes, pc, WriterPc.load, data]
        rw [readInto_snd enough, List.length_take]
        omega
  | probePush packet pc =>
      have held : e.writer.unpushed = [packet] := by simp [pc, WriterPc.unpushed]
      have running : e.writer ≠ .returned := by simp [pc]
      refine metered.pushed (numbered.unpushed_data held running) held running
        (by simp [pc, WriterPc.uncounted]) rfl rfl ?_ rfl rfl rfl ?_
      · simp [countInFlight, pushInFlight, WriterPc.uncounted]
      · simp [pc, WriterPc.load]
  | send payload pc =>
      refine metered.sendSegment (by simp [pc]) (by simp [pc, WriterPc.unpushed])
        (by simp [pc, WriterPc.uncounted]) (fun _ => rfl) (fun _ => rfl) ?_
      intro packet data
      simp only [pc, WriterPc.load, data, List.length_take, List.length_drop]
      omega
  | push packet payload pc =>
      have held : e.writer.unpushed = [packet] := by simp [pc, WriterPc.unpushed]
      have running : e.writer ≠ .returned := by simp [pc]
      refine metered.pushed (numbered.unpushed_data held running) held running
        (by simp [pc, WriterPc.uncounted]) rfl rfl rfl rfl rfl rfl ?_
      simp only [pc, WriterPc.load]
      omega
  | count packet payload pc =>
      have size := metered.size (by simp [pc])
      have none : (if payload = [] then WriterPc.top else .sending payload).unpushed = [] := by
        split <;> rfl
      have counted : (if payload = [] then WriterPc.top else .sending payload).uncounted = 0 := by
        split <;> rfl
      have same : (if payload = [] then WriterPc.top else .sending payload).load = e.writer.load := by
        rw [pc]
        split <;> simp [WriterPc.load, *]
      rw [pc] at size
      refine ⟨?_, fun _ => ?_, by rw [same]; exact load, metered.window⟩
      · rw [none]
        obtain ⟨acked, split, reached⟩ := metered.acked
        rw [pc] at split
        exact ⟨acked, split, reached⟩
      · have zero : UInt32.ofNat 0 = 0 := rfl
        rw [counted, zero, UInt32.add_zero]
        exact size
  | resend item rest front =>
      refine metered.same rfl ?_ rfl rfl rfl rfl rfl id load
      simp [TcpSocket.withInFlight, front, PriorityQueue.entries, PriorityQueue.entry]
  | packet packet => exact metered.settle numbered packet

theorem Paced.settle {e : Endpoint Buffer} (paced : e.Paced) {packet : TcpPacket}
    (meets : e.withinWindow (.handlePacket packet)) : (e.handlePacket packet).1.Paced := by
  have pending : (e.handlePacket packet).1.writer.pending = e.writer.pending :=
    e.handlePacket_writer_same packet WriterPc.pending rfl
  intro some
  rw [pending] at some ⊢
  have before := paced some
  change e.transmitted.length + 1 + _ ≤ _
  refine before.trans ?_
  rw [ackedTo_handlePacket]
  change _ ≤ _ + (e.sock.handlePacket packet).1.foreignWindowSize.toNat
  rcases e.sock.handlePacket_sender packet with ⟨same, _⟩ | ⟨flags, ⟨removed, removes⟩, _⟩
  · rw [if_pos same.largestAckReceived, same.foreignWindowSize]
  · rcases removes.stored with ⟨_, largest, same | ⟨wider, _⟩⟩ | ⟨newer, largest, stored⟩
    · rw [if_pos largest, same]
    · rw [UInt32.lt_iff_toNat_lt] at wider
      rw [if_pos largest]
      omega
    · have edge := meets some flags newer
      rw [if_neg (largest ▸ (UInt32.ne_of_lt newer).symm), largest, stored]
      simp only [UInt16.toNat_toUInt32]
      omega

theorem Paced.step {e after : Endpoint Buffer} {event : Event} {out : List TcpPacket}
    (sender : e.Sender) (metered : e.Metered) (paced : e.Paced) (meets : e.withinWindow event)
    (moves : Moves e event out after) : after.Paced := by
  cases moves with
  | calls | stored | delivered | shutdown | expired | timer | resend => exact paced
  | toFin | fin | toProbe | toSegment | none | probe | probePush => exact fun some => absurd rfl some
  | take pc _ =>
      intro _
      -- What is taken fits in the window next to what is in flight.
      have fits := meets pc
      have running : e.writer ≠ .returned := by simp [pc]
      have sent := metered.transmitted_le sender.numbered running
      rw [metered.size_toNat running (by simp [pc, WriterPc.uncounted])] at fits
      rw [pc] at sent
      simp only [WriterPc.unpushed, occupied_nil, Nat.add_zero] at sent
      change e.transmitted.length + 1 + (readInto e.sock.writeBuffer e.sizeToWrite).2.length ≤
        e.ackedTo + e.sock.foreignWindowSize.toNat
      rw [taken_length]
      omega
  | send payload pc =>
      intro some
      have before := paced (by
        rw [pc]
        rintro rfl
        simp [sendSegment, WriterPc.pending] at some)
      rw [pc] at before
      rw [transmitted_sendSegment]
      change _ ≤ e.ackedTo + e.sock.foreignWindowSize.toNat
      simp only [sendSegment, WriterPc.pending, List.length_append, List.length_take,
        List.length_drop] at before ⊢
      omega
  | push packet payload pc =>
      rw [Paced, pc] at paced
      exact paced
  | count packet payload pc =>
      rw [Paced, pc] at paced
      by_cases done : payload = []
      · simp [Paced, done, WriterPc.pending]
      · simp only [Paced, done, if_false]
        exact paced
  | packet packet => exact paced.settle meets

theorem Throttled.run {first last : Endpoint Buffer} (run : Run move withinWindow first last)
    (throttled : first.Throttled) : last.Throttled := by
  refine run_keeps Throttled (fun e event out after held meets stepped => ?_) run throttled
  exact ⟨held.sender.step stepped, held.metered.step held.sender (step_moves stepped),
    held.paced.step held.sender held.metered meets (step_moves stepped)⟩

theorem handleWrites_sends {e after : Endpoint Buffer} {packet : TcpPacket} (sender : e.Sender)
    (stepped : e.step .handleWrites = some (after, [packet])) (data : packet.data ≠ []) :
    after.transmitted = e.transmitted ++ packet.data ∧ after.ackedTo = e.ackedTo ∧
      ((e.writer = .probe ∧ packet.data.length = 1) ∨
        (e.writer.pending ≠ [] ∧ packet.data.length ≤ e.writer.pending.length)) := by
  have moves := handleWrites_moves stepped
  generalize sent : [packet] = out at moves
  cases moves with
  | fin =>
      obtain rfl : packet = e.sock.conn.seal (finHeader e.sock) [] := List.singleton_inj.mp sent
      exact absurd rfl data
  | probe pc =>
      obtain rfl : packet = e.sock.conn.seal (e.takeBytes 1).sock.getAckHeader
        (readInto e.sock.writeBuffer 1).2 := List.singleton_inj.mp sent
      refine ⟨transmitted_sendSegment _ _ _, rfl, Or.inl ⟨pc, ?_⟩⟩
      have enough := List.length_pos_of_ne_nil (sender.conserved.ready (Or.inl pc))
      rw [seal_data, readInto_snd enough, List.length_take]
      omega
  | send payload pc =>
      obtain rfl : packet = e.sock.conn.seal e.sock.getAckHeader (payload.take tcpMaxSegmentSize) :=
        List.singleton_inj.mp sent
      refine ⟨transmitted_sendSegment _ _ _, rfl, Or.inr ⟨?_, ?_⟩⟩
      · rw [pc]
        exact sender.conserved.payload payload pc
      · rw [pc, seal_data, List.length_take]
        exact Nat.min_le_right _ _
  | _ => cases sent

/-- A data segment of such a run stays within the window, but for a probe of one byte
sent while the window is used up. After a probe, nothing more is sent until a packet
finds room in the window. -/
theorem sent_within_window {first e : Endpoint Buffer} (opened : Opened first)
    (run : Run move withinWindow first e) :
    (∀ after packet, e.step .handleWrites = some (after, [packet]) → packet.data ≠ [] →
      after.unacked ≤ e.sock.foreignWindowSize.toNat ∨
        (e.writer = .probe ∧ packet.data.length = 1 ∧ e.sock.foreignWindowSize.toNat ≤ e.unacked)) ∧
    (∀ event after, e.writer = .waiting ∨ (∃ packet, e.writer = .probePush packet) →
      e.move event = some after →
      after.writer = .waiting ∨ (∃ packet, after.writer = .probePush packet) ∨
        ((∃ packet, event = .handlePacket packet) ∧
          after.sock.inFlightPacketSize < after.sock.foreignWindowSize)) := by
  obtain ⟨sender, metered, paced⟩ := Throttled.run run opened.throttled
  refine ⟨fun after packet stepped data => ?_, fun event after probing moved => ?_⟩
  · obtain ⟨sent, reached, kind⟩ := handleWrites_sends sender stepped data
    have now : after.unacked = e.transmitted.length + packet.data.length + 1 - e.ackedTo := by
      rw [unacked, sent, reached, List.length_append]
    rw [now]
    rcases kind with ⟨pc, single⟩ | ⟨some, part⟩
    · -- The window was used up at the test, and may have opened since.
      by_cases used : e.sock.foreignWindowSize.toNat ≤ e.unacked
      · exact Or.inr ⟨pc, single, used⟩
      · rw [unacked] at used
        exact Or.inl (by omega)
    · have bound := paced some
      exact Or.inl (by omega)
  · obtain ⟨⟨_, out⟩, stepped, rfl⟩ := Option.map_eq_some_iff.mp moved
    have moves := step_moves stepped
    cases moves with
    | packet packet =>
        rcases e.handlePacket_writer packet with same | ⟨_, woken, _⟩
        · rw [same]
          rcases probing with waiting | pushing
          · exact Or.inl waiting
          · exact Or.inr (Or.inl pushing)
        · rcases e.sock.handlePacket_sender packet with ⟨_, asleep⟩ | ⟨_, _, wakes⟩
          · exact absurd woken asleep
          · exact Or.inr (Or.inr ⟨⟨packet, rfl⟩, wakes woken⟩)
    | calls | stored | delivered | shutdown | expired | timer | resend =>
        rcases probing with waiting | pushing
        · exact Or.inl waiting
        · exact Or.inr (Or.inl pushing)
    | probePush => exact Or.inl rfl
    | toFin pc | fin pc | toProbe pc | toSegment pc | probe pc | none pc | take pc =>
        simp [pc] at probing
    | send _ pc => simp [pc] at probing
    | push _ _ pc | count _ _ pc => simp [pc] at probing

end

section
attribute [local instance] Netstack.standard

def sendByte (byte : Byte) : List Event :=
  [.vWrite [byte], .vWriteLoop 0] ++ List.replicate 5 .handleWrites

theorem sendByte_sends :
    ((exec move withinWindow (connected loopback 100 200 : Endpoint Fifo)
      (sendByte 1 ++ [.vWrite [2], .vWriteLoop 0, .handleWrites, .handleWrites])).bind fun e =>
        (e.step .handleWrites).map fun (_, out) => (e.writer, out.map (·.data))) =
      some (.sending [2], [[2]]) := by
  decide +kernel

theorem sent_within_window_sendByte :
    ∃ (e after : Endpoint Fifo) (packet : TcpPacket), e.step .handleWrites = some (after, [packet]) ∧
      packet.data = [2] ∧ after.unacked ≤ e.sock.foreignWindowSize.toNat := by
  obtain ⟨e, reached, found⟩ := Option.bind_eq_some_iff.mp sendByte_sends
  obtain ⟨⟨after, out⟩, stepped, summary⟩ := Option.map_eq_some_iff.mp found
  obtain ⟨pc, sent⟩ := Prod.mk.inj summary
  obtain ⟨packet, rest, rfl, data, none⟩ := List.map_eq_cons_iff.mp sent
  obtain rfl := List.map_eq_nil_iff.mp none
  have law := (sent_within_window (opened_connected loopback 100 200) (Run.ofExec reached)).1
    after packet stepped (by simp [data])
  rcases law with within | ⟨probe, _⟩
  · exact ⟨e, after, packet, stepped, data, within⟩
  · rw [pc] at probe
    cases probe

def narrowAck : TcpPacket :=
  loopback.reversed.seal { handshakeHeader loopback.reversed 201 102 tcpFlagAck with windowSize := 2 } []

def overrun : List Event :=
  -- A second byte goes out, which leaves room for one; two bytes are written.
  sendByte 1 ++ [.handlePacket narrowAck] ++ sendByte 2 ++
    [.vWrite [3, 4], .vWriteLoop 0, .handleWrites, .handleWrites]

theorem overrun_sends :
    ((exec move anyEvent (connected loopback 100 200 : Endpoint Fifo) overrun).bind fun e =>
      (e.step .handleWrites).map fun (after, out) =>
        (e.writer, e.sock.foreignWindowSize.toNat, out.map (·.data), after.unacked)) =
      some (.sending [3, 4], 2, [[3, 4]], 3) := by
  decide +kernel

/-- Two more bytes are written with room for one, and both are sent: three bytes are not acknowledged,
against a window of two. -/
theorem window_overrun :
    ∃ e after packet, Run move anyEvent (connected loopback 100 200 : Endpoint Fifo) e ∧
      e.step .handleWrites = some (after, [packet]) ∧ packet.data ≠ [] ∧ e.writer ≠ .probe ∧
      e.sock.foreignWindowSize.toNat < after.unacked := by
  obtain ⟨e, reached, found⟩ := Option.bind_eq_some_iff.mp overrun_sends
  obtain ⟨⟨after, out⟩, stepped, summary⟩ := Option.map_eq_some_iff.mp found
  simp only [Prod.mk.injEq] at summary
  obtain ⟨pc, window, sent, unacked⟩ := summary
  obtain ⟨packet, rest, rfl, data, none⟩ := List.map_eq_cons_iff.mp sent
  obtain rfl := List.map_eq_nil_iff.mp none
  refine ⟨e, after, packet, Run.ofExec reached, stepped, by simp [data], by simp [pc], by omega⟩

end

end Endpoint

end IpTcp.Tcp
