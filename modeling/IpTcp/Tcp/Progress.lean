import IpTcp.Tcp.Connection

/-! What an end gets done by its own steps: it sends what is written to it while the
window is open, and a read returns what is stored. Such steps are a run of the whole
connection, which leaves the other end as it was. -/

set_option autoImplicit false

namespace IpTcp.Tcp

open RingBuffer Lib

namespace Endpoint

variable {Buffer : Type} [RingBuffer Buffer] [Netstack]

/-- The end takes steps of its own, and hands packets to the network. -/
inductive Emits : Endpoint Buffer → List TcpPacket → Endpoint Buffer → Prop where
  | none {e : Endpoint Buffer} : Emits e [] e
  | quiet {e next last : Endpoint Buffer} {out : List TcpPacket} (event : Event)
      (own : ∀ packet, event ≠ .handlePacket packet) (moves : e.step event = some (next, []))
      (rest : Emits next out last) : Emits e out last
  | sent {e next last : Endpoint Buffer} {packet : TcpPacket} {out : List TcpPacket} (event : Event)
      (own : ∀ packet, event ≠ .handlePacket packet) (moves : e.step event = some (next, [packet]))
      (rest : Emits next out last) : Emits e (packet :: out) last

structure Idle (e : Endpoint Buffer) : Prop where
  writer : e.writer = .top
  vWrites : e.vWrites = []
  deleted : e.deleted = false
  canWrite : e.sock.canWrite = true
  writeBuffer : content e.sock.writeBuffer = []

def sentData (e : Endpoint Buffer) (buffer : Buffer) (data : List Byte) : Endpoint Buffer :=
  let packet := e.sock.conn.seal e.sock.getAckHeader data
  { e with
    sock := { e.sock with
      writeBuffer := buffer
      numBytesSent := e.sock.numBytesSent + UInt32.ofNat data.length
      inFlightList := e.sock.inFlightList ++ [inFlightItem e.sock packet false]
      inFlightPacketSize := e.sock.inFlightPacketSize + UInt32.ofNat data.length }
    written := e.written ++ data
    sent := e.sent ++ [packet] }

theorem Idle.sends {e : Endpoint Buffer} (idle : e.Idle) {data : List Byte} (payload : data ≠ [])
    (small : data.length ≤ tcpMaxSegmentSize)
    (room : e.sock.inFlightPacketSize < e.sock.foreignWindowSize)
    (fits : data.length ≤ e.sock.foreignWindowSize.toNat) :
    ∃ buffer, content buffer = [] ∧
      Emits e [e.sock.conn.seal e.sock.getAckHeader data] (e.sentData buffer data) := by
  obtain ⟨writer, vWrites, deleted, canWrite, empty⟩ := idle
  have space : data.length ≤ free e.sock.writeBuffer := by
    have : tcpMaxSegmentSize ≤ bufferSize := by decide
    simp only [free, empty, List.length_nil]
    omega
  have stored := content_write_of_le e.sock.writeBuffer data space
  rw [empty, List.nil_append] at stored
  have count : (write e.sock.writeBuffer data).2.1 = data.length := by
    rw [write_count]
    exact Nat.min_eq_left space
  have notFull : isFull e.sock.writeBuffer = false := by
    simp [isFull, empty, bufferSize]
  have notEmpty : isEmpty (write e.sock.writeBuffer data).1 = false := by
    simpa [isEmpty, stored] using payload
  have positive : 0 < data.length := List.length_pos_iff.mpr payload
  have taken : (readInto (write e.sock.writeBuffer data).1 data.length).2 = data := by
    rw [readInto_snd (by rw [stored]), stored, List.take_length]
  refine ⟨(readInto (write e.sock.writeBuffer data).1 data.length).1, ?_, ?_⟩
  · rw [readInto_fst, stored, List.drop_length]
  · have closed : ¬ e.sock.foreignWindowSize ≤ e.sock.inFlightPacketSize := UInt32.not_le.mpr room
    -- `VWrite` stores all of the data in one turn.
    let filled : Endpoint Buffer := { e with
      sock := { e.sock with writeBuffer := (write e.sock.writeBuffer data).1 }
      written := e.written ++ data }
    have size : filled.sizeToWrite = data.length := by
      simp only [sizeToWrite, length, filled, stored]
      exact Nat.min_eq_right fits
    have calls : e.step (.vWrite data) = some ({ e with vWrites := [data] }, []) := by
      simp [Endpoint.step, vWrite, payload, inTable, deleted, canWrite, vWrites]
    have stores : Endpoint.step { e with vWrites := [data] } (.vWriteLoop 0) = some (filled, []) := by
      simp [Endpoint.step, vWriteLoop, notFull, count, filled, vWrites]
    have tests : filled.step .handleWrites = some ({ filled with writer := .segment }, []) := by
      simp [Endpoint.step, handleWrites, filled, writer, notEmpty, closed]
    have takes : Endpoint.step { filled with writer := .segment } .handleWrites =
        some ({ filled.takeBytes data.length with writer := .sending data }, []) := by
      have segment : Endpoint.sizeToWrite { filled with writer := .segment } = data.length := size
      simp only [Endpoint.step, handleWrites, segment, positive.ne', if_false, filled, taken]
      rfl
    have sends : Endpoint.step { filled.takeBytes data.length with writer := .sending data } .handleWrites =
        some ({ filled.takeBytes data.length with
          sock := { (filled.takeBytes data.length).sock with
            numBytesSent := e.sock.numBytesSent + UInt32.ofNat data.length }
          writer := .pushing (e.sock.conn.seal e.sock.getAckHeader data) []
          sent := e.sent ++ [e.sock.conn.seal e.sock.getAckHeader data] },
          [e.sock.conn.seal e.sock.getAckHeader data]) := by
      simp only [Endpoint.step, handleWrites, sendSegment, List.take_of_length_le small,
        List.drop_of_length_le small]
      rfl
    refine .quiet (.vWrite data) (by simp) calls <| .quiet (.vWriteLoop 0) (by simp) stores <|
      .quiet .handleWrites (by simp) tests <| .quiet .handleWrites (by simp) takes <|
      .sent .handleWrites (by simp) sends <| .quiet .handleWrites (by simp) rfl <|
      .quiet .handleWrites (by simp) ?_ .none
    simp only [Endpoint.step, handleWrites, if_true, sentData]
    rw [writer]
    rfl

theorem emits_read {e : Endpoint Buffer} (n : Nat) (idle : e.vReads = []) (inTable : e.deleted = false)
    (canRead : e.sock.canRead = true) (stored : content e.sock.readBuffer ≠ []) :
    Emits e [] { e with
      sock := { e.sock with readBuffer := (read e.sock.readBuffer n).1 }
      delivered := e.delivered ++ (content e.sock.readBuffer).take n } := by
  have filled : isEmpty e.sock.readBuffer = false := by simpa [isEmpty] using stored
  have calls : e.step (.vRead n) = some ({ e with vReads := [n] }, []) := by
    simp [Endpoint.step, vRead, Endpoint.inTable, inTable, canRead, idle]
  refine .quiet (.vRead n) (by simp) calls <| .quiet (.vReadLoop 0) (by simp) ?_ .none
  simp [Endpoint.step, vReadLoop, filled, read_bytes, idle]

end Endpoint

namespace Connection

open Endpoint

variable {Buffer : Type}

def moved (c : Connection Buffer) (side : Side) (e : Endpoint Buffer) (out : List TcpPacket) :
    Connection Buffer where
  ends := Function.update c.ends side e
  net := Function.update c.net side.other (c.net side.other ++ out)

section
variable (c : Connection Buffer) (side : Side) (e : Endpoint Buffer) (out : List TcpPacket)

@[simp] theorem moved_ends : (c.moved side e out).ends side = e := Function.update_self ..

@[simp] theorem moved_ends_other : (c.moved side e out).ends side.other = c.ends side.other :=
  Function.update_of_ne side.other_ne ..

@[simp] theorem moved_net : (c.moved side e out).net side = c.net side :=
  Function.update_of_ne side.other_ne.symm ..

@[simp] theorem moved_net_other :
    (c.moved side e out).net side.other = c.net side.other ++ out := Function.update_self ..

theorem moved_moved (last : Endpoint Buffer) (more : List TcpPacket) :
    (c.moved side e out).moved side last more = c.moved side last (out ++ more) := by
  simp [moved]

end

variable [RingBuffer Buffer] [Netstack]

theorem step_own {c : Connection Buffer} {side : Side} {event : Event} {after : Endpoint Buffer}
    {out : List TcpPacket} (own : ∀ packet, event ≠ .handlePacket packet)
    (moves : (c.ends side).step event = some (after, out)) :
    c.step (.act side event) = some (c.moved side after out) := by
  have consume : event.consume (c.net side) = some (c.net side) := by
    cases event with
    | handlePacket packet => exact absurd rfl (own packet)
    | _ => rfl
  simp [step, consume, moves, moved]

theorem run_emits {c : Connection Buffer} {side : Side} {out : List TcpPacket} {last : Endpoint Buffer}
    (emits : Emits (c.ends side) out last) : Run step anyEvent c (c.moved side last out) := by
  generalize first : c.ends side = e at emits
  induction emits generalizing c with
  | none =>
      have still : c.moved side (c.ends side) [] = c := by simp [moved]
      rw [← first, still]
      exact Run.refl
  | @quiet e next last out event own moves rest ih =>
      subst first
      have further := ih (moved_ends c side next [])
      rw [moved_moved, List.nil_append] at further
      exact (Run.refl.tail trivial (step_own own moves)).trans further
  | @sent e next last packet out event own moves rest ih =>
      subst first
      have further := ih (moved_ends c side next [packet])
      rw [moved_moved, List.singleton_append] at further
      exact (Run.refl.tail trivial (step_own own moves)).trans further

def received (c : Connection Buffer) (side : Side) (packet : TcpPacket) : Connection Buffer :=
  Connection.moved { c with net := Function.update c.net side ((c.net side).erase packet) } side
    ((c.ends side).handlePacket packet).1 ((c.ends side).handlePacket packet).2

theorem run_received {c : Connection Buffer} {side : Side} {packet : TcpPacket}
    (free : (c.ends side).writer ≠ .fin) (member : packet ∈ c.net side) :
    Run step anyEvent c (c.received side packet) := by
  have moves : c.step (.act side (.handlePacket packet)) = some (c.received side packet) := by
    simp [step, Event.consume, member, Endpoint.step, free, received, moved]
  exact Run.refl.tail trivial moves

end Connection

end IpTcp.Tcp
