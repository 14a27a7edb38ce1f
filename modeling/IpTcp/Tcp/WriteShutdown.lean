import IpTcp.Tcp.Sender

/-! What becomes of a `VWrite` call that is in progress when the socket is shut down. The call
looks at `canWrite` once, before it stores anything; `HandleWrites` goes on to the FIN as soon as
it finds the write buffer empty after the shutdown, whether or not a call is still storing, and
gives the lock of the buffer back before the FIN is sent. -/

set_option autoImplicit false

namespace IpTcp.Tcp

open RingBuffer Lib

variable {Buffer : Type} {e after : Endpoint Buffer}

namespace Endpoint

def Unfinished (e : Endpoint Buffer) : Prop := ∀ buff ∈ e.vWrites, buff ≠ []

def tested (e : Endpoint Buffer) : Prop := e.writer = .fin ∨ e.finished

/-- The bytes stored in the write buffer are those of the segments before the FIN. -/
def FinIsLast (e : Endpoint Buffer) : Prop :=
  ∃ data fin, e.sent = data ++ [fin] ∧ fin.hasFin = true ∧
    (∀ packet ∈ data, packet.hasFin = false) ∧ payloads data = e.written

theorem vShutdown_calls {sdType : ShutdownType} (shuts : e.vShutdown sdType = some after) :
    after.vWrites = e.vWrites ∧ after.written = e.written ∧
      (after.sock.canWrite = true → e.sock.canWrite = true) := by
  unfold vShutdown at shuts
  repeat' split at shuts
  all_goals cases shuts
  all_goals exact ⟨rfl, rfl, fun writable => by simp_all⟩

section
variable [RingBuffer Buffer]

/-- Since then the buffer has stayed empty, and no call is in progress or can start. -/
structure Sealed (e : Endpoint Buffer) : Prop where
  tested : e.tested
  empty : content e.sock.writeBuffer = []
  shut : e.sock.canWrite = false
  idle : e.vWrites = []

theorem Sender.finIsLast (sender : e.Sender) (finished : e.finished)
    (empty : content e.sock.writeBuffer = []) : e.FinIsLast := by
  obtain ⟨data, fin, split, isFin, before, payload⟩ := sender.numbered.endsWithFin finished
  refine ⟨data, fin, split, isFin, before, ?_⟩
  have bytes := sender.conserved.bytes
  have writer : e.writer = .returned := finished
  rw [empty, writer] at bytes
  simpa [payload, WriterPc.pending] using bytes.symm

theorem vWriteLoop_stores (empty : content e.sock.writeBuffer = []) {buff : List Byte}
    {rest : List (List Byte)} (calls : e.vWrites = buff :: rest) (left : buff ≠ []) :
    ∃ later, e.vWriteLoop 0 = some later ∧ later.written ≠ e.written := by
  have room : isFull e.sock.writeBuffer = false := by
    simp [isFull, empty, bufferSize]
  have count : (write e.sock.writeBuffer buff).2.1 ≠ 0 := by
    have some := List.length_pos_iff.mpr left
    rw [write_count, empty, List.length_nil, bufferSize]
    omega
  unfold vWriteLoop
  simp only [calls, List.getElem?_cons_zero, room, Bool.false_eq_true, if_false]
  refine ⟨_, rfl, fun same => ?_⟩
  have stored : buff.take (write e.sock.writeBuffer buff).2.1 = [] := by simpa using same
  rcases List.take_eq_nil_iff.mp stored with none | none
  · exact count none
  · exact left none

end

section
variable [RingBuffer Buffer] [Netstack] {event : Event} {out : List TcpPacket}

theorem step_calls (steps : e.step event = some (after, out)) :
    (∃ buff, buff ≠ [] ∧ e.sock.canWrite = true ∧ after = { e with vWrites := e.vWrites ++ [buff] }) ∨
    (∃ call, event = .vWriteLoop call ∧ e.vWriteLoop call = some after) ∨
    (after.vWrites = e.vWrites ∧ after.written = e.written ∧
      (after.sock.canWrite = true → e.sock.canWrite = true)) := by
  cases event with
  | vWrite buff =>
      simp only [step, vWrite, Option.map_eq_some_iff] at steps
      obtain ⟨_, started, same⟩ := steps
      split at started
      · rename_i accepted
        cases started
        cases same
        exact Or.inl ⟨buff, accepted.1, accepted.2.2, rfl⟩
      · cases started
  | vWriteLoop call =>
      simp only [step, Option.map_eq_some_iff] at steps
      obtain ⟨_, stored, same⟩ := steps
      cases same
      exact Or.inr (Or.inl ⟨call, rfl, stored⟩)
  | vRead len =>
      simp only [step, vRead, Option.map_eq_some_iff] at steps
      obtain ⟨_, started, same⟩ := steps
      split at started
      · cases started
        cases same
        exact Or.inr (Or.inr ⟨rfl, rfl, id⟩)
      · cases started
  | vReadLoop call =>
      simp only [step, vReadLoop, Option.map_eq_some_iff] at steps
      obtain ⟨_, read, same⟩ := steps
      cases same
      refine Or.inr (Or.inr ?_)
      repeat' split at read
      all_goals cases read
      all_goals exact ⟨rfl, rfl, id⟩
  | vShutdown sdType =>
      simp only [step, Option.map_eq_some_iff] at steps
      obtain ⟨_, shuts, same⟩ := steps
      cases same
      exact Or.inr (Or.inr (vShutdown_calls shuts))
  | handleWrites | handleRetransmission timedOut | handlePacket packet | timeWaitOver =>
      have same := step_sameCalls steps rfl
      exact Or.inr (Or.inr ⟨same.vWrites, same.written, fun can => same.canWrite ▸ can⟩)

theorem Unfinished.step (unfinished : e.Unfinished) (steps : e.step event = some (after, out)) :
    after.Unfinished := by
  rcases step_calls steps with ⟨buff, some, _, rfl⟩ | ⟨call, _, stores⟩ | ⟨calls, _⟩
  · intro other member
    rcases List.mem_append.mp member with old | new
    · exact unfinished other old
    · rw [List.mem_singleton.mp new]
      exact some
  · unfold vWriteLoop at stores
    split at stores
    · cases stores
    split at stores
    · cases stores
    cases stores
    intro other member
    dsimp only at member
    split at member
    · exact unfinished other (List.mem_of_mem_eraseIdx member)
    · rename_i left
      rcases List.mem_or_eq_of_mem_set member with old | rfl
      · exact unfinished other old
      · exact left
  · intro other member
    rw [calls] at member
    exact unfinished other member

theorem Moves.tests (moves : Moves e event out after) (untested : ¬ e.tested) (tested : after.tested) :
    content e.sock.writeBuffer = [] ∧ e.sock.canWrite = false ∧ after = { e with writer := .fin } := by
  cases moves with
  | toFin _ empty shut => exact ⟨empty, shut, rfl⟩
  | fin pc => exact absurd (Or.inl pc) untested
  | packet packet =>
      have same := e.handlePacket_writer_same packet (fun pc => pc = .fin ∨ pc = .returned) (by simp)
      exact absurd (same.mp tested) untested
  | count packet payload =>
      simp only [Endpoint.tested, finished] at tested
      split at tested <;> simp at tested
  | toProbe | toSegment | probe | probePush | none | take | send | push =>
      simp [Endpoint.tested, finished, sendSegment] at tested
  | _ => exact absurd tested untested

theorem Moves.afterTest (moves : Moves e event out after) (tested : e.tested) :
    after.tested ∧
      (after.sock.writeBuffer = e.sock.writeBuffer ∨ ∃ call, event = .vWriteLoop call) := by
  cases moves with
  | stored call => exact ⟨tested, Or.inr ⟨call, rfl⟩⟩
  | fin => exact ⟨Or.inr rfl, Or.inl rfl⟩
  | packet packet =>
      have same := e.handlePacket_writer_same packet (fun pc => pc = .fin ∨ pc = .returned) (by simp)
      exact ⟨same.mpr tested, Or.inl (handlePacket_writeBuffer e packet)⟩
  | toFin pc | toProbe pc | toSegment pc | probe pc | probePush _ pc | none pc | take pc
  | send _ pc | push _ _ pc | count _ _ pc => simp [Endpoint.tested, finished, pc] at tested
  | _ => exact ⟨tested, Or.inl rfl⟩

theorem Sealed.step (sealed : e.Sealed) (steps : e.step event = some (after, out)) :
    after.Sealed ∧ after.written = e.written := by
  obtain ⟨tested, buffer⟩ := (step_moves steps).afterTest sealed.tested
  rcases step_calls steps with ⟨_, _, writable, _⟩ | ⟨call, _, stores⟩ | ⟨calls, written, writable⟩
  · rw [sealed.shut] at writable
    cases writable
  · simp [vWriteLoop, sealed.idle] at stores
  · refine ⟨⟨tested, ?_, ?_, calls.trans sealed.idle⟩, written⟩
    · rcases buffer with same | ⟨call, rfl⟩
      · rw [same]
        exact sealed.empty
      · simp [Endpoint.step, vWriteLoop, sealed.idle] at steps
    · by_contra can
      have := writable (by simpa using can)
      simp [sealed.shut] at this

theorem Sealed.run (run : Run move anyEvent e after) (sealed : e.Sealed) :
    after.Sealed ∧ after.written = e.written := by
  refine run_keeps (fun later => later.Sealed ∧ later.written = e.written)
    (fun _ _ _ _ kept _ steps => ?_) run ⟨sealed, rfl⟩
  obtain ⟨still, written⟩ := kept.1.step steps
  exact ⟨still, written.trans kept.2⟩

/-- Where `HandleWrites` finds the buffer empty after the shutdown, it goes on to the FIN, after
which no byte enters the buffer and before which all that did were sent, exactly if no call of
`VWrite` is in progress at that moment. -/
theorem writes_precede_fin_iff {first : Endpoint Buffer} (opened : Opened first)
    (run : Run move anyEvent first e) (top : e.writer = .top)
    (tests : e.move .handleWrites = some after) (goesOn : after.writer = .fin) :
    (∀ sent later, Run move anyEvent after sent → sent.finished → Run move anyEvent sent later →
      later.written = sent.written ∧ later.FinIsLast) ↔ e.vWrites = [] := by
  have sender : after.Sender := Sender.run (run.tail trivial tests) opened.sender
  have unfinished : e.Unfinished := by
    refine run_keeps Unfinished (fun _ _ _ _ unfinished _ steps => unfinished.step steps) run ?_
    cases opened <;> exact fun _ member => absurd member List.not_mem_nil
  obtain ⟨⟨_, out⟩, steps, rfl⟩ := Option.map_eq_some_iff.mp tests
  obtain ⟨empty, shut, rfl⟩ := (step_moves steps).tests (by simp [tested, finished, top]) (Or.inl goesOn)
  constructor
  · intro closed
    -- otherwise the FIN is sent, and the call goes on
    by_contra busy
    obtain ⟨buff, rest, calls⟩ := List.exists_cons_of_ne_nil busy
    let sent : Endpoint Buffer := (sendFin { e with writer := .fin }).1
    have sends : move { e with writer := .fin } .handleWrites = some sent := rfl
    obtain ⟨later, stores, more⟩ := vWriteLoop_stores (e := sent) empty calls
      (unfinished buff (by rw [calls]; exact List.mem_cons_self))
    have moves : sent.move (.vWriteLoop 0) = some later := by
      simp only [move, step, stores, Option.map_some]
    exact more (closed sent later (Run.refl.tail trivial sends) rfl (Run.refl.tail trivial moves)).1
  · intro idle sent later toFin finished rest
    have initially : Sealed { e with writer := .fin } := ⟨Or.inl rfl, empty, shut, idle⟩
    obtain ⟨sealed, _⟩ := Sealed.run toFin initially
    obtain ⟨still, written⟩ := Sealed.run rest sealed
    have done : later.finished :=
      run_keeps Endpoint.finished (fun _ _ _ _ held _ steps => ((step_moves steps).afterFin held).1)
        rest finished
    exact ⟨written, (Sender.run (toFin.trans rest) sender).finIsLast done still.empty⟩

end

section
attribute [local instance] Netstack.standard

def shutDown : List Event :=
  [.vWrite [7, 8], .vWriteLoop 0, .vShutdown .both] ++ List.replicate 5 .handleWrites

theorem shutDown_isSome :
    (exec move anyEvent (connected loopback 100 200 : Endpoint Fifo) shutDown).isSome := by
  decide +kernel

def drainedEnd : Endpoint Fifo :=
  (exec move anyEvent (connected loopback 100 200 : Endpoint Fifo) shutDown).get shutDown_isSome

theorem writes_precede_fin_shutDown :
    drainedEnd.written = [7, 8] ∧
      ∀ sent later, Run move anyEvent { drainedEnd with writer := .fin } sent → sent.finished →
        Run move anyEvent sent later → later.written = sent.written ∧ later.FinIsLast := by
  have pc : drainedEnd.writer = .top := by decide +kernel
  have empty : isEmpty drainedEnd.sock.writeBuffer = true := by decide +kernel
  have shut : drainedEnd.sock.canWrite = false := by decide +kernel
  have tests : drainedEnd.move .handleWrites = some { drainedEnd with writer := .fin } := by
    simp [move, step, handleWrites, pc, empty, shut]
  exact ⟨by decide +kernel, (writes_precede_fin_iff (opened_connected loopback 100 200)
    (Run.ofSome shutDown_isSome) pc tests rfl).mpr (by decide +kernel)⟩

def shutDownFirst : List Event :=
  -- A call passes its test, the socket is shut down, `HandleWrites` finds the buffer empty and sends the
  -- FIN, and the call stores its byte and returns.
  [.vWrite [7], .vShutdown .write, .handleWrites, .handleWrites, .vWriteLoop 0]

theorem shutDownFirst_isSome :
    (exec move anyEvent (connected loopback 100 200 : Endpoint Fifo) shutDownFirst).isSome := by
  decide +kernel

theorem write_follows_fin :
    let e := (exec move anyEvent (connected loopback 100 200 : Endpoint Fifo) shutDownFirst).get
      shutDownFirst_isSome
    e.finished ∧ e.vWrites = [] ∧ e.written = [7] ∧ e.transmitted = [] := by
  unfold finished
  decide +kernel

end

end Endpoint

end IpTcp.Tcp
