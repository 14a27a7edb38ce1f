import IpTcp.Tcp.Joint

/-! How a connection is taken down: closing loses nothing that was sent, and where no
FIN is overlooked both ends get to the end of it. -/

set_option autoImplicit false

namespace IpTcp.Tcp

open RingBuffer Lib

variable {Buffer : Type} [RingBuffer Buffer]

namespace Connection

open Endpoint

theorem Joint.finAcked {whole graceful : Prop} {c : Connection Buffer} (joint : Joint whole graceful c)
    {side : Side} (returned : (c.ends side).writer = .returned)
    (idle : (c.ends side).sock.inFlightList = [] ∨ (c.ends side).deleted = true) :
    (c.ends side).sock.connState.finAcked = true := by
  have control := joint.control side
  rcases idle with empty | deleted
  · rcases control.outstanding (control.returned.mp returned) with ⟨item, member, _⟩ | acked
    · rw [empty] at member
      cases member
    · exact acked
  · rcases control.removed deleted with state | state <;> rw [state] <;> rfl

section
variable [Netstack]

theorem leads_step {c after : Connection Buffer} {action : Action}
    (stepped : c.step action = some after) (side : Side) :
    (c.ends side).sock.connState.Leads (after.ends side).sock.connState := by
  cases step_steps stepped with
  | network ends =>
      rw [ends]
      exact ConnState.Leads.refl _
  | @act _ acting event out arrived moves still taken sent =>
      rcases side.eq_or_other acting with rfl | rfl
      · exact (step_moves moves).leads
      · rw [still]
        exact ConnState.Leads.refl _

theorem leads_run {guard : Connection Buffer → Action → Prop} {c later : Connection Buffer}
    (run : Run step guard c later) (side : Side) :
    (c.ends side).sock.connState.Leads (later.ends side).sock.connState :=
  run.preserves (fun now => (c.ends side).sock.connState.Leads (now.ends side).sock.connState)
    (fun _ _ _ held _ stepped => held.trans (leads_step stepped side)) (ConnState.Leads.refl _)

/-- Once an end has entered `CLOSE_WAIT` or `TIME_WAIT`, it has received all the payload
its peer sent, which was all before the FIN. Once an end has entered `FIN_WAIT_2` or
`CLOSED`, its peer has received all the payload it sent. -/
theorem closing_loses_nothing {conn : TcpConn} {clientIsn serverIsn : UInt32}
    {c later : Connection Buffer} (run : Run step anyEvent (established conn clientIsn serverIsn) c)
    (on : Run step anyEvent c later)
    (short : ∀ side, (later.ends side).transmitted.length < 2 ^ 32 - 2) (side : Side) :
    ((c.ends side).sock.connState = .closeWait ∨ (c.ends side).sock.connState = .timeWait →
      (later.ends side.other).finished ∧
        (later.ends side).sock.nextExpectedByte.toNat - 1 =
          (later.ends side.other).transmitted.length) ∧
    ((c.ends side).sock.connState = .finWait2 ∨ (c.ends side).sock.connState = .closed →
      (later.ends side).finished ∧
        (later.ends side.other).sock.nextExpectedByte.toNat - 1 =
          (later.ends side).transmitted.length) := by
  have joint := Joint.run (run.trans on)
  have leads := leads_run on side
  have bound : ∀ side, (later.ends side).transmitted.length + 2 < 2 ^ 32 := by
    intro side
    have := short side
    omega
  refine ⟨fun entered => ?_, fun entered => ?_⟩
  · have past := leads.past (by rcases entered with state | state <;> rw [state] <;> rfl)
    obtain ⟨finished, complete⟩ := (joint.incoming (bound side.other)).received past
    exact ⟨finished, by omega⟩
  · have acked := leads.acked (by rcases entered with state | state <;> rw [state] <;> rfl)
    obtain ⟨finished, complete, _⟩ := (joint.flow side (bound side)).confirmed acked
    exact ⟨finished, by omega⟩

/-! ## Both ends close -/

/-- No FIN is taken in order while this end waits for the acknowledgement of its own. -/
def absorbsFin (c : Connection Buffer) (action : Action) : Prop :=
  action.onPacket fun side packet => packet.header.flags ≠ tcpFlagAck → packet.hasFin = true →
    (c.ends side).sock.relSeqNum packet = (c.ends side).sock.nextExpectedByte →
    (c.ends side).sock.connState ≠ .finWait1

instance (c : Connection Buffer) (action : Action) : Decidable (c.absorbsFin action) := by
  unfold absorbsFin
  infer_instance

theorem handles_absorbing {e : Endpoint Buffer} {packet : TcpPacket} (control : e.Control)
    (absorbs : packet.header.flags ≠ tcpFlagAck → packet.hasFin = true →
      e.sock.relSeqNum packet = e.sock.nextExpectedByte → e.sock.connState ≠ .finWait1) :
    Handles False True e packet := by
  have drains : ∀ (sock : TcpSocket Buffer) (root : TcpPacketItem) (others : PriorityQueue), True →
      sock.earlyArrivalQueue = root :: others → root.priority = sock.nextExpectedByte.toNat →
      True ∧ True := fun _ _ _ _ _ _ => ⟨trivial, trivial⟩
  refine ⟨fun _ _ => True, fun state => state.afterFin.pastFin = true, ?_, fun _ _ _ never => never.elim,
    fun _ past _ => past⟩
  refine TcpSocket.handlePacket_acts_of drains e.sock (fun _ _ _ _ _ _ => trivial) ?_
  intro flags fin inOrder
  exact ConnState.pastFin_of_afterFin control.running (absorbs flags fin inOrder)

theorem Joint.absorbing {conn : TcpConn} {clientIsn serverIsn : UInt32} {c : Connection Buffer}
    (run : Run Connection.step absorbsFin (established conn clientIsn serverIsn) c) :
    Joint False True c := by
  refine run.preserves (Joint False True) (fun before action after joint meets stepped => joint.step stepped ?_)
    (joint_established conn clientIsn serverIsn False True)
  rintro side packet rfl _ _
  exact handles_absorbing (joint.control side) meets

/-- Where no FIN is overlooked, two ends that have both sent their FIN and have nothing
in flight are in `TIME_WAIT` or `CLOSED`, whatever is still on the way. -/
theorem teardown_completes {conn : TcpConn} {clientIsn serverIsn : UInt32} {c : Connection Buffer}
    (run : Run step absorbsFin (established conn clientIsn serverIsn) c)
    (returned : ∀ side, (c.ends side).writer = .returned)
    (idle : ∀ side, (c.ends side).sock.inFlightList = [] ∨ (c.ends side).deleted = true) (side : Side) :
    (c.ends side).sock.connState = .timeWait ∨ (c.ends side).sock.connState = .closed := by
  have joint := Joint.absorbing run
  have acked : ∀ side, (c.ends side).sock.connState.finAcked = true :=
    fun side => joint.finAcked (returned side) (idle side)
  -- the peer's FIN was acknowledged, so this end has taken it in
  have bound := (joint.control side.other).bounded (acked side.other)
  obtain ⟨_, _, past⟩ := (joint.flow side.other bound).confirmed (acked side.other)
  have received := past trivial
  have own := acked side
  simp only [Side.other_other] at received
  generalize (c.ends side).sock.connState = state at received own ⊢
  cases state <;> simp_all [ConnState.pastFin, ConnState.finAcked]

end

section
attribute [local instance] Netstack.standard

def clientCloses : List Action :=
  sendsByte .client 7 ++
    [.act .server (.handlePacket (fromClient 101 201 tcpFlagAck [7])), .act .server (.vRead 1),
      .act .server (.vReadLoop 0), .act .client (.vShutdown .both), .act .client .handleWrites,
      .act .client .handleWrites, .act .server (.handlePacket (fromClient 102 201 tcpFlagFin []))]

theorem clientCloses_isSome :
    (exec step anyEvent (established loopback 100 200 : Connection Fifo) clientCloses).isSome := by
  decide +kernel

theorem clientCloses_acked :
    (exec step anyEvent ((exec step anyEvent (established loopback 100 200 : Connection Fifo)
      clientCloses).get clientCloses_isSome)
      [.act .client (.handlePacket (fromServer 201 103 tcpFlagAck []))]).isSome := by
  decide +kernel

theorem closing_loses_nothing_byte :
    ∃ later : Connection Fifo, (later.ends .server).sock.connState = .closeWait ∧
      (later.ends .client).sock.connState = .finWait2 ∧ (later.ends .client).transmitted = [7] ∧
      (later.ends .server).sock.nextExpectedByte.toNat - 1 = (later.ends .client).transmitted.length := by
  have closed := closing_loses_nothing (Run.ofSome clientCloses_isSome) (Run.ofSome clientCloses_acked)
    (by rintro (_ | _) <;> decide +kernel) .server
  exact ⟨_, by decide +kernel, by decide +kernel, by decide +kernel,
    (closed.1 (Or.inl (by decide +kernel))).2⟩

def closesInTurn : List Action :=
  [.act .client (.vShutdown .both), .act .client .handleWrites, .act .client .handleWrites,
    .act .server (.handlePacket (fromClient 101 201 tcpFlagFin [])),
    .act .client (.handlePacket (fromServer 201 102 tcpFlagAck [])),
    .act .server (.vShutdown .both), .act .server .handleWrites, .act .server .handleWrites,
    .act .client (.handlePacket (fromServer 201 101 tcpFlagFin [])),
    .act .server (.handlePacket (fromClient 102 202 tcpFlagAck []))]

theorem closesInTurn_isSome :
    (exec step absorbsFin (established loopback 100 200 : Connection Fifo) closesInTurn).isSome := by
  decide +kernel

theorem teardown_completes_inTurn :
    ∃ c : Connection Fifo, Run step absorbsFin (established loopback 100 200) c ∧
      ((c.ends .client).sock.connState = .timeWait ∨ (c.ends .client).sock.connState = .closed) ∧
      ((c.ends .server).sock.connState = .timeWait ∨ (c.ends .server).sock.connState = .closed) := by
  have run := Run.ofSome closesInTurn_isSome
  have completes := teardown_completes run (by rintro (_ | _) <;> decide +kernel)
    (by rintro (_ | _) <;> decide +kernel)
  exact ⟨_, run, completes .client, completes .server⟩

def closesAtOnce : List Action :=
  [.act .client (.vShutdown .both), .act .client .handleWrites, .act .client .handleWrites,
    .act .server (.vShutdown .both), .act .server .handleWrites, .act .server .handleWrites,
    .act .server (.handlePacket (fromClient 101 201 tcpFlagFin [])),
    .act .client (.handlePacket (fromServer 201 101 tcpFlagFin [])),
    .act .client (.handlePacket (fromServer 202 102 tcpFlagAck [])),
    .act .server (.handlePacket (fromClient 102 202 tcpFlagAck [])),
    .lose .client (fromServer 200 101 (tcpFlagSyn ||| tcpFlagAck) []),
    .lose .server (fromClient 100 0 tcpFlagSyn []), .lose .server (fromClient 101 201 tcpFlagAck [])]

theorem closesAtOnce_isSome :
    (exec step anyEvent (established loopback 100 200 : Connection Fifo) closesAtOnce).isSome := by
  decide +kernel

/-- Each end took the other's FIN in `FIN_WAIT_1`, acknowledged it and forgot it. -/
theorem teardown_stuck :
    ∃ c : Connection Fifo, Run step anyEvent (established loopback 100 200) c ∧
      ∀ side, (c.ends side).sock.canRead = false ∧ (c.ends side).sock.canWrite = false ∧
        (c.ends side).writer = .returned ∧ (c.ends side).sock.inFlightList = [] ∧ c.net side = [] ∧
        (c.ends side).sock.connState = .finWait2 ∧ (c.ends side).deleted = false := by
  refine ⟨_, Run.ofSome closesAtOnce_isSome, ?_⟩
  rintro (_ | _) <;> decide +kernel

end

end Connection

end IpTcp.Tcp
