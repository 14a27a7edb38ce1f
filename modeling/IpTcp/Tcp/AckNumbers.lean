import IpTcp.Tcp.AckProcessing
import IpTcp.Tcp.Joint

/-! The acknowledgement numbers of the packets that an end builds. All of them come from
`nextExpectedByte`, which never goes back; only the acknowledgement of a FIN is one more, and
`nextExpectedByte` is not moved past the FIN. So what is built after it acknowledges less. -/

set_option autoImplicit false

namespace IpTcp.Tcp

open RingBuffer Lib

/-- The handling of a packet with a FIN. Any answer to it acknowledges the FIN. -/
def Event.handlesFin : Event → Bool
  | .handlePacket packet => packet.hasFin
  | _ => false

def Event.builds : Event → Bool
  -- A retransmission is the only event that sends a packet built before.
  | .handleRetransmission _ => false
  | _ => true

variable {Buffer : Type}

def TcpSocket.relAckNum (sock : TcpSocket Buffer) (packet : TcpPacket) : Nat :=
  (packet.header.ackNum - sock.foreignInitSeqNum).toNat

/-- The later packet acknowledges no less, unless only the earlier one acknowledges the FIN. -/
def TcpSocket.Forward (sock : TcpSocket Buffer) (earlier later : Event × TcpPacket) : Prop :=
  sock.relAckNum earlier.2 ≤ sock.relAckNum later.2 ↔
    (earlier.1.handlesFin = true → later.1.handlesFin = true)

namespace Endpoint

/-- A packet that `y` has built on the event: it acknowledges the FIN of `x`, which comes after all
that `x` has sent, or bytes that `y` has stored. -/
def Confirms (x y : Endpoint Buffer) (built : Event × TcpPacket) : Prop :=
  if built.1.handlesFin then
    x.finished ∧ y.sock.relAckNum built.2 = x.transmitted.length + 2 ∧
      y.sock.nextExpectedByte.toNat = x.transmitted.length + 1
  else y.sock.relAckNum built.2 ≤ y.sock.nextExpectedByte.toNat

theorem Confirms.forward {x y : Endpoint Buffer} {earlier later : Event × TcpPacket}
    (first : Confirms x y earlier) (second : Confirms x y later)
    (latest : later.1.handlesFin = false → y.sock.relAckNum later.2 = y.sock.nextExpectedByte.toNat) :
    y.sock.Forward earlier later := by
  by_cases new : later.1.handlesFin = true
  · rw [Confirms, if_pos new] at second
    refine iff_of_true ?_ fun _ => new
    unfold Confirms at first
    split at first <;> omega
  · have reached := latest (by simpa using new)
    by_cases old : earlier.1.handlesFin = true
    · rw [Confirms, if_pos old] at first
      exact iff_of_false (by omega) fun both => new (both old)
    · rw [Confirms, if_neg old] at first
      exact iff_of_true (by omega) fun fin => absurd fin old

theorem Confirms.grow {x y laterX laterY : Endpoint Buffer} {built : Event × TcpPacket}
    (confirms : Confirms x y built)
    (isn : laterY.sock.foreignInitSeqNum = y.sock.foreignInitSeqNum)
    (stream : x.finished → laterX.finished ∧ laterX.sent = x.sent)
    (next : y.sock.nextExpectedByte.toNat ≤ laterY.sock.nextExpectedByte.toNat)
    (below : laterY.sock.nextExpectedByte.toNat ≤ laterX.transmitted.length + 1) :
    Confirms laterX laterY built := by
  -- What was acknowledged stays so: the FIN is the end of what `x` sends.
  have same : laterY.sock.relAckNum built.2 = y.sock.relAckNum built.2 := by
    rw [TcpSocket.relAckNum, isn, TcpSocket.relAckNum]
  unfold Confirms at confirms ⊢
  rw [same]
  split at confirms
  next fin =>
    obtain ⟨finished, numbered, complete⟩ := confirms
    obtain ⟨still, sent⟩ := stream finished
    have length : laterX.transmitted.length = x.transmitted.length := by
      rw [transmitted, sent, transmitted]
    rw [if_pos fin]
    exact ⟨still, by omega, by omega⟩
  next fin =>
    rw [if_neg fin]
    exact confirms.trans next

end Endpoint

variable [RingBuffer Buffer]

theorem TcpSocket.relAckNum_getAckHeader {sock : TcpSocket Buffer} {packet : TcpPacket}
    (built : packet.header.ackNum = sock.getAckHeader.ackNum) :
    sock.relAckNum packet = sock.nextExpectedByte.toNat := by
  have cancel : sock.getAckHeader.ackNum - sock.foreignInitSeqNum = sock.nextExpectedByte := by
    simp only [getAckHeader]
    grind
  rw [relAckNum, built, cancel]

theorem TcpSocket.relAckNum_getFinAckHeader {sock : TcpSocket Buffer} {packet : TcpPacket}
    (built : packet.header.ackNum = sock.getAckHeader.ackNum + 1)
    (small : sock.nextExpectedByte.toNat + 1 < 2 ^ 32) :
    sock.relAckNum packet = sock.nextExpectedByte.toNat + 1 := by
  have cancel : sock.getAckHeader.ackNum + 1 - sock.foreignInitSeqNum = sock.nextExpectedByte + 1 := by
    simp only [getAckHeader]
    grind
  have one : UInt32.ofNat 1 = 1 := rfl
  rw [relAckNum, built, cancel, ← one, Word.toNat_add small]

section
variable [Netstack]

namespace TcpSocket

open Endpoint (sends sends_append sends_of_quiet)

/-! ## What `HandlePacket` answers -/

omit [Netstack] in
theorem drainEarlyArrivals_silent (fuel : Nat) (sock : TcpSocket Buffer) :
    sends (sock.drainEarlyArrivals fuel).2 = [] := by
  induction fuel generalizing sock with
  | zero => rfl
  | succ fuel ih =>
      cases queue : sock.earlyArrivalQueue with
      | nil =>
          simp only [drainEarlyArrivals, queue]
          rfl
      | cons root others =>
          by_cases inOrder : root.priority = sock.nextExpectedByte.toNat
          · obtain ⟨turn, unfolded, quiet, _⟩ :=
              drainEarlyArrivals_succ fuel sock root others queue inOrder
            rw [unfolded, sends_append, sends_of_quiet quiet, ih]
            rfl
          · simp only [drainEarlyArrivals, queue, inOrder, if_false]
            rfl

omit [RingBuffer Buffer] [Netstack] in
theorem receiveAck_silent (sock : TcpSocket Buffer) (tcpHdr : TCPFields) :
    sends (sock.receiveAck tcpHdr).2.1 = [] := by
  have wake : ∀ sock : TcpSocket Buffer, sends sock.wakeProbe = [] := by
    intro sock
    unfold wakeProbe
    split <;> rfl
  unfold receiveAck
  split
  · rfl
  split
  · exact wake _
  split
  · rfl
  · exact wake _

theorem receiveData_answers (sock : TcpSocket Buffer) (packet : TcpPacket) :
    ∀ answer ∈ sends (sock.receiveData packet).2,
      answer.header.ackNum = (sock.receiveData packet).1.getAckHeader.ackNum := by
  intro answer member
  unfold receiveData at member ⊢
  by_cases inOrder : sock.relSeqNum packet = sock.nextExpectedByte
  · simp only [if_pos inOrder] at member ⊢
    by_cases fits : packet.data.length ≤ free sock.readBuffer
    · simp only [if_pos fits, sends_append, drainEarlyArrivals_silent, List.append_nil,
        sends_of_quiet (sock.writeIntoReadBuffer_quiet packet.data).1, List.nil_append] at member ⊢
      cases List.mem_singleton.mp member
      rfl
    · simp only [if_neg fits] at member
      cases member
  · by_cases early : sock.nextExpectedByte < sock.relSeqNum packet
    all_goals
      simp only [if_neg inOrder, early, if_true, if_false] at member ⊢
      cases List.mem_singleton.mp member
      rfl

theorem receiveFin_answers (sock : TcpSocket Buffer) (packet : TcpPacket) :
    ∀ answer ∈ sends (sock.receiveFin packet).2, sock.relSeqNum packet = sock.nextExpectedByte ∧
      answer.header.ackNum = (sock.receiveFin packet).1.getAckHeader.ackNum + 1 := by
  intro answer member
  unfold receiveFin at member ⊢
  by_cases inOrder : sock.relSeqNum packet = sock.nextExpectedByte
  · simp only [if_pos inOrder, finReceived_fst] at member ⊢
    have silent : sends sock.finReceived.2 = [] := sends_of_quiet fun packet found => by
      simpa using finReceived_snd sock _ found
    simp only [sends, silent] at member
    cases List.mem_singleton.mp member
    exact ⟨inOrder, rfl⟩
  · simp only [if_neg inOrder] at member
    split at member <;> cases member

/-- Every answer is built from the `nextExpectedByte` that `HandlePacket` leaves, and acknowledges
one more if it answers a FIN, whose turn it is then. -/
theorem handlePacket_ackNum (sock : TcpSocket Buffer) (packet : TcpPacket) :
    ∀ answer ∈ sends (sock.handlePacket packet).2,
      if packet.hasFin then sock.relSeqNum packet = sock.nextExpectedByte ∧
        answer.header.ackNum = (sock.handlePacket packet).1.getAckHeader.ackNum + 1
      else answer.header.ackNum = (sock.handlePacket packet).1.getAckHeader.ackNum := by
  intro answer member
  by_cases closed : sock.closed = true
  · simp only [handlePacket, if_pos closed] at member
    cases member
  by_cases invalid :
      isValidTcpCheckSum packet.header sock.conn.foreignIP sock.conn.localIP packet.data = false
  · simp only [handlePacket, if_neg closed, if_pos invalid] at member
    cases member
  rw [Bool.not_eq_true] at closed
  rw [Bool.not_eq_false] at invalid
  -- What has the ACK flag alone is no FIN, and only its payload is answered.
  by_cases flags : packet.header.flags = tcpFlagAck
  · rw [if_neg (by simp [hasFin_of_ack flags])]
    rw [handlePacket_ack closed invalid flags] at member ⊢
    have silent := sock.receiveAck_silent packet.header
    generalize sock.receiveAck packet.header = result at member silent
    obtain ⟨after, effects, goesOn⟩ := result
    cases goesOn with
    | false =>
        rw [silent] at member
        cases member
    | true =>
        dsimp only at member silent ⊢
        by_cases empty : packet.data.length = 0
        · rw [if_pos empty, silent] at member
          cases member
        · rw [if_neg empty] at member ⊢
          rw [sends_append, silent, List.nil_append] at member
          exact after.receiveData_answers packet answer member
  · rw [handlePacket_other closed invalid flags] at member ⊢
    by_cases fin : packet.hasFin = true
    · simp only [if_pos fin] at member ⊢
      exact sock.receiveFin_answers packet answer member
    · rw [if_neg fin] at member
      cases member

end TcpSocket

namespace Endpoint

/-! ## `nextExpectedByte` never goes back -/

section
variable {x y after : Endpoint Buffer} {toY toX out : List TcpPacket} {event : Event}
  {packet : TcpPacket}

theorem Flow.act_next {sock later : TcpSocket Buffer} {effects : List Effect}
    {stores : TcpSocket Buffer → List Byte → Prop} {absorbs : ConnState → Prop}
    (flow : Flow False False x { y with sock := sock } toY toX)
    (bound : x.transmitted.length + 2 < 2 ^ 32) (carries : x.Carries packet)
    (act : TcpSocket.Act packet stores absorbs sock effects later) :
    sock.nextExpectedByte.toNat ≤ later.nextExpectedByte.toNat := by
  cases act with
  | store flags payload inOrder fits => exact (flow.stored_store bound carries payload inOrder fits).2
  | drain root others _ queue inOrder => exact (flow.stored_drain bound queue inOrder False.elim).2
  | _ => exact le_refl _

theorem Flow.next_le_handlePacket (flow : Flow False False x y toY toX)
    (bound : x.transmitted.length + 2 < 2 ^ 32) (carries : x.Carries packet) :
    y.sock.nextExpectedByte.toNat ≤ (y.handlePacket packet).1.sock.nextExpectedByte.toNat := by
  refine ((y.sock.handlePacket_acts packet).preserves (fun sock done =>
    Flow False False x { y with sock := sock } toY (toX ++ sends done) ∧
      y.sock.nextExpectedByte.toNat ≤ sock.nextExpectedByte.toNat) ?_
    ⟨by simpa [sends] using flow, le_refl _⟩).2
  rintro sock done more later ⟨held, reached⟩ act
  refine ⟨?_, reached.trans (held.act_next bound carries act)⟩
  rw [sends_append, ← List.append_assoc]
  exact held.act bound carries (fun _ _ _ whole => whole.elim) (fun _ _ graceful => graceful.elim) act

theorem Flow.next_le (flow : Flow False False x y toY toX) (bound : x.transmitted.length + 2 < 2 ^ 32)
    (moves : Moves y event out after)
    (arrived : ∀ packet, event = .handlePacket packet → packet ∈ toY) :
    y.sock.nextExpectedByte.toNat ≤ after.sock.nextExpectedByte.toNat := by
  rcases event.own_or_packet with own | ⟨packet, rfl⟩
  · rw [(moves.numbers own).2.2.2]
  · cases moves with
    | calls => exact le_refl _
    | packet => exact flow.next_le_handlePacket bound (flow.carried packet (arrived packet rfl))

theorem Moves.foreign (moves : Moves y event out after) :
    after.sock.foreignInitSeqNum = y.sock.foreignInitSeqNum := by
  rcases event.own_or_packet with own | ⟨packet, rfl⟩
  · exact (moves.numbers own).2.2.1
  · cases moves with
    | calls => rfl
    | packet => exact (y.handlePacket_numbers packet).2.2

/-! ## What a step builds -/

theorem Moves.ackNum (moves : Moves y event out after) (own : ∀ packet, event ≠ .handlePacket packet)
    (builds : event.builds = true) :
    ∀ packet ∈ out, packet.header.ackNum = y.sock.getAckHeader.ackNum := by
  intro packet member
  cases moves with
  | fin | probe | send =>
      cases List.mem_singleton.mp member
      rfl
  | resend => cases builds
  | packet packet => exact absurd rfl (own packet)
  | _ => cases member

/-- The packets of a step acknowledge everything that was stored, or the FIN. -/
theorem Flow.built (flow : Flow False False x y toY toX) (bound : x.transmitted.length + 2 < 2 ^ 32)
    (steps : y.step event = some (after, out))
    (arrived : ∀ packet, event = .handlePacket packet → packet ∈ toY)
    (below : after.sock.nextExpectedByte.toNat ≤ x.transmitted.length + 1)
    (builds : event.builds = true) : ∀ packet ∈ out, Confirms x after (event, packet) ∧
      (event.handlesFin = false → after.sock.relAckNum packet = after.sock.nextExpectedByte.toNat) := by
  intro packet member
  have moves := step_moves steps
  -- A packet from `getAckHeader` needs no more than its number.
  have plain : event.handlesFin = false → packet.header.ackNum = after.sock.getAckHeader.ackNum →
      Confirms x after (event, packet) ∧ (event.handlesFin = false →
        after.sock.relAckNum packet = after.sock.nextExpectedByte.toNat) := by
    intro noFin number
    have exact := TcpSocket.relAckNum_getAckHeader number
    refine ⟨?_, fun _ => exact⟩
    rw [Confirms, if_neg (by simp [noFin])]
    exact le_of_eq exact
  rcases event.own_or_packet with own | ⟨received, rfl⟩
  · obtain ⟨_, _, foreign, next⟩ := moves.numbers own
    refine plain ?_ ?_
    · cases event with
      | handlePacket received => exact absurd rfl (own received)
      | _ => rfl
    · rw [moves.ackNum own builds packet member]
      simp only [TcpSocket.getAckHeader, foreign, next]
  · have handled : y.handlePacket received = (after, out) := (step_handlePacket steps).2
    have sent : sends (y.sock.handlePacket received).2 = out := congrArg Prod.snd handled
    have sock : (y.sock.handlePacket received).1 = after.sock :=
      congrArg (fun result => result.1.sock) handled
    have answer := y.sock.handlePacket_ackNum received packet (sent ▸ member)
    rw [sock] at answer
    by_cases fin : received.hasFin = true
    · rw [if_pos fin] at answer
      obtain ⟨inOrder, number⟩ := answer
      obtain ⟨offset, seqNum, _, isFin⟩ := flow.carried received (arrived received rfl) (Or.inr fin)
      obtain ⟨_, _, finished, last⟩ := isFin fin
      have turn : y.sock.nextExpectedByte.toNat = x.transmitted.length + 1 := by
        rw [← inOrder, ← last]
        exact flow.relSeqNum seqNum (by omega)
      have next := flow.next_le bound moves arrived
      have exact := TcpSocket.relAckNum_getFinAckHeader number (by omega)
      have handlesFin : (Event.handlePacket received).handlesFin = true := fin
      refine ⟨?_, fun noFin => absurd (fin.symm.trans noFin) (by decide)⟩
      rw [Confirms, if_pos handlesFin]
      exact ⟨finished, exact.trans (by omega), by omega⟩
    · rw [if_neg fin] at answer
      exact plain (Bool.eq_false_iff.mpr fin) answer

end

end Endpoint

/-! ## Runs -/

/-- A connection with what one of its ends has built so far, each packet with the event that
built it. -/
structure AckLog (Buffer : Type) where
  conn : Connection Buffer
  built : List (Event × TcpPacket)

def Connection.builtBy (c : Connection Buffer) (side : Side) : Action → List (Event × TcpPacket)
  | .act actor event =>
      if actor = side ∧ event.builds = true then
        match (c.ends actor).step event with
        | some (_, out) => out.map fun packet => (event, packet)
        | none => []
      else []
  | _ => []

namespace Connection

open Endpoint

theorem step_transmitted {c after : Connection Buffer} {action : Action}
    (stepped : c.step action = some after) (side : Side) :
    (c.ends side).transmitted.length ≤ (after.ends side).transmitted.length := by
  cases step_steps stepped with
  | network ends net => rw [ends]
  | @act _ actor event out arrived steps still taken sent =>
      rcases side.eq_or_other actor with rfl | rfl
      · exact (step_moves steps).transmitted_le
      · rw [still]

variable {c after : Connection Buffer} {action : Action} {side : Side}

/-- What a step does to the numbers that acknowledgements rest on. -/
theorem Joint.progress (joint : c.Joint False False) (stepped : c.step action = some after)
    (bound : (c.ends side.other).transmitted.length + 2 < 2 ^ 32) :
    (after.ends side).sock.foreignInitSeqNum = (c.ends side).sock.foreignInitSeqNum ∧
      ((c.ends side.other).finished → (after.ends side.other).finished ∧
        (after.ends side.other).sent = (c.ends side.other).sent) ∧
      (c.ends side).sock.nextExpectedByte.toNat ≤ (after.ends side).sock.nextExpectedByte.toNat := by
  cases step_steps stepped with
  | network ends net =>
      rw [ends]
      exact ⟨rfl, fun finished => ⟨finished, rfl⟩, le_refl _⟩
  | @act _ actor event out arrived steps still taken sent =>
      have moves := step_moves steps
      rcases side.eq_or_other actor with rfl | rfl
      · rw [still]
        exact ⟨moves.foreign, fun finished => ⟨finished, rfl⟩,
          (joint.incoming bound).next_le bound moves arrived⟩
      · rw [still, Side.other_other]
        exact ⟨rfl, moves.afterFin, le_refl _⟩

theorem Joint.builtBy (joint : c.Joint False False) (stepped : c.step action = some after)
    (bound : (c.ends side.other).transmitted.length + 2 < 2 ^ 32)
    (below : (after.ends side).sock.nextExpectedByte.toNat ≤
      (after.ends side.other).transmitted.length + 1) :
    ∀ built ∈ c.builtBy side action,
      (after.ends side.other).Confirms (after.ends side) built ∧ (built.1.handlesFin = false →
        (after.ends side).sock.relAckNum built.2 = (after.ends side).sock.nextExpectedByte.toNat) := by
  intro built member
  cases action with
  | act actor event =>
      obtain ⟨out, arrived, steps, still⟩ := step_act stepped
      simp only [Connection.builtBy, steps] at member
      split at member
      · rename_i acts
        obtain ⟨rfl, builds⟩ := acts
        obtain ⟨packet, sent, rfl⟩ := List.mem_map.mp member
        rw [still] at below ⊢
        exact (joint.incoming bound).built bound steps arrived below builds packet sent
      · cases member
  | _ => cases member

end Connection

namespace AckLog

def step (side : Side) (log : AckLog Buffer) (action : Action) : Option (AckLog Buffer) :=
  (log.conn.step action).map fun after => ⟨after, log.built ++ log.conn.builtBy side action⟩

def relAckNums (side : Side) (log : AckLog Buffer) : List Nat :=
  log.built.map fun built => (log.conn.ends side).sock.relAckNum built.2

structure Kept (side : Side) (log : AckLog Buffer) : Prop where
  joint : log.conn.Joint False False
  confirms : (log.conn.ends side.other).transmitted.length + 2 < 2 ^ 32 →
    ∀ built ∈ log.built, (log.conn.ends side.other).Confirms (log.conn.ends side) built
  ordered : (log.conn.ends side.other).transmitted.length + 2 < 2 ^ 32 →
    log.built.Pairwise (log.conn.ends side).sock.Forward

theorem Kept.step {side : Side} {log after : AckLog Buffer} {action : Action} (kept : Kept side log)
    (stepped : log.step side action = some after) : Kept side after := by
  obtain ⟨conn, moved, rfl⟩ := Option.map_eq_some_iff.mp stepped
  have joint := kept.joint.step moved fun _ packet _ _ _ => Connection.handles_any _ packet
  suffices extended : (conn.ends side.other).transmitted.length + 2 < 2 ^ 32 →
      (∀ built ∈ log.built ++ log.conn.builtBy side action,
        (conn.ends side.other).Confirms (conn.ends side) built) ∧
      (log.built ++ log.conn.builtBy side action).Pairwise (conn.ends side).sock.Forward from
    ⟨joint, fun bound => (extended bound).1, fun bound => (extended bound).2⟩
  intro bound
  have before : (log.conn.ends side.other).transmitted.length + 2 < 2 ^ 32 := by
    have := Connection.step_transmitted moved side.other
    omega
  have below : (conn.ends side).sock.nextExpectedByte.toNat ≤
      (conn.ends side.other).transmitted.length + 1 := (joint.incoming bound).stored.below
  obtain ⟨foreign, stream, next⟩ := kept.joint.progress moved before
  have new := kept.joint.builtBy moved before below
  have all : ∀ built ∈ log.built ++ log.conn.builtBy side action,
      (conn.ends side.other).Confirms (conn.ends side) built := by
    intro built member
    rcases List.mem_append.mp member with old | fresh
    · exact (kept.confirms before built old).grow foreign stream next below
    · exact (new built fresh).1
  -- What is new comes after everything, what is old has the order it had.
  have comes : ∀ earlier ∈ log.built ++ log.conn.builtBy side action,
      ∀ later ∈ log.conn.builtBy side action, (conn.ends side).sock.Forward earlier later :=
    fun earlier member later fresh => (all earlier member).forward (new later fresh).1 (new later fresh).2
  refine ⟨all, List.pairwise_append.mpr ⟨?_, ?_, ?_⟩⟩
  · refine (kept.ordered before).imp fun held => ?_
    unfold TcpSocket.Forward TcpSocket.relAckNum at held ⊢
    rwa [foreign]
  · exact List.pairwise_of_forall_mem_list fun earlier member later fresh =>
      comes earlier (List.mem_append_right _ member) later fresh
  · exact fun earlier member later fresh => comes earlier (List.mem_append_left _ member) later fresh

theorem Kept.run {side : Side} {first last : AckLog Buffer}
    (run : Run (AckLog.step side) anyEvent first last) (kept : Kept side first) : Kept side last :=
  run.preserves (Kept side) (fun _ _ _ held _ stepped => held.step stepped) kept

/-- The relative acknowledgement numbers of what an end builds never go back, whatever the network
does, exactly if nothing but answers to the FIN is built after an answer to the FIN. -/
theorem relAckNums_sorted_iff {conn : TcpConn} {clientIsn serverIsn : UInt32} {side : Side}
    {log : AckLog Buffer}
    (run : Run (step side) anyEvent ⟨Connection.established conn clientIsn serverIsn, []⟩ log)
    (short : (log.conn.ends side.other).transmitted.length < 2 ^ 32 - 2) :
    (log.relAckNums side).Pairwise (· ≤ ·) ↔
      log.built.Pairwise fun earlier later =>
        earlier.1.handlesFin = true → later.1.handlesFin = true := by
  have kept := Kept.run run
    ⟨Connection.joint_established _ _ _ _ _, fun _ _ none => (List.not_mem_nil none).elim,
      fun _ => List.Pairwise.nil⟩
  have forward := kept.ordered (by omega)
  rw [relAckNums, List.pairwise_map]
  constructor
  · exact fun sorted => forward.imp₂ (fun _ _ same => same.mp) sorted
  · exact fun only => forward.imp₂ (fun _ _ same => same.mpr) only

end AckLog

end

namespace AckLog

open Connection

section
attribute [local instance] Netstack.standard

def byteAndFin : List Action :=
  sendsByte .client 7 ++
    [Action.act .server (.handlePacket (fromClient 101 201 tcpFlagAck [7])),
      Action.act .client (.vShutdown .write), Action.act .client .handleWrites,
      Action.act .client .handleWrites,
      Action.act .server (.handlePacket (fromClient 102 201 tcpFlagFin []))]

theorem byteAndFin_reached :
    (exec (step .server) anyEvent (⟨established loopback 100 200, []⟩ : AckLog Fifo)
      byteAndFin).isSome := by
  decide +kernel

theorem relAckNums_sorted_byteAndFin :
    ∃ log : AckLog Fifo, Run (step .server) anyEvent ⟨established loopback 100 200, []⟩ log ∧
      log.relAckNums .server = [2, 3] ∧ (log.relAckNums .server).Pairwise (· ≤ ·) := by
  refine ⟨_, Run.ofSome byteAndFin_reached, by decide +kernel, ?_⟩
  exact (relAckNums_sorted_iff (Run.ofSome byteAndFin_reached) (by decide +kernel)).mpr
    (by decide +kernel)

def halfClosed : List Action :=
  -- The client has sent its FIN and still reads; the server acknowledges the FIN and sends a byte.
  [Action.act .client (.vShutdown .write), Action.act .client .handleWrites,
    Action.act .client .handleWrites,
    Action.act .server (.handlePacket (fromClient 101 201 tcpFlagFin []))] ++
  sendsByte .server 7 ++
  [Action.act .client (.handlePacket (fromServer 201 102 tcpFlagAck [])),
    Action.act .client (.handlePacket (fromServer 201 101 tcpFlagAck [7]))]

theorem halfClosed_reached :
    (exec (step .server) anyEvent (⟨established loopback 100 200, []⟩ : AckLog Fifo)
      halfClosed).isSome := by
  decide +kernel

/-- The byte acknowledges less than the answer to the FIN, and the client drops it as old. -/
theorem relAckNums_go_back :
    ∃ log : AckLog Fifo, Run (step .server) anyEvent ⟨established loopback 100 200, []⟩ log ∧
      log.relAckNums .server = [2, 1] ∧ (log.conn.ends .client).sock.canRead = true ∧
      (log.conn.ends .client).sock.nextExpectedByte = 1 :=
  ⟨_, Run.ofSome halfClosed_reached, by decide +kernel, by decide +kernel, by decide +kernel⟩

end

end AckLog

end IpTcp.Tcp
