import IpTcp.Tcp.AckProcessing
import IpTcp.Tcp.HandshakeSteps

/-! The two ends agree on their initial sequence numbers. While the client has not sent
its FIN, a server socket that was started stays in the table and keeps other calls from
making one; and before one was started the client has heard nothing but SYN-ACKs, so that
all its packets acknowledge the SYN-ACK it took. -/

set_option autoImplicit false

namespace IpTcp.Tcp

open RingBuffer Lib

variable {Buffer : Type}

namespace Endpoint

structure Resends (allowed : TcpPacket → Prop) (e : Endpoint Buffer) : Prop where
  inFlight : ∀ item ∈ e.sock.inFlightList, allowed item.value
  unpushed : ∀ packet ∈ e.writer.unpushed, allowed packet

theorem Resends.weaken {allowed more : TcpPacket → Prop} {e : Endpoint Buffer}
    (resends : Resends allowed e) (implies : ∀ packet, allowed packet → more packet) : Resends more e :=
  ⟨fun item member => implies _ (resends.inFlight item member),
    fun packet member => implies _ (resends.unpushed packet member)⟩

structure Serving (e : Endpoint Buffer) : Prop where
  state : e.sock.connState.pastFin = false
  queue : ∀ entry ∈ PriorityQueue.entries e.sock.earlyArrivalQueue, entry.1.hasFin = false
  kept : e.deleted = false

variable [RingBuffer Buffer] [Netstack] {allowed : TcpPacket → Prop} {e after : Endpoint Buffer}
  {event : Event} {out : List TcpPacket} {packet : TcpPacket}

/-- As long as no FIN is sent, a step sends again what it may, or a new segment. -/
theorem Resends.moves (resends : Resends allowed e) (moves : Moves e event out after)
    (own : ∀ packet, event ≠ .handlePacket packet)
    (fresh : ∀ data, allowed (e.sock.conn.seal e.sock.getAckHeader data))
    (running : after.sock.connState = .established) :
    Resends allowed after ∧ ∀ packet ∈ out, allowed packet := by
  obtain ⟨inFlight, unpushed⟩ := resends
  cases moves with
  | packet packet => exact absurd rfl (own packet)
  | fin =>
      -- An end that has sent its FIN is not `ESTABLISHED`.
      exfalso
      simp only [sendFin] at running
      split at running <;> simp_all
  | probe | send =>
      refine ⟨⟨inFlight, fun packet member => ?_⟩, fun packet member => ?_⟩
      all_goals
        obtain rfl := List.mem_singleton.mp member
        exact fresh _
  | probePush packet pc | push packet payload pc =>
      refine ⟨⟨fun item member => ?_, by simp [WriterPc.unpushed]⟩, by simp⟩
      rcases List.mem_append.mp member with before | last
      · exact inFlight item before
      · obtain rfl := List.mem_singleton.mp last
        exact unpushed packet (by simp [pc, WriterPc.unpushed])
  | resend item rest front =>
      have allowedItem := inFlight item (by simp [front])
      refine ⟨⟨fun other member => ?_, unpushed⟩, fun packet member => ?_⟩
      · rcases List.mem_cons.mp member with rfl | later
        · exact allowedItem
        · exact inFlight other (by simp [front, later])
      · obtain rfl := List.mem_singleton.mp member
        exact allowedItem
  | count packet payload =>
      refine ⟨⟨inFlight, ?_⟩, by simp⟩
      simp only
      split <;> simp [WriterPc.unpushed]
  | toFin | toProbe | toSegment | none | take => exact ⟨⟨inFlight, by simp [WriterPc.unpushed]⟩, by simp⟩
  | _ => exact ⟨⟨inFlight, unpushed⟩, by simp⟩

theorem Resends.handles (resends : Resends allowed e) (packet : TcpPacket) :
    Resends allowed (e.handlePacket packet).1 := by
  refine ⟨fun item member => ?_, fun held member => ?_⟩
  · change item ∈ (e.sock.handlePacket packet).1.inFlightList at member
    rcases e.sock.handlePacket_sender packet with ⟨same, _⟩ | ⟨_, ⟨removed, acknowledges⟩, _⟩
    · rw [same.inFlightList] at member
      exact resends.inFlight item member
    · refine resends.inFlight item ?_
      rw [acknowledges.list]
      exact List.mem_append_right _ member
  · rw [handlePacket_unpushed] at member
    exact resends.unpushed held member

theorem handlePacket_answers (e : Endpoint Buffer) (packet : TcpPacket) :
    ∀ answer ∈ (e.handlePacket packet).2, ∃ header : TCPFields,
      answer = e.sock.conn.seal header [] ∧ header.flags = tcpFlagAck ∧
      header.srcPort = e.sock.conn.localPort ∧ header.dstPort = e.sock.conn.foreignPort := by
  refine ((e.sock.handlePacket_acts packet).preserves
    (fun sock effects => sock.conn = e.sock.conn ∧ ∀ answer ∈ sends effects, ∃ header : TCPFields,
      answer = e.sock.conn.seal header [] ∧ header.flags = tcpFlagAck ∧
      header.srcPort = e.sock.conn.localPort ∧ header.dstPort = e.sock.conn.foreignPort) ?_
    ⟨rfl, by simp [sends]⟩).2
  intro sock effects last more held act
  refine ⟨act.sameIdentity.conn.trans held.1, fun answer member => ?_⟩
  rw [sends_append] at member
  rcases List.mem_append.mp member with before | now
  · exact held.2 answer before
  · have sealed := sends_seal act answer now
    rw [held.1] at sealed
    exact sealed

theorem handlePacket_ignores (ack : packet.header.flags ≠ tcpFlagAck) (fin : packet.hasFin = false) :
    e.handlePacket packet = (e, []) := by
  have ignored : e.sock.handlePacket packet = (e.sock, []) := by
    unfold TcpSocket.handlePacket
    simp [ack, fin]
  simp [handlePacket, ignored, settle, sends]

/-- Without a FIN the peer's half of the connection stays open. -/
theorem Serving.act {sock sockAfter : TcpSocket Buffer} {effects : List Effect}
    {stores : TcpSocket Buffer → List Byte → Prop} {absorbs : ConnState → Prop}
    (serving : Serving { e with sock := sock })
    (act : TcpSocket.Act packet stores absorbs sock effects sockAfter) (fin : packet.hasFin = false) :
    Serving { e with sock := sockAfter } := by
  obtain ⟨state, queue, kept⟩ := serving
  cases act with
  | closing item rest _ _ _ _ _ last =>
      simp only [last] at state
      cases state
  | finInOrder _ _ isFin =>
      rw [fin] at isFin
      cases isFin
  | acked item =>
      refine ⟨?_, queue, kept⟩
      simp only [TcpSocket.withInFlight, TcpSocket.ackedItem_connState]
      split
      · rw [ConnState.pastFin_afterFinAcked]
        exact state
      · exact state
  | drain root others _ whole =>
      have data : root.value.header.flags ≠ tcpFlagFin := by
        intro flags
        have clean := queue (PriorityQueue.entry root) (by simp [whole, PriorityQueue.entries])
        rw [PriorityQueue.entry, TcpPacket.hasFin, flags] at clean
        cases clean
      refine ⟨?_, fun entry member => ?_, kept⟩
      · simp only [TcpSocket.drained, data, if_false]
        exact state
      · exact queue entry (TcpSocket.drained_entries whole entry member)
  | queue =>
      refine ⟨state, fun entry member => ?_, kept⟩
      rcases List.mem_cons.mp ((PriorityQueue.heapPush_entries _ _).mem_iff.mp member) with rfl | before
      · exact fin
      · exact queue entry before
  | _ => exact ⟨state, queue, kept⟩

theorem Serving.handles (serving : e.Serving) (fin : packet.hasFin = false) :
    (e.handlePacket packet).1.Serving := by
  obtain ⟨state, queue, kept⟩ := (e.sock.handlePacket_acts packet).preserves
    (fun sock _ => Serving { e with sock := sock }) (fun _ _ _ _ held act => held.act act fin) serving
  refine ⟨state, queue, ?_⟩
  have stays : .deleteConnSafe ∉ (e.sock.handlePacket packet).2 := by
    intro deletes
    simp only [handlePacket_deletes e.sock packet deletes] at state
    cases state
  simp only [handlePacket, settle, stays, decide_false, Bool.or_false]
  exact kept

theorem Serving.moves (serving : e.Serving) (moves : Moves e event out after)
    (fin : ∀ packet, event = .handlePacket packet → packet.hasFin = false) : after.Serving := by
  have state := serving.state
  cases moves with
  | packet packet => exact serving.handles (fin packet rfl)
  | expired ended =>
      rw [ended] at state
      cases state
  | fin =>
      refine ⟨?_, serving.queue, serving.kept⟩
      simp only [sendFin]
      split <;> simp_all [ConnState.pastFin]
  | _ => exact ⟨state, serving.queue, serving.kept⟩

end Endpoint

structure TcpPacket.SentOn (conn : TcpConn) (packet : TcpPacket) : Prop where
  srcIP : packet.srcIP = conn.localIP
  srcPort : packet.header.srcPort = conn.localPort
  dstPort : packet.header.dstPort = conn.foreignPort

namespace Handshake

open Endpoint

/-- The packet is on its way to the listener's node, or waits there to be read. -/
def Arriving (h : Handshake Buffer) (packet : TcpPacket) : Prop :=
  packet ∈ h.net .server ∨ ∃ channel, (channel, packet) ∈ h.handlers

/-- A server socket was started, so that the client may have heard from it. -/
def Heard (h : Handshake Buffer) : Prop := ∃ call e, h.stage call = some (.started e)

def Syn (conn : TcpConn) (isn : UInt32) (packet : TcpPacket) : Prop :=
  packet.SentOn conn ∧ packet.header.flags = tcpFlagSyn ∧ packet.header.seqNum = isn

/-- A packet of the client after its SYN, with the initial sequence number that it took
for the server's. -/
def Own (conn : TcpConn) (foreignIsn : UInt32) (heard : Prop) (packet : TcpPacket) : Prop :=
  packet.SentOn conn ∧ packet.header.flags = tcpFlagAck ∧
    (¬ heard → packet.header.ackNum = foreignIsn + 1)

theorem Own.weaken {conn : TcpConn} {foreignIsn : UInt32} {heard later : Prop} {packet : TcpPacket}
    (own : Own conn foreignIsn heard packet) (grows : heard → later) : Own conn foreignIsn later packet :=
  ⟨own.1, own.2.1, fun silent => own.2.2 fun before => silent (grows before)⟩

theorem receive_net (h : Handshake Buffer) (side : Side) (packet : TcpPacket) (other : Side) :
    (h.receive side packet).net other ⊆ h.net other := by
  rcases other.eq_or_other side with rfl | rfl
  · simpa [receive] using List.erase_subset
  · simp [receive]

theorem send_net (h : Handshake Buffer) (side : Side) (packets : List TcpPacket) (other : Side) :
    ∀ packet ∈ (h.send side packets).net other,
      packet ∈ h.net other ∨ (other = side ∧ packet ∈ packets) := by
  intro packet member
  rcases other.eq_or_other side with rfl | rfl
  · simpa [send] using member
  · exact Or.inl (by simpa [send] using member)

variable [RingBuffer Buffer]

structure Agreeing (conn : TcpConn) (isn : UInt32) (h : Handshake Buffer) : Prop where
  listener : h.listener = { ip := conn.foreignIP, port := conn.foreignPort }
  dialling : ∀ sock, h.connecting = .waiting sock → sock = makeTcpSocket .synSent conn 0 isn
  opened : ∀ e, h.connecting = .opened e → e.sock.conn = conn ∧ e.sock.myInitSeqNum = isn ∧
    e.Resends (Own conn e.sock.foreignInitSeqNum h.Heard) ∧ (¬ h.Heard → e.sock.nextExpectedByte = 1)
  arriving : ∀ packet, h.Arriving packet → Syn conn isn packet ∨
    ∃ e, h.connecting = .opened e ∧ Own conn e.sock.foreignInitSeqNum h.Heard packet
  replies : ¬ h.Heard → ∀ packet ∈ h.net .client, packet.header.flags = tcpFlagAck ||| tcpFlagSyn
  seated : ∀ call sock, h.acceptingSocket call = some sock → sock.conn = conn.reversed ∧
    sock.foreignInitSeqNum = isn ∧ h.sockets conn.reversed = some call
  waiting : ∀ call sock, h.stage call = some (.waiting sock) →
    ∃ syn serverIsn, sock = TcpSocket.acceptSyn conn.reversed syn serverIsn
  serving : ∀ call e, h.stage call = some (.started e) → e.Serving ∧
    (e.sock.connState = .established →
      ∃ c, h.connecting = .opened c ∧ c.sock.foreignInitSeqNum = e.sock.myInitSeqNum)

variable {conn : TcpConn} {isn : UInt32} {h after : Handshake Buffer}

/-- Only one call has a socket at a time. -/
theorem Agreeing.alone (agreeing : Agreeing conn isn h) {call other : Nat}
    {sock otherSock : TcpSocket Buffer} (one : h.acceptingSocket call = some sock)
    (two : h.acceptingSocket other = some otherSock) : other = call := by
  have first := (agreeing.seated call sock one).2.2
  have second := (agreeing.seated other otherSock two).2.2
  rw [first] at second
  exact (Option.some.inj second).symm

theorem Agreeing.network (agreeing : Agreeing conn isn h) (listener : after.listener = h.listener)
    (connecting : after.connecting = h.connecting) (accepting : after.accepting = h.accepting)
    (sockets : after.sockets = h.sockets) (arriving : ∀ packet, after.Arriving packet → h.Arriving packet)
    (replies : after.net .client ⊆ h.net .client) : Agreeing conn isn after := by
  have stage : after.stage = h.stage := by
    funext call
    simp only [Handshake.stage, accepting]
  have heard : after.Heard = h.Heard := by simp only [Heard, stage]
  refine ⟨listener.trans agreeing.listener, ?_, ?_, ?_, ?_, ?_, ?_, ?_⟩
  · rw [connecting]
    exact agreeing.dialling
  · rw [connecting, heard]
    exact agreeing.opened
  · intro packet member
    rw [connecting, heard]
    exact agreeing.arriving packet (arriving packet member)
  · rw [heard]
    exact fun silent packet member => agreeing.replies silent packet (replies member)
  · simp only [acceptingSocket, stage, sockets]
    exact agreeing.seated
  · rw [stage]
    exact agreeing.waiting
  · rw [stage, connecting]
    exact agreeing.serving

theorem Agreeing.silent (agreeing : Agreeing conn isn h) {call : Nat} {sock : TcpSocket Buffer}
    (pending : h.stage call = some (.waiting sock)) :
    (∀ other, other ≠ call → h.acceptingSocket other = none) ∧ ¬ h.Heard := by
  have seat : h.acceptingSocket call = some sock := by simp [acceptingSocket, pending, Accepting.socket]
  constructor
  · intro other different
    by_contra some
    obtain ⟨otherSock, found⟩ := Option.ne_none_iff_exists'.mp some
    exact different (agreeing.alone seat found)
  · rintro ⟨other, e, started⟩
    have found : h.acceptingSocket other = some e.sock := by
      simp [acceptingSocket, started, Accepting.socket]
    rw [agreeing.alone seat found, pending] at started
    cases started

theorem Agreeing.fails (agreeing : Agreeing conn isn h) {call : Nat} {sock : TcpSocket Buffer}
    (pending : h.stage call = some (.waiting sock)) :
    Agreeing conn isn (h.conclude call sock.conn .failed) := by
  obtain ⟨others, silent⟩ := agreeing.silent pending
  have stages := stage_conclude pending sock.conn .failed
  have vacant : ∀ other, (h.conclude call sock.conn .failed).acceptingSocket other = none := by
    intro other
    rw [acceptingSocket, stages]
    split
    · rfl
    · rename_i different
      exact others other different
  -- No other call had a socket, so none is left.
  have none : ∀ other a, (h.conclude call sock.conn .failed).stage other = some a → a = .failed := by
    intro other a found
    have empty := vacant other
    rw [acceptingSocket, found, Option.bind_some] at empty
    cases a <;> first | rfl | cases empty
  have still : ¬ (h.conclude call sock.conn .failed).Heard := by
    rintro ⟨other, e, started⟩
    cases none other _ started
  have heard : (h.conclude call sock.conn .failed).Heard = h.Heard :=
    propext (iff_of_false still silent)
  refine ⟨agreeing.listener, agreeing.dialling, ?_, ?_, ?_, ?_, ?_, ?_⟩
  · rw [heard]
    exact agreeing.opened
  · rw [heard]
    exact agreeing.arriving
  · exact fun _ => agreeing.replies silent
  · intro other otherSock found
    rw [vacant] at found
    cases found
  · intro other otherSock found
    cases none other _ found
  · intro other e found
    cases none other _ found

theorem Agreeing.starts (agreeing : Agreeing conn isn h) {call : Nat} {sock : TcpSocket Buffer}
    (pending : h.stage call = some (.waiting sock)) {e : Endpoint Buffer} (serving : e.Serving)
    (same : e.sock.conn = sock.conn ∧ e.sock.foreignInitSeqNum = sock.foreignInitSeqNum)
    (agrees : e.sock.connState = .established →
      ∃ c, h.connecting = .opened c ∧ c.sock.foreignInitSeqNum = e.sock.myInitSeqNum) :
    Agreeing conn isn (h.conclude call sock.conn (.started e)) := by
  obtain ⟨others, silent⟩ := agreeing.silent pending
  have seat : h.acceptingSocket call = some sock := by simp [acceptingSocket, pending, Accepting.socket]
  have stages := stage_conclude pending sock.conn (.started e)
  have heard : (h.conclude call sock.conn (.started e)).Heard := ⟨call, e, by rw [stages, if_pos rfl]⟩
  -- No other call has a socket.
  have only : ∀ other otherSock, (h.conclude call sock.conn (.started e)).acceptingSocket other =
      some otherSock → other = call ∧ otherSock = e.sock := by
    intro other otherSock found
    rw [acceptingSocket, stages] at found
    split at found
    · rename_i here
      exact ⟨here, (Option.some.inj found).symm⟩
    · rename_i different
      have := others other different
      rw [acceptingSocket] at this
      rw [this] at found
      cases found
  refine ⟨agreeing.listener, agreeing.dialling, ?_, ?_, ?_, ?_, ?_, ?_⟩
  · intro c isOpen
    obtain ⟨connected, number, resends, _⟩ := agreeing.opened c isOpen
    refine ⟨connected, number, resends.weaken fun packet own => own.weaken fun _ => heard,
      fun quiet => absurd heard quiet⟩
  · intro packet arrives
    rcases agreeing.arriving packet arrives with syn | ⟨c, isOpen, own⟩
    · exact Or.inl syn
    · exact Or.inr ⟨c, isOpen, own.weaken fun _ => heard⟩
  · exact fun quiet => absurd heard quiet
  · intro other otherSock found
    obtain ⟨rfl, rfl⟩ := only other otherSock found
    rw [same.1, same.2]
    exact agreeing.seated _ sock seat
  · intro other otherSock found
    have := only other otherSock (by simp [acceptingSocket, found, Accepting.socket])
    rw [this.1, stages, if_pos rfl] at found
    cases found
  · intro other otherE found
    have := only other otherE.sock (by simp [acceptingSocket, found, Accepting.socket])
    rw [this.1, stages, if_pos rfl] at found
    cases found
    exact ⟨serving, agrees⟩

theorem Agreeing.serves (agreeing : Agreeing conn isn h) {call : Nat} {e moved : Endpoint Buffer}
    (started : h.stage call = some (.started e)) (serving : moved.Serving)
    (same : moved.sock.conn = e.sock.conn ∧ moved.sock.myInitSeqNum = e.sock.myInitSeqNum ∧
      moved.sock.foreignInitSeqNum = e.sock.foreignInitSeqNum)
    (leads : e.sock.connState.Leads moved.sock.connState)
    (listener : after.listener = h.listener) (connecting : after.connecting = h.connecting)
    (accepting : after.accepting = h.accepting.set call (.started moved))
    (sockets : after.sockets = h.sockets)
    (arriving : ∀ packet, after.Arriving packet → h.Arriving packet) :
    Agreeing conn isn after := by
  have stages := stage_set started accepting
  have heard : after.Heard := ⟨call, moved, by rw [stages, if_pos rfl]⟩
  have before : h.Heard := ⟨call, e, started⟩
  have seat : h.acceptingSocket call = some e.sock := by simp [acceptingSocket, started, Accepting.socket]
  have equal : after.Heard = h.Heard := propext (iff_of_true heard before)
  refine ⟨listener.trans agreeing.listener, ?_, ?_, ?_, ?_, ?_, ?_, ?_⟩
  · rw [connecting]
    exact agreeing.dialling
  · rw [connecting, equal]
    exact agreeing.opened
  · intro packet arrives
    rw [connecting, equal]
    exact agreeing.arriving packet (arriving packet arrives)
  · exact fun quiet => absurd heard quiet
  · intro other sock found
    rw [acceptingSocket, stages] at found
    rw [sockets]
    split at found
    · rename_i here
      obtain rfl : moved.sock = sock := Option.some.inj found
      rw [same.1, same.2.2, here]
      exact agreeing.seated call _ seat
    · exact agreeing.seated other sock found
  · intro other sock found
    rw [stages] at found
    split at found
    · cases found
    · exact agreeing.waiting other sock found
  · intro other otherE found
    rw [stages] at found
    rw [connecting]
    split at found
    · cases found
      refine ⟨serving, fun established => ?_⟩
      rw [same.2.1]
      exact (agreeing.serving call e started).2 (leads.opened established)
    · exact agreeing.serving other otherE found

theorem Agreeing.accepts (agreeing : Agreeing conn isn h) (vacant : h.sockets conn.reversed = none)
    {syn : TCPFields} (number : syn.seqNum = isn) (serverIsn : UInt32)
    (listener : after.listener = h.listener) (connecting : after.connecting = h.connecting)
    (accepting : after.accepting =
      h.accepting ++ [.waiting (TcpSocket.acceptSyn conn.reversed syn serverIsn)])
    (sockets : after.sockets conn.reversed = some h.accepting.length)
    (arriving : ∀ packet, after.Arriving packet → h.Arriving packet)
    (replies : ∀ packet ∈ after.net .client, packet ∈ h.net .client ∨
      packet.header.flags = tcpFlagAck ||| tcpFlagSyn) :
    Agreeing conn isn after := by
  -- A call with a socket would have it in the table.
  have unseated : ∀ call sock, h.acceptingSocket call ≠ some sock := by
    intro call sock found
    have seat := (agreeing.seated call sock found).2.2
    rw [vacant] at seat
    cases seat
  have stages : ∀ call a, after.stage call = some a → h.stage call = some a ∨
      (call = h.accepting.length ∧ a = .waiting (TcpSocket.acceptSyn conn.reversed syn serverIsn)) := by
    intro call a found
    rw [stage_append accepting] at found
    split at found
    · rename_i last
      exact Or.inr ⟨last, (Option.some.inj found).symm⟩
    · exact Or.inl found
  have heard : after.Heard = h.Heard := by
    refine propext ⟨?_, ?_⟩
    · rintro ⟨call, e, started⟩
      rcases stages call _ started with before | ⟨_, last⟩
      · exact ⟨call, e, before⟩
      · cases last
    · rintro ⟨call, e, started⟩
      exact absurd (by simp [acceptingSocket, started, Accepting.socket]) (unseated call e.sock)
  refine ⟨listener.trans agreeing.listener, ?_, ?_, ?_, ?_, ?_, ?_, ?_⟩
  · rw [connecting]
    exact agreeing.dialling
  · rw [connecting, heard]
    exact agreeing.opened
  · intro packet arrives
    rw [connecting, heard]
    exact agreeing.arriving packet (arriving packet arrives)
  · rw [heard]
    intro silent packet member
    rcases replies packet member with before | fresh
    · exact agreeing.replies silent packet before
    · exact fresh
  · intro call sock found
    obtain ⟨a, present, socket⟩ := Option.bind_eq_some_iff.mp found
    rcases stages call a present with before | ⟨last, rfl⟩
    · exact absurd (by simp [acceptingSocket, before, socket]) (unseated call sock)
    · cases socket
      rw [last]
      exact ⟨rfl, number, sockets⟩
  · intro call sock found
    rcases stages call _ found with before | ⟨_, last⟩
    · exact agreeing.waiting call sock before
    · cases last
      exact ⟨syn, serverIsn, rfl⟩
  · intro call e found
    rw [connecting]
    rcases stages call _ found with before | ⟨_, last⟩
    · exact agreeing.serving call e before
    · cases last

theorem Agreeing.moves (agreeing : Agreeing conn isn h) {c : Endpoint Buffer}
    (connected : c.sock.conn = conn) (number : c.sock.myInitSeqNum = isn)
    (resends : c.Resends (Own conn c.sock.foreignInitSeqNum h.Heard))
    (expects : ¬ h.Heard → c.sock.nextExpectedByte = 1)
    (foreign : ∀ before, h.connecting = .opened before →
      before.sock.foreignInitSeqNum = c.sock.foreignInitSeqNum)
    (listener : after.listener = h.listener) (connecting : after.connecting = .opened c)
    (accepting : after.accepting = h.accepting) (sockets : after.sockets = h.sockets)
    (arriving : ∀ packet, after.Arriving packet →
      h.Arriving packet ∨ Own conn c.sock.foreignInitSeqNum h.Heard packet)
    (replies : after.net .client ⊆ h.net .client) : Agreeing conn isn after := by
  have stage : after.stage = h.stage := by
    funext call
    simp only [Handshake.stage, accepting]
  have heard : after.Heard = h.Heard := by simp only [Heard, stage]
  refine ⟨listener.trans agreeing.listener, ?_, ?_, ?_, ?_, ?_, ?_, ?_⟩
  · intro sock waiting
    rw [connecting] at waiting
    cases waiting
  · intro e isOpen
    rw [connecting] at isOpen
    cases isOpen
    rw [heard]
    exact ⟨connected, number, resends, expects⟩
  · intro packet arrives
    rw [heard]
    rcases arriving packet arrives with before | own
    · rcases agreeing.arriving packet before with syn | ⟨first, isOpen, own⟩
      · exact Or.inl syn
      · rw [foreign first isOpen] at own
        exact Or.inr ⟨c, connecting, own⟩
    · exact Or.inr ⟨c, connecting, own⟩
  · rw [heard]
    exact fun silent packet member => agreeing.replies silent packet (replies member)
  · simp only [acceptingSocket, stage, sockets]
    exact agreeing.seated
  · rw [stage]
    exact agreeing.waiting
  · intro call e started
    rw [stage] at started
    obtain ⟨serving, agrees⟩ := agreeing.serving call e started
    refine ⟨serving, fun established => ⟨c, connecting, ?_⟩⟩
    obtain ⟨before, isOpen, equal⟩ := agrees established
    rw [← foreign before isOpen, equal]

/-! ## The steps -/

theorem Agreeing.routes (agreeing : Agreeing conn isn h) {packet : TcpPacket}
    (member : packet ∈ h.net .server) :
    Agreeing conn isn ((h.receive .server packet).tcpHandler packet) := by
  have arriving (channel : Option Nat) (other : TcpPacket)
      (arrives : Arriving { h.receive .server packet with
        handlers := h.handlers ++ [(channel, packet)] } other) : h.Arriving other := by
    rcases arrives with way | ⟨otherChannel, waits⟩
    · exact Or.inl (receive_net h .server packet .server way)
    · rcases List.mem_append.mp waits with before | last
      · exact Or.inr ⟨otherChannel, before⟩
      · cases List.mem_singleton.mp last
        exact Or.inl member
  have replies := receive_net h .server packet .client
  unfold tcpHandler
  split
  · exact agreeing.network rfl rfl rfl rfl (arriving _) replies
  split
  · exact agreeing.network rfl rfl rfl rfl (arriving _) replies
  · refine agreeing.network rfl rfl rfl rfl ?_ replies
    rintro other (way | waits)
    · exact Or.inl (receive_net h .server packet .server way)
    · exact Or.inr waits

theorem Agreeing.reads (agreeing : Agreeing conn isn h) (taken : Option Nat × TcpPacket) :
    Agreeing conn isn { h with handlers := h.handlers.erase taken } := by
  refine agreeing.network rfl rfl rfl rfl ?_ (List.Subset.refl _)
  rintro packet (way | ⟨channel, waits⟩)
  · exact Or.inl way
  · exact Or.inr ⟨channel, List.mem_of_mem_erase waits⟩

theorem Agreeing.answers (agreeing : Agreeing conn isn h) {call : Nat} {sock : TcpSocket Buffer}
    (pending : h.stage call = some (.waiting sock)) {packet : TcpPacket}
    (known : Syn conn isn packet ∨
      ∃ c, h.connecting = .opened c ∧ Own conn c.sock.foreignInitSeqNum h.Heard packet) :
    Agreeing conn isn (h.conclude call sock.conn (acceptReceive sock packet)) := by
  obtain ⟨syn, serverIsn, made⟩ := agreeing.waiting call sock pending
  have silent := (agreeing.silent pending).2
  unfold acceptReceive
  split
  · rename_i ack
    split
    · exact agreeing.fails pending
    split
    · exact agreeing.fails pending
    · rename_i number
      refine agreeing.starts pending ?_ ⟨rfl, rfl⟩ fun _ => ?_
      · subst made
        exact ⟨rfl, by simp [start, TcpSocket.acceptAck, TcpSocket.acceptSyn, makeTcpSocket,
          PriorityQueue.entries], rfl⟩
      · rcases known with ⟨_, flags, _⟩ | ⟨c, isOpen, own⟩
        · rw [flags] at ack
          exact absurd rfl ack
        · refine ⟨c, isOpen, ?_⟩
          -- Before a server has started, the client acknowledges the initial sequence number it was given.
          have acknowledged := own.2.2 silent
          rw [acknowledged] at number
          simp only [ne_eq, not_not] at number
          change c.sock.foreignInitSeqNum = sock.myInitSeqNum
          grind
  · -- Without the ACK flag the socket goes on in `SYN_SENT`.
    refine agreeing.starts pending ?_ ⟨rfl, rfl⟩ fun established => ?_
    · subst made
      exact ⟨rfl, by simp [start, TcpSocket.acceptSyn, makeTcpSocket, PriorityQueue.entries], rfl⟩
    · subst made
      cases established

section
variable [Netstack]

theorem Agreeing.connects (agreeing : Agreeing conn isn h) {sock : TcpSocket Buffer}
    (dialling : h.connecting = .waiting sock) {packet : TcpPacket} {connecting : Connecting Buffer}
    {out : List TcpPacket} (result : connectReceive sock packet = (connecting, out))
    (live : Live { (h.receive .client packet).send .server out with connecting := connecting }) :
    Agreeing conn isn { (h.receive .client packet).send .server out with connecting := connecting } := by
  have made := agreeing.dialling sock dialling
  unfold connectReceive at result
  split at result
  · cases result
    exact live.elim
  split at result
  · cases result
    exact live.elim
  split at result
  · cases result
    exact live.elim
  cases result
  subst made
  refine agreeing.moves rfl rfl ⟨by simp [start, TcpSocket.connectSynAck, makeTcpSocket],
    by simp [start, WriterPc.unpushed]⟩ (fun _ => rfl) ?_ rfl rfl rfl rfl ?_ ?_
  · intro before isOpen
    rw [dialling] at isOpen
    cases isOpen
  · rintro other (way | waits)
    · rcases send_net (h.receive .client packet) .server _ .server other way with before | ⟨_, fresh⟩
      · exact Or.inl (Or.inl (receive_net h .client packet .server before))
      · obtain rfl := List.mem_singleton.mp fresh
        exact Or.inr ⟨⟨rfl, rfl, rfl⟩, rfl, fun _ => rfl⟩
    · exact Or.inl (Or.inr waits)
  · exact receive_net h .client packet .client

theorem Agreeing.client (agreeing : Agreeing conn isn h) {e moved : Endpoint Buffer}
    (isOpen : h.connecting = .opened e) {event : Tcp.Event} {out waiting : List TcpPacket}
    (moves : Moves e event out moved) (left : waiting ⊆ h.net .client)
    (received : ∀ packet, event = .handlePacket packet → packet ∈ h.net .client)
    (running : moved.sock.connState = .established) :
    Agreeing conn isn { Handshake.send { h with net := Function.update h.net .client waiting } .server out with
      connecting := .opened moved } := by
  obtain ⟨connected, number, resends, expects⟩ := agreeing.opened e isOpen
  suffices known : moved.sock.conn = e.sock.conn ∧ moved.sock.myInitSeqNum = e.sock.myInitSeqNum ∧
      moved.sock.foreignInitSeqNum = e.sock.foreignInitSeqNum ∧
      (¬ h.Heard → moved.sock.nextExpectedByte = 1) ∧
      moved.Resends (Own conn e.sock.foreignInitSeqNum h.Heard) ∧
      ∀ packet ∈ out, Own conn e.sock.foreignInitSeqNum h.Heard packet by
    obtain ⟨sameConn, sameNumber, sameForeign, next, again, sends⟩ := known
    refine agreeing.moves (sameConn.trans connected) (sameNumber.trans number) ?_ next ?_ rfl rfl rfl rfl
      ?_ left
    · rw [sameForeign]
      exact again
    · intro before was
      rw [isOpen] at was
      cases was
      exact sameForeign.symm
    · rw [sameForeign]
      rintro packet (way | waits)
      · rcases send_net { h with net := Function.update h.net .client waiting } .server out .server packet
          way with before | ⟨_, fresh⟩
        · exact Or.inl (Or.inl before)
        · exact Or.inr (sends packet fresh)
      · exact Or.inl (Or.inr waits)
  rcases event.own_or_packet with own | ⟨packet, rfl⟩
  · obtain ⟨sameConn, sameNumber, sameForeign, sameNext⟩ := moves.numbers own
    refine ⟨sameConn, sameNumber, sameForeign, fun silent => sameNext.trans (expects silent), ?_⟩
    refine resends.moves moves own (fun data => ⟨⟨?_, ?_, ?_⟩, rfl, fun silent => ?_⟩) running
    · exact congrArg TcpConn.localIP connected
    · exact congrArg TcpConn.localPort connected
    · exact congrArg TcpConn.foreignPort connected
    · change e.sock.nextExpectedByte + e.sock.foreignInitSeqNum = e.sock.foreignInitSeqNum + 1
      rw [expects silent]
      exact UInt32.add_comm ..
  · cases moves with
    | packet =>
        by_cases heard : h.Heard
        · obtain ⟨sameConn, sameNumber, sameForeign⟩ := e.handlePacket_numbers packet
          refine ⟨sameConn, sameNumber, sameForeign, fun silent => absurd heard silent,
            resends.handles packet, fun answer member => ?_⟩
          obtain ⟨header, rfl, flags, srcPort, dstPort⟩ := e.handlePacket_answers packet answer member
          rw [connected] at srcPort dstPort ⊢
          exact ⟨⟨rfl, srcPort, dstPort⟩, flags, fun silent => absurd heard silent⟩
        · -- Before a server has started, only SYN-ACKs come to the client.
          have flags := agreeing.replies heard packet (received packet rfl)
          have ignored : e.handlePacket packet = (e, []) := by
            refine handlePacket_ignores ?_ ?_
            · rw [flags]
              decide
            · rw [TcpPacket.hasFin, flags]
              decide
          rw [ignored]
          exact ⟨rfl, rfl, rfl, expects, resends, by simp⟩
    | calls => exact ⟨rfl, rfl, rfl, expects, ⟨resends.inFlight, resends.unpushed⟩, by simp⟩

theorem Agreeing.server (agreeing : Agreeing conn isn h) {call : Nat} {e moved : Endpoint Buffer}
    (started : h.stage call = some (.started e)) {event : Tcp.Event} {out : List TcpPacket}
    (moves : Moves e event out moved) {handlers : List (Option Nat × TcpPacket)}
    (left : handlers ⊆ h.handlers)
    (received : ∀ packet, event = .handlePacket packet → h.Arriving packet) :
    moved.deleted = false ∧ Agreeing conn isn { h.send .client out with
      accepting := h.accepting.set call (.started moved), handlers := handlers } := by
  have serving := (agreeing.serving call e started).1.moves moves fun packet handles => ?_
  · refine ⟨serving.kept, agreeing.serves started serving ?_ moves.leads rfl rfl rfl rfl ?_⟩
    · rcases event.own_or_packet with own | ⟨packet, rfl⟩
      · obtain ⟨sameConn, sameNumber, sameForeign, _⟩ := moves.numbers own
        exact ⟨sameConn, sameNumber, sameForeign⟩
      · cases moves with
        | packet => exact e.handlePacket_numbers packet
        | calls => exact ⟨rfl, rfl, rfl⟩
    · rintro packet (way | ⟨channel, waits⟩)
      · exact Or.inl way
      · exact Or.inr ⟨channel, left waits⟩
  · rcases agreeing.arriving packet (received packet handles) with ⟨_, flags, _⟩ | ⟨_, _, _, flags, _⟩
    · rw [TcpPacket.hasFin, flags]
      decide
    · exact hasFin_of_ack flags

theorem Agreeing.listens (agreeing : Agreeing conn isn h) (serverIsn : UInt32) {packet : TcpPacket}
    (known : Syn conn isn packet ∨
      ∃ c, h.connecting = .opened c ∧ Own conn c.sock.foreignInitSeqNum h.Heard packet) :
    Agreeing conn isn (h.vAccept serverIsn packet) := by
  unfold vAccept
  split
  · exact agreeing
  rename_i flags
  simp only [ne_eq, not_not] at flags
  -- All but the SYN have the ACK flag.
  obtain ⟨sentOn, _, number⟩ : Syn conn isn packet := by
    rcases known with syn | ⟨_, _, _, ack, _⟩
    · exact syn
    · rw [flags] at ack
      cases ack
  have reversed : h.listener.connFor packet = conn.reversed := by
    simp only [TcpListener.connFor, agreeing.listener, sentOn.srcIP, sentOn.srcPort]
    rfl
  dsimp only
  rw [reversed]
  split
  · exact agreeing
  split
  · exact agreeing
  rename_i vacant _
  simp only [Bool.not_eq_true, Option.isSome_eq_false_iff, Option.isNone_iff_eq_none] at vacant
  refine agreeing.accepts vacant number serverIsn rfl rfl rfl (Function.update_self ..) ?_ ?_
  · rintro other (way | waits)
    · exact Or.inl way
    · exact Or.inr waits
  · intro other member
    rcases send_net h .client _ .client other member with before | ⟨_, fresh⟩
    · exact Or.inl before
    · obtain rfl := List.mem_singleton.mp fresh
      exact Or.inr rfl

theorem Agreeing.step (agreeing : Agreeing conn isn h) {event : Event}
    (stepped : h.step event = some after) (live : after.Live) : Agreeing conn isn after := by
  cases event with
  | lose side packet =>
      simp only [Handshake.step] at stepped
      split at stepped
      · cases stepped
        refine agreeing.network rfl rfl rfl rfl ?_ (receive_net ..)
        rintro other (way | waits)
        · exact Or.inl (receive_net h side packet .server way)
        · exact Or.inr waits
      · cases stepped
  | duplicate side packet =>
      simp only [Handshake.step] at stepped
      split at stepped
      · rename_i member
        cases stepped
        have same : ∀ other, (h.send side [packet]).net other ⊆ h.net other := by
          intro other found present
          rcases send_net h side [packet] other found present with before | ⟨rfl, again⟩
          · exact before
          · obtain rfl := List.mem_singleton.mp again
            exact member
        refine agreeing.network rfl rfl rfl rfl ?_ (same .client)
        rintro other (way | waits)
        · exact Or.inl (same .server way)
        · exact Or.inr waits
      · cases stepped
  | connectReceive packet =>
      simp only [Handshake.step] at stepped
      split at stepped
      · rename_i sock dialling
        split at stepped
        · cases stepped
          exact agreeing.connects dialling rfl live
        · cases stepped
      · cases stepped
  | connectStops =>
      simp only [Handshake.step] at stepped
      split at stepped
      · cases stepped
        exact live.elim
      · cases stepped
  | client event =>
      simp only [Handshake.step] at stepped
      split at stepped
      · rename_i e isOpen
        split at stepped
        · rename_i waiting moved out consumed moves
          cases stepped
          obtain ⟨received, left⟩ := Event.consume_subset consumed
          exact agreeing.client isOpen (step_moves moves) left received live
        · cases stepped
      · cases stepped
  | tcpHandler packet =>
      simp only [Handshake.step] at stepped
      split at stepped
      · rename_i member
        cases stepped
        exact agreeing.routes member
      · cases stepped
  | vAccept serverIsn packet =>
      simp only [Handshake.step] at stepped
      split at stepped
      · rename_i member
        cases stepped
        have known := agreeing.arriving packet (Or.inr ⟨_, member⟩)
        exact (agreeing.reads (none, packet)).listens serverIsn known
      · cases stepped
  | acceptReceive call packet =>
      simp only [Handshake.step] at stepped
      split at stepped
      · rename_i sock pending
        split at stepped
        · rename_i member
          cases stepped
          have known := agreeing.arriving packet (Or.inr ⟨_, member⟩)
          exact (agreeing.reads (some call, packet)).answers pending known
        · cases stepped
      · cases stepped
  | acceptTimeout call =>
      simp only [Handshake.step] at stepped
      split at stepped
      · rename_i sock pending
        cases stepped
        exact agreeing.fails pending
      · cases stepped
  | server call event =>
      simp only [Handshake.step] at stepped
      split at stepped
      · rename_i e started
        split at stepped
        · rename_i handlers moved out read moves
          obtain ⟨received, left⟩ := Event.read_subset read
          obtain ⟨kept, agreeing⟩ := agreeing.server started (step_moves moves) left fun packet handles =>
            Or.inr ⟨_, received packet handles⟩
          rw [if_neg (by simp [kept])] at stepped
          cases stepped
          exact agreeing
        · cases stepped
      · cases stepped

theorem agreeing_dialled (conn : TcpConn) (isn : UInt32) :
    Agreeing conn isn (dialled conn isn : Handshake Buffer) := by
  have none : ∀ call, (dialled conn isn : Handshake Buffer).stage call = none := fun _ => rfl
  refine ⟨rfl, ?_, ?_, ?_, ?_, ?_, ?_, ?_⟩
  · rintro sock ⟨rfl⟩
    rfl
  · intro e isOpen
    cases isOpen
  · rintro packet (way | ⟨_, waits⟩)
    · obtain rfl := List.mem_singleton.mp way
      exact Or.inl ⟨⟨rfl, rfl, rfl⟩, rfl, rfl⟩
    · cases waits
  · intro _ packet member
    cases member
  · intro call sock found
    cases found
  · intro call sock found
    rw [none] at found
    cases found
  · intro call e found
    rw [none] at found
    cases found

theorem Agreeing.run (run : Run Handshake.step anyEvent (dialled conn isn) h) (live : h.Live) :
    Agreeing conn isn h := by
  refine run.preserves (fun h => h.Live → Agreeing conn isn h) ?_ (fun _ => agreeing_dialled conn isn) live
  intro before event after agreeing _ stepped alive
  exact (agreeing (live_before stepped alive)).step stepped alive

/-- Where both ends are `ESTABLISHED` they agree on their initial sequence numbers; and an
end that becomes so has sent and received nothing. -/
theorem established_agree (run : Run step anyEvent (dialled conn isn) h) :
    (∀ client call server, h.connecting.socket = some client → client.connState = .established →
      h.acceptingSocket call = some server → server.connState = .established →
      client.foreignInitSeqNum = server.myInitSeqNum ∧
        server.foreignInitSeqNum = client.myInitSeqNum) ∧
    ∀ event after, h.step event = some after →
      (∀ sock, after.connecting.socket = some sock → sock.connState = .established →
        (∃ before, h.connecting.socket = some before ∧ before.connState = .established) ∨
          sock.nextExpectedByte = 1 ∧ sock.numBytesSent = 0) ∧
      ∀ call sock, after.acceptingSocket call = some sock → sock.connState = .established →
        (∃ before, h.acceptingSocket call = some before ∧ before.connState = .established) ∨
          sock.nextExpectedByte = 1 ∧ sock.numBytesSent = 0 := by
  have fresh := fresh_run run
  refine ⟨?_, fun event after stepped => fresh.establishes stepped⟩
  intro client call server connected clientOpen accepted serverOpen
  cases connecting : h.connecting with
  | failed =>
      rw [connecting] at connected
      cases connected
  | waiting sock =>
      rw [connecting] at connected
      cases connected
      exact absurd clientOpen (fresh.connecting _ connecting).2
  | opened c =>
      rw [connecting] at connected
      cases connected
      have live : h.Live := by
        rw [Live, connecting]
        exact clientOpen
      have agreeing := Agreeing.run run live
      obtain ⟨_, number, _⟩ := agreeing.opened c connecting
      obtain ⟨_, foreign, _⟩ := agreeing.seated call server accepted
      obtain ⟨stage, found, socket⟩ := Option.bind_eq_some_iff.mp accepted
      cases stage with
      | failed => cases socket
      | waiting sock =>
          cases socket
          exact absurd serverOpen (fresh.accepting call _ found).2.2
      | started e =>
          cases socket
          obtain ⟨other, same, agrees⟩ := (agreeing.serving call e found).2 serverOpen
          rw [connecting] at same
          cases same
          exact ⟨agrees, by rw [foreign, number]⟩

end

section
attribute [local instance] Netstack.standard

def shakesHands : List Event :=
  -- The handshake with nothing lost, after a first call that was given up.
  [.duplicate .server (Connection.fromClient 100 0 tcpFlagSyn []),
    .tcpHandler (Connection.fromClient 100 0 tcpFlagSyn []),
    .vAccept 300 (Connection.fromClient 100 0 tcpFlagSyn []), .acceptTimeout 0,
    .tcpHandler (Connection.fromClient 100 0 tcpFlagSyn []),
    .vAccept 200 (Connection.fromClient 100 0 tcpFlagSyn []),
    .connectReceive (Connection.fromServer 200 101 (tcpFlagSyn ||| tcpFlagAck) []),
    .tcpHandler (Connection.fromClient 101 201 tcpFlagAck []),
    .acceptReceive 1 (Connection.fromClient 101 201 tcpFlagAck [])]

theorem shakesHands_isSome :
    (exec step anyEvent (dialled loopback 100 : Handshake Fifo) shakesHands).isSome := by
  decide +kernel

theorem shakesHands_client :
    (((exec step anyEvent (dialled loopback 100 : Handshake Fifo) shakesHands).get
      shakesHands_isSome).connecting.socket).isSome := by
  decide +kernel

theorem shakesHands_server :
    (((exec step anyEvent (dialled loopback 100 : Handshake Fifo) shakesHands).get
      shakesHands_isSome).acceptingSocket 1).isSome := by
  decide +kernel

theorem established_agree_shakesHands :
    ∃ h : Handshake Fifo, Run step anyEvent (dialled loopback 100) h ∧
      ∃ client server, h.connecting.socket = some client ∧ client.connState = .established ∧
        h.acceptingSocket 1 = some server ∧ server.connState = .established ∧
        client.foreignInitSeqNum = server.myInitSeqNum ∧
        server.foreignInitSeqNum = client.myInitSeqNum := by
  refine ⟨_, Run.ofSome shakesHands_isSome, _, _, (Option.some_get shakesHands_client).symm,
    by decide +kernel, (Option.some_get shakesHands_server).symm, by decide +kernel, ?_⟩
  exact (established_agree (Run.ofSome shakesHands_isSome)).1 _ 1 _
    (Option.some_get shakesHands_client).symm (by decide +kernel)
    (Option.some_get shakesHands_server).symm (by decide +kernel)

end

end Handshake

end IpTcp.Tcp
