import IpTcp.Internet.Stack
import IpTcp.Lib.Simulation
import IpTcp.Tcp.Progress

/-! The connection over the internet is the connection over a network that loses, duplicates and
reorders segments: whatever the routes, the other traffic and the handlers do, its ends behave as
two sockets that are joined directly. What holds for every run of those holds here. -/

set_option autoImplicit false

namespace IpTcp.Internet

open Lib Lib.Bytes Network Rip
open Network.FwdTable (SendCall)
open Tcp (Netstack Endpoint RingBuffer Side TcpConn TcpPacket Connection Issued tcpProtocolNum)

instance : Fintype Side := ⟨{.client, .server}, fun side => by cases side <;> decide⟩

/-! ## Messages and segments -/

section
variable {Host : Type}

/-- A call that is read at an end as a segment of the connection is one of those in `net`. -/
def Genuine (place : Placement Host) (net : Side → List TcpPacket) (origin : Host) (call : SendCall) : Prop :=
  ∀ side, call.protocol = tcpProtocolNum → call.destIP = (connAt place.conn side).localIP →
    origin = place.host side.other →
    headerLen + call.msg.length < 65536 ∧
      ∀ tcpPacket ∈ Tcp.unmarshalTcpPacket call.msg (connAt place.conn side).foreignIP,
        tcpPacket.header.dstPort = (connAt place.conn side).localPort →
        tcpPacket.header.srcPort = (connAt place.conn side).foreignPort → tcpPacket ∈ net side

instance [DecidableEq Host] (place : Placement Host) (net : Side → List TcpPacket) (origin : Host)
    (call : SendCall) : Decidable (Genuine place net origin call) := by
  unfold Genuine
  infer_instance

theorem Genuine.mono {place : Placement Host} {net more : Side → List TcpPacket} {origin : Host}
    {call : SendCall} (genuine : Genuine place net origin call) (subset : ∀ side, net side ⊆ more side) :
    Genuine place more origin call := by
  intro side protocol destination source
  obtain ⟨short, listed⟩ := genuine side protocol destination source
  exact ⟨short, fun packet read dst src => subset side (listed packet read dst src)⟩

theorem genuine_ripCall (place : Placement Host) (net : Side → List TcpPacket) (origin : Host)
    (message : IntIP × RipPacket) : Genuine place net origin (FwdTable.ripCall message) := by
  -- Another protocol has no segments.
  intro side protocol
  exact absurd protocol (by decide : ripProtocolNum ≠ tcpProtocolNum)

variable [Netstack]

/-- The segments of an end are read back as they were. -/
theorem unmarshal_issued (encodes : ∀ tcpHdr, Netstack.encode tcpHdr = Tcp.layout tcpHdr) {conn : TcpConn}
    {packet : TcpPacket} (issued : Issued conn packet) :
    Tcp.unmarshalTcpPacket packet.marshal conn.localIP = some packet := by
  have read := Tcp.unmarshalTcpPacket_marshal issued.offset issued.urgent conn.localIP
  have same : packet.marshal = @TcpPacket.marshal Netstack.exact packet := by
    show _ = Tcp.layout packet.header ++ packet.data
    rw [TcpPacket.marshal, encodes]
  rw [same, read, ← issued.source]

theorem genuine_issued (encodes : ∀ tcpHdr, Netstack.encode tcpHdr = Tcp.layout tcpHdr)
    {place : Placement Host} {net : Side → List TcpPacket} {side : Side} {packet : TcpPacket}
    (issued : Issued (connAt place.conn side) packet) (listed : packet ∈ net side.other) (origin : Host) :
    Genuine place net origin ⟨(connAt place.conn side).foreignIP, tcpProtocolNum, packet.marshal⟩ := by
  intro receiver _ destination _
  rcases receiver.eq_or_other side with rfl | rfl
  · -- The addresses of the ends differ, so an end does not send to itself.
    have apart := place.apart
    cases receiver
    · exact absurd destination.symm apart
    · exact absurd destination apart
  · rw [connAt_other]
    refine ⟨?_, ?_⟩
    · have bytes : packet.marshal.length = 20 + packet.data.length := by
        rw [TcpPacket.marshal, encodes, List.length_append, Tcp.layout_length]
      have short := issued.short
      have size : Tcp.tcpMaxSegmentSize = 1024 := rfl
      show headerLen + packet.marshal.length < 65536
      simp only [bytes, headerLen]
      omega
    · intro read member _ _
      have same : read = packet := by
        have := unmarshal_issued encodes issued
        exact Option.some_injective _ ((Option.mem_def.mp member).symm.trans this)
      rw [same]
      exact listed

end

/-! ## The network -/

section
variable {Host : Type} {place : Placement Host} {segments : Side → List TcpPacket}

structure Bears (place : Placement Host) (segments : Side → List TcpPacket) (net : Net Host) : Prop where
  bearing : Bearing place.topology (Genuine place segments) net
  own : ∀ host, OwnNumber (net.tables host)

theorem Bears.mono {net : Net Host} (bears : Bears place segments net) {more : Side → List TcpPacket}
    (subset : ∀ side, segments side ⊆ more side) : Bears place more net :=
  ⟨bears.bearing.mono fun _ _ genuine => genuine.mono subset, bears.own⟩

theorem Bears.start (place : Placement Host) (segments : Side → List TcpPacket) (now : Host → Time) :
    Bears place segments (place.topology.start now) :=
  ⟨.start _ _ now, fun _ => OwnNumber.start _ _⟩

def Spares (place : Placement Host) (host : Host) : Call → Prop
  | .sendMsgToDestIP destIP protocol msg => Genuine place (fun _ => []) host ⟨destIP, protocol, msg⟩
  | .testProtocolInit | .tcpInit => True

instance [DecidableEq Host] (host : Host) : (call : Call) → Decidable (Spares place host call)
  | .sendMsgToDestIP destIP protocol msg =>
      inferInstanceAs (Decidable (Genuine place (fun _ => []) host ⟨destIP, protocol, msg⟩))
  | .testProtocolInit | .tcpInit => .isTrue trivial

def Apart (place : Placement Host) : Event Host → Prop
  | .call host _ call => Spares place host call
  | .net _ => True

instance [DecidableEq Host] (event : Event Host) : Decidable (Apart place event) := by
  cases event <;> unfold Apart <;> infer_instance

variable [Netstack] [Ipv4]

theorem Spares.genuine {host : Host} {call : Call} (spares : Spares place host call) {ft : FwdTable}
    {order : Order} : ∀ made ∈ ft.calls order call.event, Genuine place segments host made := by
  intro made member
  cases call with
  | sendMsgToDestIP destIP protocol msg =>
      cases List.mem_singleton.mp member
      exact Genuine.mono spares fun _ => List.nil_subset _
  | testProtocolInit | tcpInit => cases member

variable [DecidableEq Host]

theorem Bears.step {net after : Net Host} (bears : Bears place segments net) {event : Event Host}
    (apart : Apart place event) (moves : ipStep place.topology net event = some after) :
    Bears place segments after := by
  refine ⟨bears.bearing.step (fun host order nodeEvent occurring call made => ?_) moves,
    OwnNumber.step bears.own moves⟩
  rcases occurs_calls occurring made with ⟨user, rfl, rfl⟩ | ⟨message, _, rfl⟩
  · exact Spares.genuine apart call made
  · exact genuine_ripCall place segments host message

theorem Bears.sendTcp (encodes : ∀ tcpHdr, Netstack.encode tcpHdr = Tcp.layout tcpHdr) {net after : Net Host}
    (bears : Bears place segments net) {side : Side} {order : Order} {givesUp : Bool} {out : List TcpPacket}
    (issued : ∀ packet ∈ out, Issued (connAt place.conn side) packet) (listed : out ⊆ segments side.other)
    (sends : sendTcp place.topology (place.host side) order (connAt place.conn side).foreignIP givesUp out net =
      some after) : Bears place segments after := by
  refine sendTcp_preserves (Bears place segments) (fun packet member net bears => ?_) sends bears
  refine ⟨bears.bearing.perform ?_ (fun now buffer is => by cases is),
    perform_tables (fun _ => OwnNumber) bears.own (bears.own _)⟩
  intro call made
  cases List.mem_singleton.mp made
  exact genuine_issued encodes (issued packet member) (listed member) (place.host side)

end

/-! ## The connection joined directly -/

section
variable {Buffer : Type} [RingBuffer Buffer] [Netstack]

def onEnds (condition : (Side → Endpoint Buffer) → Side → Tcp.Event → Prop) (c : Connection Buffer) :
    Tcp.Action → Prop
  | .act side event => condition c.ends side event
  | .lose .. | .duplicate .. => True

theorem run_moved (condition : (Side → Endpoint Buffer) → Side → Tcp.Event → Prop) {c : Connection Buffer}
    {side : Side} {event : Tcp.Event} {after : Endpoint Buffer} {out : List TcpPacket}
    (meets : condition c.ends side event) (arrived : ∀ packet, event = .handlePacket packet → packet ∈ c.net side)
    (steps : (c.ends side).step event = some (after, out)) :
    Run Connection.step (onEnds condition) c (c.moved side after out) := by
  -- An end takes its step and the packet that it handles stays on the way, as a duplicate.
  by_cases incoming : ∃ packet, event = .handlePacket packet
  · obtain ⟨packet, rfl⟩ := incoming
    have member := arrived packet rfl
    let doubled : Connection Buffer := { c with net := Function.update c.net side (packet :: c.net side) }
    have first : c.step (.duplicate side packet) = some doubled := by
      simp [Connection.step, member, doubled]
    have second : doubled.step (.act side (.handlePacket packet)) = some (c.moved side after out) := by
      simp [Connection.step, Tcp.Event.consume, steps, Connection.moved, doubled]
    have allowed : onEnds condition doubled (.act side (.handlePacket packet)) := meets
    exact (Run.refl.tail trivial first).tail allowed second
  · have allowed : onEnds condition c (.act side event) := meets
    exact Run.refl.tail allowed (Connection.step_own (fun packet is => incoming ⟨packet, is⟩) steps)

variable {Host : Type} {place : Placement Host} {clientIsn serverIsn : UInt32} {stack : Stack Host Buffer}

/-- The ends are those of a connection that is joined directly, where all that is on the way here is
on the way, and where nothing is lost. -/
structure Refines (place : Placement Host) (clientIsn serverIsn : UInt32) (stack : Stack Host Buffer)
    (c : Connection Buffer) : Prop where
  reached : Run Connection.step anyEvent (Connection.established place.conn clientIsn serverIsn) c
  ends : stack.ends = c.ends
  conns : ∀ side, (c.ends side).sock.conn = connAt place.conn side
  issues : ∀ side, (c.ends side).Issues
  waiting : ∀ side, stack.waiting side ⊆ c.net side
  bears : Bears place c.net stack.net

/-- The connection is established. Of its segments none is on the way but those of the handshake. -/
structure Begins (place : Placement Host) (clientIsn serverIsn : UInt32) (stack : Stack Host Buffer) : Prop where
  ends : stack.ends = (Connection.established place.conn clientIsn serverIsn).ends
  waiting : ∀ side, stack.waiting side ⊆
    (Connection.established place.conn clientIsn serverIsn : Connection Buffer).net side
  bears : Bears place (Connection.established place.conn clientIsn serverIsn : Connection Buffer).net stack.net

theorem Begins.refines (begins : Begins place clientIsn serverIsn stack) :
    Refines place clientIsn serverIsn stack (Connection.established place.conn clientIsn serverIsn) where
  reached := Run.refl
  ends := begins.ends
  conns side := by cases side <;> rfl
  issues side := by cases side <;> exact fun _ none => nomatch none
  waiting := begins.waiting
  bears := begins.bears

end

/-! ## The ends -/

section
variable {Host Buffer : Type} [DecidableEq Host] {place : Placement Host}

namespace Stack

theorem received_some {stack : Stack Host Buffer} {side : Side} {host : Host} {handed : Handed}
    {tcpPacket : TcpPacket} (taken : stack.received place side host handed = some tcpPacket) :
    host = place.host side ∧ handed.application = .tcp ∧
      Tcp.unmarshalTcpPacket handed.msg handed.hdr.src = some tcpPacket ∧
      handed.hdr.dst = (connAt place.conn side).localIP ∧ handed.hdr.src = (connAt place.conn side).foreignIP ∧
      tcpPacket.header.dstPort = (connAt place.conn side).localPort ∧
      tcpPacket.header.srcPort = (connAt place.conn side).foreignPort := by
  simp only [received] at taken
  split at taken
  · rename_i here
    obtain ⟨read, unmarshalled, addressed⟩ := Option.bind_eq_some_iff.mp taken
    split at addressed
    · rename_i socket
      cases addressed
      exact ⟨here.1, here.2, unmarshalled, tcpHandler_socket socket⟩
    · cases addressed
  · cases taken

variable [Netstack] [Ipv4]

theorem arrives_listed (unique : place.topology.UniqueAddresses) {stack : Stack Host Buffer}
    {segments : Side → List TcpPacket} (bears : Bears place segments stack.net) {event : Event Host} {side : Side}
    {tcpPacket : TcpPacket} (taken : stack.arrives place event side = some tcpPacket) :
    tcpPacket ∈ segments side := by
  obtain ⟨⟨host, order, nodeEvent⟩, occurring, rest⟩ := Option.bind_eq_some_iff.mp taken
  obtain ⟨handed, hands, received⟩ := Option.bind_eq_some_iff.mp rest
  obtain ⟨rfl, isTcp, unmarshalled, dst, src, ports⟩ := received_some received
  -- Only datagrams call handlers.
  cases event with
  | call host order call =>
      cases occurring
      cases call <;> cases hands
  | net event =>
      cases event with
      | task host order task =>
          cases occurring
          cases task <;> cases hands
      | lose | duplicate => cases occurring
      | deliver index order now =>
          obtain ⟨⟨receiver, packet⟩, found, running⟩ := Option.bind_eq_some_iff.mp occurring
          obtain ⟨_, same⟩ := Option.ite_none_right_eq_some.mp running
          cases same
          obtain ⟨passed, _, registered⟩ := FwdTable.handed_some hands
          obtain ⟨origin, call, hdr, payload, genuine, written, conveys⟩ :=
            bears.bearing.transit _ (List.mem_of_getElem? found)
          have read := conveys.arrived written passed
          have protocol := bears.own _ _ _ registered
          rw [isTcp, read.protocol, UInt8.ofNat_toNat] at protocol
          -- The source address belongs to the node of the other end, so this is where the call was made.
          have peer : place.topology.Owns (place.host side.other) handed.hdr.src := by
            have owns := place.owns side.other
            rw [connAt_other] at owns
            rw [src]
            exact owns
          have source := unique.owner read.source peer
          obtain ⟨short, listed⟩ := genuine side protocol (read.destination ▸ dst) source
          refine listed tcpPacket ?_ ports.1 ports.2
          rw [← src, ← read.whole short]
          exact unmarshalled

end Stack

variable [RingBuffer Buffer] [Netstack]

variable [Ipv4] {clientIsn serverIsn : UInt32} {stack after : Stack Host Buffer} {c : Connection Buffer}

theorem Refines.ip (unique : place.topology.UniqueAddresses) (refines : Refines place clientIsn serverIsn stack c)
    {event : Event Host} (apart : Apart place event) (moves : stack.step place (.ip event) = some after) :
    Refines place clientIsn serverIsn after c := by
  obtain ⟨net, moved, rfl⟩ := Stack.step_ip place moves
  refine ⟨refines.reached, refines.ends, refines.conns, refines.issues, ?_, refines.bears.step apart moved⟩
  intro side packet member
  rcases List.mem_append.mp member with earlier | new
  · exact refines.waiting side earlier
  · exact Stack.arrives_listed unique refines.bears (Option.mem_toList.mp new)

theorem Refines.act (encodes : ∀ tcpHdr, Netstack.encode tcpHdr = Tcp.layout tcpHdr)
    (refines : Refines place clientIsn serverIsn stack c) {side : Side} {order : Order} {event : Tcp.Event}
    (moves : stack.step place (.act side order event) = some after) :
    ∃ moved out, (∀ packet, event = .handlePacket packet → packet ∈ c.net side) ∧
      (c.ends side).step event = some (moved, out) ∧
      Refines place clientIsn serverIsn after (c.moved side moved out) := by
  obtain ⟨waiting, moved, out, net, consumed, steps, sends, rfl⟩ := Stack.step_act place moves
  rw [refines.ends] at steps
  obtain ⟨arrived, left⟩ := Tcp.Event.consume_subset consumed
  have listed : ∀ packet, event = .handlePacket packet → packet ∈ c.net side :=
    fun packet is => refines.waiting side (arrived packet is)
  have endMoves := Endpoint.step_moves steps
  have numbered := ((Connection.Joint.run refines.reached).sender side).numbered
  obtain ⟨issues, issued⟩ := endMoves.issued numbered (refines.issues side)
  have grows : ∀ other, c.net other ⊆ (c.moved side moved out).net other :=
    (Function.forall_update_iff c.net (fun other packets => c.net other ⊆ packets)).mpr
      ⟨List.subset_append_left _ _, fun _ _ => List.Subset.refl _⟩
  refine ⟨moved, out, listed, steps, ?_⟩
  refine ⟨?_, ?_, ?_, ?_, ?_, ?_⟩
  · -- Below, the packet that is handled stays on the way.
    have onward := run_moved (fun _ _ _ => True) trivial listed steps
    exact refines.reached.trans (onward.weaken fun _ _ _ => trivial)
  · show Function.update stack.ends side moved = Function.update c.ends side moved
    rw [refines.ends]
  · exact (Function.forall_update_iff c.ends fun other e => e.sock.conn = connAt place.conn other).mpr
      ⟨endMoves.conn.trans (refines.conns side), fun other _ => refines.conns other⟩
  · exact (Function.forall_update_iff c.ends fun _ => Endpoint.Issues).mpr
      ⟨issues, fun other _ => refines.issues other⟩
  · intro other packet member
    refine grows other ?_
    exact (Function.forall_update_iff stack.waiting fun other packets => packets ⊆ c.net other).mpr
      ⟨fun _ member => refines.waiting side (left member), fun other _ => refines.waiting other⟩ other member
  · refine (refines.bears.mono grows).sendTcp encodes ?_ ?_ sends
    · rw [← refines.conns side]
      exact issued
    · rw [Connection.moved_net_other]
      exact List.subset_append_right _ _

def Undisturbed (place : Placement Host) (condition : (Side → Endpoint Buffer) → Side → Tcp.Event → Prop)
    (stack : Stack Host Buffer) : StackEvent Host → Prop
  | .ip event => Apart place event
  | .act side _ event => condition stack.ends side event

instance (condition : (Side → Endpoint Buffer) → Side → Tcp.Event → Prop)
    [∀ ends side event, Decidable (condition ends side event)] (stack : Stack Host Buffer)
    (event : StackEvent Host) : Decidable (Undisturbed place condition stack event) := by
  cases event <;> unfold Undisturbed <;> infer_instance

theorem Refines.simulates (unique : place.topology.UniqueAddresses)
    (encodes : ∀ tcpHdr, Netstack.encode tcpHdr = Tcp.layout tcpHdr) (clientIsn serverIsn : UInt32)
    (condition : (Side → Endpoint Buffer) → Side → Tcp.Event → Prop) :
    Simulates (Stack.step place) (Undisturbed place condition) Connection.step (onEnds condition)
      (Refines place clientIsn serverIsn) := by
  intro before event after c refines meets moves
  cases event with
  | ip event => exact ⟨c, Run.refl, refines.ip unique meets moves⟩
  | act side order event =>
      obtain ⟨moved, out, arrived, steps, onward⟩ := refines.act encodes moves
      have meets : condition before.ends side event := meets
      rw [refines.ends] at meets
      exact ⟨_, run_moved condition meets arrived steps, onward⟩

def keepsWhole (ends : Side → Endpoint Buffer) (side : Side) (event : Tcp.Event) : Prop :=
  Connection.noStraddle ⟨ends, fun _ => []⟩ (.act side event)

instance (ends : Side → Endpoint Buffer) (side : Side) (event : Tcp.Event) :
    Decidable (keepsWhole ends side event) :=
  inferInstanceAs (Decidable (Connection.noStraddle ..))

end

section
attribute [local instance] Netstack.standard Ipv4.linux

def aToB : Placement LoopHost where
  topology := abcLoop
  conn := { localIP := 0xc0a80001, localPort := 1024, foreignIP := 0xc0a80002, foreignPort := 80 }
  host
    | .client => .a
    | .server => .b
  owns side := by cases side <;> exact ⟨_, List.mem_cons_self, rfl⟩
  apart := by decide

def connected : Stack LoopHost Tcp.Fifo where
  net := abcLoop.start fun _ => 0
  ends := (Connection.established aToB.conn 100 200).ends
  waiting _ := []

theorem connected_begins : Begins aToB 100 200 connected :=
  ⟨rfl, fun _ => List.nil_subset _, Bears.start aToB _ _⟩

def writesByte : List (StackEvent LoopHost) :=
  [.ip (.call .b Node.anyOrder .tcpInit), .act .client Node.anyOrder (.vWrite [7]),
    .act .client Node.anyOrder (.vWriteLoop 0)] ++
  List.replicate 5 (.act .client Node.anyOrder .handleWrites) ++
  [.ip (.net (.deliver 0 Node.anyOrder 0)),
    .act .server Node.anyOrder (.handlePacket
      (aToB.conn.seal (Tcp.handshakeHeader aToB.conn 101 201 Tcp.tcpFlagAck) [7])),
    .act .server Node.anyOrder (.vRead 1), .act .server Node.anyOrder (.vReadLoop 0)]

theorem writesByte_happens :
    (exec (Stack.step aToB) (Undisturbed aToB keepsWhole) connected writesByte).isSome := by
  decide +kernel

def byteRead : Stack LoopHost Tcp.Fifo :=
  (exec (Stack.step aToB) (Undisturbed aToB keepsWhole) connected writesByte).get writesByte_happens

theorem byteRead_reached : Run (Stack.step aToB) (Undisturbed aToB keepsWhole) connected byteRead := by
  unfold byteRead
  exact Run.ofSome writesByte_happens

end

end IpTcp.Internet
