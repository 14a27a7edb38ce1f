import IpTcp.Rip.Delivery

/-! What an internet of such nodes does for those who use it. Any node may call `SendMsgToDestIP` at
any time, beside RIP; datagrams are lost, duplicated, delayed and reordered, interfaces go down and
up, and packets are forwarded by whatever tables there are. What was called and what handlers were
given is written down, to be compared. -/

set_option autoImplicit false

namespace IpTcp.Network

open Lib Lib.Bytes Rip
open Tcp (Netstack)

structure Handed where
  application : Application
  hdr : Header
  msg : List Byte
  deriving DecidableEq, Repr

namespace FwdTable

variable [Netstack] [Ipv4]

def handed (ft : FwdTable) (order : Order) (buffer : List Byte) : Option Handed :=
  (accepted buffer).bind fun (hdr, msgBytes) =>
    (ft.getInterfaceByIp order hdr.dst).bind fun myInterface =>
      if myInterface.state = .up then
        (ft.applications (UInt8.ofNat hdr.protocol)).map fun application => ⟨application, hdr, msgBytes⟩
      else none

theorem handed_some {ft : FwdTable} {order : Order} {buffer : List Byte} {given : Handed}
    (hands : ft.handed order buffer = some given) :
    accepted buffer = some (given.hdr, given.msg) ∧ ft.Owns given.hdr.dst ∧
      ft.applications (UInt8.ofNat given.hdr.protocol) = some given.application := by
  obtain ⟨⟨hdr, msgBytes⟩, passed, rest⟩ := Option.bind_eq_some_iff.mp hands
  obtain ⟨myInterface, found, running⟩ := Option.bind_eq_some_iff.mp rest
  split at running
  · obtain ⟨application, registered, rfl⟩ := Option.map_eq_some_iff.mp running
    obtain ⟨same, k, present⟩ := getInterfaceByIp_some found
    exact ⟨passed, ⟨k, myInterface, present, same⟩, registered⟩
  · cases running

/-- `HandlePacketSafe` calls that handler, or calls none and forwards the packet or ends it. -/
theorem handlePacketSafe_handed (ft : FwdTable) (order : Order) (now : Time) (buffer : List Byte) :
    (∃ given, ft.handed order buffer = some given ∧
      ft.handlePacketSafe order now buffer = ft.deliver order now given.hdr given.msg given.application) ∨
    ft.handed order buffer = none ∧
      ((∃ hdr msgBytes, ft.handlePacketSafe order now buffer = ft.forward hdr msgBytes) ∨
        ∃ locks returned, ft.handlePacketSafe order now buffer = ft.unchanged locks [] returned) := by
  unfold handlePacketSafe handed accepted
  cases Ipv4.parseHeader buffer with
  | none => exact Or.inr ⟨rfl, Or.inr ⟨_, _, rfl⟩⟩
  | some hdr =>
      simp only [Option.bind_some]
      by_cases valid :
          validateChecksum (buffer.take hdr.len) (UInt16.ofNat hdr.checksum) = UInt16.ofNat hdr.checksum
      · rw [if_neg (not_not.mpr valid), if_pos valid]
        cases message buffer hdr with
        | none => exact Or.inr ⟨rfl, Or.inr ⟨_, _, rfl⟩⟩
        | some msgBytes =>
            simp only [Option.map_some, Option.bind_some]
            cases ft.getInterfaceByIp order hdr.dst with
            | none => exact Or.inr ⟨rfl, Or.inl ⟨hdr, msgBytes, rfl⟩⟩
            | some myInterface =>
                simp only [Option.bind_some]
                cases state : myInterface.state with
                | down => exact Or.inr ⟨rfl, Or.inr ⟨_, _, rfl⟩⟩
                | up =>
                    cases ft.applications (UInt8.ofNat hdr.protocol) with
                    | none => exact Or.inr ⟨rfl, Or.inr ⟨_, _, rfl⟩⟩
                    | some application => exact Or.inl ⟨_, rfl, rfl⟩
      · rw [if_pos valid, if_neg valid]
        exact Or.inr ⟨rfl, Or.inr ⟨_, _, rfl⟩⟩

end FwdTable

end IpTcp.Network

namespace IpTcp.Internet

open Lib Lib.Bytes Network Rip
open Network.FwdTable (SendCall)
open Tcp (Netstack)

/-! ## Packets -/

structure Written (packet : List Byte) (hdr : Header) (payload : List Byte) : Prop where
  bytes : Arrives (hdr.layout ++ payload) packet
  plain : hdr.options = []
  total : hdr.totalLen = headerLen + payload.length

section
variable {packet payload read : List Byte} {hdr : Header}

theorem message_length {buffer : List Byte} (plain : hdr.options = [])
    (found : FwdTable.message buffer hdr.onWire = some read) :
    hdr.onWire.totalLen = headerLen + read.length := by
  unfold FwdTable.message at found
  split at found
  · rename_i bounds
    cases found
    have start : hdr.onWire.len = headerLen := by simp [Header.onWire, plain]
    rw [List.length_drop, List.length_take, start]
    rw [start] at bounds
    omega
  · cases found

/-- A message whose length fits into the header is read whole, if at all. -/
theorem message_whole (written : Written packet hdr payload) (short : hdr.totalLen < 65536)
    (found : FwdTable.message packet hdr.onWire = some read) : read = payload := by
  obtain ⟨bytes, plain, total⟩ := written
  have length := message_length plain found
  have same : hdr.onWire.totalLen = hdr.totalLen := Nat.mod_eq_of_lt short
  have cut := bytes.message plain total found
  exact cut.eq_of_length (by omega)

theorem Written.message_fits {packet payload : List Byte} {hdr : Header} (written : Written packet hdr payload)
    (fits : hdr.totalLen ≤ maxMsgSize) :
    FwdTable.message packet hdr.onWire = some payload := by
  obtain ⟨bytes, plain, total⟩ := written
  have header : hdr.layout.length = headerLen := by rw [Header.layout_length, plain]; rfl
  have length : (hdr.layout ++ payload).length = hdr.totalLen := by rw [List.length_append, header, total]
  have same : hdr.onWire.totalLen = hdr.totalLen :=
    Nat.mod_eq_of_lt (Nat.lt_of_le_of_lt fits (by decide))
  have start : hdr.onWire.len = headerLen := by simp [Header.onWire, plain]
  rw [← List.append_nil (hdr.layout ++ payload)] at bytes
  obtain ⟨rest, rfl⟩ := bytes.append (length ▸ fits)
  have bounds : headerLen ≤ hdr.totalLen ∧ hdr.totalLen ≤ ((hdr.layout ++ payload) ++ rest).length := by
    rw [List.length_append, length]
    omega
  unfold FwdTable.message
  rw [same, start, if_pos bounds, ← length, List.take_left, ← header, List.drop_left]

variable [Ipv4] {read : Header}

theorem Written.parsed (written : Written packet hdr payload)
    (parsed : Ipv4.parseHeader packet = some read) : read = hdr.onWire := by
  obtain ⟨rest, received⟩ := written.bytes.layout written.plain
  rw [received, Ipv4.parseHeader_eq,
    Header.ofLayout_layout (by simp [Header.Aligned, written.plain])] at parsed
  exact (Option.some.inj parsed).symm

variable [Netstack] {msgBytes : List Byte}

/-- What the next node reads of a packet that it accepts. -/
theorem Written.accepted (written : Written packet hdr payload)
    (passed : FwdTable.accepted packet = some (read, msgBytes)) :
    read = hdr.onWire ∧ msgBytes <+: payload ∧ (hdr.totalLen < 65536 → msgBytes = payload) ∧
      read.totalLen = headerLen + msgBytes.length := by
  have prefixed := written.bytes.accepted written.plain written.total passed
  obtain ⟨other, _, checked⟩ := Option.bind_eq_some_iff.mp passed
  split at checked
  · obtain ⟨_, found, same⟩ := Option.map_eq_some_iff.mp checked
    cases same
    obtain ⟨rfl, cut⟩ := prefixed
    exact ⟨rfl, cut, fun short => message_whole written short found, message_length written.plain found⟩
  · cases checked

theorem Written.forwarded (written : Written packet hdr payload) {ft : FwdTable} {order : Order} {now : Time}
    (transit : ft.fate order packet = .transit read msgBytes) {transmission : Transmission}
    (sent : transmission ∈ (ft.handlePacketSafe order now packet).sent) :
    ∃ checksum, Written transmission.buffer
      { hdr.onWire with ttl := hdr.onWire.ttl - 1, checksum := checksum } msgBytes ∧
      0 < hdr.onWire.ttl - 1 := by
  obtain ⟨passed, _⟩ := FwdTable.fate_transit transit
  obtain ⟨rfl, _, _, total⟩ := written.accepted passed
  obtain ⟨positive, newHdrBytes, marshalled, packet⟩ := transit_sent transit sent
  have arrives := transmission.arrives
  rw [packet, marshalWithChecksum_some marshalled] at arrives
  exact ⟨_, ⟨arrives, written.plain, total⟩, positive⟩

theorem written_call {ft : FwdTable} {order : Order} {call : SendCall} {transmission : Transmission}
    (sent : call.result ft order = .sent transmission) :
    ∃ k inter checksum, ft.ipInterfaces.get k = some inter ∧
      Written transmission.buffer
        { FwdTable.newHeader inter.ip call.destIP call.protocol call.msg with checksum := checksum } call.msg := by
  obtain ⟨inter, headerBytes, way, marshalled, packet⟩ := FwdTable.sendMsgToDestIP_sent sent
  have arrives := transmission.arrives
  rw [packet, marshalWithChecksum_some marshalled] at arrives
  have present : ∃ k, ft.ipInterfaces.get k = some inter := by
    rcases way with ⟨route, _⟩ | ⟨route, _⟩
    · exact (FwdTable.getInterfaceByIp_some (FwdTable.route_localHost route)).2
    · obtain ⟨_, direct | ⟨_, fwdEntry, _, next⟩⟩ := FwdTable.route_link route
      · exact ⟨_, direct⟩
      · exact ⟨_, next⟩
  obtain ⟨k, present⟩ := present
  exact ⟨k, inter, _, present, arrives, rfl, rfl⟩

end

/-! ## The internet -/

def testProtocolNum : UInt8 := 0

/-- What the programs of a node do with its table, beside RIP. -/
inductive Call where
  | testProtocolInit
  | tcpInit
  | sendMsgToDestIP (destIP : IntIP) (protocol : UInt8) (msg : List Byte)
  deriving DecidableEq, Repr

def Call.event : Call → NodeEvent
  | testProtocolInit => .registerHandlerSafe testProtocolNum .testProtocol
  | tcpInit => .registerHandlerSafe Tcp.tcpProtocolNum .tcp
  | sendMsgToDestIP destIP protocol msg => .sendMsgToDestIP destIP protocol msg

theorem Call.event_not_packet (call : Call) (now : Time) (buffer : List Byte) :
    call.event ≠ .handlePacketSafe now buffer := by
  cases call <;> simp [Call.event]

theorem task_not_packet (task : Task) (now : Time) (buffer : List Byte) :
    task.event ≠ .handlePacketSafe now buffer := by
  cases task <;> simp [Task.event]

inductive Event (Host : Type) where
  | call (host : Host) (order : Order) (call : Call)
  | net (event : NetEvent Host)

/-- The network, with the calls of `SendMsgToDestIP` so far and what handlers were given so far. -/
structure Traffic (Host : Type) where
  net : Net Host
  called : List (Host × SendCall)
  handed : List (Host × Handed)

variable {Host : Type}

def Traffic.start (topology : Topology Host) (now : Host → Time) : Traffic Host where
  net := topology.start now
  called := []
  handed := []

section
variable [DecidableEq Host] [Netstack] [Ipv4]

def ipStep (topology : Topology Host) (net : Net Host) : Event Host → Option (Net Host)
  | .call host order call =>
      if net.running host then some (topology.perform net host order call.event) else none
  | .net event => topology.step net event

def occurs (net : Net Host) : Event Host → Option (Host × Order × NodeEvent)
  | .call host order call => some (host, order, call.event)
  | .net (.task host order task) => some (host, order, task.event)
  | .net (.deliver index order now) =>
      (net.transit[index]?).bind fun (host, packet) =>
        if net.running host then some (host, order, .handlePacketSafe now packet) else none
  | .net (.lose _) | .net (.duplicate _) => none

def handedBy (ft : FwdTable) (order : Order) : NodeEvent → Option Handed
  | .handlePacketSafe _ buffer => ft.handed order buffer
  | _ => none

namespace Traffic

def note (before : Traffic Host) (event : Event Host) (net : Net Host) : Traffic Host where
  net := net
  called := before.called ++ (occurs before.net event).elim [] fun (host, order, event) =>
    ((before.net.tables host).calls order event).map (host, ·)
  handed := before.handed ++ (occurs before.net event).elim [] fun (host, order, event) =>
    (handedBy (before.net.tables host) order event).toList.map (host, ·)

def step (topology : Topology Host) (traffic : Traffic Host) (event : Event Host) : Option (Traffic Host) :=
  (ipStep topology traffic.net event).map (traffic.note event)

end Traffic

/-! ## What a step can do -/

/-- All that can happen: something at a node, which for a datagram takes it out of those in transit,
or a loss or a duplicate. -/
inductive Moves (topology : Topology Host) (net : Net Host) : Event Host → Net Host → Prop where
  | call (host : Host) (order : Order) (call : Call) :
      Moves topology net (.call host order call) (topology.perform net host order call.event)
  | task (host : Host) (order : Order) (task : Task) :
      Moves topology net (.net (.task host order task)) (topology.perform net host order task.event)
  | arrival (index : Nat) (order : Order) (now : Time) (host : Host) (packet : List Byte)
      (found : net.transit[index]? = some (host, packet)) (running : net.running host = true) :
      Moves topology net (.net (.deliver index order now))
        (topology.perform { net with transit := net.transit.eraseIdx index } host order
          (.handlePacketSafe now packet))
  | nowhere (event : Event Host) (transit : List (Host × List Byte)) (nothing : occurs net event = none)
      (among : ∀ datagram ∈ transit, datagram ∈ net.transit) :
      Moves topology net event { net with transit := transit }

theorem ipStep_moves {topology : Topology Host} {net after : Net Host} {event : Event Host}
    (moves : ipStep topology net event = some after) : Moves topology net event after := by
  cases event with
  | call host order call =>
      simp only [ipStep] at moves
      split at moves
      · cases moves
        exact .call host order call
      · cases moves
  | net event =>
      cases event with
      | task host order task =>
          simp only [ipStep, Topology.step] at moves
          split at moves
          · cases moves
            exact .task host order task
          · cases moves
      | deliver index order now =>
          obtain ⟨⟨host, packet⟩, found, received⟩ := Option.map_eq_some_iff.mp moves
          dsimp only at received
          split at received
          · rename_i running
            subst received
            exact .arrival index order now host packet found running
          · rename_i ended
            subst received
            refine .nowhere _ _ ?_ fun datagram member => List.mem_of_mem_eraseIdx member
            simp only [occurs, found, Option.bind_some, if_neg ended]
      | lose index =>
          obtain ⟨_, _, rfl⟩ := Option.map_eq_some_iff.mp moves
          exact .nowhere _ _ rfl fun datagram member => List.mem_of_mem_eraseIdx member
      | duplicate index =>
          obtain ⟨copy, found, rfl⟩ := Option.map_eq_some_iff.mp moves
          refine .nowhere _ _ rfl fun datagram member => ?_
          rcases List.mem_append.mp member with earlier | last
          · exact earlier
          · rw [List.mem_singleton.mp last]
            exact List.mem_of_getElem? found

end

/-! ## What is handed over was sent -/

/-- A packet carries what a call of `SendMsgToDestIP` was given, from an address of the node that
called. A message whose length does not fit into the header may be cut off. -/
structure Conveys (topology : Topology Host) (origin : Host) (call : SendCall) (hdr : Header)
    (payload : List Byte) : Prop where
  source : topology.Owns origin hdr.src
  destination : hdr.dst = call.destIP
  protocol : hdr.protocol = call.protocol.toNat
  cut : payload <+: call.msg
  whole : headerLen + call.msg.length < 65536 → payload = call.msg
  live : 0 < hdr.ttl ∧ hdr.ttl ≤ maxHops

structure Bearing (topology : Topology Host) (good : Host → SendCall → Prop) (net : Net Host) : Prop where
  wired : ∀ host, topology.Wired host (net.tables host)
  transit : ∀ datagram ∈ net.transit, ∃ origin call hdr payload, good origin call ∧
    Written datagram.2 hdr payload ∧ Conveys topology origin call hdr payload

theorem Bearing.start (topology : Topology Host) (good : Host → SendCall → Prop) (now : Host → Time) :
    Bearing topology good (topology.start now) :=
  ⟨fun host => ⟨now host, .refl _⟩, fun _ none => nomatch none⟩

theorem Bearing.mono {topology : Topology Host} {good better : Host → SendCall → Prop} {net : Net Host}
    (bearing : Bearing topology good net) (implies : ∀ origin call, good origin call → better origin call) :
    Bearing topology better net := by
  refine ⟨bearing.wired, fun datagram member => ?_⟩
  obtain ⟨origin, call, hdr, payload, isGood, rest⟩ := bearing.transit datagram member
  exact ⟨origin, call, hdr, payload, implies origin call isGood, rest⟩

theorem Bearing.fewer {topology : Topology Host} {good : Host → SendCall → Prop} {net : Net Host}
    (bearing : Bearing topology good net) {transit : List (Host × List Byte)}
    (among : ∀ datagram ∈ transit, datagram ∈ net.transit) :
    Bearing topology good { net with transit := transit } :=
  ⟨bearing.wired, fun datagram member => bearing.transit datagram (among datagram member)⟩

section
variable {topology : Topology Host} {origin : Host} {call : SendCall} {hdr read : Header}
  {packet payload msgBytes : List Byte}

theorem Conveys.hop (conveys : Conveys topology origin call hdr payload) (positive : 0 < hdr.ttl - 1)
    (checksum : Nat) :
    Conveys topology origin call { hdr with ttl := hdr.ttl - 1, checksum := checksum } payload := by
  refine ⟨conveys.source, conveys.destination, conveys.protocol, conveys.cut, conveys.whole, positive, ?_⟩
  have := conveys.live.2
  show hdr.ttl - 1 ≤ maxHops
  omega

variable [Netstack] [Ipv4]

theorem Conveys.arrived (conveys : Conveys topology origin call hdr payload)
    (written : Written packet hdr payload)
    (passed : FwdTable.accepted packet = some (read, msgBytes)) :
    Conveys topology origin call read msgBytes := by
  obtain ⟨rfl, cut, whole, _⟩ := written.accepted passed
  refine ⟨conveys.source, conveys.destination, ?_, cut.trans conveys.cut, ?_, ?_⟩
  · show hdr.protocol % 256 = call.protocol.toNat
    rw [conveys.protocol]
    exact Nat.mod_eq_of_lt call.protocol.toNat_lt
  · intro short
    have all := conveys.whole short
    rw [whole (by rw [written.total, all]; exact short), all]
  · show 0 < hdr.ttl % 256 ∧ hdr.ttl % 256 ≤ maxHops
    have live := conveys.live
    simp only [maxHops] at live ⊢
    omega

theorem conveys_call {ft : FwdTable} (wired : topology.Wired origin ft) {order : Order}
    {transmission : Transmission} (sent : call.result ft order = .sent transmission) :
    ∃ hdr, Written transmission.buffer hdr call.msg ∧ Conveys topology origin call hdr call.msg := by
  obtain ⟨k, inter, checksum, present, written⟩ := written_call sent
  refine ⟨_, written, wired.owns ⟨k, inter, present, rfl⟩, rfl, rfl, List.prefix_rfl, fun _ => rfl, ?_⟩
  show (0 : Int) < maxHops ∧ maxHops ≤ maxHops
  decide

/-- What is not called for by a program is a message of RIP. -/
theorem occurs_calls {net : Net Host} {host : Host} {order : Order} {event : Event Host} {nodeEvent : NodeEvent}
    (occurring : occurs net event = some (host, order, nodeEvent)) {ft : FwdTable} {call : SendCall}
    (made : call ∈ ft.calls order nodeEvent) :
    (∃ user, event = .call host order user ∧ nodeEvent = user.event) ∨
      ∃ message ∈ ft.messages order nodeEvent, call = FwdTable.ripCall message := by
  cases event with
  | call host order user =>
      cases occurring
      exact Or.inl ⟨user, rfl, rfl⟩
  | net event =>
      have automatic : ∀ destIP protocol msg, nodeEvent ≠ .sendMsgToDestIP destIP protocol msg := by
        cases event with
        | task host order task =>
            cases occurring
            cases task <;> simp [Task.event]
        | deliver index order now =>
            obtain ⟨⟨receiver, packet⟩, _, running⟩ := Option.bind_eq_some_iff.mp occurring
            obtain ⟨_, same⟩ := Option.ite_none_right_eq_some.mp running
            cases same
            simp
        | lose | duplicate => cases occurring
      rw [FwdTable.calls_eq automatic] at made
      obtain ⟨message, emitted, rfl⟩ := List.mem_map.mp made
      exact Or.inr ⟨message, emitted, rfl⟩

end

section
variable [DecidableEq Host] [Netstack] [Ipv4] {topology : Topology Host} {net : Net Host} {host : Host}
  {order : Order} {event : NodeEvent}

theorem perform_tables (property : Host → FwdTable → Prop) (held : ∀ other, property other (net.tables other))
    (here : property host ((net.tables host).perform order event).table) (other : Host) :
    property other ((topology.perform net host order event).tables other) :=
  (Function.forall_update_iff net.tables property).mpr ⟨here, fun other _ => held other⟩ other

theorem wired_perform (wired : ∀ host, topology.Wired host (net.tables host)) (other : Host) :
    topology.Wired other ((topology.perform net host order event).tables other) :=
  perform_tables topology.Wired wired ((wired host).change (FwdTable.perform_change _ _ _)) other

/-- What an event at a node puts in transit is called for by it, or was in the packet that came. -/
theorem Bearing.perform {good : Host → SendCall → Prop} (bearing : Bearing topology good net)
    (called : ∀ call ∈ (net.tables host).calls order event, good host call)
    (arrives : ∀ now buffer, event = .handlePacketSafe now buffer → ∃ origin call hdr payload,
      good origin call ∧ Written buffer hdr payload ∧ Conveys topology origin call hdr payload) :
    Bearing topology good (topology.perform net host order event) := by
  refine ⟨wired_perform bearing.wired, fun datagram member => ?_⟩
  rcases List.mem_append.mp member with earlier | new
  · exact bearing.transit datagram earlier
  obtain ⟨transmission, sent, rfl⟩ := List.mem_map.mp new
  rcases FwdTable.perform_sent sent with ⟨call, made, result⟩ | ⟨now, buffer, read, msgBytes, rfl, transit, _⟩
  · have wired := (bearing.wired host).change (FwdTable.perform_change _ order event)
    obtain ⟨hdr, written, conveys⟩ := conveys_call wired result
    exact ⟨host, call, hdr, call.msg, called call made, written, conveys⟩
  · obtain ⟨origin, call, hdr, payload, isGood, written, conveys⟩ := arrives now buffer rfl
    obtain ⟨passed, _⟩ := FwdTable.fate_transit transit
    obtain ⟨checksum, rewritten, positive⟩ := written.forwarded transit sent
    have onward := conveys.arrived written passed
    obtain ⟨rfl, _⟩ := written.accepted passed
    exact ⟨origin, call, _, msgBytes, isGood, rewritten, onward.hop positive checksum⟩

theorem Bearing.step {good : Host → SendCall → Prop} (bearing : Bearing topology good net) {event : Event Host}
    (called : ∀ host order nodeEvent, occurs net event = some (host, order, nodeEvent) →
      ∀ call ∈ (net.tables host).calls order nodeEvent, good host call)
    {after : Net Host} (moves : ipStep topology net event = some after) : Bearing topology good after := by
  cases ipStep_moves moves with
  | call host order call =>
      exact bearing.perform (called host order call.event rfl) fun now buffer is =>
        absurd is (call.event_not_packet now buffer)
  | task host order task =>
      exact bearing.perform (called host order task.event rfl) fun now buffer is =>
        absurd is (task_not_packet task now buffer)
  | arrival index order now host packet found running =>
      have occurring : occurs net (.net (.deliver index order now)) =
          some (host, order, .handlePacketSafe now packet) := by
        simp only [occurs, found, Option.bind_some, if_pos running]
      have rest := bearing.fewer fun datagram (member : datagram ∈ net.transit.eraseIdx index) =>
        List.mem_of_mem_eraseIdx member
      refine rest.perform (called host order _ occurring) ?_
      rintro _ _ ⟨⟩
      exact bearing.transit _ (List.mem_of_getElem? found)
  | nowhere event transit nothing among => exact bearing.fewer among

def Accounted (topology : Topology Host) (traffic : Traffic Host) : Prop :=
  Bearing topology (fun origin call => (origin, call) ∈ traffic.called) traffic.net

theorem accounted_run {now : Host → Time} {traffic : Traffic Host}
    (run : Run (Traffic.step topology) anyEvent (Traffic.start topology now) traffic) :
    Accounted topology traffic := by
  refine Run.preserves (Accounted topology) ?_ run (.start topology _ now)
  intro before event after accounted _ moves
  obtain ⟨net, moved, rfl⟩ := Option.map_eq_some_iff.mp moves
  have earlier := accounted.mono fun origin call (listed : (origin, call) ∈ before.called) =>
    (List.mem_append_left _ listed : (origin, call) ∈ (before.note event net).called)
  refine earlier.step (fun host order nodeEvent occurring call made => ?_) moved
  refine List.mem_append_right _ ?_
  rw [occurring]
  exact List.mem_map_of_mem made

/-- In every run from `InitSafe` at all nodes, whatever is sent, lost, duplicated, delayed and
reordered and whatever the routes are: what a step hands to a handler is at a node with the
destination address, goes to the handler of its protocol, and was given to `SendMsgToDestIP` before,
with this destination and protocol, by a node with the source address; its message is the one that
was given there, whole unless its length does not fit into a header. -/
theorem handed_was_called {now : Host → Time} {traffic after : Traffic Host} {event : Event Host}
    (run : Run (Traffic.step topology) anyEvent (Traffic.start topology now) traffic)
    (moves : traffic.step topology event = some after) :
    ∃ given, after.handed = traffic.handed ++ given ∧ ∀ host handed, (host, handed) ∈ given →
      topology.Owns host handed.hdr.dst ∧ ∃ origin call, (origin, call) ∈ traffic.called ∧
        topology.Owns origin handed.hdr.src ∧ handed.hdr.dst = call.destIP ∧
        (traffic.net.tables host).applications call.protocol = some handed.application ∧
        handed.msg <+: call.msg ∧ (headerLen + call.msg.length < 65536 → handed.msg = call.msg) ∧
        0 < handed.hdr.ttl ∧ handed.hdr.ttl ≤ maxHops := by
  have accounted := accounted_run run
  obtain ⟨net, moved, rfl⟩ := Option.map_eq_some_iff.mp moves
  refine ⟨_, rfl, ?_⟩
  intro host handed member
  cases ipStep_moves moved with
  | call host' order call =>
      obtain ⟨given, hands, _⟩ := List.mem_map.mp member
      cases call <;> cases hands
  | task host' order task =>
      obtain ⟨given, hands, _⟩ := List.mem_map.mp member
      cases task <;> cases hands
  | nowhere event transit nothing among =>
      rw [nothing] at member
      cases member
  | arrival index order now host' packet found running =>
      simp only [occurs, found, Option.bind_some, if_pos running, Option.elim_some] at member
      obtain ⟨given, hands, same⟩ := List.mem_map.mp member
      cases same
      obtain ⟨passed, own, registered⟩ := FwdTable.handed_some (Option.mem_toList.mp hands)
      refine ⟨(accounted.wired host).owns own, ?_⟩
      -- Whatever is in transit was called for by its origin.
      obtain ⟨origin, call, hdr, payload, listed, written, conveys⟩ :=
        accounted.transit _ (List.mem_of_getElem? found)
      have read := conveys.arrived written passed
      refine ⟨origin, call, listed, read.source, read.destination, ?_, read.cut, read.whole, read.live⟩
      rw [read.protocol, UInt8.ofNat_toNat] at registered
      exact registered

end

section
attribute [local instance] Netstack.standard Ipv4.linux

def testMessage : List (Event LoopHost) :=
  [.call .b Node.anyOrder .testProtocolInit,
    .call .a Node.anyOrder (.sendMsgToDestIP 0xc0a80002 testProtocolNum [42])]

theorem testMessage_happens :
    (exec (Traffic.step abcLoop) anyEvent (Traffic.start abcLoop fun _ => 0) testMessage).isSome := by
  decide +kernel

def messageSent : Traffic LoopHost :=
  (exec (Traffic.step abcLoop) anyEvent (Traffic.start abcLoop fun _ => 0) testMessage).get testMessage_happens

theorem messageSent_delivers :
    (messageSent.step abcLoop (.net (.deliver 0 Node.anyOrder 0))).isSome := by
  decide +kernel

theorem messageSent_handed :
    messageSent.handed = [] ∧
      ((messageSent.step abcLoop (.net (.deliver 0 Node.anyOrder 0))).get messageSent_delivers).handed.length =
        1 := by
  decide +kernel

theorem handed_was_called_loop :
    ∃ traffic after host handed, Run (Traffic.step abcLoop) anyEvent (Traffic.start abcLoop fun _ => 0) traffic ∧
      traffic.step abcLoop (.net (.deliver 0 Node.anyOrder 0)) = some after ∧
      after.handed = [(host, handed)] ∧ ∃ origin call, (origin, call) ∈ traffic.called ∧
        abcLoop.Owns origin handed.hdr.src ∧ handed.msg <+: call.msg := by
  have reached : Run (Traffic.step abcLoop) anyEvent (Traffic.start abcLoop fun _ => 0) messageSent := by
    unfold messageSent
    exact Run.ofSome testMessage_happens
  have delivered := (Option.some_get messageSent_delivers).symm
  obtain ⟨none, one⟩ := messageSent_handed
  obtain ⟨given, appended, backed⟩ := handed_was_called reached delivered
  rw [none, List.nil_append] at appended
  obtain ⟨⟨host, handed⟩, is⟩ := List.length_eq_one_iff.mp (appended ▸ one)
  subst is
  obtain ⟨_, origin, call, listed, source, _, _, cut, _⟩ := backed host handed List.mem_cons_self
  exact ⟨_, _, host, handed, reached, delivered, appended, origin, call, listed, source, cut⟩

end

end IpTcp.Internet
