import IpTcp.Rip.Settled

/-! Triggered updates. `RIPHandler` sends one for every response, with the entries that it has
updated, and sends it also where there are none. So a response dies out where it is received by a
node without another neighbour, and goes round a loop of nodes for ever. -/

set_option autoImplicit false

namespace IpTcp.Rip

open Lib Lib.Bytes Network
open Tcp (Netstack)

theorem sendAll_length {results : List SendResult}
    (allSent : ∀ result ∈ results, ∃ transmission, result = .sent transmission) :
    (sendAll results).1.length = results.length := by
  induction results with
  | nil => rfl
  | cons result rest ih =>
      obtain ⟨transmission, rfl⟩ := allSent result List.mem_cons_self
      have later := ih fun other member => allSent other (List.mem_cons_of_mem _ member)
      simp only [sendAll, List.length_cons, later]

section
variable [Netstack] [Ipv4]

theorem neighbor_sent {ft : FwdTable} {destIP : IntIP} (neighbor : ft.IsNeighbor destIP) (order : Order)
    (protocol : UInt8) (msg : List Byte) :
    ∃ transmission, ft.sendMsgToDestIP order destIP protocol msg = .sent transmission := by
  have transmits : ∀ (inter : IpInterface) (link : Option IpInterface),
      ∃ transmission, FwdTable.transmit inter link destIP protocol msg = .sent transmission := by
    intro inter link
    simp [FwdTable.transmit, FwdTable.marshalWithChecksum, Ipv4.marshal_eq, FwdTable.newHeader]
  obtain ⟨inter, present⟩ := neighbor
  unfold FwdTable.sendMsgToDestIP FwdTable.route FwdTable.getInterfaceByDestIp
  cases ft.getInterfaceByIp order destIP with
  | some own => exact transmits own none
  | none =>
      rw [present]
      exact transmits inter (some inter)

theorem handlePacketSafe_same (ft : FwdTable) (order : Order) (now : Time) (buffer : List Byte) :
    (ft.handlePacketSafe order now buffer).table.ipInterfaces = ft.ipInterfaces ∧
      (ft.handlePacketSafe order now buffer).table.applications = ft.applications := by
  rcases ft.handlePacketSafe_table order now buffer with same | ⟨_, _, _, _, table⟩
  · rw [same]
    exact ⟨rfl, rfl⟩
  · rw [table]
    exact ⟨rfl, rfl⟩

theorem fate_congr {ft after : FwdTable} (interfaces : after.ipInterfaces = ft.ipInterfaces)
    (applications : after.applications = ft.applications) (order : Order) (buffer : List Byte) :
    after.fate order buffer = ft.fate order buffer := by
  unfold FwdTable.fate FwdTable.getInterfaceByIp
  rw [interfaces, applications]

end

theorem Net.with_transit {Host : Type} {net : Net Host} {transit : List (Host × List Byte)}
    (same : net.transit = transit) : { net with transit := transit } = net := by
  subst same
  rfl

namespace Topology

variable {Host : Type} {topology : Topology Host}

def Responses (net : Net Host) : Prop :=
  ∀ datagram ∈ net.transit, ∃ (hdr : Header) (p : RipPacket), Arrives (hdr.layout ++ p.marshal) datagram.2 ∧
    hdr.options = [] ∧ hdr.totalLen = headerLen + p.marshal.length ∧
    (net.tables datagram.1).Owns hdr.dst ∧ p.command = commandResponse

def Empty (_ : Host) (p : RipPacket) : Prop := p.command = commandResponse ∧ p.entries = []

theorem responses_of_empty (unique : topology.UniqueAddresses) {net : Net Host}
    (wired : ∀ host, topology.Wired host (net.tables host))
    (empty : ∀ datagram ∈ net.transit, topology.Carries Empty datagram) : Responses net := by
  intro datagram member
  obtain ⟨hdr, p, packet, plain, total, _, own, response, _⟩ := empty datagram member
  exact ⟨hdr, p, packet, plain, total, ((wired datagram.1).owns_iff unique).mpr own, response⟩

section
variable [Netstack] [Ipv4]

/-- The datagram would be handled as a message of RIP, by a node with an interface that is up and does
not lead to the sender. -/
def PassedOn (net : Net Host) (datagram : Host × List Byte) : Prop :=
  net.running datagram.1 = true ∧ ∃ order hdr msgBytes p,
    (net.tables datagram.1).fate order datagram.2 = .rip hdr msgBytes ∧
    unmarshalRipPacket msgBytes = some p ∧
    ∃ k inter, (net.tables datagram.1).ipInterfaces.get k = some inter ∧ inter.state = .up ∧ k ≠ hdr.src

theorem response_sent {ft : FwdTable} {order : Order} (now : Time) {hdr : Header}
    {msgBytes buffer : List Byte} {p : RipPacket} (handled : ft.fate order buffer = .rip hdr msgBytes)
    (read : unmarshalRipPacket msgBytes = some p) (response : p.command = commandResponse) :
    (ft.handlePacketSafe order now buffer).sent.length = (triggeredTo ft order hdr.src).length := by
  have other : p.command ≠ commandRequest := by
    rw [response]
    decide
  rcases ft.handlePacketSafe_fate order now buffer with
    ⟨_, _, same, outcome⟩ | ⟨_, _, same, _⟩ | ⟨same, _⟩
  · cases handled.symm.trans same
    rw [outcome]
    show (ripHandler ft order now hdr.src msgBytes).sent.length = _
    rw [FwdTable.ripHandler_sent, sendAll_length, List.length_map]
    · simp only [FwdTable.answers, read, if_neg other, List.length_map]
    · intro result member
      obtain ⟨message, answered, rfl⟩ := List.mem_map.mp member
      obtain ⟨heard, readAs, answers⟩ := FwdTable.answers_of_mem answered
      cases read.symm.trans readAs
      cases answers with
      | reply request => exact absurd request other
      | trigger time destIP _ listed =>
          obtain ⟨_, inter, present, _⟩ := FwdTable.mem_triggeredTo.mp listed
          refine neighbor_sent ⟨inter, ?_⟩ order _ _
          -- The interfaces stay as they were, so that no send fails.
          rcases ft.ripHandler_table order now hdr.src msgBytes with table | ⟨_, _, _, table⟩
          · rw [table]
            exact present
          · rw [table]
            exact present
  · cases handled.symm.trans same
  · cases handled.symm.trans same

theorem Responses.received {net : Net Host} (responses : Responses net) {host : Host} {packet : List Byte}
    (member : (host, packet) ∈ net.transit) (order : Order) :
    (∀ hdr payload, (net.tables host).fate order packet ≠ .transit hdr payload) ∧
    ∀ hdr msgBytes p, (net.tables host).fate order packet = .rip hdr msgBytes →
      unmarshalRipPacket msgBytes = some p → p.command = commandResponse := by
  obtain ⟨hdr, p, arrives, plain, total, own, response⟩ := responses _ member
  constructor
  · intro header payload transit
    obtain ⟨passed, foreign⟩ := FwdTable.fate_transit transit
    obtain ⟨rfl, _⟩ := arrives.accepted plain total passed
    exact foreign own
  · intro header msgBytes read handled decoded
    obtain ⟨_, cut⟩ := arrives.accepted plain total (FwdTable.fate_rip handled)
    rw [(unmarshal_cut cut decoded).1, response]

/-! ## Empty responses -/

theorem Carries.hears_empty {order : Order} {now : Time} {host : Host} {packet : List Byte}
    (carries : topology.Carries Empty (host, packet)) {ft : FwdTable} {srcIP : IntIP} {read : RipPacket}
    (hears : ft.heard order (.handlePacketSafe now packet) = some (srcIP, read)) :
    read.command = commandResponse ∧ read.entries = [] := by
  obtain ⟨_, p, ⟨response, empty⟩, command, cut⟩ := carries.heard hears
  rw [empty] at cut
  exact ⟨command.trans response, List.prefix_nil.mp cut⟩

theorem handlePacketSafe_empty {order : Order} {now : Time} {ft : FwdTable} {buffer : List Byte}
    (empty : ∀ srcIP read, ft.heard order (.handlePacketSafe now buffer) = some (srcIP, read) →
      read.entries = []) : (ft.handlePacketSafe order now buffer).table = ft := by
  rcases ft.handlePacketSafe_table order now buffer with same | ⟨srcIP, read, hears, _, table⟩
  · exact same
  · rw [table, empty srcIP read hears]
    rfl

/-! ## Deliveries -/

section
variable [DecidableEq Host]

/-- A number of deliveries in any order, without timer ticks. -/
inductive Deliveries (topology : Topology Host) (net : Net Host) : Nat → Net Host → Prop where
  | none : Deliveries topology net 0 net
  | next {count : Nat} {current after : Net Host} {index : Nat} {order : Order} {now : Time} :
      Deliveries topology net count current →
      topology.step current (.deliver index order now) = some after → Deliveries topology net (count + 1) after

variable {net after : Net Host} {index : Nat} {order : Order} {now : Time}

/-- A delivery: the datagram is taken out, and at a node that runs it is handled. -/
theorem step_deliver (moves : topology.step net (.deliver index order now) = some after) :
    ∃ host packet, net.transit[index]? = some (host, packet) ∧
      after = if net.running host then
          topology.perform { net with transit := net.transit.eraseIdx index } host order
            (.handlePacketSafe now packet)
        else { net with transit := net.transit.eraseIdx index } := by
  obtain ⟨⟨host, packet⟩, found, received⟩ := Option.map_eq_some_iff.mp moves
  exact ⟨host, packet, found, received.symm⟩

theorem step_deliver_same (moves : topology.step net (.deliver index order now) = some after) (host : Host) :
    (after.tables host).ipInterfaces = (net.tables host).ipInterfaces ∧
      (after.tables host).applications = (net.tables host).applications ∧
      (after.running host = true → net.running host = true) := by
  obtain ⟨receiver, packet, _, rfl⟩ := step_deliver moves
  split
  · rename_i running
    by_cases same : host = receiver
    · subst same
      simp only [perform, Function.update_self, FwdTable.perform]
      obtain ⟨interfaces, applications⟩ :=
        handlePacketSafe_same (net.tables host) order now packet
      exact ⟨interfaces, applications, fun _ => running⟩
    · simp [perform, Function.update_of_ne same]
  · exact ⟨rfl, rfl, id⟩

theorem PassedOn.before (moves : topology.step net (.deliver index order now) = some after)
    {datagram : Host × List Byte} (passed : PassedOn after datagram) : PassedOn net datagram := by
  obtain ⟨interfaces, applications, running⟩ := step_deliver_same moves datagram.1
  obtain ⟨runs, ord, hdr, msgBytes, p, handled, read, other⟩ := passed
  rw [fate_congr interfaces applications] at handled
  rw [interfaces] at other
  exact ⟨running runs, ord, hdr, msgBytes, p, handled, read, other⟩

/-- Where a response is not passed on, a delivery emits nothing. -/
theorem step_deliver_silent (responses : Responses net)
    (stops : ∀ datagram ∈ net.transit, ¬ PassedOn net datagram)
    (moves : topology.step net (.deliver index order now) = some after) :
    after.transit = net.transit.eraseIdx index := by
  obtain ⟨host, packet, found, rfl⟩ := step_deliver moves
  have member : (host, packet) ∈ net.transit := List.mem_of_getElem? found
  split
  · rename_i running
    have silent : ((net.tables host).handlePacketSafe order now packet).sent = [] := by
      obtain ⟨notTransit, response⟩ := responses.received member order
      rcases (net.tables host).handlePacketSafe_fate order now packet with
        ⟨hdr, msgBytes, handled, outcome⟩ | ⟨hdr, payload, transit, _⟩ | ⟨_, locks, returned, outcome⟩
      · cases read : unmarshalRipPacket msgBytes with
        | none =>
            rw [outcome]
            show (ripHandler (net.tables host) order now hdr.src msgBytes).sent = []
            rw [FwdTable.ripHandler_sent, FwdTable.answers, read]
            rfl
        | some p =>
            apply List.eq_nil_of_length_eq_zero
            rw [response_sent now handled read (response hdr msgBytes p handled read), List.length_eq_zero_iff,
              List.eq_nil_iff_forall_not_mem]
            -- A neighbour to send to would make it a response that is passed on.
            intro destIP listed
            obtain ⟨other, inter, present, up⟩ := FwdTable.mem_triggeredTo.mp listed
            exact stops _ member
              ⟨running, order, hdr, msgBytes, p, handled, read, destIP, inter, present, up, other⟩
      · exact absurd transit (notTransit hdr payload)
      · rw [outcome]
        rfl
    simp only [perform, FwdTable.perform, silent, List.map_nil, List.append_nil]
  · rfl

theorem Responses.step (responses : Responses net)
    (moves : topology.step net (.deliver index order now) = some after)
    (silent : after.transit = net.transit.eraseIdx index) : Responses after := by
  intro datagram member
  rw [silent] at member
  obtain ⟨hdr, p, packet, plain, total, own, response⟩ := responses datagram (List.mem_of_mem_eraseIdx member)
  refine ⟨hdr, p, packet, plain, total, ?_, response⟩
  unfold FwdTable.Owns
  rw [(step_deliver_same moves datagram.1).1]
  exact own

theorem Deliveries.silent (responses : Responses net)
    (stops : ∀ datagram ∈ net.transit, ¬ PassedOn net datagram) {count : Nat} {current : Net Host}
    (deliveries : topology.Deliveries net count current) :
    Responses current ∧ (∀ datagram ∈ current.transit, ¬ PassedOn current datagram) ∧
      current.transit.length + count = net.transit.length := by
  -- each delivery takes one datagram out and puts none in
  induction deliveries with
  | none => exact ⟨responses, stops, rfl⟩
  | next _ moves ih =>
      obtain ⟨responses, stops, length⟩ := ih
      have silent := step_deliver_silent responses stops moves
      refine ⟨responses.step moves silent, ?_, ?_⟩
      · intro datagram member passed
        rw [silent] at member
        exact stops datagram (List.mem_of_mem_eraseIdx member) (passed.before moves)
      · obtain ⟨host, packet, found, _⟩ := step_deliver moves
        have inside := (List.getElem?_eq_some_iff.mp found).1
        rw [silent, List.length_eraseIdx_of_lt inside]
        omega

/-- With responses in transit: no delivery in any order emits anything, and all orders end with
nothing in transit, exactly if none of the responses reaches a node that has an interface up
to another neighbour. -/
theorem triggered_dies_out_iff (responses : Responses net) :
    ((∀ count current, topology.Deliveries net count current → ∀ index order now after,
        topology.step current (.deliver index order now) = some after →
        after.transit = current.transit.eraseIdx index) ∧
      ∃ bound, ∀ count current, topology.Deliveries net count current →
        count ≤ bound ∧ (count = bound → current.transit = [])) ↔
      ∀ datagram ∈ net.transit, ¬ PassedOn net datagram := by
  constructor
  · rintro ⟨silent, _⟩ ⟨host, packet⟩ member
      ⟨running, order, hdr, msgBytes, p, handled, read, k, inter, present, up, other⟩
    obtain ⟨index, inside, found⟩ := List.getElem_of_mem member
    have here : net.transit[index]? = some (host, packet) := List.getElem?_eq_some_iff.mpr ⟨inside, found⟩
    have received := silent 0 net .none index order 0 _ (by simp only [step, here, Option.map_some]; rfl)
    rw [if_pos running] at received
    -- nothing would have been sent, but the other neighbour gets an update
    have nothing := List.append_right_eq_self.mp received
    rw [List.map_eq_nil_iff] at nothing
    have response := (responses.received member order).2 hdr msgBytes p handled read
    have count := response_sent 0 handled read response
    have listed : k ∈ triggeredTo (net.tables host) order hdr.src :=
      FwdTable.mem_triggeredTo.mpr ⟨other, inter, present, up⟩
    rw [show ((net.tables host).handlePacketSafe order 0 packet).sent = [] from nothing] at count
    rw [List.eq_nil_of_length_eq_zero count.symm] at listed
    cases listed
  · intro stops
    refine ⟨?_, net.transit.length, ?_⟩
    · intro count current deliveries index order now after moves
      obtain ⟨responses, stops, _⟩ := deliveries.silent responses stops
      exact step_deliver_silent responses stops moves
    · intro count current deliveries
      obtain ⟨_, _, length⟩ := deliveries.silent responses stops
      refine ⟨by omega, fun all => List.eq_nil_of_length_eq_zero (by omega)⟩

/-- Where only empty responses are in transit, a delivery changes no table and only empty
responses follow. -/
theorem empty_step (unique : topology.UniqueAddresses) (wired : ∀ host, topology.Wired host (net.tables host))
    (empty : ∀ datagram ∈ net.transit, topology.Carries Empty datagram)
    (moves : topology.step net (.deliver index order now) = some after) :
    after.tables = net.tables ∧ ∀ datagram ∈ after.transit, topology.Carries Empty datagram := by
  obtain ⟨host, packet, found, rfl⟩ := step_deliver moves
  have carries := empty _ (List.mem_of_getElem? found)
  have rest : ∀ datagram ∈ net.transit.eraseIdx index, topology.Carries Empty datagram :=
    fun datagram member => empty datagram (List.mem_of_mem_eraseIdx member)
  split
  · constructor
    · simp only [perform, FwdTable.perform]
      rw [handlePacketSafe_empty fun srcIP read hears => (carries.hears_empty hears).2, Function.update_eq_self]
    · refine perform_carries unique (wired host) rest (by simp) ?_ ?_
      · rintro _ _ ⟨⟩ hdr payload
        exact carries.not_transit unique (wired host)
      · intro message emitted
        cases FwdTable.emits_of_mem emitted with
        | update k inter is => cases is
        | request k inter is => cases is
        | answer srcIP heard _ hears answers =>
            obtain ⟨response, empty⟩ := carries.hears_empty hears
            cases answers with
            | reply request =>
                rw [response] at request
                exact absurd request (by decide)
            | trigger time destIP _ listed =>
                obtain ⟨_, inter, present, _⟩ := FwdTable.mem_triggeredTo.mp listed
                refine ⟨(wired host).neighbor.mp ⟨inter, present⟩, rfl, ?_⟩
                -- A triggered update about no entries has none.
                rw [FwdTable.triggeredUpdate, empty]
                rfl
  · exact ⟨rfl, rest⟩

theorem empty_deliveries (unique : topology.UniqueAddresses)
    (wired : ∀ host, topology.Wired host (net.tables host))
    (empty : ∀ datagram ∈ net.transit, topology.Carries Empty datagram) {count : Nat} {current : Net Host}
    (deliveries : topology.Deliveries net count current) :
    current.tables = net.tables ∧ ∀ datagram ∈ current.transit, topology.Carries Empty datagram := by
  induction deliveries with
  | none => exact ⟨rfl, empty⟩
  | next _ moves ih =>
      obtain ⟨tables, still⟩ := ih
      have further := empty_step unique (fun host => by rw [tables]; exact wired host) still moves
      exact ⟨further.1.trans tables, further.2⟩

theorem step_deliver_lone {host : Host} {packet : List Byte} {sent : List (Host × List Byte)}
    (running : net.running host = true)
    (empty : ∀ srcIP read, (net.tables host).heard order (.handlePacketSafe now packet) =
      some (srcIP, read) → read.entries = [])
    (returns : ((net.tables host).handlePacketSafe order now packet).returned.isSome = true)
    (sends : ((net.tables host).handlePacketSafe order now packet).sent.map
      (fun transmission => (topology.receiver host transmission, transmission.buffer)) = sent) :
    topology.step { net with transit := [(host, packet)] } (.deliver 0 order now) =
      some { net with transit := sent } := by
  have runs : Function.update net.running host true = net.running := by
    rw [← running, Function.update_eq_self]
  have same : Function.update net.tables host
      ((net.tables host).handlePacketSafe order now packet).table = net.tables := by
    rw [handlePacketSafe_empty empty, Function.update_eq_self]
  simp only [step, List.getElem?_cons_zero, Option.map_some, List.eraseIdx_zero, List.tail_cons, running,
    if_true, perform, FwdTable.perform, returns, sends, runs, same, List.nil_append]

end

end

/-! ## Round the loop -/

section
attribute [local instance] Netstack.standard Ipv4.linux

def emptyResponse : RipPacket where
  command := commandResponse
  entries := []

def updateHeader (src dst : IntIP) : Header :=
  let hdr := FwdTable.newHeader src dst ripProtocolNum emptyResponse.marshal
  { hdr with checksum := (computeChecksum hdr.layout).toNat }

def emptyUpdate (src dst : IntIP) : List Byte :=
  recv ((updateHeader src dst).layout ++ emptyResponse.marshal)

/-- The empty update to each node from the one before it in the loop. -/
def roundTo : LoopHost → LoopHost × List Byte
  | .a => (.a, emptyUpdate 0xc0a80006 0xc0a80005)
  | .b => (.b, emptyUpdate 0xc0a80001 0xc0a80002)
  | .c => (.c, emptyUpdate 0xc0a80003 0xc0a80004)

def following : LoopHost → LoopHost
  | .a => .b
  | .b => .c
  | .c => .a

/-- After the exchange, the updates that it has triggered are delivered, and all but one of those
that follow are lost. -/
def leavingOne : List (NetEvent LoopHost) :=
  exchange ++ List.replicate 6 (.deliver 0 Node.anyOrder 0) ++ List.replicate 5 (.lose 0)

theorem leavingOne_happens : (exec abcLoop.step anyEvent (abcLoop.start fun _ => 0) leavingOne).isSome := by
  decide +kernel

def oneLeft : Net LoopHost :=
  (exec abcLoop.step anyEvent (abcLoop.start fun _ => 0) leavingOne).get leavingOne_happens

theorem oneLeft_reached : Run abcLoop.step anyEvent (abcLoop.start fun _ => 0) oneLeft := by
  unfold oneLeft
  exact Run.ofSome leavingOne_happens

theorem oneLeft_facts :
    oneLeft.transit = [roundTo .b] ∧
    ∀ host ∈ [LoopHost.a, .b, .c], (roundTo host).1 = host ∧ oneLeft.running host = true ∧
      ((oneLeft.tables host).handlePacketSafe Node.anyOrder 0 (roundTo host).2).returned.isSome = true ∧
      ((oneLeft.tables host).handlePacketSafe Node.anyOrder 0 (roundTo host).2).sent.map
        (fun transmission => (abcLoop.receiver host transmission, transmission.buffer)) =
          [roundTo (following host)] := by
  -- One empty update is on its way to B, and each node hands it to the next one.
  decide +kernel

theorem oneLeft_transit : oneLeft.transit = [roundTo .b] := oneLeft_facts.1

theorem oneLeft_eq : { oneLeft with transit := [roundTo .b] } = oneLeft :=
  Net.with_transit oneLeft_transit

theorem roundTo_carries (host : LoopHost) : abcLoop.Carries Empty (roundTo host) := by
  cases host with
  | a =>
      exact ⟨updateHeader 0xc0a80006 0xc0a80005, emptyResponse, .received, rfl, rfl,
        by unfold Neighbor; decide, by unfold Owns; decide, rfl, rfl⟩
  | b =>
      exact ⟨updateHeader 0xc0a80001 0xc0a80002, emptyResponse, .received, rfl, rfl,
        by unfold Neighbor; decide, by unfold Owns; decide, rfl, rfl⟩
  | c =>
      exact ⟨updateHeader 0xc0a80003 0xc0a80004, emptyResponse, .received, rfl, rfl,
        by unfold Neighbor; decide, by unfold Owns; decide, rfl, rfl⟩

theorem round_step (host : LoopHost) :
    abcLoop.step { oneLeft with transit := [roundTo host] } (.deliver 0 Node.anyOrder 0) =
      some { oneLeft with transit := [roundTo (following host)] } := by
  obtain ⟨same, running, returns, sends⟩ := oneLeft_facts.2 host (by cases host <;> simp)
  have packet : roundTo host = (host, (roundTo host).2) := Prod.ext same rfl
  have carries := roundTo_carries host
  rw [packet] at carries ⊢
  exact step_deliver_lone running (fun srcIP read hears => (carries.hears_empty hears).2) returns sends

theorem oneLeft_empty : ∀ datagram ∈ oneLeft.transit, abcLoop.Carries Empty datagram := by
  rw [oneLeft_transit]
  intro datagram member
  rw [List.mem_singleton.mp member]
  exact roundTo_carries .b

theorem oneLeft_wired (host : LoopHost) : abcLoop.Wired host (oneLeft.tables host) :=
  (reachable_sound abcLoop_unique oneLeft_reached).wired host

theorem round_deliveries (count : Nat) :
    ∃ host, abcLoop.Deliveries oneLeft count { oneLeft with transit := [roundTo host] } := by
  induction count with
  | zero =>
      refine ⟨.b, ?_⟩
      rw [oneLeft_eq]
      exact .none
  | succ count ih =>
      obtain ⟨host, deliveries⟩ := ih
      exact ⟨following host, .next deliveries (round_step host)⟩

/-- A state that the loop reaches with one response in transit, an empty one: no delivery in any
order changes a route, and yet its handling emits a response, and after any number of deliveries
there is still one in transit. -/
theorem triggered_circulates :
    ∃ net, Run abcLoop.step anyEvent (abcLoop.start fun _ => 0) net ∧ Responses net ∧
      net.transit.length = 1 ∧
      (∀ count current, abcLoop.Deliveries net count current →
        ∀ host, SameRoutes (net.tables host) (current.tables host)) ∧
      (∃ after, abcLoop.step net (.deliver 0 Node.anyOrder 0) = some after ∧ after.transit.length = 1) ∧
      ∀ count, ∃ current, abcLoop.Deliveries net count current ∧ current.transit ≠ [] := by
  refine ⟨oneLeft, oneLeft_reached, responses_of_empty abcLoop_unique oneLeft_wired oneLeft_empty,
    by rw [oneLeft_transit]; rfl, ?_, ?_, ?_⟩
  · intro count current deliveries host
    rw [(empty_deliveries abcLoop_unique oneLeft_wired oneLeft_empty deliveries).1]
    exact fun _ => rfl
  · have first := round_step .b
    rw [oneLeft_eq] at first
    exact ⟨_, first, rfl⟩
  · intro count
    obtain ⟨host, deliveries⟩ := round_deliveries count
    exact ⟨_, deliveries, List.cons_ne_nil _ _⟩

def cornering : List (NetEvent LoopHost) :=
  -- The link from B to C is taken down at B, to which the update is on its way.
  leavingOne ++ [.task .b Node.anyOrder (.setInterfaceStateSafe 1 .down 0)]

theorem cornering_happens : (exec abcLoop.step anyEvent (abcLoop.start fun _ => 0) cornering).isSome := by
  decide +kernel

def cornered : Net LoopHost :=
  (exec abcLoop.step anyEvent (abcLoop.start fun _ => 0) cornering).get cornering_happens

theorem cornered_facts :
    cornered.transit = [roundTo .b] ∧
    ∀ k inter, (cornered.tables .b).ipInterfaces.get k = some inter →
      inter.state = .up → k = 0xc0a80001 := by
  decide +kernel

theorem cornered_transit : cornered.transit = [roundTo .b] := cornered_facts.1

theorem cornered_wired (host : LoopHost) : abcLoop.Wired host (cornered.tables host) := by
  have reached : Run abcLoop.step anyEvent (abcLoop.start fun _ => 0) cornered := by
    unfold cornered
    exact Run.ofSome cornering_happens
  exact (reachable_sound abcLoop_unique reached).wired host

theorem cornered_responses : Responses cornered := by
  refine responses_of_empty abcLoop_unique cornered_wired ?_
  rw [cornered_transit]
  intro datagram member
  rw [List.mem_singleton.mp member]
  exact roundTo_carries .b

theorem cornered_stops : ∀ datagram ∈ cornered.transit, ¬ PassedOn cornered datagram := by
  rw [cornered_transit]
  rintro datagram member ⟨_, order, hdr, msgBytes, p, handled, _, k, inter, present, up, other⟩
  have receiver : (roundTo .b).1 = LoopHost.b := rfl
  rw [List.mem_singleton.mp member, receiver] at handled present
  have passed : FwdTable.accepted (recv ((updateHeader 0xc0a80001 0xc0a80002).layout ++
      emptyResponse.marshal)) = some (hdr, msgBytes) :=
    FwdTable.fate_rip handled
  obtain ⟨rfl, _⟩ := Arrives.received.accepted (by rfl) (by rfl) passed
  exact other (cornered_facts.2 k inter present up)

theorem triggered_dies_out_cornered :
    ∃ bound, ∀ count current, abcLoop.Deliveries cornered count current →
      count ≤ bound ∧ (count = bound → current.transit = []) :=
  ((triggered_dies_out_iff cornered_responses).mpr cornered_stops).2

end

end Topology

end IpTcp.Rip
