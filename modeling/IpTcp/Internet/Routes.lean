import IpTcp.Internet.Traffic
import IpTcp.Rip.Triggered

/-! Routing beside other traffic. Packets of other protocols go through the same tables as those of
RIP, and through many nodes; as long as nobody but RIP writes messages of RIP, what a node hears is
still what a neighbour has sent to it. -/

set_option autoImplicit false

namespace IpTcp.Network.FwdTable

open Lib Lib.Bytes Rip
open Tcp (Netstack)

theorem fate_application [Netstack] [Ipv4] {ft : FwdTable} {order : Order} {buffer : List Byte} {hdr : Header}
    {msgBytes : List Byte} (handled : ft.fate order buffer = .rip hdr msgBytes) :
    ft.applications (UInt8.ofNat hdr.protocol) = some .rip := by
  unfold fate at handled
  split at handled
  · cases handled
  · split at handled
    · cases handled
    · split at handled
      · rename_i registered
        cases handled
        exact registered.2
      · cases handled

theorem setInterfaceStateSafe_applications (ft : FwdTable) (order : Order) (id : Int)
    (newState : InterfaceState) (now : Time) :
    (ft.setInterfaceStateSafe id newState now order).applications = ft.applications := by
  unfold setInterfaceStateSafe
  generalize ft.ipInterfaces.range order.interfaces = links
  induction links generalizing ft with
  | nil => rfl
  | cons link rest ih =>
      rw [List.foldl_cons, ih]
      simp only [setState]
      split <;> rfl

theorem initSafe_applications (links : List IpInterface) (now : Time) :
    (initSafe links now).applications = fun _ => none := by
  unfold initSafe
  induction links using List.reverseRecOn with
  | nil => rfl
  | append_singleton rest link ih =>
      rw [List.foldl_append]
      exact ih

end IpTcp.Network.FwdTable

namespace IpTcp.Internet

open Lib Lib.Bytes Network Rip
open Network.FwdTable (SendCall)
open Tcp (Netstack)

def number : Application → UInt8
  | .testProtocol => testProtocolNum
  | .rip => ripProtocolNum
  | .tcp => Tcp.tcpProtocolNum

def OwnNumber (ft : FwdTable) : Prop :=
  ∀ protocol application, ft.applications protocol = some application → protocol = number application

theorem OwnNumber.start (links : List IpInterface) (now : Time) : OwnNumber (FwdTable.initSafe links now) := by
  intro protocol application registered
  rw [FwdTable.initSafe_applications] at registered
  cases registered

theorem OwnNumber.register {ft after : FwdTable} (own : OwnNumber ft) (application : Application)
    (registers : after.applications = Function.update ft.applications (number application) (some application)) :
    OwnNumber after := by
  intro protocol other registered
  rw [registers, Function.update_apply] at registered
  split at registered
  · cases registered
    assumption
  · exact own protocol other registered

def Foreign (packet : List Byte) : Prop :=
  ∃ hdr payload, Written packet hdr payload ∧ UInt8.ofNat hdr.protocol ≠ ripProtocolNum

theorem marshal_length (p : RipPacket) : p.marshal.length = 4 + 12 * p.entries.length := by
  simp only [RipPacket.marshal, List.length_append, marshalEntries_length]
  rfl

theorem ofNat_onWire (hdr : Header) : UInt8.ofNat hdr.onWire.protocol = UInt8.ofNat hdr.protocol := by
  show UInt8.ofNat (hdr.protocol % 256) = UInt8.ofNat hdr.protocol
  apply UInt8.toNat_inj.mp
  simp

section
variable [Netstack] [Ipv4] {ft : FwdTable} {order : Order}

theorem Foreign.unheard {packet : List Byte} (foreign : Foreign packet) (own : OwnNumber ft) (now : Time) :
    ft.heard order (.handlePacketSafe now packet) = none := by
  obtain ⟨hdr, payload, written, other⟩ := foreign
  cases hears : ft.heard order (.handlePacketSafe now packet) with
  | none => rfl
  | some message =>
      simp only [FwdTable.heard] at hears
      split at hears
      · rename_i read msgBytes fate
        obtain ⟨rfl, _⟩ := written.accepted (FwdTable.fate_rip fate)
        exact absurd (own _ _ (FwdTable.fate_application fate)) (by rwa [ofNat_onWire])
      · cases hears
      · cases hears

theorem Foreign.forwarded {packet : List Byte} (foreign : Foreign packet) {read : Header} {msgBytes : List Byte}
    (transit : ft.fate order packet = .transit read msgBytes) {now : Time} {transmission : Transmission}
    (sent : transmission ∈ (ft.handlePacketSafe order now packet).sent) :
    Foreign transmission.buffer := by
  obtain ⟨hdr, payload, written, other⟩ := foreign
  obtain ⟨checksum, rewritten, _⟩ := written.forwarded transit sent
  exact ⟨_, msgBytes, rewritten, by rwa [show UInt8.ofNat _ = _ from ofNat_onWire hdr]⟩

theorem foreign_call {call : SendCall} (other : call.protocol ≠ ripProtocolNum) {transmission : Transmission}
    (sent : call.result ft order = .sent transmission) : Foreign transmission.buffer := by
  obtain ⟨_, inter, checksum, _, written⟩ := written_call sent
  refine ⟨_, call.msg, written, ?_⟩
  show UInt8.ofNat call.protocol.toNat ≠ ripProtocolNum
  rwa [UInt8.ofNat_toNat]

end

/-! ## What can happen at a node -/

def Call.Honest : Call → Prop
  | .sendMsgToDestIP _ protocol _ => protocol ≠ ripProtocolNum
  | .testProtocolInit | .tcpInit => True

instance : DecidablePred Call.Honest
  | .sendMsgToDestIP _ protocol _ => inferInstanceAs (Decidable (protocol ≠ ripProtocolNum))
  | .testProtocolInit | .tcpInit => .isTrue trivial

/-- A datagram with a message of RIP from the neighbour that has sent it, which is good for the node it
is sent to, or with a packet of another protocol. -/
def Proper {Host : Type} (topology : Topology Host) (good : Host → Host → RipPacket → Prop)
    (datagram : Host × List Byte) : Prop :=
  topology.Carries (good datagram.1) datagram ∨ Foreign datagram.2

section
variable {Host : Type} {topology : Topology Host} {good : Host → Host → RipPacket → Prop} {host : Host}

theorem Proper.mono {better : Host → Host → RipPacket → Prop} {datagram : Host × List Byte}
    (proper : Proper topology good datagram)
    (implies : ∀ sender p, good datagram.1 sender p → better datagram.1 sender p) :
    Proper topology better datagram := by
  rcases proper with ⟨hdr, p, bytes, plain, total, neighbor, owns, isGood⟩ | foreign
  · exact Or.inl ⟨hdr, p, bytes, plain, total, neighbor, owns, implies _ p isGood⟩
  · exact Or.inr foreign

variable [Netstack] [Ipv4] {ft : FwdTable} {order : Order}

inductive Happens (topology : Topology Host) (good : Host → Host → RipPacket → Prop) (host : Host)
    (event : NodeEvent) : Prop where
  | call (call : Call) (honest : call.Honest) (is : event = call.event)
  | task (task : Task) (is : event = task.event)
  | arrival (packet : List Byte) (now : Time) (proper : Proper topology good (host, packet))
      (is : event = .handlePacketSafe now packet)

theorem OwnNumber.call (own : OwnNumber ft) (call : Call) : OwnNumber (ft.perform order call.event).table := by
  cases call with
  | testProtocolInit => exact own.register .testProtocol rfl
  | tcpInit => exact own.register .tcp rfl
  | sendMsgToDestIP destIP protocol msg => exact own

theorem OwnNumber.task (own : OwnNumber ft) (task : Task) : OwnNumber (ft.perform order task.event).table := by
  cases task with
  | ripInit => exact own.register .rip rfl
  | periodicUpdate => exact own
  | periodicExpiry now => exact own
  | setInterfaceStateSafe id newState now =>
      intro protocol application registered
      exact own protocol application
        (FwdTable.setInterfaceStateSafe_applications ft order id newState now ▸ registered)

theorem OwnNumber.arrival (own : OwnNumber ft) (now : Time) (buffer : List Byte) :
    OwnNumber (ft.perform order (.handlePacketSafe now buffer)).table := by
  intro protocol application registered
  exact own protocol application ((handlePacketSafe_same ft order now buffer).2 ▸ registered)

theorem OwnNumber.step [DecidableEq Host] {net after : Net Host} (own : ∀ host, OwnNumber (net.tables host))
    {event : Event Host} (moves : ipStep topology net event = some after) :
    ∀ host, OwnNumber (after.tables host) := by
  cases ipStep_moves moves with
  | call host order call => exact perform_tables (fun _ => OwnNumber) own ((own host).call call)
  | task host order task => exact perform_tables (fun _ => OwnNumber) own ((own host).task task)
  | arrival index order now host packet found running =>
      exact perform_tables (fun _ => OwnNumber) own ((own host).arrival now packet)
  | nowhere event transit nothing among => exact own

theorem OwnNumber.perform {event : NodeEvent} (own : OwnNumber ft) (happens : Happens topology good host event) :
    OwnNumber (ft.perform order event).table := by
  cases happens with
  | call call honest is => exact is ▸ own.call call
  | task task is => exact is ▸ own.task task
  | arrival packet now proper is => exact is ▸ own.arrival now packet

theorem carries_heard {good : Host → RipPacket → Prop} {packet : List Byte}
    (carries : topology.Carries good (host, packet)) {now : Time} {srcIP : IntIP} {read : RipPacket}
    (hears : ft.heard order (.handlePacketSafe now packet) = some (srcIP, read)) :
    topology.Neighbor host srcIP ∧ ∃ p, good (topology.far host srcIP) p ∧ read.command = p.command ∧
      read.entries <+: p.entries ∧ (p.Accepted → headerLen + p.marshal.length < 65536 → read = p) := by
  obtain ⟨hdr, p, bytes, plain, total, neighbor, _, isGood⟩ := carries
  have written : Written packet hdr p.marshal := ⟨bytes, plain, total⟩
  simp only [FwdTable.heard] at hears
  split at hears
  · rename_i header msgBytes fate
    obtain ⟨message, decoded, same⟩ := Option.map_eq_some_iff.mp hears
    cases same
    obtain ⟨rfl, cut, whole, _⟩ := written.accepted (FwdTable.fate_rip fate)
    obtain ⟨command, entries⟩ := unmarshal_cut cut decoded
    refine ⟨neighbor, p, isGood, command, entries, fun accepted short => ?_⟩
    rw [whole (total ▸ short), accepted] at decoded
    exact (Option.some.inj decoded).symm
  · cases hears
  · cases hears

theorem Happens.heard {event : NodeEvent} (happens : Happens topology good host event) (own : OwnNumber ft)
    {srcIP : IntIP} {read : RipPacket} (hears : ft.heard order event = some (srcIP, read)) :
    topology.Neighbor host srcIP ∧ ∃ p, good host (topology.far host srcIP) p ∧ read.command = p.command ∧
      read.entries <+: p.entries ∧ (p.Accepted → headerLen + p.marshal.length < 65536 → read = p) := by
  cases happens with
  | call call honest is =>
      subst is
      cases call <;> cases hears
  | task task is =>
      subst is
      cases task <;> cases hears
  | arrival packet now proper is =>
      subst is
      rcases proper with carries | foreign
      · exact carries_heard carries hears
      · cases (foreign.unheard own now).symm.trans hears

theorem sent_receiver (unique : topology.UniqueAddresses) (wired : topology.Wired host ft)
    {message : IntIP × RipPacket} (neighbor : topology.Neighbor host message.1) {transmission : Transmission}
    (sent : (FwdTable.ripCall message).result ft order = .sent transmission) :
    topology.receiver host transmission = topology.far host message.1 := by
  obtain ⟨inter, _, way, _, _⟩ := FwdTable.sendMsgToDestIP_sent sent
  rcases way with ⟨route, noLink⟩ | ⟨route, linked⟩
  · obtain ⟨same, k, present⟩ := FwdTable.getInterfaceByIp_some (FwdTable.route_localHost route)
    have dest : inter.ip = message.1 := same
    rw [Topology.receiver, noLink]
    exact (unique.far neighbor (dest ▸ wired.owns ⟨k, inter, present, rfl⟩)).symm
  · rw [Topology.receiver, linked]
    obtain ⟨_, direct | ⟨absent, _⟩⟩ := FwdTable.route_link route
    · obtain ⟨_, _, _, _, keyed⟩ := wired.link direct
      exact congrArg (topology.far host) keyed
    · obtain ⟨inter, present⟩ := wired.neighbor.mpr neighbor
      cases absent.symm.trans present

theorem Happens.sent {event : NodeEvent} (happens : Happens topology good host event)
    (unique : topology.UniqueAddresses) (wired : topology.Wired host ft)
    {better : Host → Host → RipPacket → Prop}
    (messages : ∀ message ∈ ft.messages order event,
      topology.Neighbor host message.1 ∧ better (topology.far host message.1) host message.2)
    {transmission : Transmission} (sent : transmission ∈ (ft.perform order event).sent) :
    Proper topology better (topology.receiver host transmission, transmission.buffer) := by
  rcases FwdTable.perform_sent sent with ⟨call, made, result⟩ | ⟨now, buffer, hdr, payload, rfl, transit, _⟩
  · -- a message of RIP goes to a neighbour; a call of `SendMsgToDestIP` is not for RIP
    have after := wired.change (FwdTable.perform_change ft order event)
    by_cases manual : ∃ destIP protocol msg, event = .sendMsgToDestIP destIP protocol msg
    · obtain ⟨destIP, protocol, msg, rfl⟩ := manual
      obtain rfl := List.mem_singleton.mp made
      refine Or.inr (foreign_call ?_ result)
      cases happens with
      | call call honest is =>
          cases call with
          | testProtocolInit | tcpInit => cases is
          | sendMsgToDestIP _ _ _ =>
              cases is
              exact honest
      | task task is => cases task <;> cases is
      | arrival packet now proper is => cases is
    · have automatic : ∀ destIP protocol msg, event ≠ .sendMsgToDestIP destIP protocol msg :=
        fun destIP protocol msg is => manual ⟨destIP, protocol, msg, is⟩
      rw [FwdTable.calls_eq automatic] at made
      obtain ⟨message, emitted, rfl⟩ := List.mem_map.mp made
      obtain ⟨neighbor, isGood⟩ := messages message emitted
      refine Or.inl (Topology.sent_carries unique after neighbor ?_ result)
      rwa [sent_receiver unique after neighbor result]
  · cases happens with
    | call call honest is => exact absurd is.symm (call.event_not_packet now buffer)
    | task task is => exact absurd is.symm (task_not_packet task now buffer)
    | arrival packet now proper is =>
        cases is
        rcases proper with carries | foreign
        · exact absurd transit (carries.not_transit unique wired)
        · exact Or.inr (foreign.forwarded transit sent)

end

/-! ## Routes are walks -/

section
variable {Host : Type}

/-- The routes of all tables are walks, and so is what is announced. -/
structure Routed (topology : Topology Host) (net : Net Host) : Prop where
  wired : ∀ host, topology.Wired host (net.tables host)
  routes : ∀ host d entry, (net.tables host).entryMap.get d = some entry → topology.RouteSound host d entry
  own : ∀ host, OwnNumber (net.tables host)
  transit : ∀ datagram ∈ net.transit, Proper topology (fun _ => topology.Announces) datagram

theorem Routed.start (topology : Topology Host) (now : Host → Time) : Routed topology (topology.start now) := by
  have sound := Topology.Sound.start topology now
  exact ⟨sound.wired, sound.routes, fun host => OwnNumber.start _ _, fun _ none => nomatch none⟩

theorem Routed.sound {topology : Topology Host} {net : Net Host} (routed : Routed topology net) :
    topology.Sound { net with transit := [] } :=
  ⟨routed.wired, routed.routes, fun _ none => nomatch none⟩

def Honest : Net Host → Event Host → Prop
  | _, .call _ _ call => call.Honest
  | _, .net _ => True

instance (net : Net Host) : DecidablePred (Honest net)
  | .call _ _ call => inferInstanceAs (Decidable call.Honest)
  | .net _ => .isTrue trivial

variable [Netstack] [Ipv4] {topology : Topology Host} {host : Host} {ft : FwdTable} {order : Order}
  {event : NodeEvent}

theorem Happens.announced {good : Host → Host → RipPacket → Prop} (happens : Happens topology good host event)
    (own : OwnNumber ft) (announces : ∀ sender p, good host sender p → topology.Announces sender p) :
    ∀ srcIP read, ft.heard order event = some (srcIP, read) →
      topology.Neighbor host srcIP ∧ topology.Announces (topology.far host srcIP) read := by
  intro srcIP read hears
  obtain ⟨neighbor, p, isGood, _, cut, _⟩ := happens.heard own hears
  exact ⟨neighbor, (announces _ p isGood).cut cut⟩

variable [DecidableEq Host] {net : Net Host}

theorem Routed.perform (unique : topology.UniqueAddresses) (routed : Routed topology net)
    {transit : List (Host × List Byte)} (among : ∀ datagram ∈ transit, datagram ∈ net.transit)
    (happens : Happens topology (fun _ => topology.Announces) host event) :
    Routed topology (topology.perform { net with transit := transit } host order event) := by
  have hears : ∀ srcIP read, (net.tables host).heard order event = some (srcIP, read) →
      topology.Neighbor host srcIP ∧ topology.Announces (topology.far host srcIP) read :=
    happens.announced (routed.own host) fun _ _ announces => announces
  constructor
  · intro other
    have wired : ∀ other, topology.Wired other (Net.tables { net with transit := transit } other) := routed.wired
    exact wired_perform wired other
  · exact perform_tables (fun other ft => ∀ d entry, ft.entryMap.get d = some entry →
      topology.RouteSound other d entry) routed.routes
      (Topology.routes_change (routed.wired host) (routed.routes host) hears
        (FwdTable.perform_change _ order event))
  · exact perform_tables (fun _ => OwnNumber) routed.own ((routed.own host).perform happens)
  · intro datagram member
    rcases List.mem_append.mp member with earlier | new
    · exact routed.transit datagram (among datagram earlier)
    · obtain ⟨transmission, sent, rfl⟩ := List.mem_map.mp new
      exact happens.sent unique (routed.wired host)
        (Topology.messages_announce (routed.wired host) (routed.routes host) hears) sent

theorem Routed.step (unique : topology.UniqueAddresses) (routed : Routed topology net) {event : Event Host}
    (honest : Honest net event) {after : Net Host} (moves : ipStep topology net event = some after) :
    Routed topology after := by
  cases ipStep_moves moves with
  | call host order call => exact routed.perform unique (fun _ member => member) (.call call honest rfl)
  | task host order task => exact routed.perform unique (fun _ member => member) (.task task rfl)
  | arrival index order now host packet found running =>
      exact routed.perform unique (fun _ member => List.mem_of_mem_eraseIdx member)
        (.arrival packet now (routed.transit _ (List.mem_of_getElem? found)) rfl)
  | nowhere event transit nothing among =>
      exact ⟨routed.wired, routed.routes, routed.own,
        fun datagram member => routed.transit datagram (among datagram member)⟩

theorem routed_run (unique : topology.UniqueAddresses) {now : Host → Time}
    (run : Run (ipStep topology) Honest (topology.start now) net) : Routed topology net := by
  refine Run.preserves (Routed topology) ?_ run (.start topology now)
  intro before event after routed honest moves
  exact routed.step unique honest moves

end

end IpTcp.Internet
