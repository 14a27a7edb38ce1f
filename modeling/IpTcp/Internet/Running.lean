import IpTcp.Internet.Routes
import IpTcp.Network.Locking
import IpTcp.Network.NextHop
import IpTcp.Network.SliceBounds
import IpTcp.Rip.Settled
import IpTcp.Tcp.SegmentFormat

/-! Nothing that nodes send to each other takes one of them down: neither a slice that is out of
range, nor a next hop without an interface, nor a message that a handler cannot read. -/

set_option autoImplicit false

namespace IpTcp.Network.FwdTable

open Lib Lib.Bytes Rip
open Tcp (Netstack)

variable {ft : FwdTable} {order : Order}

/-! ## Sends -/

theorem afterSends_returns {locks : List LockOp} {results : List SendResult}
    (fine : ∀ result ∈ results, result ≠ .panics) : (afterSends ft locks results).returned.isSome := by
  have none : (sendAll results).2 = false := by
    induction results with
    | nil => rfl
    | cons result rest ih =>
        have later := ih fun other member => fine other (List.mem_cons_of_mem _ member)
        cases result with
        | sent transmission => exact later
        | error err => exact later
        | panics => exact absurd rfl (fine .panics List.mem_cons_self)
  simp [afterSends, none]

variable [Netstack] [Ipv4]

theorem NextHops.sends (hops : ft.NextHops) (destIP : IntIP) (protocol : UInt8) (msg : List Byte) :
    ft.sendMsgToDestIP order destIP protocol msg ≠ .panics := by
  have transmits : ∀ inter link, transmit inter link destIP protocol msg ≠ .panics := by
    intro inter link
    unfold transmit
    split <;> simp
  unfold sendMsgToDestIP
  split
  · simp
  · rename_i missing
    exact absurd missing (hops.route order destIP)
  · exact transmits _ _
  · exact transmits _ _

/-- A message of RIP that can be read does not take the node down. -/
theorem ripHandler_returns {now : Time} {srcIP : IntIP} {rawMsg : List Byte}
    (reads : (unmarshalRipPacket rawMsg).isSome) (hops : ft.NextHops)
    (after : (ripHandler ft order now srcIP rawMsg).table.NextHops) :
    (ripHandler ft order now srcIP rawMsg).returned.isSome := by
  obtain ⟨ripPacket, read⟩ := Option.isSome_iff_exists.mp reads
  simp only [ripHandler, read] at after ⊢
  split
  · refine afterSends_returns fun result member => ?_
    rw [List.mem_singleton.mp member]
    exact hops.sends _ _ _
  · rename_i response
    rw [if_neg response] at after
    refine afterSends_returns fun result member => ?_
    obtain ⟨destIP, _, rfl⟩ := List.mem_map.mp member
    exact NextHops.sends after _ _ _

theorem perform_returns {event : NodeEvent} (hops : (ft.perform order event).table.NextHops)
    (noPacket : ∀ now buffer, event ≠ .handlePacketSafe now buffer)
    (noMessage : ∀ now srcIP rawMsg, event ≠ .ripHandler now srcIP rawMsg) :
    (ft.perform order event).returned.isSome := by
  cases event with
  | registerHandlerSafe | setInterfaceStateSafe | periodicExpiry => rfl
  | handlePacketSafe now buffer => exact absurd rfl (noPacket now buffer)
  | ripHandler now srcIP rawMsg => exact absurd rfl (noMessage now srcIP rawMsg)
  | sendMsgToDestIP destIP protocol msg =>
      refine afterSends_returns fun result member => ?_
      rw [List.mem_singleton.mp member]
      exact NextHops.sends hops _ _ _
  | periodicUpdate =>
      refine afterSends_returns fun result member => ?_
      obtain ⟨⟨_, inter⟩, _, rfl⟩ := List.mem_map.mp member
      exact NextHops.sends hops _ _ _
  | ripInit =>
      refine afterSends_returns fun result member => ?_
      obtain ⟨⟨destIp, _⟩, _, rfl⟩ := List.mem_map.mp member
      exact NextHops.sends hops _ _ _

end IpTcp.Network.FwdTable

namespace IpTcp.Internet

open Lib Lib.Bytes Network Rip
open Network.FwdTable (SendCall)
open Tcp (Netstack)

/-! ## Packets -/

/-- A call whose packet every node can read: it fits into the buffer, and the handler of its protocol
can index what it indexes. -/
structure Harmless (call : SendCall) : Prop where
  fits : headerLen + call.msg.length ≤ maxMsgSize
  rip : call.protocol = ripProtocolNum → (unmarshalRipPacket call.msg).isSome
  tcp : call.protocol = Tcp.tcpProtocolNum →
    Tcp.parsedLen ≤ call.msg.length ∧ Tcp.claimedOffset call.msg ≤ call.msg.length

section
variable [Netstack] [Ipv4] {Host : Type} {topology : Topology Host} {origin : Host} {call : SendCall}
  {packet payload : List Byte} {hdr : Header} {ft : FwdTable} {order : Order} {now : Time}

theorem arrival_returns (own : OwnNumber ft) (hops : ft.NextHops)
    (after : (ft.handlePacketSafe order now packet).table.NextHops) (harmless : Harmless call)
    (written : Written packet hdr payload) (conveys : Conveys topology origin call hdr payload) :
    (ft.handlePacketSafe order now packet).returned.isSome := by
  have size : maxMsgSize = 1400 := rfl
  have whole : payload = call.msg := conveys.whole (by have := harmless.fits; omega)
  have fits : hdr.totalLen ≤ maxMsgSize := by
    rw [written.total, whole]
    exact harmless.fits
  have protocol : UInt8.ofNat hdr.onWire.protocol = call.protocol := by
    rw [ofNat_onWire, conveys.protocol, UInt8.ofNat_toNat]
  rcases ft.handlePacketSafe_fate order now packet with
    ⟨read, msgBytes, fate, handled⟩ | ⟨read, msgBytes, fate, handled⟩ | ⟨fate, _⟩
  · -- A message of RIP that was built well is read whole.
    obtain ⟨rfl, _, all, _⟩ := written.accepted (FwdTable.fate_rip fate)
    have isRip := own _ _ (FwdTable.fate_application fate)
    rw [protocol] at isRip
    rw [handled] at after ⊢
    have reads : (unmarshalRipPacket msgBytes).isSome := by
      rw [all (by omega), whole]
      exact harmless.rip isRip
    exact FwdTable.ripHandler_returns reads hops after
  · rw [handled]
    exact Option.isSome_iff_ne_none.mpr (hops.forward (FwdTable.fate_transit fate).2 msgBytes)
  · -- The packet ends here: its slices are in range, and a message for TCP can be read.
    refine Option.isSome_iff_ne_none.mpr (((ft.inRange_outcome order now packet).1 fate).mpr ?_)
    intro read parsed
    refine ⟨(Header.ofLayout_bounds (Ipv4.parseHeader_eq packet ▸ parsed)).2.1, fun _ => ?_⟩
    obtain rfl := written.parsed parsed
    refine ⟨payload, written.message_fits fits, ?_⟩
    rintro ⟨_, _, _, registered⟩
    have isTcp := own _ _ registered
    rw [protocol] at isTcp
    rw [whole]
    exact (Tcp.unmarshalTcpPacket_isSome _ _).mpr (harmless.tcp isTcp)

end

/-! ## The network -/

/-- What programs are asked for: messages that are not of RIP, that fit, and that can be read. -/
def Call.Careful : Call → Prop
  | .sendMsgToDestIP _ protocol msg =>
      protocol ≠ ripProtocolNum ∧ headerLen + msg.length ≤ maxMsgSize ∧
        (protocol = Tcp.tcpProtocolNum → Tcp.parsedLen ≤ msg.length ∧ Tcp.claimedOffset msg ≤ msg.length)
  | .testProtocolInit | .tcpInit => True

instance (call : Call) : Decidable call.Careful := by
  cases call <;> unfold Call.Careful <;> infer_instance

section
variable {Host : Type}

def Careful : Net Host → Event Host → Prop
  | _, .call _ _ call => call.Careful
  | _, .net _ => True

instance (net : Net Host) : DecidablePred (Careful net)
  | .call _ _ call => inferInstanceAs (Decidable call.Careful)
  | .net _ => .isTrue trivial

variable {topology : Topology Host} {net : Net Host}

theorem Careful.honest {event : Event Host} (careful : Careful net event) : Honest net event := by
  cases event with
  | call host order call =>
      cases call with
      | sendMsgToDestIP destIP protocol msg => exact careful.1
      | testProtocolInit | tcpInit => trivial
  | net event => trivial

theorem Routed.nextHops (routed : Routed topology net) (unique : topology.UniqueAddresses) (host : Host) :
    (net.tables host).NextHops := by
  intro d entry present foreign
  rcases routed.routes host d entry present with ⟨_, _, own⟩ | ⟨_, _, neighbor, _⟩
  · exact absurd (((routed.wired host).owns_iff unique).mpr own) foreign
  · exact (routed.wired host).neighbor.mpr neighbor

structure Healthy (topology : Topology Host) (net : Net Host) : Prop where
  routed : Routed topology net
  bearing : Bearing topology (fun _ => Harmless) net

theorem Healthy.start (topology : Topology Host) (now : Host → Time) : Healthy topology (topology.start now) :=
  ⟨.start topology now, .start topology _ now⟩

theorem Healthy.whoever (healthy : Healthy topology net) (running : Host → Bool) :
    Healthy topology { net with running := running } :=
  ⟨⟨healthy.routed.wired, healthy.routed.routes, healthy.routed.own, healthy.routed.transit⟩,
    ⟨healthy.bearing.wired, healthy.bearing.transit⟩⟩

variable [Netstack] [Ipv4]

/-- With sound routes in a small network every message of RIP can be read. -/
theorem Routed.harmless (routed : Routed topology net) {addresses : List IntIP} (few : addresses.length ≤ 64)
    (all : ∀ host, ∀ link ∈ topology.links host, link.ip ∈ addresses) {host : Host} {order : Order}
    {event : NodeEvent} : ∀ message ∈ (net.tables host).messages order event,
      Harmless (FwdTable.ripCall message) := by
  intro message emitted
  have response := fun neighborIP => routed.sound.response_accepted few all host order neighborIP
  have accepted : message.2.Accepted := by
    cases FwdTable.emits_of_mem emitted with
    | update k inter => exact response inter.destIp
    | request k inter => exact request_accepted
    | answer srcIP heard _ hears answers =>
        cases answers with
        | reply request => exact response srcIP
        | trigger now destIP _ listed =>
            obtain ⟨rawMsg, read⟩ := FwdTable.heard_decoded hears
            exact triggeredUpdate_accepted _ now srcIP (unmarshal_some read).1
  have short := (unmarshal_some accepted).1
  refine ⟨?_, fun _ => ?_, fun isTcp => ?_⟩
  · show headerLen + message.2.marshal.length ≤ maxMsgSize
    rw [marshal_length]
    simp only [headerLen, maxMsgSize]
    omega
  · show (unmarshalRipPacket message.2.marshal).isSome
    rw [accepted]
    rfl
  · exact absurd isTcp (by decide : ripProtocolNum ≠ Tcp.tcpProtocolNum)

variable [DecidableEq Host]

theorem Call.Careful.harmless {call : Call} (careful : call.Careful) {ft : FwdTable} {order : Order} :
    ∀ made ∈ ft.calls order call.event, Harmless made := by
  intro made member
  cases call with
  | sendMsgToDestIP destIP protocol msg =>
      cases List.mem_singleton.mp member
      exact ⟨careful.2.1, fun isRip => absurd isRip careful.1, careful.2.2⟩
  | testProtocolInit | tcpInit => cases member

theorem running_perform {host : Host} {order : Order} {event : NodeEvent}
    (returns : ((net.tables host).perform order event).returned.isSome) {other : Host}
    (running : net.running other = true) : (topology.perform net host order event).running other = true := by
  show Function.update net.running host _ other = true
  rw [Function.update_apply]
  split
  · exact returns
  · exact running

theorem Healthy.step (healthy : Healthy topology net) (unique : topology.UniqueAddresses)
    {addresses : List IntIP} (few : addresses.length ≤ 64)
    (all : ∀ host, ∀ link ∈ topology.links host, link.ip ∈ addresses) {event : Event Host}
    (careful : Careful net event) {after : Net Host} (moves : ipStep topology net event = some after) :
    Healthy topology after := by
  refine ⟨healthy.routed.step unique careful.honest moves, ?_⟩
  refine healthy.bearing.step (fun host order nodeEvent occurring call made => ?_) moves
  rcases occurs_calls occurring made with ⟨user, rfl, rfl⟩ | ⟨message, emitted, rfl⟩
  · exact Call.Careful.harmless careful call made
  · exact healthy.routed.harmless few all message emitted

/-- No event of such a network ends a node: neither the one it happens at nor another. -/
theorem Healthy.running (healthy : Healthy topology net) (unique : topology.UniqueAddresses)
    {event : Event Host} (careful : Careful net event) {after : Net Host}
    (moves : ipStep topology net event = some after) {host : Host} (running : net.running host = true) :
    after.running host = true := by
  have routed := healthy.routed.step unique careful.honest moves
  -- The sends of an event use the table that it leaves, whose routes go through interfaces as well.
  have tables : ∀ {host : Host} {order : Order} {nodeEvent : NodeEvent} {before : Net Host},
      after = topology.perform before host order nodeEvent →
      ((before.tables host).perform order nodeEvent).table.NextHops := by
    intro host order nodeEvent before is
    have hops := routed.nextHops unique host
    rw [is] at hops
    simpa only [Topology.perform, Function.update_self] using hops
  cases ipStep_moves moves with
  | call host order call =>
      refine running_perform (FwdTable.perform_returns (tables rfl) call.event_not_packet ?_) running
      cases call <;> simp [Call.event]
  | task host order task =>
      refine running_perform (FwdTable.perform_returns (tables rfl) (task_not_packet task) ?_) running
      cases task <;> simp [Task.event]
  | arrival index order now host packet found _ =>
      obtain ⟨origin, call, hdr, payload, harmless, written, conveys⟩ :=
        healthy.bearing.transit _ (List.mem_of_getElem? found)
      refine running_perform ?_ running
      exact arrival_returns (healthy.routed.own host) (healthy.routed.nextHops unique host) (tables rfl)
        harmless written conveys
  | nowhere event transit nothing among => exact running

end

/-! ## Locks that are kept -/

/-- The network with the lock of every table, and the packets so far whose time to live was over at
a node. -/
structure LockedNet (Host : Type) where
  net : Net Host
  locks : Host → RWMutex
  expired : Host → Nat

inductive LockedEvent (Host : Type) where
  | ip (event : Event Host)
  /-- `go-deadlock` ends the program. -/
  | exit (host : Host)

namespace LockedNet

variable {Host : Type}

def start (topology : Topology Host) (now : Host → Time) : LockedNet Host where
  net := topology.start now
  locks _ := .free
  expired _ := 0

def Careful (locked : LockedNet Host) : LockedEvent Host → Prop
  | .ip event => Internet.Careful locked.net event
  | .exit _ => True

instance (locked : LockedNet Host) : DecidablePred locked.Careful
  | .ip event => inferInstanceAs (Decidable (Internet.Careful locked.net event))
  | .exit _ => .isTrue trivial

variable [DecidableEq Host] [Netstack] [Ipv4]

/-- What happens at a node waits for the lock of its table. A lock that is kept ends the node sooner
or later: when something has waited for it for 30 s, or is to be locked again by who has it. -/
def step (topology : Topology Host) (locked : LockedNet Host) : LockedEvent Host → Option (LockedNet Host)
  | .ip event =>
      (ipStep topology locked.net event).bind fun net =>
        match occurs locked.net event with
        | none => some { locked with net := net }
        | some (host, order, nodeEvent) =>
            let ft := locked.net.tables host
            ((locked.locks host).performAll (ft.perform order nodeEvent).locks).map fun mutex =>
              { net := net
                locks := Function.update locked.locks host mutex
                expired := Function.update locked.expired host
                  (locked.expired host + if ft.expiring order nodeEvent then 1 else 0) }
  | .exit host =>
      if locked.net.running host ∧ locked.locks host ≠ .free then
        some { locked with net := { locked.net with running := Function.update locked.net.running host false } }
      else none

structure Kept (topology : Topology Host) (locked : LockedNet Host) : Prop where
  healthy : Healthy topology locked.net
  locks : ∀ host, locked.locks host = { readers := locked.expired host, writing := false }
  running : ∀ host, locked.net.running host = true ∨ 0 < locked.expired host

variable {topology : Topology Host} {locked : LockedNet Host}

theorem performAll_perform {ft : FwdTable} {order : Order} {event : NodeEvent} {readers : Nat} {after : RWMutex}
    (performs : RWMutex.performAll { readers := readers, writing := false } (ft.perform order event).locks =
      some after) :
    after = { readers := readers + if ft.expiring order event then 1 else 0, writing := false } := by
  rcases ft.perform_locks order event with ⟨expiring, locks⟩ | ⟨goes, neutral⟩
  · rw [locks] at performs
    rw [if_pos expiring]
    exact (Option.some.inj performs).symm
  · rw [if_neg goes]
    exact neutral.keeps performs

theorem Kept.step (kept : Kept topology locked) (unique : topology.UniqueAddresses)
    {addresses : List IntIP} (few : addresses.length ≤ 64)
    (all : ∀ host, ∀ link ∈ topology.links host, link.ip ∈ addresses) {event : LockedEvent Host}
    (careful : locked.Careful event) {after : LockedNet Host} (moves : locked.step topology event = some after) :
    Kept topology after := by
  cases event with
  | ip event =>
      obtain ⟨net, moved, rest⟩ := Option.bind_eq_some_iff.mp moves
      have healthy := kept.healthy.step unique few all careful moved
      have running : ∀ host, net.running host = true ∨ 0 < locked.expired host := fun host =>
        (kept.running host).imp_left (kept.healthy.running unique careful moved)
      split at rest
      · cases rest
        exact ⟨healthy, kept.locks, running⟩
      · rename_i host order nodeEvent occurring
        obtain ⟨mutex, performs, rfl⟩ := Option.map_eq_some_iff.mp rest
        rw [kept.locks host] at performs
        refine ⟨healthy, fun other => ?_, fun other => (running other).imp_right fun some => ?_⟩
        · by_cases same : other = host
          · subst same
            simp only [Function.update_self]
            exact performAll_perform performs
          · simp only [Function.update_of_ne same]
            exact kept.locks other
        · by_cases same : other = host
          · subst same
            simp only [Function.update_self]
            omega
          · simpa only [Function.update_of_ne same] using some
  | exit host =>
      obtain ⟨⟨_, held⟩, same⟩ := Option.ite_none_right_eq_some.mp moves
      cases same
      refine ⟨kept.healthy.whoever _, kept.locks, fun other => ?_⟩
      by_cases same : other = host
      · subst same
        -- A lock that is not free was kept by an expired packet.
        refine Or.inr (Nat.pos_of_ne_zero fun none => held ?_)
        rw [kept.locks other, none]
        rfl
      · simpa only [Function.update_of_ne same] using kept.running other

end LockedNet

section
attribute [local instance] Netstack.standard Ipv4.linux

def busyLoop : List (LockedEvent LoopHost) :=
  [.ip (.call .b Node.anyOrder .tcpInit), .ip (.net (.task .a Node.anyOrder .ripInit)),
    .ip (.net (.task .b Node.anyOrder .ripInit)), .ip (.net (.task .b Node.anyOrder .periodicUpdate)),
    .ip (.call .a Node.anyOrder (.sendMsgToDestIP 0xc0a80002 Tcp.tcpProtocolNum Tcp.plainAck))] ++
  List.replicate 7 (.ip (.net (.deliver 0 Node.anyOrder 0)))

theorem busyLoop_happens : (exec (LockedNet.step abcLoop) LockedNet.Careful
    (LockedNet.start abcLoop fun _ => 0) busyLoop).isSome := by
  decide +kernel

end

end IpTcp.Internet
