import IpTcp.Network.TableSteps

/-! What an event can do at a node: to the table, and in sending. Invariants of a node are proved
from these and not from the code. -/

set_option autoImplicit false

namespace IpTcp.Network

open Lib Lib.Bytes Rip
open Tcp (Netstack)

namespace FwdTable

theorem sendAll_sent {results : List SendResult} {transmission : Transmission}
    (sent : transmission ∈ (sendAll results).1) : .sent transmission ∈ results := by
  induction results with
  | nil => cases sent
  | cons result rest ih =>
      cases result with
      | sent first =>
          rcases List.mem_cons.mp sent with rfl | later
          · exact List.mem_cons_self
          · exact List.mem_cons_of_mem _ (ih later)
      | error err => exact List.mem_cons_of_mem _ (ih sent)
      | panics => cases sent

/-! ## Answers to a message of RIP -/

theorem mem_triggeredTo {ft : FwdTable} {order : Order} {srcIP destIP : IntIP} :
    destIP ∈ triggeredTo ft order srcIP ↔
      destIP ≠ srcIP ∧ ∃ inter, ft.ipInterfaces.get destIP = some inter ∧ inter.state = .up := by
  constructor
  · intro listed
    obtain ⟨⟨k, inter⟩, member, rfl⟩ := List.mem_map.mp listed
    obtain ⟨present, kept⟩ := List.mem_filter.mp member
    obtain ⟨other, running⟩ := not_or.mp (of_decide_eq_true kept)
    refine ⟨other, inter, (GoMap.mem_range _ _ _ _).mp present, ?_⟩
    cases state : inter.state with
    | up => rfl
    | down => exact absurd state running
  · rintro ⟨other, inter, present, up⟩
    refine List.mem_map.mpr ⟨(destIP, inter), List.mem_filter.mpr ⟨?_, ?_⟩, rfl⟩
    · exact (GoMap.mem_range _ _ _ _).mpr present
    · simp [other, up]

def triggeredUpdate (ft : FwdTable) (now : Time) (srcIP : IntIP) (entries : List RipEntry) : RipPacket where
  command := commandResponse
  entries := (processEntries srcIP now ft.entryMap entries).2

def answers (ft : FwdTable) (order : Order) (now : Time) (srcIP : IntIP) (rawMsg : List Byte) :
    List (IntIP × RipPacket) :=
  match unmarshalRipPacket rawMsg with
  | none => []
  | some ripPacket =>
      if ripPacket.command = commandRequest then [(srcIP, response ft order srcIP)]
      else (triggeredTo ft order srcIP).map fun destIP =>
        (destIP, ft.triggeredUpdate now srcIP ripPacket.entries)

/-- The answers to a message that is heard: the table to who asks for it, and a triggered update
to the other neighbours about a response. -/
inductive Answers (ft : FwdTable) (order : Order) (srcIP : IntIP) (heard : RipPacket) :
    IntIP × RipPacket → Prop where
  | reply : heard.command = commandRequest → Answers ft order srcIP heard (srcIP, response ft order srcIP)
  | trigger (now : Time) (destIP : IntIP) : heard.command ≠ commandRequest →
      destIP ∈ triggeredTo ft order srcIP →
      Answers ft order srcIP heard (destIP, ft.triggeredUpdate now srcIP heard.entries)

theorem answers_of_mem {ft : FwdTable} {order : Order} {now : Time} {srcIP : IntIP} {rawMsg : List Byte}
    {message : IntIP × RipPacket} (answered : message ∈ ft.answers order now srcIP rawMsg) :
    ∃ heard, unmarshalRipPacket rawMsg = some heard ∧ Answers ft order srcIP heard message := by
  unfold answers at answered
  split at answered
  · cases answered
  · rename_i heard read
    refine ⟨heard, read, ?_⟩
    split at answered
    · rename_i request
      rw [List.mem_singleton.mp answered]
      exact .reply request
    · rename_i response
      obtain ⟨destIP, listed, rfl⟩ := List.mem_map.mp answered
      exact .trigger now destIP response listed

/-! ## What becomes of a packet -/

section
variable [Netstack] [Ipv4]

/-- The checks at the beginning of `HandlePacketSafe`: the header and the message of a packet that
passes them. -/
def accepted (buffer : List Byte) : Option (Header × List Byte) :=
  (Ipv4.parseHeader buffer).bind fun hdr =>
    if validateChecksum (buffer.take hdr.len) (UInt16.ofNat hdr.checksum) = UInt16.ofNat hdr.checksum then
      (message buffer hdr).map fun msgBytes => (hdr, msgBytes)
    else none

inductive Fate where
  /-- It is not accepted, or it is for another handler than that of RIP. -/
  | ends
  | rip (hdr : Header) (msgBytes : List Byte)
  | transit (hdr : Header) (msgBytes : List Byte)
  deriving DecidableEq, Repr

def fate (ft : FwdTable) (order : Order) (buffer : List Byte) : Fate :=
  match accepted buffer with
  | none => .ends
  | some (hdr, msgBytes) =>
      match ft.getInterfaceByIp order hdr.dst with
      | none => .transit hdr msgBytes
      | some myInterface =>
          if myInterface.state = .up ∧ ft.applications (UInt8.ofNat hdr.protocol) = some .rip then
            .rip hdr msgBytes
          else .ends

/-- `HandlePacketSafe` from the fate of its packet. -/
theorem handlePacketSafe_fate (ft : FwdTable) (order : Order) (now : Time) (buffer : List Byte) :
    (∃ hdr msgBytes, ft.fate order buffer = .rip hdr msgBytes ∧
      ft.handlePacketSafe order now buffer = ft.deliver order now hdr msgBytes .rip) ∨
    (∃ hdr msgBytes, ft.fate order buffer = .transit hdr msgBytes ∧
      ft.handlePacketSafe order now buffer = ft.forward hdr msgBytes) ∨
    (ft.fate order buffer = .ends ∧
      ∃ locks returned, ft.handlePacketSafe order now buffer = ft.unchanged locks [] returned) := by
  unfold handlePacketSafe fate accepted
  -- the tests in the order of the source: header, checksum, slice, destination, state, handler
  cases Ipv4.parseHeader buffer with
  | none => exact Or.inr (Or.inr ⟨rfl, _, _, rfl⟩)
  | some hdr =>
      simp only [Option.bind_some]
      by_cases valid :
          validateChecksum (buffer.take hdr.len) (UInt16.ofNat hdr.checksum) = UInt16.ofNat hdr.checksum
      · rw [if_neg (not_not.mpr valid), if_pos valid]
        cases message buffer hdr with
        | none => exact Or.inr (Or.inr ⟨rfl, _, _, rfl⟩)
        | some msgBytes =>
            simp only [Option.map_some]
            cases ft.getInterfaceByIp order hdr.dst with
            | none => exact Or.inr (Or.inl ⟨hdr, msgBytes, rfl, rfl⟩)
            | some myInterface =>
                dsimp only
                cases state : myInterface.state with
                | down => exact Or.inr (Or.inr ⟨by simp, _, _, rfl⟩)
                | up =>
                    cases application : ft.applications (UInt8.ofNat hdr.protocol) with
                    | none => exact Or.inr (Or.inr ⟨by simp, _, _, rfl⟩)
                    | some handler =>
                        cases handler with
                        | rip => exact Or.inl ⟨hdr, msgBytes, by simp, rfl⟩
                        | testProtocol | tcp => exact Or.inr (Or.inr ⟨by simp, _, _, rfl⟩)
      · rw [if_pos valid, if_neg valid]
        exact Or.inr (Or.inr ⟨rfl, _, _, rfl⟩)

theorem handlePacketSafe_transit {ft : FwdTable} {order : Order} {buffer : List Byte} {hdr : Header}
    {msgBytes : List Byte} (transit : ft.fate order buffer = .transit hdr msgBytes) (now : Time) :
    ft.handlePacketSafe order now buffer = ft.forward hdr msgBytes := by
  rcases ft.handlePacketSafe_fate order now buffer with
    ⟨_, _, other, _⟩ | ⟨_, _, same, handled⟩ | ⟨other, _⟩
  · cases transit.symm.trans other
  · cases transit.symm.trans same
    exact handled
  · cases transit.symm.trans other

theorem fate_transit {ft : FwdTable} {order : Order} {buffer : List Byte} {hdr : Header}
    {msgBytes : List Byte} (transit : ft.fate order buffer = .transit hdr msgBytes) :
    accepted buffer = some (hdr, msgBytes) ∧ ¬ ft.Owns hdr.dst := by
  unfold fate at transit
  cases passed : accepted buffer with
  | none => simp [passed] at transit
  | some packet =>
      obtain ⟨header, message⟩ := packet
      simp only [passed] at transit
      cases own : ft.getInterfaceByIp order header.dst with
      | none =>
          simp only [own, Fate.transit.injEq] at transit
          obtain ⟨rfl, rfl⟩ := transit
          exact ⟨rfl, getInterfaceByIp_none.mp own⟩
      | some inter =>
          simp only [own] at transit
          split at transit <;> cases transit

theorem fate_rip {ft : FwdTable} {order : Order} {buffer : List Byte} {hdr : Header}
    {msgBytes : List Byte} (handled : ft.fate order buffer = .rip hdr msgBytes) :
    accepted buffer = some (hdr, msgBytes) := by
  unfold fate at handled
  cases passed : accepted buffer with
  | none => simp [passed] at handled
  | some packet =>
      simp only [passed] at handled
      split at handled
      · cases handled
      · split at handled
        · cases handled
          rfl
        · cases handled

/-- The RIP message that an event brings, with its sender. -/
def heard (ft : FwdTable) (order : Order) : NodeEvent → Option (IntIP × RipPacket)
  | .ripHandler _ srcIP rawMsg => (unmarshalRipPacket rawMsg).map fun ripPacket => (srcIP, ripPacket)
  | .handlePacketSafe _ buffer =>
      match ft.fate order buffer with
      | .rip hdr msgBytes => (unmarshalRipPacket msgBytes).map fun ripPacket => (hdr.src, ripPacket)
      | .ends | .transit .. => none
  | _ => none

def learn (ft : FwdTable) (srcIP : IntIP) (now : Time) (entries : List RipEntry) : FwdTable :=
  { ft with entryMap := (processEntries srcIP now ft.entryMap entries).1 }

/-- All that an event can do to the table. -/
inductive Change (ft : FwdTable) (order : Order) (event : NodeEvent) : FwdTable → Prop where
  | same : Change ft order event ft
  | register (protocolNum : UInt8) (application : Application) :
      Change ft order event (ft.registerHandlerSafe protocolNum application)
  | states (id : Int) (newState : InterfaceState) (now : Time)
      (is : event = .setInterfaceStateSafe id newState now) :
      Change ft order event (ft.setInterfaceStateSafe id newState now order)
  | expire (now : Time) (is : event = .periodicExpiry now) :
      Change ft order event (Rip.periodicExpiry ft order now)
  | learn (srcIP : IntIP) (now : Time) (ripPacket : RipPacket)
      (hears : ft.heard order event = some (srcIP, ripPacket))
      (response : ripPacket.command ≠ commandRequest) :
      Change ft order event (ft.learn srcIP now ripPacket.entries)

theorem ripHandler_table (ft : FwdTable) (order : Order) (now : Time) (srcIP : IntIP)
    (rawMsg : List Byte) :
    (ripHandler ft order now srcIP rawMsg).table = ft ∨
      ∃ ripPacket, unmarshalRipPacket rawMsg = some ripPacket ∧ ripPacket.command ≠ commandRequest ∧
        (ripHandler ft order now srcIP rawMsg).table = ft.learn srcIP now ripPacket.entries := by
  unfold ripHandler
  cases unmarshalRipPacket rawMsg with
  | none => exact Or.inl rfl
  | some ripPacket =>
      dsimp only
      split
      · exact Or.inl rfl
      · rename_i response
        exact Or.inr ⟨ripPacket, rfl, response, rfl⟩

theorem forward_table (ft : FwdTable) (hdr : Header) (msgBytes : List Byte) :
    (ft.forward hdr msgBytes).table = ft := by
  unfold forward
  split
  · rfl
  · split
    · rfl
    · split
      · rfl
      · split <;> rfl

/-- A packet changes the table only by a response that is heard. -/
theorem handlePacketSafe_table (ft : FwdTable) (order : Order) (now : Time) (buffer : List Byte) :
    (ft.handlePacketSafe order now buffer).table = ft ∨
      ∃ srcIP ripPacket, ft.heard order (.handlePacketSafe now buffer) = some (srcIP, ripPacket) ∧
        ripPacket.command ≠ commandRequest ∧
        (ft.handlePacketSafe order now buffer).table = ft.learn srcIP now ripPacket.entries := by
  rcases ft.handlePacketSafe_fate order now buffer with
    ⟨hdr, msgBytes, fate, handled⟩ | ⟨hdr, msgBytes, _, handled⟩ | ⟨_, locks, returned, handled⟩
  · rw [handled]
    rcases ft.ripHandler_table order now hdr.src msgBytes with same | ⟨ripPacket, read, response, table⟩
    · exact Or.inl same
    · refine Or.inr ⟨hdr.src, ripPacket, ?_, response, table⟩
      simp only [heard, fate, read, Option.map_some]
  · rw [handled, forward_table]
    exact Or.inl rfl
  · rw [handled]
    exact Or.inl rfl

theorem perform_change (ft : FwdTable) (order : Order) (event : NodeEvent) :
    ft.Change order event (ft.perform order event).table := by
  cases event with
  | registerHandlerSafe protocolNum application => exact .register protocolNum application
  | setInterfaceStateSafe id newState now => exact .states id newState now rfl
  | sendMsgToDestIP destIP protocol msg => exact .same
  | periodicExpiry now => exact .expire now rfl
  | periodicUpdate => exact .same
  | ripInit => exact .register ripProtocolNum .rip
  | ripHandler now srcIP rawMsg =>
      show ft.Change order _ (Rip.ripHandler ft order now srcIP rawMsg).table
      rcases ft.ripHandler_table order now srcIP rawMsg with same | ⟨ripPacket, read, response, table⟩
      · rw [same]
        exact .same
      · rw [table]
        refine .learn srcIP now ripPacket ?_ response
        rw [heard, read, Option.map_some]
  | handlePacketSafe now buffer =>
      show ft.Change order _ (ft.handlePacketSafe order now buffer).table
      rcases ft.handlePacketSafe_table order now buffer with
        same | ⟨srcIP, ripPacket, hears, response, table⟩
      · rw [same]
        exact .same
      · rw [table]
        exact .learn srcIP now ripPacket hears response

theorem Change.sameLinks {ft after : FwdTable} {order : Order} {event : NodeEvent}
    (change : ft.Change order event after) : SameLinks ft after := by
  cases change with
  | same | register | learn | expire => exact fun _ => rfl
  | states id newState now is =>
      intro k
      rw [setInterfaceStateSafe_interfaces, Option.map_map]
      exact congrArg (fun wired => (ft.ipInterfaces.get k).map wired) (funext (changed_wired id newState))

/-- Where a route comes from: it was there, a response has announced it, or it is the node's own. -/
theorem Change.route_cases {ft after : FwdTable} {order : Order} {event : NodeEvent}
    (change : ft.Change order event after) {d : IntIP} {entry : FwdTableEntry}
    (present : after.entryMap.get d = some entry) :
    ft.entryMap.get d = some entry ∨
    (∃ srcIP now ripPacket, ft.heard order event = some (srcIP, ripPacket) ∧
      ∃ announced ∈ ripPacket.entries, d = announced.destIP ∧
        entry = createFwdTableEntry srcIP (announced.cost + 1) now ∧ announced.cost + 1 < infinity) ∨
    ∃ now, entry = selfEntry d now ∧ ft.Owns d := by
  cases change with
  | same | register => exact Or.inl present
  | learn srcIP now ripPacket hears response =>
      rcases processEntries_get present with old | announced
      · exact Or.inl old
      · exact Or.inr (Or.inl ⟨srcIP, now, ripPacket, hears, announced⟩)
  | expire now is =>
      rw [periodicExpiry_get] at present
      exact Or.inl (Option.filter_eq_some_iff.mp present).1
  | states id newState now is =>
      rcases setInterfaceStateSafe_get present with ⟨old, _⟩ | ⟨_, k, inter, listed, _, own, self⟩
      · exact Or.inl old
      · exact Or.inr (Or.inr ⟨now, self, k, inter, listed, own.symm⟩)

theorem Change.keyed {ft after : FwdTable} {order : Order} {event : NodeEvent}
    (change : ft.Change order event after) (keyed : ft.Keyed) : after.Keyed :=
  change.sameLinks.keyed keyed

/-! ## What is sent -/

structure SendCall where
  destIP : IntIP
  protocol : UInt8
  msg : List Byte
  deriving DecidableEq, Repr

def SendCall.result (call : SendCall) (ft : FwdTable) (order : Order) : SendResult :=
  ft.sendMsgToDestIP order call.destIP call.protocol call.msg

def messages (ft : FwdTable) (order : Order) : NodeEvent → List (IntIP × RipPacket)
  | .registerHandlerSafe .. | .setInterfaceStateSafe .. | .periodicExpiry _ | .sendMsgToDestIP .. => []
  | .handlePacketSafe now buffer =>
      match ft.fate order buffer with
      | .rip hdr msgBytes => ft.answers order now hdr.src msgBytes
      | .ends | .transit .. => []
  | .ripHandler now srcIP rawMsg => ft.answers order now srcIP rawMsg
  | .periodicUpdate =>
      ((ft.ipInterfaces.range order.interfaces).filter fun (_, inter) => inter.state = .up).map
        fun (_, inter) => (inter.destIp, response ft order inter.destIp)
  | .ripInit =>
      (ft.ipInterfaces.range order.interfaces).map fun (destIp, _) =>
        (destIp, { command := commandRequest, entries := [] })

def ripCall (message : IntIP × RipPacket) : SendCall := ⟨message.1, ripProtocolNum, message.2.marshal⟩

def calls (ft : FwdTable) (order : Order) (event : NodeEvent) : List SendCall :=
  match event with
  | .sendMsgToDestIP destIP protocol msg => [⟨destIP, protocol, msg⟩]
  | _ => (ft.messages order event).map ripCall

theorem calls_eq {ft : FwdTable} {order : Order} {event : NodeEvent}
    (automatic : ∀ destIP protocol msg, event ≠ .sendMsgToDestIP destIP protocol msg) :
    ft.calls order event = (ft.messages order event).map ripCall := by
  cases event with
  | sendMsgToDestIP destIP protocol msg => exact absurd rfl (automatic destIP protocol msg)
  | registerHandlerSafe | setInterfaceStateSafe | handlePacketSafe | ripHandler | periodicExpiry
  | periodicUpdate | ripInit => rfl

theorem heard_decoded {ft : FwdTable} {order : Order} {event : NodeEvent} {message : IntIP × RipPacket}
    (hears : ft.heard order event = some message) :
    ∃ rawMsg, unmarshalRipPacket rawMsg = some message.2 := by
  have decoded : ∀ (srcIP : IntIP) (rawMsg : List Byte),
      (unmarshalRipPacket rawMsg).map (fun ripPacket => (srcIP, ripPacket)) = some message →
      ∃ rawMsg, unmarshalRipPacket rawMsg = some message.2 := by
    intro srcIP rawMsg found
    obtain ⟨ripPacket, read, rfl⟩ := Option.map_eq_some_iff.mp found
    exact ⟨rawMsg, read⟩
  cases event with
  | ripHandler now srcIP rawMsg => exact decoded srcIP rawMsg hears
  | handlePacketSafe now buffer =>
      simp only [heard] at hears
      split at hears
      · exact decoded _ _ hears
      · cases hears
      · cases hears
  | registerHandlerSafe | setInterfaceStateSafe | sendMsgToDestIP | periodicExpiry | periodicUpdate
  | ripInit => cases hears

inductive Emits (ft : FwdTable) (order : Order) (event : NodeEvent) : IntIP × RipPacket → Prop where
  | update (k : IntIP) (inter : IpInterface) : event = .periodicUpdate →
      ft.ipInterfaces.get k = some inter → inter.state = .up →
      Emits ft order event (inter.destIp, response ft order inter.destIp)
  | request (k : IntIP) (inter : IpInterface) : event = .ripInit → ft.ipInterfaces.get k = some inter →
      Emits ft order event (k, { command := commandRequest, entries := [] })
  | answer (srcIP : IntIP) (heard : RipPacket) (message : IntIP × RipPacket) :
      ft.heard order event = some (srcIP, heard) → Answers ft order srcIP heard message →
      Emits ft order event message

theorem emits_of_mem {ft : FwdTable} {order : Order} {event : NodeEvent} {message : IntIP × RipPacket}
    (emitted : message ∈ ft.messages order event) : Emits ft order event message := by
  cases event with
  | registerHandlerSafe | setInterfaceStateSafe | periodicExpiry | sendMsgToDestIP => cases emitted
  | periodicUpdate =>
      obtain ⟨⟨k, inter⟩, listed, rfl⟩ := List.mem_map.mp emitted
      obtain ⟨present, up⟩ := List.mem_filter.mp listed
      exact .update k inter rfl ((GoMap.mem_range _ _ _ _).mp present) (by simpa using up)
  | ripInit =>
      obtain ⟨⟨k, inter⟩, listed, rfl⟩ := List.mem_map.mp emitted
      exact .request k inter rfl ((GoMap.mem_range _ _ _ _).mp listed)
  | ripHandler now srcIP rawMsg =>
      obtain ⟨heard, read, answers⟩ := answers_of_mem emitted
      exact .answer srcIP heard message (by rw [FwdTable.heard, read, Option.map_some]) answers
  | handlePacketSafe now buffer =>
      simp only [messages] at emitted
      split at emitted
      · rename_i hdr msgBytes fate
        obtain ⟨heard, read, answers⟩ := answers_of_mem emitted
        refine .answer hdr.src heard message ?_ answers
        simp only [FwdTable.heard, fate, read, Option.map_some]
      · cases emitted
      · cases emitted

theorem ripHandler_sent (ft : FwdTable) (order : Order) (now : Time) (srcIP : IntIP) (rawMsg : List Byte) :
    (ripHandler ft order now srcIP rawMsg).sent =
      (sendAll ((ft.answers order now srcIP rawMsg).map fun message =>
        (ripCall message).result (ripHandler ft order now srcIP rawMsg).table order)).1 := by
  unfold ripHandler answers
  cases unmarshalRipPacket rawMsg with
  | none => rfl
  | some ripPacket =>
      dsimp only
      split
      · rfl
      · rw [List.map_map]
        rfl

/-- A packet that is sent comes from a call of `SendMsgToDestIP`, or is on its way through. -/
theorem perform_sent {ft : FwdTable} {order : Order} {event : NodeEvent} {transmission : Transmission}
    (sent : transmission ∈ (ft.perform order event).sent) :
    (∃ call ∈ ft.calls order event,
      call.result (ft.perform order event).table order = .sent transmission) ∨
    ∃ now buffer hdr msgBytes, event = .handlePacketSafe now buffer ∧
      ft.fate order buffer = .transit hdr msgBytes ∧ transmission ∈ (ft.forward hdr msgBytes).sent := by
  cases event with
  | registerHandlerSafe | setInterfaceStateSafe | periodicExpiry => cases sent
  | sendMsgToDestIP destIP protocol msg =>
      exact Or.inl ⟨_, List.mem_singleton_self _, (List.mem_singleton.mp (sendAll_sent sent)).symm⟩
  | periodicUpdate =>
      obtain ⟨link, listed, result⟩ := List.mem_map.mp (sendAll_sent sent)
      exact Or.inl ⟨_, List.mem_map_of_mem (List.mem_map_of_mem listed), result⟩
  | ripInit =>
      obtain ⟨link, listed, result⟩ := List.mem_map.mp (sendAll_sent sent)
      exact Or.inl ⟨_, List.mem_map_of_mem (List.mem_map_of_mem listed), result⟩
  | ripHandler now srcIP rawMsg =>
      change transmission ∈ (Rip.ripHandler ft order now srcIP rawMsg).sent at sent
      rw [ripHandler_sent] at sent
      obtain ⟨message, listed, result⟩ := List.mem_map.mp (sendAll_sent sent)
      exact Or.inl ⟨ripCall message, List.mem_map_of_mem listed, result⟩
  | handlePacketSafe now buffer =>
      change transmission ∈ (ft.handlePacketSafe order now buffer).sent at sent
      show (∃ call ∈ ft.calls order (.handlePacketSafe now buffer),
        call.result (ft.handlePacketSafe order now buffer).table order = .sent transmission) ∨ _
      rcases ft.handlePacketSafe_fate order now buffer with
        ⟨hdr, msgBytes, fate, handled⟩ | ⟨hdr, msgBytes, fate, handled⟩ | ⟨_, locks, returned, handled⟩
      · rw [handled] at sent ⊢
        change transmission ∈ (Rip.ripHandler ft order now hdr.src msgBytes).sent at sent
        rw [ripHandler_sent] at sent
        obtain ⟨message, listed, result⟩ := List.mem_map.mp (sendAll_sent sent)
        refine Or.inl ⟨ripCall message, List.mem_map_of_mem ?_, result⟩
        simpa only [messages, fate] using listed
      · rw [handled] at sent
        exact Or.inr ⟨now, buffer, hdr, msgBytes, rfl, fate, sent⟩
      · rw [handled] at sent
        cases sent

theorem forward_sent {ft : FwdTable} {hdr : Header} {msgBytes : List Byte} {transmission : Transmission}
    (sent : transmission ∈ (ft.forward hdr msgBytes).sent) :
    ∃ nextHopEntry nextHopLink newHdrBytes, ft.entryMap.get hdr.dst = some nextHopEntry ∧
      0 < hdr.ttl - 1 ∧
      marshalWithChecksum { hdr with ttl := hdr.ttl - 1, checksum := 0 } = some newHdrBytes ∧
      ft.ipInterfaces.get nextHopEntry.next = some nextHopLink ∧
      transmission = { link := some nextHopLink, packet := newHdrBytes ++ msgBytes } := by
  unfold forward at sent
  cases found : ft.entryMap.get hdr.dst with
  | none => simp [found, unchanged] at sent
  | some nextHopEntry =>
      rw [found] at sent
      dsimp only at sent
      split at sent
      · simp [unchanged] at sent
      · rename_i goes
        cases marshalled : marshalWithChecksum { hdr with ttl := hdr.ttl - 1, checksum := 0 } with
        | none => simp [marshalled, unchanged] at sent
        | some newHdrBytes =>
            cases link : ft.ipInterfaces.get nextHopEntry.next with
            | none => simp [marshalled, link, unchanged] at sent
            | some nextHopLink =>
                simp only [marshalled, link, unchanged, List.mem_singleton] at sent
                exact ⟨nextHopEntry, nextHopLink, newHdrBytes, rfl, by omega, rfl, link, sent⟩

theorem transmit_sent {inter : IpInterface} {link : Option IpInterface} {destIP : IntIP} {protocol : UInt8}
    {msg : List Byte} {transmission : Transmission}
    (sent : transmit inter link destIP protocol msg = .sent transmission) :
    ∃ headerBytes, marshalWithChecksum (newHeader inter.ip destIP protocol msg) = some headerBytes ∧
      transmission = { link := link, packet := headerBytes ++ msg } := by
  unfold transmit at sent
  split at sent
  · cases sent
  · rename_i headerBytes marshalled
    cases sent
    exact ⟨headerBytes, marshalled, rfl⟩

theorem sendMsgToDestIP_sent {ft : FwdTable} {order : Order} {destIP : IntIP} {protocol : UInt8}
    {msg : List Byte} {transmission : Transmission}
    (sent : ft.sendMsgToDestIP order destIP protocol msg = .sent transmission) :
    ∃ inter headerBytes,
      (ft.route order destIP = .localHost inter ∧ transmission.link = none ∨
        ft.route order destIP = .link inter ∧ transmission.link = some inter) ∧
      marshalWithChecksum (newHeader inter.ip destIP protocol msg) = some headerBytes ∧
      transmission.packet = headerBytes ++ msg := by
  unfold sendMsgToDestIP at sent
  cases chosen : ft.route order destIP with
  | unreachable | missing => simp [chosen] at sent
  | localHost inter =>
      rw [chosen] at sent
      obtain ⟨headerBytes, marshalled, rfl⟩ := transmit_sent sent
      exact ⟨inter, headerBytes, Or.inl ⟨rfl, rfl⟩, marshalled, rfl⟩
  | link inter =>
      rw [chosen] at sent
      obtain ⟨headerBytes, marshalled, rfl⟩ := transmit_sent sent
      exact ⟨inter, headerBytes, Or.inr ⟨rfl, rfl⟩, marshalled, rfl⟩

end

theorem route_localHost {ft : FwdTable} {order : Order} {destIP : IntIP} {inter : IpInterface}
    (chosen : ft.route order destIP = .localHost inter) : ft.getInterfaceByIp order destIP = some inter := by
  unfold route at chosen
  cases found : ft.getInterfaceByIp order destIP with
  | some own =>
      simp only [found, Route.localHost.injEq] at chosen
      rw [chosen]
  | none =>
      simp only [found] at chosen
      split at chosen
      · cases chosen
      · split at chosen
        · cases chosen
        · split at chosen <;> cases chosen

theorem route_link {ft : FwdTable} {order : Order} {destIP : IntIP} {inter : IpInterface}
    (chosen : ft.route order destIP = .link inter) :
    ¬ ft.Owns destIP ∧ (ft.ipInterfaces.get destIP = some inter ∨
      ft.ipInterfaces.get destIP = none ∧ ∃ fwdEntry, ft.entryMap.get destIP = some fwdEntry ∧
        ft.ipInterfaces.get fwdEntry.next = some inter) := by
  unfold route at chosen
  cases own : ft.getInterfaceByIp order destIP with
  | some _ => simp [own] at chosen
  | none =>
      refine ⟨getInterfaceByIp_none.mp own, ?_⟩
      simp only [own, getInterfaceByDestIp] at chosen
      cases direct : ft.ipInterfaces.get destIP with
      | some neighbor =>
          simp only [direct, Route.link.injEq] at chosen
          exact Or.inl (by rw [chosen])
      | none =>
          simp only [direct] at chosen
          cases known : ft.entryMap.get destIP with
          | none => simp [known] at chosen
          | some fwdEntry =>
              simp only [known] at chosen
              cases next : ft.ipInterfaces.get fwdEntry.next with
              | none => simp [next] at chosen
              | some link =>
                  simp only [next, Route.link.injEq] at chosen
                  exact Or.inr ⟨rfl, fwdEntry, rfl, by rw [next, chosen]⟩

end FwdTable

theorem Node.step_table [Netstack] [Ipv4] {node after : Node} {event : NodeEvent × Order}
    (moves : node.step event = some after) :
    node.running = true ∧ after.table = (node.table.perform event.2 event.1).table ∧
      after.transmitted = node.transmitted ++ (node.table.perform event.2 event.1).sent := by
  unfold step at moves
  split at moves
  · rename_i running
    cases moves
    exact ⟨running, rfl, rfl⟩
  · cases moves

end IpTcp.Network
