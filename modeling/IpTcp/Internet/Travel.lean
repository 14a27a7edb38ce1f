import IpTcp.Internet.Convergence
import IpTcp.Network.HeaderChecksum

/-! Messages over right routes. Where every table on the way has the distance of the destination as
its cost, whichever of the next hops it has and however it changes in between, a packet comes nearer
with every link, so it gets to its destination before its time is up, unless the network loses it or
its header has a checksum of zero. Such are the tables of a network whose routes have converged. -/

set_option autoImplicit false

namespace IpTcp.Internet

open Lib Lib.Bytes Network Rip
open Tcp (Netstack)

variable {Host : Type}

/-- A table with the distance as the cost of every address that is not too far away. -/
structure RightTable (topology : Topology Host) (bound : Nat) (host : Host) (ft : FwdTable) : Prop where
  wired : topology.Wired host ft
  routes : ∀ d entry, ft.entryMap.get d = some entry → topology.RouteSound host d entry
  near : ∀ d, ∀ distance ≤ bound, topology.Away distance host d →
    ∃ entry, ft.entryMap.get d = some entry ∧ entry.cost.toNat = distance

section
variable {topology : Topology Host} {bound : Nat}

theorem Converging.rightTable {horizon : Time} {timed : Timed Host}
    (converging : Converging topology horizon timed) (small : bound ≤ 15) (enough : 2 * bound < timed.epoch)
    (host : Host) : RightTable topology bound host (timed.tables host) := by
  refine ⟨converging.wired host, converging.routes host, ?_⟩
  intro d distance near away
  exact converging.found small enough away near

/-- A route to another node leads over a link to a node that is one nearer. -/
theorem RightTable.onward (unique : topology.UniqueAddresses) {host : Host} {ft : FwdTable}
    (right : RightTable topology bound host ft) {d : IntIP} {distance : Nat} (near : distance ≤ bound)
    (away : topology.Away distance host d) (foreign : ¬ ft.Owns d) :
    0 < distance ∧ ∃ entry inter, ft.entryMap.get d = some entry ∧ ft.ipInterfaces.get entry.next = some inter ∧
      topology.Away (distance - 1) (topology.far host inter.destIp) d := by
  obtain ⟨entry, present, rfl⟩ := right.near d distance near away
  have sound := right.routes d entry present
  have positive : 0 < entry.cost.toNat := by
    apply Nat.pos_of_ne_zero
    intro zero
    rcases sound with ⟨_, _, own⟩ | ⟨least, _⟩
    · exact foreign ((right.wired.owns_iff unique).mpr own)
    · omega
  refine ⟨positive, ?_⟩
  obtain ⟨neighbor, nearer⟩ := away.next unique sound positive
  obtain ⟨inter, there⟩ := right.wired.neighbor.mpr neighbor
  obtain ⟨_, _, _, _, keyed⟩ := right.wired.link there
  exact ⟨entry, inter, present, there, by rwa [keyed]⟩

theorem away_zero {host : Host} {d : IntIP} (owns : topology.Owns host d) : topology.Away 0 host d :=
  ⟨host, owns, .self host⟩

end

section
variable [Netstack] [Ipv4]

/-- A packet that started with a call of `SendMsgToDestIP` and is on its way to a node, with the number
of nodes it has gone through and such a table at each of them when it was there. -/
inductive Travels (topology : Topology Host) (Table : Host → FwdTable → Prop) (origin : Host) (d : IntIP)
    (protocol : UInt8) (msg : List Byte) : Nat → Host → List Byte → Prop where
  | sent {ft : FwdTable} {order : Order} {transmission : Transmission} (here : Table origin ft)
      (sent : ft.sendMsgToDestIP order d protocol msg = .sent transmission) :
      Travels topology Table origin d protocol msg 0 (topology.receiver origin transmission) transmission.buffer
  | through {hops : Nat} {host : Host} {packet : List Byte}
      (before : Travels topology Table origin d protocol msg hops host packet) {ft : FwdTable} {order : Order}
      {now : Time} {hdr : Header} {payload : List Byte} {transmission : Transmission}
      (here : Table host ft) (transit : ft.fate order packet = .transit hdr payload)
      (sent : transmission ∈ (ft.handlePacketSafe order now packet).sent) :
      Travels topology Table origin d protocol msg (hops + 1) (topology.receiver host transmission)
        transmission.buffer

/-- What becomes of a message at nodes with such tables. It is sent, and one nearer after every link; a
node before the last sends it on, over exactly one link; and the last one, where it comes with the
distance, hands it over. -/
structure Delivers (topology : Topology Host) (Table : Host → FwdTable → Prop) (origin : Host) (d : IntIP)
    (protocol : UInt8) (msg : List Byte) (distance : Nat) : Prop where
  sent : ∀ ft order, Table origin ft → ∃ transmission, ft.sendMsgToDestIP order d protocol msg = .sent transmission
  nearer : ∀ hops host packet, Travels topology Table origin d protocol msg hops host packet →
    hops ≤ distance - 1 ∧ topology.Away (distance - 1 - hops) host d
  sentOn : ∀ hops host packet, Travels topology Table origin d protocol msg hops host packet →
    (∀ read, Ipv4.parseHeader packet = some read → read.checksum ≠ 0) → hops < distance - 1 →
    ∀ ft order now, Table host ft → (ft.handlePacketSafe order now packet).returned = some none ∧
      ∃ transmission, (ft.handlePacketSafe order now packet).sent = [transmission]
  handedOver : ∀ hops host packet, Travels topology Table origin d protocol msg hops host packet →
    (∀ read, Ipv4.parseHeader packet = some read → read.checksum ≠ 0) → hops = distance - 1 →
    ∀ ft order application, Table host ft → ft.applications protocol = some application →
      (∀ k inter, ft.ipInterfaces.get k = some inter → inter.state = .up) →
      ∃ hdr, ft.handed order packet = some ⟨application, hdr, msg⟩ ∧ hdr.dst = d ∧ topology.Owns origin hdr.src

variable {topology : Topology Host} {Table : Host → FwdTable → Prop} {bound : Nat} {origin : Host} {d : IntIP}
  {protocol : UInt8} {msg : List Byte}

theorem Travels.departs {hops : Nat} {host : Host} {packet : List Byte}
    (travels : Travels topology Table origin d protocol msg hops host packet) :
    ∃ departing, Departs departing ∧ Arrives departing packet := by
  cases travels with
  | sent _ sent => exact ⟨_, .origin sent, Transmission.arrives _⟩
  | through _ _ transit sent => exact ⟨_, .transit transit sent, Transmission.arrives _⟩

theorem RightTable.sends (unique : topology.UniqueAddresses) {ft : FwdTable}
    (right : RightTable topology bound origin ft) {distance : Nat} (near : distance ≤ bound)
    (away : topology.Away distance origin d) (order : Order) :
    (∃ transmission, ft.sendMsgToDestIP order d protocol msg = .sent transmission) ∧
    ∀ transmission, ft.sendMsgToDestIP order d protocol msg = .sent transmission →
      topology.Away (distance - 1) (topology.receiver origin transmission) d := by
  have transmits : ∀ (inter : IpInterface) (link : Option IpInterface),
      ∃ transmission, FwdTable.transmit inter link d protocol msg = .sent transmission := by
    intro inter link
    simp [FwdTable.transmit, FwdTable.marshalWithChecksum, Ipv4.marshal_eq, FwdTable.newHeader]
  constructor
  · simp only [FwdTable.sendMsgToDestIP, FwdTable.route, FwdTable.getInterfaceByDestIp]
    cases own : ft.getInterfaceByIp order d with
    | some inter => exact transmits inter none
    | none =>
        dsimp only
        cases ft.ipInterfaces.get d with
        | some inter => exact transmits inter (some inter)
        | none =>
            obtain ⟨_, entry, inter, present, there, _⟩ :=
              right.onward unique near away (FwdTable.getInterfaceByIp_none.mp own)
            simp only [present, there]
            exact transmits inter (some inter)
  · intro transmission sent
    obtain ⟨inter, _, way, _, _⟩ := FwdTable.sendMsgToDestIP_sent sent
    rcases way with ⟨route, noLink⟩ | ⟨route, linked⟩
    · -- to an address of its own
      obtain ⟨same, k, present⟩ := FwdTable.getInterfaceByIp_some (FwdTable.route_localHost route)
      have own : topology.Owns origin d := right.wired.owns ⟨k, inter, present, same⟩
      rw [Topology.receiver, noLink, away.eq unique (away_zero own)]
      exact away_zero own
    · rw [Topology.receiver, linked]
      obtain ⟨foreign, direct | ⟨_, entry, present, there⟩⟩ := FwdTable.route_link route
      · -- a neighbour, whatever the table says of it
        obtain ⟨link, member, _, destIp, keyed⟩ := right.wired.link direct
        have neighbor : topology.Neighbor origin d := ⟨link, member, destIp.trans keyed⟩
        have owns := Topology.far_owns neighbor
        have most := away.le unique owns (.first (Topology.adjacent_far neighbor) (.here _))
        rw [show distance - 1 = 0 by omega]
        dsimp only
        rw [keyed]
        exact away_zero owns
      · obtain ⟨_, entry', inter', present', there', nearer⟩ := right.onward unique near away foreign
        cases present.symm.trans present'
        cases there.symm.trans there'
        exact nearer

structure Underway (topology : Topology Host) (origin : Host) (d : IntIP) (protocol : UInt8) (msg : List Byte)
    (distance hops : Nat) (host : Host) (packet : List Byte) : Prop where
  carries : ∃ hdr, Written packet hdr msg ∧ hdr.ttl = maxHops - hops ∧
    Conveys topology origin ⟨d, protocol, msg⟩ hdr msg
  within : hops ≤ distance - 1
  nearer : topology.Away (distance - 1 - hops) host d

theorem Travels.underway (unique : topology.UniqueAddresses)
    (right : ∀ host ft, Table host ft → RightTable topology bound host ft) {distance : Nat}
    (small : bound ≤ 15) (near : distance ≤ bound) (away : topology.Away distance origin d)
    (short : headerLen + msg.length < 65536) {hops : Nat} {host : Host} {packet : List Byte}
    (travels : Travels topology Table origin d protocol msg hops host packet) :
    Underway topology origin d protocol msg distance hops host packet := by
  induction travels with
  | sent here sent =>
      rename_i ft order transmission
      have right := right origin ft here
      have called : FwdTable.SendCall.result ⟨d, protocol, msg⟩ ft order = .sent transmission := sent
      obtain ⟨k, inter, checksum, present, written⟩ := written_call called
      have nearer := (right.sends unique near away order).2 _ sent
      refine ⟨⟨_, written, (Int.sub_zero _).symm, ?_⟩, Nat.zero_le _, nearer⟩
      refine ⟨right.wired.owns ⟨k, inter, present, rfl⟩, rfl, rfl, List.prefix_rfl, fun _ => rfl, ?_⟩
      show (0 : Int) < maxHops ∧ maxHops ≤ maxHops
      decide
  | through before here transit sent ih =>
      rename_i hops host packet ft order now hdr payload transmission
      have right := right host ft here
      obtain ⟨⟨old, written, live, conveys⟩, within, nearer⟩ := ih
      obtain ⟨passed, foreign⟩ := FwdTable.fate_transit transit
      have arrived := conveys.arrived written passed
      obtain ⟨checksum, rewritten, positive⟩ := written.forwarded transit sent
      obtain ⟨rfl, _, whole, _⟩ := written.accepted passed
      obtain rfl := whole (written.total ▸ short)
      rw [show old.onWire.dst = d from conveys.destination] at foreign
      obtain ⟨more, entry, inter, present, there, onward⟩ := right.onward unique (by omega) nearer foreign
      refine ⟨⟨_, rewritten, ?_, arrived.hop positive checksum⟩, by omega, ?_⟩
      · show old.ttl % 256 - 1 = maxHops - ((hops + 1 : Nat) : Int)
        rw [live]
        simp only [maxHops]
        omega
      · -- the table sends it to the next hop of the route to the destination
        rw [FwdTable.handlePacketSafe_transit transit] at sent
        obtain ⟨entry', inter', _, present', _, _, there', rfl⟩ := FwdTable.forward_sent sent
        rw [show old.onWire.dst = d from conveys.destination] at present'
        cases present.symm.trans present'
        cases there.symm.trans there'
        rw [show distance - 1 - (hops + 1) = distance - 1 - hops - 1 by omega]
        exact onward

theorem Travels.accepted (folded : ∀ bytes initial, Netstack.checksum bytes initial = foldedSum bytes initial)
    {hops : Nat} {host : Host} {packet : List Byte}
    (travels : Travels topology Table origin d protocol msg hops host packet)
    {hdr : Header} (written : Written packet hdr msg) (fits : headerLen + msg.length ≤ maxMsgSize)
    (nonzero : ∀ read, Ipv4.parseHeader packet = some read → read.checksum ≠ 0) :
    FwdTable.accepted packet = some (hdr.onWire, msg) := by
  obtain ⟨_, departs, arrives⟩ := travels.departs
  obtain ⟨blank, headerBytes, payload, aligned, zero, marshalled, rfl⟩ := departs.written
  have short : headerBytes.length ≤ maxMsgSize := by
    rw [marshalWithChecksum_some marshalled, Header.layout_length]
    have := aligned.2
    simp only [headerLen, maxMsgSize]
    omega
  obtain ⟨rest, received⟩ := arrives.append short
  obtain ⟨read, parsed, _, _, passes⟩ := written_passes folded aligned zero marshalled rest
  rw [← received] at parsed passes
  obtain rfl := written.parsed parsed
  have valid := passes.mpr (nonzero _ parsed)
  unfold FwdTable.accepted
  rw [parsed, Option.bind_some]
  unfold PassesTest at valid
  rw [if_pos valid, written.message_fits (written.total ▸ fits)]
  rfl

/-- On the way, the table has an entry and a link for the packet: it is sent on, over that link. -/
theorem RightTable.sendsOn (unique : topology.UniqueAddresses) (small : bound ≤ 15) {distance : Nat}
    (near : distance ≤ bound) {hops : Nat} {host : Host} {packet : List Byte} {hdr : Header}
    (nearer : topology.Away (distance - 1 - hops) host d) (live : hdr.ttl = maxHops - hops)
    (destination : hdr.onWire.dst = d) (passed : FwdTable.accepted packet = some (hdr.onWire, msg))
    {ft : FwdTable} (right : RightTable topology bound host ft) (more : hops < distance - 1) (order : Order)
    (now : Time) : (ft.handlePacketSafe order now packet).returned = some none ∧
      ∃ transmission, (ft.handlePacketSafe order now packet).sent = [transmission] := by
  have foreign : ¬ ft.Owns d := by
    intro own
    have := nearer.eq unique (away_zero (right.wired.owns own))
    omega
  obtain ⟨_, entry, inter, present, there, _⟩ := right.onward unique (by omega) nearer foreign
  have elsewhere : ft.getInterfaceByIp order hdr.onWire.dst = none := by
    rw [destination]
    exact FwdTable.getInterfaceByIp_none.mpr foreign
  have transit : ft.fate order packet = .transit hdr.onWire msg := by
    simp only [FwdTable.fate, passed, elsewhere]
  -- 16 hops are enough for every distance that RIP knows
  have alive : ¬ hdr.onWire.ttl - 1 ≤ 0 := by
    show ¬ hdr.ttl % 256 - 1 ≤ 0
    rw [live]
    simp only [maxHops]
    omega
  have length : ¬ hdr.onWire.len < headerLen := Nat.not_lt.mpr (Nat.le_add_right _ _)
  simp only [FwdTable.handlePacketSafe_transit transit, FwdTable.forward, destination, present, if_neg alive,
    FwdTable.marshalWithChecksum, Ipv4.marshal_eq, if_neg length, Option.bind_some, there,
    FwdTable.unchanged]
  exact ⟨trivial, _, rfl⟩

theorem RightTable.handsOver (unique : topology.UniqueAddresses) {host : Host} {packet : List Byte}
    {hdr : Header} (nearest : topology.Away 0 host d) (number : UInt8.ofNat hdr.onWire.protocol = protocol)
    (destination : hdr.onWire.dst = d) (passed : FwdTable.accepted packet = some (hdr.onWire, msg))
    {ft : FwdTable} (right : RightTable topology bound host ft) {application : Application}
    (registered : ft.applications protocol = some application)
    (up : ∀ k inter, ft.ipInterfaces.get k = some inter → inter.state = .up) (order : Order) :
    ft.handed order packet = some ⟨application, hdr.onWire, msg⟩ := by
  obtain ⟨owner, owns, shortest⟩ := nearest
  obtain rfl := shortest.walk.eq_of_zero
  have own : ft.Owns hdr.onWire.dst := by
    rw [destination]
    exact (right.wired.owns_iff unique).mpr owns
  cases found : ft.getInterfaceByIp order hdr.onWire.dst with
  | none => exact absurd own (FwdTable.getInterfaceByIp_none.mp found)
  | some inter =>
      obtain ⟨_, k, present⟩ := FwdTable.getInterfaceByIp_some found
      simp only [FwdTable.handed, passed, Option.bind_some, found, up k inter present, if_true, number,
        registered, Option.map_some]

/-- With right tables, a message of at most 1380 bytes to an address at a distance of at most 15 gets
there. -/
theorem RightTable.delivers (folded : ∀ bytes initial, Netstack.checksum bytes initial = foldedSum bytes initial)
    (unique : topology.UniqueAddresses) (right : ∀ host ft, Table host ft → RightTable topology bound host ft)
    (small : bound ≤ 15) {distance : Nat} (near : distance ≤ bound) (away : topology.Away distance origin d)
    (fits : headerLen + msg.length ≤ maxMsgSize) :
    Delivers topology Table origin d protocol msg distance := by
  have short : headerLen + msg.length < 65536 := Nat.lt_of_le_of_lt fits (by decide)
  constructor
  · intro ft order here
    exact ((right origin ft here).sends unique near away order).1
  · intro hops host packet travels
    have underway := travels.underway unique right small near away short
    exact ⟨underway.within, underway.nearer⟩
  · intro hops host packet travels nonzero more ft order now here
    obtain ⟨⟨hdr, written, live, conveys⟩, _, nearer⟩ := travels.underway unique right small near away short
    have passed := travels.accepted folded written fits nonzero
    exact RightTable.sendsOn unique small near nearer live conveys.destination passed (right host ft here)
      more order now
  · intro hops host packet travels nonzero last ft order application here registered up
    obtain ⟨⟨hdr, written, _, conveys⟩, _, nearest⟩ := travels.underway unique right small near away short
    have passed := travels.accepted folded written fits nonzero
    have arrived := conveys.arrived written passed
    have dst : hdr.onWire.dst = d := conveys.destination
    subst last
    -- The last node is at distance zero: the address is its own.
    rw [Nat.sub_self] at nearest
    have number : UInt8.ofNat hdr.onWire.protocol = protocol := by
      rw [arrived.protocol, UInt8.ofNat_toNat]
    have handed := RightTable.handsOver unique nearest number dst passed (right host ft here) registered up order
    exact ⟨hdr.onWire, handed, dst, arrived.source⟩

variable [DecidableEq Host]

def Converged (topology : Topology Host) (horizon : Time) (net : Net Host) (now : Time) (k : Nat) (host : Host)
    (ft : FwdTable) : Prop :=
  ∃ timed, Run (Timed.step topology) (Timely topology horizon) (Timed.ofNet net now) timed ∧
    2 * k < timed.epoch ∧ timed.tables host = ft

/-- In a network whose routes converge, a message of at most 1380 bytes to an address at a distance of
at most k is delivered after 2 k epochs, as it was given to `SendMsgToDestIP`: if the node of the
address has a handler for the protocol and its interfaces are up. Only the network can lose it, or the
test of a header whose checksum is zero. -/
theorem message_arrives (folded : ∀ bytes initial, Netstack.checksum bytes initial = foldedSum bytes initial)
    (unique : topology.UniqueAddresses) (plain : topology.NoSelfLinks) {addresses : List IntIP}
    (few : addresses.length ≤ 64) (all : ∀ host, ∀ link ∈ topology.links host, link.ip ∈ addresses)
    {initially : Host → Time} {net : Net Host}
    (run : Run (ipStep topology) Honest (topology.start initially) net) {now horizon : Time}
    (before : now ≤ horizon)
    (own : ∀ host, ∀ link ∈ topology.links host, ∃ entry, (net.tables host).entryMap.get link.ip = some entry ∧
      entry.cost = 0 ∧ horizon ≤ entry.lastUpdatedTime + entryStaleAfter)
    {k distance : Nat} (small : k ≤ 15) (near : distance ≤ k) (away : topology.Away distance origin d)
    (fits : headerLen + msg.length ≤ maxMsgSize) :
    Delivers topology (Converged topology horizon net now k) origin d protocol msg distance := by
  refine RightTable.delivers folded unique ?_ small near away fits
  rintro host _ ⟨timed, onward, enough, rfl⟩
  exact (converging_run unique plain few all run before own onward).rightTable small enough host

end

/-! ## `nets/ABC.net` -/

/-- 192.168.0.1 and 2 are at the ends of the link from A to B, and 3 and 4 from B to C. -/
def abc : Topology LoopHost where
  links
    | .a => [loopLink 0 5001 0xc0a80001 0xc0a80002]
    | .b => [loopLink 0 5000 0xc0a80002 0xc0a80001, loopLink 1 5002 0xc0a80003 0xc0a80004]
    | .c => [loopLink 0 5001 0xc0a80004 0xc0a80003]
  far _ destIp :=
    if destIp = 0xc0a80001 then .a
    else if destIp = 0xc0a80002 ∨ destIp = 0xc0a80003 then .b
    else .c
  symmetric host := by cases host <;> decide

theorem abc_unique : abc.UniqueAddresses := by
  intro host other
  cases host <;> cases other <;> decide

theorem abc_away : abc.Away 2 .a 0xc0a80004 := by
  have near : abc.Adjacent .a .b := ⟨loopLink 0 5001 0xc0a80001 0xc0a80002, by decide, rfl⟩
  have far : abc.Adjacent .b .c := ⟨loopLink 1 5002 0xc0a80003 0xc0a80004, by decide, rfl⟩
  refine ⟨.c, ⟨loopLink 0 5001 0xc0a80004 0xc0a80003, by decide, rfl⟩, .first near (.first far (.here _)), ?_⟩
  intro other walk
  cases walk with
  | first next rest =>
      cases rest with
      | here =>
          obtain ⟨link, member, there⟩ := next
          rw [List.mem_singleton.mp member] at there
          exact absurd there (by decide)
      | first => omega

section
attribute [local instance] Netstack.standard Ipv4.linux

def epochAt (now : Time) : List (TimedEvent LoopHost) :=
  [.wait now] ++ ([LoopHost.a, .b, .c].map fun host => .ip (.net (.task host Node.anyOrder .periodicUpdate))) ++
    List.replicate 4 (.ip (.net (.deliver 0 Node.anyOrder now))) ++ List.replicate 2 (.ip (.net (.lose 0))) ++
    [.nextEpoch]

def fourEpochs : List (TimedEvent LoopHost) :=
  ([LoopHost.a, .b, .c].map fun host => .ip (.net (.task host Node.anyOrder .ripInit))) ++
    List.replicate 4 (.ip (.net (.lose 0))) ++ [.ip (.call .c Node.anyOrder .testProtocolInit)] ++
    [0, 5 * second, 10 * second, 15 * second].flatMap epochAt

theorem fourEpochs_happen :
    (exec (Timed.step abc) (Timely abc (100 * second)) (Timed.ofNet (abc.start fun _ => 0) 0)
      fourEpochs).isSome := by
  decide +kernel

def fifthEpoch : Timed LoopHost :=
  (exec (Timed.step abc) (Timely abc (100 * second)) (Timed.ofNet (abc.start fun _ => 0) 0)
    fourEpochs).get fourEpochs_happen

def legHeader (ttl : Int) (checksum : Nat) : Header :=
  { FwdTable.newHeader 0xc0a80001 0xc0a80004 testProtocolNum [42] with ttl := ttl, checksum := checksum }

def firstLeg : Transmission where
  link := some (loopLink 0 5001 0xc0a80001 0xc0a80002)
  packet := (legHeader 16 0x2994).layout ++ [42]

def secondLeg : Transmission where
  link := some (loopLink 1 5002 0xc0a80003 0xc0a80004)
  packet := (legHeader 15 0x2a94).layout ++ [42]

theorem fifthEpoch_facts :
    fifthEpoch.epoch = 5 ∧
    (fifthEpoch.tables .a).sendMsgToDestIP Node.anyOrder 0xc0a80004 testProtocolNum [42] = .sent firstLeg ∧
    (fifthEpoch.tables .b).fate Node.anyOrder firstLeg.buffer = .transit (legHeader 16 0x2994) [42] ∧
    ((fifthEpoch.tables .b).handlePacketSafe Node.anyOrder 0 firstLeg.buffer).sent = [secondLeg] ∧
    (fifthEpoch.tables .c).applications testProtocolNum = some .testProtocol ∧
    ∀ k inter, (fifthEpoch.tables .c).ipInterfaces.get k = some inter → inter.state = .up := by
  decide +kernel

theorem message_arrives_abc :
    Converged abc (100 * second) (abc.start fun _ => 0) 0 2 .c (fifthEpoch.tables .c) ∧
    (fifthEpoch.tables .a).sendMsgToDestIP Node.anyOrder 0xc0a80004 testProtocolNum [42] = .sent firstLeg ∧
    ((fifthEpoch.tables .b).handlePacketSafe Node.anyOrder 0 firstLeg.buffer).sent = [secondLeg] ∧
    ∃ hdr, (fifthEpoch.tables .c).handed Node.anyOrder secondLeg.buffer = some ⟨.testProtocol, hdr, [42]⟩ ∧
      hdr.dst = 0xc0a80004 ∧ abc.Owns .a hdr.src := by
  obtain ⟨epoch, sent, transit, sentOn, registered, up⟩ := fifthEpoch_facts
  have converged : ∀ host, Converged abc (100 * second) (abc.start fun _ => 0) 0 2 host
      (fifthEpoch.tables host) := by
    intro host
    refine ⟨fifthEpoch, ?_, by rw [epoch]; decide, rfl⟩
    unfold fifthEpoch
    exact Run.ofSome fourEpochs_happen
  have plain : abc.NoSelfLinks := by
    intro host
    cases host <;> decide
  have all : ∀ host, ∀ link ∈ abc.links host, link.ip ∈
      ([0xc0a80001, 0xc0a80002, 0xc0a80003, 0xc0a80004] : List IntIP) := by
    intro host
    cases host <;> decide
  have lasts : 100 * second ≤ 0 + hour * 48 + entryStaleAfter := by decide
  have own := fun host => start_lasting abc (fun _ => 0) host lasts
  have parsed : Ipv4.parseHeader secondLeg.buffer = some (legHeader 15 0x2a94) := by decide +kernel
  have nonzero : ∀ read, Ipv4.parseHeader secondLeg.buffer = some read → read.checksum ≠ 0 := by
    intro read found
    cases parsed.symm.trans found
    decide
  have delivers : Delivers abc (Converged abc (100 * second) (abc.start fun _ => 0) 0 2) .a 0xc0a80004
      testProtocolNum [42] 2 :=
    message_arrives (fun _ _ => rfl) abc_unique plain (by decide) all Run.refl (by decide) own (by decide)
      (le_refl 2) abc_away (by decide)
  have leaves : Travels abc (Converged abc (100 * second) (abc.start fun _ => 0) 0 2) .a 0xc0a80004
      testProtocolNum [42] 0 .b firstLeg.buffer := .sent (converged .a) sent
  have arrives : Travels abc (Converged abc (100 * second) (abc.start fun _ => 0) 0 2) .a 0xc0a80004
      testProtocolNum [42] 1 .c secondLeg.buffer := by
    have listed : secondLeg ∈ ((fifthEpoch.tables .b).handlePacketSafe Node.anyOrder 0 firstLeg.buffer).sent := by
      rw [sentOn]
      exact List.mem_singleton_self _
    exact leaves.through (converged .b) transit listed
  exact ⟨converged .c, sent, sentOn,
    delivers.handedOver 1 .c secondLeg.buffer arrives nonzero rfl _ _ _ (converged .c) registered up⟩

end

end IpTcp.Internet
