import IpTcp.Internet.Stamped
import IpTcp.Rip.PoisonedReverse

/-! How long routes to an address last that no node announces any more. A route is as old as the
message that it was learned from, and its cost is one more than the cost in that message. So where
messages take a bounded time and routes expire, the least cost at which anybody has a route grows
with time, until there is none. -/

set_option autoImplicit false

namespace IpTcp.Internet

open Lib Lib.Bytes Network Rip
open Tcp (Netstack)

/-! ## The clock -/

/-- The network with a clock. Datagrams are stamped with the time at which they were sent, and it is
written down when routes last expired at each node. -/
structure Aging (Host : Type) extends Stamped Host Time where
  clock : Time
  expired : Host → Time

inductive AgingEvent (Host : Type) where
  | ip (event : Event Host)
  | wait (now : Time)

section
variable {Host : Type}

namespace Aging

def ofNet (net : Net Host) (now : Time) : Aging Host where
  toStamped := .ofNet net now
  clock := now
  expired _ := now

variable [DecidableEq Host]

def expires (aging : Aging Host) : Event Host → Host → Time
  | .net (.task host _ (.periodicExpiry _)) => Function.update aging.expired host aging.clock
  | _ => aging.expired

def step [Netstack] [Ipv4] (topology : Topology Host) (aging : Aging Host) :
    AgingEvent Host → Option (Aging Host)
  | .ip event =>
      (aging.toStamped.step topology (fun _ => aging.clock) event).map fun stamped =>
        { aging with toStamped := stamped, expired := aging.expires event }
  | .wait now => some { aging with clock := now }

end Aging

/-- What is assumed of time and of the network. Tasks use the clock. A datagram takes at most `delay`
or is lost, a node that runs expires its routes every `tick` at least, and no interface with the
address `d` is brought up. -/
def Elapses (topology : Topology Host) (d : IntIP) (delay tick : Time) (aging : Aging Host) :
    AgingEvent Host → Prop
  | .ip (.call _ _ call) => call.Honest
  | .ip (.net (.task _ _ (.periodicExpiry now))) => now = aging.clock
  | .ip (.net (.task host _ (.setInterfaceStateSafe id newState _))) =>
      newState = .up → ∀ link ∈ topology.links host, link.id = id → link.ip ≠ d
  | .ip (.net (.task _ _ .ripInit)) | .ip (.net (.task _ _ .periodicUpdate)) => True
  | .ip (.net (.deliver index order now)) =>
      now = aging.clock ∧ ∀ sent ∈ aging.stampOf (.net (.deliver index order now)), aging.clock ≤ sent + delay
  | .ip (.net (.lose _)) | .ip (.net (.duplicate _)) => True
  | .wait now => aging.clock ≤ now ∧ ∀ host, aging.running host → now ≤ aging.expired host + tick

instance [Fintype Host] [DecidableEq Host] (topology : Topology Host) (d : IntIP) (delay tick : Time)
    (aging : Aging Host) : DecidablePred (Elapses topology d delay tick aging)
  | .ip (.call _ _ call) => inferInstanceAs (Decidable call.Honest)
  | .ip (.net (.task _ _ (.periodicExpiry now))) => inferInstanceAs (Decidable (now = aging.clock))
  | .ip (.net (.task host _ (.setInterfaceStateSafe id newState _))) =>
      inferInstanceAs (Decidable (newState = .up → ∀ link ∈ topology.links host, link.id = id → link.ip ≠ d))
  | .ip (.net (.task _ _ .ripInit)) | .ip (.net (.task _ _ .periodicUpdate)) => .isTrue trivial
  | .ip (.net (.deliver index order now)) =>
      inferInstanceAs (Decidable (now = aging.clock ∧
        ∀ sent ∈ aging.stampOf (.net (.deliver index order now)), aging.clock ≤ sent + delay))
  | .ip (.net (.lose _)) | .ip (.net (.duplicate _)) => .isTrue trivial
  | .wait now =>
      inferInstanceAs (Decidable (aging.clock ≤ now ∧ ∀ host, aging.running host → now ≤ aging.expired host + tick))

theorem Elapses.honest {topology : Topology Host} {d : IntIP} {delay tick : Time} {aging : Aging Host}
    {event : Event Host} (elapses : Elapses topology d delay tick aging (.ip event)) : Honest aging.net event := by
  cases event with
  | call host order call => exact elapses
  | net event => trivial

end

/-! ## Costs that grow -/

def phase (begun period : Int) (k : Nat) : Int := begun + k * period

/-- How long it takes until costs have grown by one: a route is learned from a message that was sent
a `delay` ago at most, and lasts until it is stale and a `tick` finds it so. -/
def growth (delay tick : Time) : Time := entryStaleAfter + tick + delay

section
variable {begun delay tick : Int}

theorem phase_succ (begun period : Int) (k : Nat) : phase begun period (k + 1) = phase begun period k + period := by
  simp only [phase, Nat.cast_add, Nat.cast_one]
  rw [add_mul, one_mul, add_assoc]

theorem phase_ge (begun : Int) (nonneg : 0 ≤ delay ∧ 0 ≤ tick) (k : Nat) :
    begun ≤ phase begun (growth delay tick) k := by
  have stale : (0 : Int) ≤ entryStaleAfter := by decide
  have product : (0 : Int) ≤ k * growth delay tick :=
    Int.mul_nonneg (Int.natCast_nonneg k) (by unfold growth; omega)
  unfold phase
  omega

theorem le_of_not_stale {clock updated allowed : Int} (fresh : ¬ clock - updated > allowed) :
    clock ≤ updated + allowed := by
  omega

/-- A message that arrives in a phase was not sent before the last one. -/
theorem sent_after (nonneg : 0 ≤ delay ∧ 0 ≤ tick) {now sent : Int} {k : Nat}
    (late : phase begun (growth delay tick) (k + 1) < now) (recent : now ≤ sent + delay) :
    phase begun (growth delay tick) k < sent := by
  have stale : (0 : Int) ≤ entryStaleAfter := by decide
  rw [phase_succ] at late
  unfold growth at late ⊢
  omega

/-- A route that has not expired in a phase was not learned before the last one. -/
theorem updated_after (nonneg : 0 ≤ delay ∧ 0 ≤ tick) {now expired updated : Int} {k : Nat}
    (late : phase begun (growth delay tick) (k + 1) < now) (ticked : now ≤ expired + tick)
    (fresh : begun < expired → expired ≤ updated + entryStaleAfter) :
    phase begun (growth delay tick) k + delay < updated := by
  have first := phase_ge begun nonneg k
  have stale : (0 : Int) ≤ entryStaleAfter := by decide
  rw [phase_succ] at late
  have after : begun < expired := by
    unfold growth at late first
    omega
  have := fresh after
  unfold growth at late ⊢
  omega

end

section
variable {d : IntIP} {begun delay tick : Time}

def Faint (d : IntIP) (begun period sent : Time) (p : RipPacket) : Prop :=
  ∀ listed ∈ p.entries, listed.destIP = d → ∀ k ≤ 16, phase begun period k < sent → k ≤ listed.cost.toNat

def Grown (d : IntIP) (begun period now : Time) (ft : FwdTable) : Prop :=
  ∀ entry, ft.entryMap.get d = some entry → ∀ k ≤ 16, phase begun period k < now → k ≤ entry.cost.toNat

theorem response_faint {period now : Time} {ft : FwdTable} (grown : Grown d begun period now ft) (order : Order)
    (neighborIP : IntIP) : Faint d begun period now (response ft order neighborIP) := by
  intro listed member rfl k small late
  obtain ⟨d, entry, present, rfl⟩ := mem_response.mp member
  show k ≤ (if entry.next = neighborIP then infinity else entry.cost).toNat
  split
  · exact small
  · exact grown entry present k small late

variable [Netstack] [Ipv4]

/-- What a node sends is as faint as its table and what it hears. -/
theorem messages_faint (nonneg : 0 ≤ delay ∧ 0 ≤ tick) {now : Time} {ft : FwdTable} {order : Order}
    {event : NodeEvent} (grown : Grown d begun (growth delay tick) now ft)
    (hears : ∀ srcIP read, ft.heard order event = some (srcIP, read) →
      ∃ sent, now ≤ sent + delay ∧ Faint d begun (growth delay tick) sent read) :
    ∀ message ∈ ft.messages order event, Faint d begun (growth delay tick) now message.2 := by
  intro message emitted
  cases FwdTable.emits_of_mem emitted with
  | update k inter _ present up => exact response_faint grown order inter.destIp
  | request k inter _ present => exact fun _ none => nomatch none
  | answer srcIP read _ heardIs answers =>
      obtain ⟨sent, recent, faint⟩ := hears srcIP read heardIs
      obtain ⟨rawMsg, decoded⟩ := FwdTable.heard_decoded heardIs
      cases answers with
      | reply request => exact response_faint grown order srcIP
      | trigger now' destIP response listed =>
          intro updated member same k small late
          obtain ⟨entry, heard, rfl, finite⟩ :=
            (processEntries_updated srcIP now' ft.entryMap read.entries).2 updated member
          show k ≤ (entry.cost + 1).toNat
          rw [toNat_succ ((unmarshal_some decoded).2.1 entry heard)]
          cases k with
          | zero => exact Nat.zero_le _
          | succ k =>
              have before := sent_after nonneg late recent
              exact Nat.succ_le_succ (faint entry heard same k (by omega) before)

end

/-! ## One table -/

section
variable {d : IntIP} {begun delay tick expired clock : Time} {ft : FwdTable}

structure Lasting (d : IntIP) (begun delay tick expired : Time) (ft : FwdTable) : Prop where
  fresh : ∀ entry, ft.entryMap.get d = some entry → begun < expired →
    expired ≤ entry.lastUpdatedTime + entryStaleAfter
  learned : ∀ entry, ft.entryMap.get d = some entry → ∀ k < 16,
    phase begun (growth delay tick) k + delay < entry.lastUpdatedTime → k + 1 ≤ entry.cost.toNat

theorem Lasting.grown (lasting : Lasting d begun delay tick expired ft) (nonneg : 0 ≤ delay ∧ 0 ≤ tick)
    (ticked : clock ≤ expired + tick) : Grown d begun (growth delay tick) clock ft := by
  intro entry present k small late
  cases k with
  | zero => exact Nat.zero_le _
  | succ k =>
      have updated := updated_after nonneg late ticked (lasting.fresh entry present)
      exact lasting.learned entry present k (by omega) updated

theorem Lasting.kept (lasting : Lasting d begun delay tick expired ft) {after : FwdTable}
    (old : ∀ entry, after.entryMap.get d = some entry → ft.entryMap.get d = some entry) :
    Lasting d begun delay tick expired after :=
  ⟨fun entry present => lasting.fresh entry (old entry present),
    fun entry present => lasting.learned entry (old entry present)⟩

theorem Lasting.learn (lasting : Lasting d begun delay tick expired ft) (past : expired ≤ clock) {sent : Time}
    (recent : clock ≤ sent + delay) {read : RipPacket} (faint : Faint d begun (growth delay tick) sent read)
    (small : ∀ entry ∈ read.entries, entry.cost ≤ infinity) (srcIP : IntIP) :
    Lasting d begun delay tick expired (ft.learn srcIP clock read.entries) := by
  -- A new route costs one more than a message that was sent at most `delay` ago.
  have cases : ∀ entry, (ft.learn srcIP clock read.entries).entryMap.get d = some entry →
      ft.entryMap.get d = some entry ∨ entry.lastUpdatedTime = clock ∧
        ∀ k < 16, phase begun (growth delay tick) k + delay < clock → k + 1 ≤ entry.cost.toNat := by
    intro entry present
    rcases processEntries_get present with old | ⟨listed, member, rfl, rfl, finite⟩
    · exact Or.inl old
    · refine Or.inr ⟨rfl, fun k below late => ?_⟩
      show k + 1 ≤ (listed.cost + 1).toNat
      rw [toNat_succ (small listed member)]
      have after : phase begun (growth delay tick) k < sent := by
        have : (_ : Int) < sent + delay := lt_of_lt_of_le late recent
        omega
      exact Nat.succ_le_succ (faint listed member rfl k (by omega) after)
  constructor
  · intro entry present after
    rcases cases entry present with old | ⟨now, _⟩
    · exact lasting.fresh entry old after
    · rw [now]
      have : (0 : Int) ≤ entryStaleAfter := by decide
      exact past.trans (Int.le_add_of_nonneg_right this)
  · intro entry present k below late
    rcases cases entry present with old | ⟨now, costs⟩
    · exact lasting.learned entry old k below late
    · rw [now] at late
      exact costs k below late

theorem Lasting.expire (lasting : Lasting d begun delay tick expired ft) (order : Order) (clock : Time) :
    Lasting d begun delay tick clock (periodicExpiry ft order clock) := by
  have kept : ∀ entry, (periodicExpiry ft order clock).entryMap.get d = some entry →
      ft.entryMap.get d = some entry ∧ ¬ clock - entry.lastUpdatedTime > entryStaleAfter := by
    intro entry present
    rw [periodicExpiry_get] at present
    obtain ⟨old, fresh⟩ := Option.filter_eq_some_iff.mp present
    simp only [stale, Bool.not_eq_true', Bool.or_eq_false_iff, decide_eq_false_iff_not] at fresh
    exact ⟨old, fresh.1⟩
  constructor
  · intro entry present _
    exact le_of_not_stale (kept entry present).2
  · intro entry present
    exact lasting.learned entry (kept entry present).1

theorem Lasting.switch {Host : Type} {topology : Topology Host} {host : Host} (wired : topology.Wired host ft)
    (lasting : Lasting d begun delay tick expired ft) {id : Int} {newState : InterfaceState}
    (other : newState = .up → ∀ link ∈ topology.links host, link.id = id → link.ip ≠ d) (now : Time)
    (order : Order) :
    Lasting d begun delay tick expired (ft.setInterfaceStateSafe id newState now order) := by
  refine lasting.kept fun entry present => ?_
  rcases FwdTable.setInterfaceStateSafe_get present with ⟨old, _⟩ | ⟨up, k, inter, found, switches, own, _⟩
  · exact old
  · obtain ⟨_, same⟩ := wired
    obtain ⟨link, listed, equal⟩ := same.backward found
    obtain ⟨member, _⟩ := (FwdTable.initSafe_get (topology.links host) _).1 k link listed
    obtain ⟨ip, _, number⟩ := FwdTable.wired_ip equal
    exact absurd (ip.trans own.symm) (other up link member (number.trans switches.1))

end

/-! ## The network -/

section
variable {Host : Type} {topology : Topology Host} {d : IntIP} {begun delay tick : Time} {aging : Aging Host}

structure Fading (topology : Topology Host) (d : IntIP) (begun delay tick : Time) (aging : Aging Host) : Prop where
  routed : Routed topology aging.net
  past : ∀ host, aging.expired host ≤ aging.clock
  ticked : ∀ host, aging.running host = true → aging.clock ≤ aging.expired host + tick
  lasting : ∀ host, Lasting d begun delay tick (aging.expired host) (aging.tables host)
  transit : ∀ datagram ∈ aging.transit, Proper topology (fun _ sender p =>
    topology.Announces sender p ∧ Faint d begun (growth delay tick) datagram.1 p) datagram.2

theorem Fading.start {net : Net Host} (routed : Routed topology net) (nonneg : 0 ≤ delay ∧ 0 ≤ tick)
    (old : ∀ host entry, (net.tables host).entryMap.get d = some entry → entry.lastUpdatedTime ≤ begun) :
    Fading topology d begun delay tick (Aging.ofNet net begun) := by
  -- Routes as they are are older than any that will be learned.
  have none : ∀ k, ¬ phase begun (growth delay tick) k < begun := fun k => not_lt.mpr (phase_ge begun nonneg k)
  refine ⟨?_, fun _ => le_refl _, fun _ _ => Int.le_add_of_nonneg_right nonneg.2, fun host => ⟨?_, ?_⟩, ?_⟩
  · have same : (Aging.ofNet net begun).net = net := by
      simp [Aging.ofNet, Stamped.ofNet, Stamped.net, List.map_map, Function.comp_def]
    rw [same]
    exact routed
  · exact fun _ _ after => absurd after (lt_irrefl _)
  · intro entry present k _ late
    have later : phase begun (growth delay tick) k < begun :=
      lt_of_le_of_lt (Int.le_add_of_nonneg_right nonneg.1) (lt_of_lt_of_le late (old host entry present))
    exact absurd later (none k)
  · intro datagram member
    obtain ⟨packet, listed, rfl⟩ := List.mem_map.mp member
    refine (routed.transit packet listed).mono fun sender p announces => ⟨announces, ?_⟩
    exact fun _ _ _ k _ late => absurd late (none k)

theorem Fading.grown (fading : Fading topology d begun delay tick aging) (nonneg : 0 ≤ delay ∧ 0 ≤ tick)
    {host : Host} (running : aging.running host = true) :
    Grown d begun (growth delay tick) aging.clock (aging.tables host) :=
  (fading.lasting host).grown nonneg (fading.ticked host running)

variable [Netstack] [Ipv4] [DecidableEq Host]

theorem Fading.perform (fading : Fading topology d begun delay tick aging) (unique : topology.UniqueAddresses)
    (nonneg : 0 ≤ delay ∧ 0 ≤ tick) {host : Host} (running : aging.running host = true) {order : Order}
    {event : NodeEvent} {sent : Time} (recent : aging.clock ≤ sent + delay)
    (happens : Happens topology (fun _ sender p =>
      topology.Announces sender p ∧ Faint d begun (growth delay tick) sent p) host event)
    {transit : List (Time × Host × List Byte)} (among : ∀ datagram ∈ transit, datagram ∈ aging.transit)
    {expired : Time} (later : aging.expired host ≤ expired) (past : expired ≤ aging.clock)
    (lasting : Lasting d begun delay tick expired ((aging.tables host).perform order event).table)
    {stamped : Stamped Host Time}
    (performed : stamped = Stamped.perform topology (fun _ => aging.clock)
      { aging.toStamped with transit := transit } host order event)
    (routed : Routed topology stamped.net) :
    Fading topology d begun delay tick
      { aging with toStamped := stamped, expired := Function.update aging.expired host expired } := by
  subst performed
  refine ⟨routed, ?_, ?_, ?_, ?_⟩
  · exact (Function.forall_update_iff aging.expired fun _ time => time ≤ aging.clock).mpr
      ⟨past, fun other _ => fading.past other⟩
  · intro other stillRunning
    by_cases same : other = host
    · subst same
      show aging.clock ≤ Function.update aging.expired other expired other + tick
      rw [Function.update_self]
      exact (fading.ticked other running).trans (Int.add_le_add_right later _)
    · have before : aging.running other = true := by
        simpa only [Stamped.perform, Function.update_of_ne same] using stillRunning
      show aging.clock ≤ Function.update aging.expired host expired other + tick
      rw [Function.update_of_ne same]
      exact fading.ticked other before
  · intro other
    by_cases same : other = host
    · subst same
      simpa only [Stamped.perform, Function.update_self] using lasting
    · simpa only [Stamped.perform, Function.update_of_ne same] using fading.lasting other
  · intro datagram member
    rcases List.mem_append.mp member with earlier | new
    · exact fading.transit datagram (among datagram earlier)
    · obtain ⟨transmission, isSent, rfl⟩ := List.mem_map.mp new
      have hears : ∀ srcIP read, (aging.tables host).heard order event = some (srcIP, read) →
          topology.Neighbor host srcIP ∧ topology.Announces (topology.far host srcIP) read :=
        happens.announced (fading.routed.own host) fun _ _ both => both.1
      have announced := Topology.messages_announce (fading.routed.wired host) (fading.routed.routes host) hears
      -- What is announced comes from the routes here or from the message that came.
      have faint : ∀ message ∈ (aging.tables host).messages order event,
          Faint d begun (growth delay tick) aging.clock message.2 := by
        refine messages_faint nonneg (fading.grown nonneg running) fun srcIP read heardIs => ?_
        obtain ⟨_, p, both, _, cut, _⟩ := happens.heard (fading.routed.own host) heardIs
        exact ⟨sent, recent, fun listed member => both.2 listed (cut.subset member)⟩
      exact happens.sent unique (fading.routed.wired host)
        (fun message emitted => ⟨(announced message emitted).1, (announced message emitted).2,
          faint message emitted⟩) isSent

theorem Fading.acts (fading : Fading topology d begun delay tick aging) (unique : topology.UniqueAddresses)
    (nonneg : 0 ≤ delay ∧ 0 ≤ tick) {host : Host} (running : aging.running host = true) {order : Order}
    {event : NodeEvent} {sent : Time} (recent : aging.clock ≤ sent + delay)
    (happens : Happens topology (fun _ sender p =>
      topology.Announces sender p ∧ Faint d begun (growth delay tick) sent p) host event)
    {transit : List (Time × Host × List Byte)} (among : ∀ datagram ∈ transit, datagram ∈ aging.transit)
    (lasting : Lasting d begun delay tick (aging.expired host) ((aging.tables host).perform order event).table)
    {stamped : Stamped Host Time}
    (performed : stamped = Stamped.perform topology (fun _ => aging.clock)
      { aging.toStamped with transit := transit } host order event)
    (routed : Routed topology stamped.net) :
    Fading topology d begun delay tick { aging with toStamped := stamped } := by
  have acted := fading.perform unique nonneg running recent happens among (le_refl _) (fading.past host) lasting
    performed routed
  rwa [Function.update_eq_self] at acted

theorem Fading.step (fading : Fading topology d begun delay tick aging) (unique : topology.UniqueAddresses)
    (nonneg : 0 ≤ delay ∧ 0 ≤ tick) {event : AgingEvent Host} (elapses : Elapses topology d delay tick aging event)
    {after : Aging Host} (moves : aging.step topology event = some after) :
    Fading topology d begun delay tick after := by
  cases event with
  | wait now =>
      cases moves
      obtain ⟨later, ticked⟩ := elapses
      exact { fading with past := fun host => (fading.past host).trans later, ticked := ticked }
  | ip event =>
      obtain ⟨stamped, moved, rfl⟩ := Option.map_eq_some_iff.mp moves
      have routed := fading.routed.step unique elapses.honest (Stamped.step_net moved)
      have now : aging.clock ≤ aging.clock + delay := Int.le_add_of_nonneg_right nonneg.1
      have all : ∀ datagram ∈ aging.transit, datagram ∈ aging.transit := fun _ member => member
      cases Stamped.step_moves moved with
      | call host order call running =>
          refine fading.acts unique nonneg running now (.call call elapses rfl) all ?_ rfl routed
          exact (fading.lasting host).kept (by cases call <;> exact fun _ present => present)
      | task host order task running =>
          have happens : ∀ task : Task, Happens topology (fun _ sender p => topology.Announces sender p ∧
              Faint d begun (growth delay tick) aging.clock p) host task.event := fun task => .task task rfl
          cases task with
          | ripInit | periodicUpdate =>
              refine fading.acts unique nonneg running now (happens _) all ?_ rfl routed
              exact (fading.lasting host).kept fun _ present => present
          | periodicExpiry time =>
              have is : time = aging.clock := elapses
              subst is
              -- Only here the time of the last expiry moves on.
              refine fading.perform unique nonneg running now (happens _) all (fading.past host) (le_refl _) ?_ rfl
                routed
              exact (fading.lasting host).expire order aging.clock
          | setInterfaceStateSafe id newState time =>
              refine fading.acts unique nonneg running now (happens _) all ?_ rfl routed
              exact (fading.lasting host).switch (fading.routed.wired host) elapses time order
      | arrival index order time sent host packet found running =>
          obtain ⟨is, within⟩ := elapses
          subst is
          have recent : aging.clock ≤ sent + delay := by
            refine within sent ?_
            simp only [Stamped.stampOf, found, Option.map_some, Option.mem_def]
          have proper := fading.transit _ (List.mem_of_getElem? found)
          have happens : Happens topology (fun _ sender p => topology.Announces sender p ∧
              Faint d begun (growth delay tick) sent p) host (.handlePacketSafe aging.clock packet) :=
            .arrival packet aging.clock proper rfl
          refine fading.acts unique nonneg running recent happens
            (fun _ member => List.mem_of_mem_eraseIdx member) ?_ rfl routed
          show Lasting d begun delay tick (aging.expired host)
            ((aging.tables host).handlePacketSafe order aging.clock packet).table
          rcases (aging.tables host).handlePacketSafe_table order aging.clock packet with
            same | ⟨srcIP, read, heardIs, _, learns⟩
          · rw [same]
            exact fading.lasting host
          · rw [learns]
            obtain ⟨_, p, both, _, cut, _⟩ := happens.heard (fading.routed.own host) heardIs
            obtain ⟨rawMsg, decoded⟩ := FwdTable.heard_decoded heardIs
            exact (fading.lasting host).learn (fading.past host) recent
              (fun listed member => both.2 listed (cut.subset member)) (unmarshal_some decoded).2.1 srcIP
      | nowhere event transit nothing among =>
          have still : aging.expires event = aging.expired := by
            cases event with
            | call host order call => rfl
            | net event =>
                cases event with
                | task host order task => cases nothing
                | deliver | lose | duplicate => rfl
          rw [still]
          exact ⟨routed, fading.past, fading.ticked, fading.lasting,
            fun datagram member => fading.transit datagram (among datagram member)⟩

/-- From any state that the network has reached in which no node has `d` as its own, as long as none
brings it up: every 12 s, `tick` and `delay`, the least cost at which a node that runs has a route to
`d` has grown by one, whatever is lost and whatever links go down and up; and after 16 times that
there is no route to `d` any more. -/
theorem routes_count_up (unique : topology.UniqueAddresses) (nonneg : 0 ≤ delay ∧ 0 ≤ tick)
    {initially : Host → Time} {net : Net Host} (run : Run (ipStep topology) Honest (topology.start initially) net)
    (old : ∀ host entry, (net.tables host).entryMap.get d = some entry → entry.lastUpdatedTime ≤ begun)
    (onward : Run (Aging.step topology) (Elapses topology d delay tick) (Aging.ofNet net begun) aging) {host : Host}
    (running : aging.running host = true) :
    (∀ k : Nat, k ≤ 16 → begun + k * (entryStaleAfter + tick + delay) < aging.clock →
      ∀ entry, (aging.tables host).entryMap.get d = some entry → k ≤ entry.cost.toNat) ∧
    (begun + 16 * (entryStaleAfter + tick + delay) < aging.clock → (aging.tables host).entryMap.get d = none) := by
  have fading : Fading topology d begun delay tick aging := by
    refine Run.preserves (Fading topology d begun delay tick) ?_ onward (.start (routed_run unique run) nonneg old)
    intro before event after fading elapses moves
    exact fading.step unique nonneg elapses moves
  have grown := fading.grown nonneg running
  refine ⟨fun k small late entry present => grown entry present k small late, fun late => ?_⟩
  cases present : (aging.tables host).entryMap.get d with
  | none => rfl
  | some entry =>
      -- A route costs 15 at most.
      have least : 16 ≤ entry.cost.toNat := grown entry present 16 (le_refl _) late
      have most := (fading.routed.routes host d entry present).cost_le
      omega

end

section
attribute [local instance] Netstack.standard Ipv4.linux

def linkLost : List (Event LoopHost) :=
  [.net (.task .b Node.anyOrder .ripInit), .net (.lose 0), .net (.lose 0),
    .net (.task .a Node.anyOrder .periodicUpdate), .net (.deliver 0 Node.anyOrder 0),
    .net (.deliver 0 Node.anyOrder 0), .net (.task .a Node.anyOrder (.setInterfaceStateSafe 1 .down 0))]

theorem linkLost_happens :
    (exec (ipStep abcLoop) Honest (abcLoop.start fun _ => 0) linkLost).isSome := by
  decide +kernel

def linkGone : Net LoopHost :=
  (exec (ipStep abcLoop) Honest (abcLoop.start fun _ => 0) linkLost).get linkLost_happens

def rounds : List (AgingEvent LoopHost) :=
  (List.range 19).flatMap fun round =>
    let now : Time := (round + 1) * 100 * second
    [.wait now] ++ [LoopHost.a, .b, .c].map fun host =>
      .ip (.net (.task host Node.anyOrder (.periodicExpiry now)))

theorem rounds_happen :
    (exec (Aging.step abcLoop) (Elapses abcLoop 0xc0a80005 second (100 * second)) (Aging.ofNet linkGone 0)
      rounds).isSome := by
  decide +kernel

def roundsOver : Aging LoopHost :=
  (exec (Aging.step abcLoop) (Elapses abcLoop 0xc0a80005 second (100 * second)) (Aging.ofNet linkGone 0)
    rounds).get rounds_happen

theorem routes_count_up_loop :
    ((linkGone.tables .b).entryMap.get 0xc0a80005).isSome ∧
      Run (Aging.step abcLoop) (Elapses abcLoop 0xc0a80005 second (100 * second)) (Aging.ofNet linkGone 0)
        roundsOver ∧
      (roundsOver.tables .b).entryMap.get 0xc0a80005 = none := by
  have reached : Run (ipStep abcLoop) Honest (abcLoop.start fun _ => 0) linkGone := by
    unfold linkGone
    exact Run.ofSome linkLost_happens
  have onward : Run (Aging.step abcLoop) (Elapses abcLoop 0xc0a80005 second (100 * second))
      (Aging.ofNet linkGone 0) roundsOver := by
    unfold roundsOver
    exact Run.ofSome rounds_happen
  have past : ∀ host, ((linkGone.tables host).entryMap.get 0xc0a80005).all fun entry =>
      decide (entry.lastUpdatedTime ≤ 0) := by
    intro host
    cases host <;> decide +kernel
  have old : ∀ host entry, (linkGone.tables host).entryMap.get 0xc0a80005 = some entry →
      entry.lastUpdatedTime ≤ 0 := by
    intro host entry present
    have held := past host
    rw [present] at held
    exact of_decide_eq_true held
  have late : 0 + 16 * (entryStaleAfter + 100 * second + second) < roundsOver.clock := by decide +kernel
  have running : roundsOver.running .b = true := by decide +kernel
  exact ⟨by decide +kernel, onward,
    (routes_count_up abcLoop_unique (by decide) reached old onward running).2 late⟩

end

end IpTcp.Internet
