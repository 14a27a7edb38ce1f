import IpTcp.Internet.Stamped

/-! The timing of RIP. A run is cut into epochs, of which each is as long as it takes every node to
send its table to every neighbour once and be heard there; datagrams carry the epoch they were sent
in. Epochs and stamps are written down beside the network and do not change what it does. -/

set_option autoImplicit false

namespace IpTcp.Rip

open Lib Lib.Bytes Network

/-! ## A route that a response leaves alone -/

section
variable {srcIP : IntIP} {now : Time}

/-- An entry that is no better than the route, and no worse if it is from the next hop. -/
def Quiet (srcIP : IntIP) (route : FwdTableEntry) (entry : RipEntry) : Prop :=
  entry.cost + 1 < infinity →
    route.cost ≤ entry.cost + 1 ∧ (srcIP = route.next → entry.cost + 1 = route.cost)

theorem verdict_quiet {entryMap : GoMap IntIP FwdTableEntry} {entry : RipEntry} {route : FwdTableEntry}
    (present : entryMap.get entry.destIP = some route) (quiet : Quiet srcIP route entry) :
    verdict entryMap srcIP entry =
      if entry.cost + 1 < infinity ∧ route.next = srcIP then .refresh else .ignore := by
  simp only [verdict]
  by_cases finite : entry.cost + 1 < infinity
  · obtain ⟨notBetter, notWorse⟩ := quiet finite
    rw [if_neg (UInt32.not_le.mpr finite), present]
    simp only [if_neg (UInt32.not_lt.mpr notBetter)]
    by_cases through : route.next = srcIP
    · have same := notWorse through.symm
      rw [if_neg (by simp [same]), if_pos ⟨same, through⟩, if_pos ⟨finite, through⟩]
    · rw [if_neg (fun worse => through worse.2.symm), if_neg (fun same => through same.2),
        if_neg (fun both => through both.2)]
  · rw [if_pos (UInt32.not_lt.mp finite), if_neg (fun both => finite both.1)]

structure Kept (srcIP : IntIP) (now : Time) (entries : List RipEntry) (d : IntIP) (route found : FwdTableEntry) :
    Prop where
  same : costAndNext found = costAndNext route
  time : found = route ∨ srcIP = route.next ∧ found.lastUpdatedTime = now
  renewed : srcIP = route.next → (∃ entry ∈ entries, entry.destIP = d ∧ entry.cost + 1 < infinity) →
    found.lastUpdatedTime = now

theorem processEntries_kept {entryMap : GoMap IntIP FwdTableEntry} {entries : List RipEntry} {d : IntIP}
    {route : FwdTableEntry} (present : entryMap.get d = some route)
    (quiet : ∀ entry ∈ entries, entry.destIP = d → Quiet srcIP route entry) :
    (∃ found, (processEntries srcIP now entryMap entries).1.get d = some found ∧
      Kept srcIP now entries d route found) ∧
    ∀ updated ∈ (processEntries srcIP now entryMap entries).2, updated.destIP ≠ d := by
  induction entries using List.reverseRecOn with
  | nil =>
      refine ⟨⟨route, present, rfl, Or.inl rfl, ?_⟩, fun _ listed => nomatch listed⟩
      rintro _ ⟨_, listed, _⟩
      cases listed
  | append_singleton rest entry ih =>
      obtain ⟨⟨found, there, kept⟩, silent⟩ := ih fun other member => quiet other (List.mem_append_left _ member)
      have last : processEntries srcIP now entryMap (rest ++ [entry]) =
          processEntry srcIP now (processEntries srcIP now entryMap rest) entry := by
        simp only [processEntries, List.foldl_append, List.foldl_cons, List.foldl_nil]
      rw [last]
      generalize processEntries srcIP now entryMap rest = routes at there silent ⊢
      by_cases about : entry.destIP = d
      · subst about
        have cost : found.cost = route.cost := congrArg Prod.fst kept.same
        have next : found.next = route.next := congrArg Prod.snd kept.same
        have still : Quiet srcIP found entry := by
          have here := quiet entry (List.mem_append_right _ List.mem_cons_self) rfl
          unfold Quiet at here ⊢
          rwa [cost, next]
        have decided := verdict_quiet there still
        by_cases refreshes : entry.cost + 1 < infinity ∧ found.next = srcIP
        · -- the entry is from the next hop, which still has the route
          rw [if_pos refreshes] at decided
          have again := (still refreshes.1).2 refreshes.2.symm
          have created : costAndNext (createFwdTableEntry srcIP (entry.cost + 1) now) = costAndNext route :=
            (Prod.ext again refreshes.2.symm).trans kept.same
          refine ⟨⟨createFwdTableEntry srcIP (entry.cost + 1) now, ?_, created, Or.inr ⟨?_, rfl⟩,
            fun _ _ => rfl⟩, ?_⟩
          · rw [processEntry_same, decided, if_neg (by simp)]
          · exact refreshes.2.symm.trans next
          · simp only [processEntry, decided]
            exact silent
        · rw [if_neg refreshes] at decided
          have unchanged : processEntry srcIP now routes entry = routes := by simp only [processEntry, decided]
          rw [unchanged]
          refine ⟨⟨found, there, kept.same, kept.time, ?_⟩, silent⟩
          rintro through ⟨other, member, is, finite⟩
          rcases List.mem_append.mp member with earlier | here
          · exact kept.renewed through ⟨other, earlier, is, finite⟩
          · obtain rfl := List.mem_singleton.mp here
            exact absurd ⟨finite, next.trans through.symm⟩ refreshes
      · refine ⟨⟨found, ?_, kept.same, kept.time, ?_⟩, ?_⟩
        · rw [processEntry_other (Ne.symm about), there]
        · rintro through ⟨other, member, is, finite⟩
          rcases List.mem_append.mp member with earlier | here
          · exact kept.renewed through ⟨other, earlier, is, finite⟩
          · obtain rfl := List.mem_singleton.mp here
            exact absurd is about
        · intro updated member
          simp only [processEntry] at member
          split at member
          · rcases List.mem_append.mp member with earlier | here
            · exact silent updated earlier
            · obtain rfl := List.mem_singleton.mp here
              exact about
          · exact silent updated member
          · exact silent updated member

end

/-! ## Distances of addresses -/

namespace Topology

variable {Host : Type} {topology : Topology Host}

def Away (topology : Topology Host) (distance : Nat) (host : Host) (d : IntIP) : Prop :=
  ∃ owner, topology.Owns owner d ∧ Distance topology.Adjacent distance host owner

def NoSelfLinks (topology : Topology Host) : Prop :=
  ∀ host, ∀ link ∈ topology.links host, topology.far host link.destIp ≠ host

section
variable (unique : topology.UniqueAddresses) {host : Host} {d : IntIP} {distance other : Nat}
include unique

theorem Away.le (away : topology.Away distance host d) {owner : Host} (owns : topology.Owns owner d)
    (walk : Walk topology.Adjacent other host owner) : distance ≤ other := by
  obtain ⟨owner', owns', shortest⟩ := away
  rw [unique.owner owns' owns] at shortest
  exact shortest.least other walk

theorem Away.eq (one : topology.Away distance host d) (another : topology.Away other host d) :
    distance = other := by
  obtain ⟨owner, owns, shortest⟩ := one
  obtain ⟨owner', owns', shortest'⟩ := another
  rw [unique.owner owns' owns] at shortest'
  exact shortest.eq shortest'

/-- A route at the distance of its address has a next hop that is one nearer. -/
theorem Away.next {entry : FwdTableEntry} (away : topology.Away entry.cost.toNat host d)
    (sound : topology.RouteSound host d entry) (positive : 0 < entry.cost.toNat) :
    topology.Neighbor host entry.next ∧
      topology.Away (entry.cost.toNat - 1) (topology.far host entry.next) d := by
  rcases sound with ⟨zero, _⟩ | ⟨least, _, neighbor, owner, owns, walk⟩
  · rw [zero] at positive
    cases positive
  · refine ⟨neighbor, owner, owns, walk, ?_⟩
    intro shorter other
    have := away.le unique owns (.first (adjacent_far neighbor) other)
    omega

end

theorem Away.first {distance : Nat} {host : Host} {d : IntIP} (away : topology.Away (distance + 1) host d) :
    ∃ link ∈ topology.links host, topology.Away distance (topology.far host link.destIp) d := by
  obtain ⟨owner, owns, shortest⟩ := away
  cases shortest.walk with
  | first adjacent walk =>
      obtain ⟨link, member, rfl⟩ := adjacent
      exact ⟨link, member, owner, owns, shortest.behind ⟨link, member, rfl⟩ walk⟩

end Topology

end IpTcp.Rip

namespace IpTcp.Internet

open Lib Lib.Bytes Network Rip
open Tcp (Netstack)

/-! ## The clock -/

/-- What is written down about a datagram: the epoch in which it was sent, and whether it is a
periodic update. -/
structure Stamp where
  epoch : Nat
  periodic : Bool
  deriving DecidableEq, Repr

structure Timed (Host : Type) extends Stamped Host Stamp where
  epoch : Nat
  /-- When the epoch before this one began. -/
  previous : Time
  /-- When this epoch began. -/
  began : Time
  clock : Time
  /-- The neighbours, each with the node that has heard a periodic update of this epoch from it. -/
  heard : List (Host × IntIP)

inductive TimedEvent (Host : Type) where
  | ip (event : Event Host)
  | wait (now : Time)
  | nextEpoch

/-- An update period of 5 seconds, and a second for an update to get to its neighbour. -/
def window : Time := 6 * second

namespace Timed

variable {Host : Type}

def ofNet (net : Net Host) (now : Time) : Timed Host where
  toStamped := .ofNet net ⟨0, false⟩
  epoch := 1
  previous := now
  began := now
  clock := now
  heard := []

def stamp (timed : Timed Host) (event : NodeEvent) : Stamp := ⟨timed.epoch, decide (event = .periodicUpdate)⟩

variable [Netstack] [Ipv4]

def hearsFrom (timed : Timed Host) (stamp : Option Stamp) (host : Host) (order : Order) (event : NodeEvent) :
    Option IntIP :=
  if stamp = some ⟨timed.epoch, true⟩ then ((timed.tables host).heard order event).map Prod.fst else none

def hears (timed : Timed Host) (event : Event Host) : List (Host × IntIP) :=
  (occurs timed.net event).elim [] fun (host, order, nodeEvent) =>
    (timed.hearsFrom (timed.stampOf event) host order nodeEvent).toList.map (host, ·)

theorem hears_deliver {timed : Timed Host} {index : Nat} {order : Order} {now : Time} {sent : Stamp}
    {host : Host} {packet : List Byte} (found : timed.transit[index]? = some (sent, host, packet))
    (running : timed.running host = true) :
    timed.hears (.net (.deliver index order now)) =
      (timed.hearsFrom (some sent) host order (.handlePacketSafe now packet)).toList.map (host, ·) := by
  have delivered : timed.stampOf (.net (.deliver index order now)) = some sent := by
    simp only [Stamped.stampOf, found, Option.map_some]
  simp only [hears, Stamped.occurs_deliver found, if_pos running, Option.elim_some, delivered]

def step [DecidableEq Host] (topology : Topology Host) (timed : Timed Host) :
    TimedEvent Host → Option (Timed Host)
  | .ip event =>
      (timed.toStamped.step topology timed.stamp event).map fun stamped =>
        { timed with toStamped := stamped, heard := timed.heard ++ timed.hears event }
  | .wait now => some { timed with clock := now }
  | .nextEpoch =>
      some { timed with epoch := timed.epoch + 1, previous := timed.began, began := timed.clock, heard := [] }

end Timed

/-- What is assumed of time and of the network. Tasks use the clock; links stay as they are. An epoch
is not longer than a window; it ends when all that was sent before it has been received or is lost,
and every node has heard from all its neighbours in it. -/
def Timely {Host : Type} (topology : Topology Host) (horizon : Time) (timed : Timed Host) :
    TimedEvent Host → Prop
  | .ip (.call _ _ call) => call.Honest
  | .ip (.net (.task _ _ (.periodicExpiry now))) => now = timed.clock
  | .ip (.net (.task _ _ (.setInterfaceStateSafe _ _ _))) => False
  | .ip (.net (.task _ _ .ripInit)) | .ip (.net (.task _ _ .periodicUpdate)) => True
  | .ip (.net (.deliver _ _ now)) => now = timed.clock
  | .ip (.net (.lose _)) | .ip (.net (.duplicate _)) => True
  | .wait now => timed.clock ≤ now ∧ now ≤ timed.began + window ∧ now ≤ horizon
  | .nextEpoch =>
      (∀ datagram ∈ timed.transit, timed.epoch ≤ datagram.1.epoch) ∧
        ∀ host, ∀ link ∈ topology.links host, (host, link.destIp) ∈ timed.heard

instance {Host : Type} [Fintype Host] [DecidableEq Host] (topology : Topology Host) (horizon : Time)
    (timed : Timed Host) : DecidablePred (Timely topology horizon timed)
  | .ip (.call _ _ call) => inferInstanceAs (Decidable call.Honest)
  | .ip (.net (.task _ _ (.periodicExpiry now))) => inferInstanceAs (Decidable (now = timed.clock))
  | .ip (.net (.task _ _ (.setInterfaceStateSafe _ _ _))) => .isFalse False.elim
  | .ip (.net (.task _ _ .ripInit)) | .ip (.net (.task _ _ .periodicUpdate)) => .isTrue trivial
  | .ip (.net (.deliver _ _ now)) => inferInstanceAs (Decidable (now = timed.clock))
  | .ip (.net (.lose _)) | .ip (.net (.duplicate _)) => .isTrue trivial
  | .wait now =>
      inferInstanceAs (Decidable (timed.clock ≤ now ∧ now ≤ timed.began + window ∧ now ≤ horizon))
  | .nextEpoch =>
      inferInstanceAs (Decidable ((∀ datagram ∈ timed.transit, timed.epoch ≤ datagram.1.epoch) ∧
        ∀ host, ∀ link ∈ topology.links host, (host, link.destIp) ∈ timed.heard))

end IpTcp.Internet
