import IpTcp.Rip.Soundness

/-! A network that has settled. Where no response of a neighbour would change a route, an address
that is at a distance of at most 15 is in every table with this distance as its cost: the next node
on a shortest walk has it one nearer, and does not poison it, since its own route does not lead
back. -/

set_option autoImplicit false

namespace IpTcp.Rip

open Lib Lib.Bytes Network
open Tcp (Netstack)

/-- What a response can change of a route. -/
def costAndNext (entry : FwdTableEntry) : UInt32 × IntIP := (entry.cost, entry.next)

def SameRoutes (before after : FwdTable) : Prop :=
  ∀ d, (after.entryMap.get d).map costAndNext = (before.entryMap.get d).map costAndNext

theorem verdict_ignore {entryMap : GoMap IntIP FwdTableEntry} {srcIP : IntIP} {entry : RipEntry}
    (ignored : verdict entryMap srcIP entry = .ignore) (finite : entry.cost + 1 < infinity) :
    ∃ current, entryMap.get entry.destIP = some current ∧ current.cost ≤ entry.cost + 1 := by
  unfold verdict at ignored
  rw [if_neg (UInt32.not_le.mpr finite)] at ignored
  cases found : entryMap.get entry.destIP with
  | none => simp [found] at ignored
  | some current =>
      refine ⟨current, rfl, ?_⟩
      by_cases better : entry.cost + 1 < current.cost
      · simp [found, better] at ignored
      · exact UInt32.not_lt.mp better

theorem verdict_route {entryMap other : GoMap IntIP FwdTableEntry} {srcIP : IntIP} {entry : RipEntry}
    (same : (entryMap.get entry.destIP).map costAndNext = (other.get entry.destIP).map costAndNext) :
    verdict entryMap srcIP entry = verdict other srcIP entry := by
  unfold verdict
  cases first : entryMap.get entry.destIP with
  | none =>
      cases second : other.get entry.destIP with
      | none => rfl
      | some route => simp [first, second] at same
  | some route =>
      cases second : other.get entry.destIP with
      | none => simp [first, second] at same
      | some route' =>
          simp only [first, second, Option.map_some, Option.some.injEq, costAndNext, Prod.mk.injEq] at same
          simp only [same.1, same.2]

theorem verdict_refresh {entryMap : GoMap IntIP FwdTableEntry} {srcIP : IntIP} {entry : RipEntry}
    (refreshed : verdict entryMap srcIP entry = .refresh) :
    ∃ current, entryMap.get entry.destIP = some current ∧ current.cost = entry.cost + 1 ∧
      current.next = srcIP := by
  unfold verdict at refreshed
  dsimp only at refreshed
  split at refreshed
  · cases refreshed
  split at refreshed
  · cases refreshed
  rename_i current found
  split at refreshed
  · cases refreshed
  split at refreshed
  · cases refreshed
  split at refreshed
  · rename_i same
    exact ⟨current, found, same.1.symm, same.2⟩
  · cases refreshed

/-- A response of which no entry is an update changes no route. -/
theorem sameRoutes_learn {ft : FwdTable} {srcIP : IntIP} {entries : List RipEntry}
    (kept : ∀ entry ∈ entries, verdict ft.entryMap srcIP entry ≠ .update) (now : Time) :
    SameRoutes ft (ft.learn srcIP now entries) := by
  -- the loop keeps the routes, so the verdicts are those of the table before it
  suffices loop : ∀ routes : GoMap IntIP FwdTableEntry × List RipEntry,
      SameRoutes ft { ft with entryMap := routes.1 } →
      SameRoutes ft { ft with entryMap := (entries.foldl (processEntry srcIP now) routes).1 } from
    loop (ft.entryMap, []) fun _ => rfl
  induction entries with
  | nil => exact fun routes same => same
  | cons entry rest ih =>
      intro routes same
      rw [List.foldl_cons]
      apply ih fun other member => kept other (List.mem_cons_of_mem _ member)
      intro d
      by_cases about : d = entry.destIP
      · subst about
        have here := same entry.destIP
        change (routes.1.get entry.destIP).map costAndNext = _ at here
        change ((processEntry srcIP now routes entry).1.get entry.destIP).map costAndNext = _
        rw [processEntry_same]
        have unchanged := kept entry List.mem_cons_self
        cases decided : verdict routes.1 srcIP entry with
        | ignore => rw [if_pos rfl, here]
        | update => exact absurd ((verdict_route here).symm.trans decided) unchanged
        | refresh =>
            obtain ⟨current, found, cost, next⟩ := verdict_refresh decided
            rw [if_neg (by simp), ← here, found]
            simp [costAndNext, createFwdTableEntry, cost, next]
      · change ((processEntry srcIP now routes entry).1.get d).map costAndNext = _
        rw [processEntry_other about]
        exact same d

namespace Topology

variable {Host : Type} {topology : Topology Host}

theorem response_entry {ft : FwdTable} (order : Order) {neighborIP d : IntIP} {route : FwdTableEntry}
    (present : ft.entryMap.get d = some route) (open_ : route.next ≠ neighborIP) :
    { cost := route.cost, destIP := d, mask := route.mask } ∈ (response ft order neighborIP).entries := by
  refine List.mem_map.mpr ⟨(d, route), (GoMap.mem_range _ _ _ _).mpr present, ?_⟩
  simp [ripEntry, open_]

section
variable {net : Net Host}

theorem Sound.response_accepted (sound : topology.Sound net) {addresses : List IntIP}
    (few : addresses.length ≤ 64) (all : ∀ host, ∀ link ∈ topology.links host, link.ip ∈ addresses)
    (host : Host) (order : Order) (neighborIP : IntIP) :
    (response (net.tables host) order neighborIP).Accepted := by
  have finite : (net.tables host).FiniteCosts :=
    fun d entry present => (sound.routes host d entry present).finite
  apply (response_accepted_iff finite order neighborIP).mpr
  have known : (net.tables host).entryMap.keys ⊆ addresses := by
    intro d listed
    obtain ⟨entry, present⟩ := (GoMap.mem_keys_iff _ d).mp listed
    obtain ⟨owner, ⟨link, member, rfl⟩, _⟩ := (sound.routes host d entry present).walk
    exact all owner link member
  have shorter := (List.subperm_of_subset (AList.keys_nodup _) known).length_le
  omega

theorem Sound.not_poisoned (sound : topology.Sound net) (unique : topology.UniqueAddresses)
    {host next owner : Host} {link : IpInterface} {d : IntIP} {entry : FwdTableEntry}
    (member : link ∈ topology.links host)
    (owns : topology.Owns owner d) (present : (net.tables next).entryMap.get d = some entry)
    (distance : Distance topology.Adjacent (entry.cost.toNat + 1) host owner) :
    entry.next ≠ link.ip := by
  -- The route of the next node on a shortest walk does not lead back.
  intro back
  have own : topology.Owns host link.ip := ⟨link, member, rfl⟩
  rcases sound.routes next d entry present with ⟨zero, self, mine⟩ | ⟨least, _, neighbor, owner', owns', walk⟩
  · -- the address would be the node's own
    rw [← self, back] at owns
    rw [unique.owner own owns] at distance
    have := distance.least 0 (.here owner)
    omega
  · rw [back] at neighbor walk
    rw [unique.far neighbor own, unique.owner owns' owns] at walk
    have := distance.least _ walk
    omega

/-! ## Settled networks -/

section
variable [Netstack] [Ipv4]

/-- The response of a node over one of its links would change no route of the neighbour there. -/
def Settled (topology : Topology Host) (net : Net Host) : Prop :=
  ∀ host, ∀ link ∈ topology.links host, topology.far host link.destIp ≠ host →
    ∃ order order' now, SameRoutes (net.tables (topology.far host link.destIp))
      (ripHandler (net.tables (topology.far host link.destIp)) order' now link.ip
        (response (net.tables host) order link.destIp).marshal).table

def HasSelfEntries (topology : Topology Host) (net : Net Host) : Prop :=
  ∀ host, ∀ link ∈ topology.links host, ∃ entry,
    (net.tables host).entryMap.get link.ip = some entry ∧ entry.cost = 0 ∧ entry.next = link.ip

theorem ripHandler_response {ft : FwdTable} {order : Order} {now : Time} {srcIP : IntIP} {p : RipPacket}
    (accepted : p.Accepted) (response : p.command = commandResponse) :
    (ripHandler ft order now srcIP p.marshal).table = ft.learn srcIP now p.entries := by
  have read : unmarshalRipPacket p.marshal = some p := accepted
  have other : p.command ≠ commandRequest := by
    rw [response]
    decide
  simp only [ripHandler, read, if_neg other]
  rfl

/-- One step away from the owner: the node takes, or has, what its neighbour offers. -/
theorem Sound.nearer (sound : topology.Sound net) (unique : topology.UniqueAddresses)
    {addresses : List IntIP} (few : addresses.length ≤ 64)
    (all : ∀ host, ∀ link ∈ topology.links host, link.ip ∈ addresses) (settled : topology.Settled net)
    {host next owner : Host} {d : IntIP} {offered : FwdTableEntry}
    (adjacent : topology.Adjacent host next) (owns : topology.Owns owner d)
    (present : (net.tables next).entryMap.get d = some offered)
    (distance : Distance topology.Adjacent (offered.cost.toNat + 1) host owner)
    (behind : Distance topology.Adjacent offered.cost.toNat next owner) (near : offered.cost.toNat + 1 ≤ 15) :
    ∃ entry, (net.tables host).entryMap.get d = some entry ∧ entry.cost.toNat = offered.cost.toNat + 1 := by
  obtain ⟨link, member, rfl⟩ := adjacent
  obtain ⟨other, listed, otherIp, otherDest⟩ := topology.symmetric host link member
  have back : topology.far (topology.far host link.destIp) other.destIp = host := by
    rw [otherDest]
    exact unique.far (neighbor_back member) ⟨link, member, rfl⟩
  have apart : topology.far (topology.far host link.destIp) other.destIp ≠ topology.far host link.destIp := by
    rw [back]
    intro same
    rw [← same] at behind
    have := distance.eq behind
    omega
  obtain ⟨order, order', now, same⟩ := settled _ other listed apart
  rw [back, ripHandler_response (sound.response_accepted few all _ order other.destIp) rfl] at same
  -- the entry for the address, which is not poisoned
  have open_ := sound.not_poisoned unique member owns present distance
  rw [← otherDest] at open_
  have announced := response_entry order present open_
  have handled := @processEntries_nodup other.ip now (net.tables host).entryMap _
    (response_once _ order other.destIp) _ announced
  have small : offered.cost ≤ infinity := UInt32.le_iff_toNat_le.mpr (show offered.cost.toNat ≤ 16 by omega)
  have succ := toNat_succ small
  have kept := same d
  rw [FwdTable.learn, handled] at kept
  split at kept
  · -- the route that the node has is not worse, and none is better than the distance
    rename_i ignored
    have finite : offered.cost + 1 < infinity :=
      UInt32.lt_iff_toNat_lt.mpr (by rw [succ]; exact Nat.lt_succ_of_le near)
    obtain ⟨entry, found, notWorse⟩ := verdict_ignore ignored finite
    refine ⟨entry, found, ?_⟩
    obtain ⟨owner', owns', walk⟩ := (sound.routes host d entry found).walk
    rw [unique.owner owns' owns] at walk
    have least := distance.least _ walk
    have most := UInt32.le_iff_toNat_le.mp notWorse
    rw [succ] at most
    omega
  · obtain ⟨entry, found, equal⟩ := Option.map_eq_some_iff.mp kept.symm
    refine ⟨entry, found, ?_⟩
    have cost : entry.cost = offered.cost + 1 := congrArg Prod.fst equal
    rw [cost, succ]

theorem Sound.present (sound : topology.Sound net) (unique : topology.UniqueAddresses)
    {addresses : List IntIP} (few : addresses.length ≤ 64)
    (all : ∀ host, ∀ link ∈ topology.links host, link.ip ∈ addresses)
    (own : topology.HasSelfEntries net) (settled : topology.Settled net) {owner : Host} {d : IntIP}
    (owns : topology.Owns owner d) {distance : Nat} (near : distance ≤ 15) {host : Host}
    (shortest : Distance topology.Adjacent distance host owner) :
    ∃ entry, (net.tables host).entryMap.get d = some entry ∧ entry.cost.toNat = distance := by
  -- By induction on the distance.
  induction distance generalizing host with
  | zero =>
      obtain rfl := shortest.walk.eq_of_zero
      obtain ⟨link, member, rfl⟩ := owns
      obtain ⟨entry, present, zero, _⟩ := own host link member
      exact ⟨entry, present, by rw [zero]; rfl⟩
  | succ length ih =>
      cases shortest.walk with
      | first adjacent walk =>
          have behind := shortest.behind adjacent walk
          obtain ⟨offered, present, cost⟩ := ih (by omega) behind
          rw [← cost] at shortest behind near ⊢
          exact sound.nearer unique few all settled adjacent owns present shortest behind near

/-- In a network of at most 64 addresses, in every state reached in which all nodes have their own
routes and no response of a neighbour would change a route: a table has exactly the addresses whose
owner is at a distance of at most 15, with the distance as their cost and a next hop one nearer. -/
theorem settled_shortest [DecidableEq Host] (unique : topology.UniqueAddresses) {addresses : List IntIP}
    (few : addresses.length ≤ 64) (all : ∀ host, ∀ link ∈ topology.links host, link.ip ∈ addresses)
    {now : Host → Time} (run : Run topology.step anyEvent (topology.start now) net)
    (own : topology.HasSelfEntries net) (settled : topology.Settled net) (host : Host) :
    (∀ d, (∃ entry, (net.tables host).entryMap.get d = some entry) ↔
      ∃ owner distance, topology.Owns owner d ∧ Distance topology.Adjacent distance host owner ∧
        distance ≤ 15) ∧
    ∀ d entry, (net.tables host).entryMap.get d = some entry →
      ∃ owner, topology.Owns owner d ∧ Distance topology.Adjacent entry.cost.toNat host owner ∧
        (0 < entry.cost.toNat → topology.Neighbor host entry.next ∧
          Distance topology.Adjacent (entry.cost.toNat - 1) (topology.far host entry.next) owner) := by
  have sound := reachable_sound unique run
  -- A route is no shorter than the distance, at which there is one in the table: it is this one.
  have exact_ : ∀ d entry, (net.tables host).entryMap.get d = some entry →
      entry.cost.toNat ≤ 15 ∧
        ∃ owner, topology.Owns owner d ∧ Distance topology.Adjacent entry.cost.toNat host owner := by
    intro d entry present
    have route := sound.routes host d entry present
    have most := route.cost_le
    obtain ⟨owner, owns, walk⟩ := route.walk
    obtain ⟨distance, below, shortest⟩ := walk.distance_le
    obtain ⟨found, there, cost⟩ := sound.present unique few all own settled owns (by omega) shortest
    cases present.symm.trans there
    rw [← cost] at shortest
    exact ⟨most, owner, owns, shortest⟩
  refine ⟨fun d => ⟨?_, ?_⟩, ?_⟩
  · rintro ⟨entry, present⟩
    obtain ⟨most, owner, owns, shortest⟩ := exact_ d entry present
    exact ⟨owner, entry.cost.toNat, owns, shortest, most⟩
  · rintro ⟨owner, distance, owns, shortest, near⟩
    obtain ⟨entry, present, _⟩ := sound.present unique few all own settled owns near shortest
    exact ⟨entry, present⟩
  · intro d entry present
    obtain ⟨_, owner, owns, shortest⟩ := exact_ d entry present
    refine ⟨owner, owns, shortest, fun positive => ?_⟩
    rcases sound.routes host d entry present with ⟨zero, _⟩ | ⟨least, _, neighbor, owner', owns', walk⟩
    · rw [zero] at positive
      cases positive
    · rw [unique.owner owns' owns] at walk
      refine ⟨neighbor, ?_⟩
      obtain ⟨length, is⟩ := Nat.exists_eq_add_of_le' least
      rw [is] at shortest walk ⊢
      exact shortest.behind (adjacent_far neighbor) walk

end

end

section
attribute [local instance] Netstack.standard Ipv4.linux

def exchange : List (NetEvent LoopHost) :=
  -- All start RIP, and every request and the response to it is delivered.
  [.task .a Node.anyOrder .ripInit, .task .b Node.anyOrder .ripInit, .task .c Node.anyOrder .ripInit] ++
    List.replicate 12 (.deliver 0 Node.anyOrder 0)

theorem exchange_happens : (exec abcLoop.step anyEvent (abcLoop.start fun _ => 0) exchange).isSome := by
  decide +kernel

def exchanged : Net LoopHost :=
  (exec abcLoop.step anyEvent (abcLoop.start fun _ => 0) exchange).get exchange_happens

theorem exchanged_reached : Run abcLoop.step anyEvent (abcLoop.start fun _ => 0) exchanged := by
  unfold exchanged
  exact Run.ofSome exchange_happens

theorem exchanged_facts : ∀ host ∈ [LoopHost.a, .b, .c], ∀ link ∈ abcLoop.links host,
    (response (exchanged.tables host) Node.anyOrder link.destIp).Accepted ∧
    (∀ entry ∈ (response (exchanged.tables host) Node.anyOrder link.destIp).entries,
      verdict (exchanged.tables (abcLoop.far host link.destIp)).entryMap link.ip entry ≠ .update) ∧
    ((exchanged.tables host).entryMap.get link.ip).map costAndNext = some (0, link.ip) := by
  decide +kernel

theorem exchanged_settled : abcLoop.Settled exchanged := by
  intro host link member _
  obtain ⟨accepted, kept, _⟩ := exchanged_facts host (by cases host <;> simp) link member
  refine ⟨Node.anyOrder, Node.anyOrder, 0, ?_⟩
  rw [ripHandler_response accepted rfl]
  exact sameRoutes_learn kept 0

theorem exchanged_own : abcLoop.HasSelfEntries exchanged := by
  intro host link member
  obtain ⟨_, _, own⟩ := exchanged_facts host (by cases host <;> simp) link member
  obtain ⟨entry, present, route⟩ := Option.map_eq_some_iff.mp own
  exact ⟨entry, present, congrArg Prod.fst route, congrArg Prod.snd route⟩

theorem settled_shortest_loop :
    Run abcLoop.step anyEvent (abcLoop.start fun _ => 0) exchanged ∧
      ∀ d, (∃ entry, (exchanged.tables .a).entryMap.get d = some entry) ↔
        ∃ owner distance, abcLoop.Owns owner d ∧ Distance abcLoop.Adjacent distance LoopHost.a owner ∧
          distance ≤ 15 := by
  refine ⟨exchanged_reached, ?_⟩
  exact (settled_shortest abcLoop_unique (by decide) abcLoop_addresses exchanged_reached exchanged_own
    exchanged_settled .a).1

end

end Topology

end IpTcp.Rip
