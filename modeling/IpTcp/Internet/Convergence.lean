import IpTcp.Internet.Epochs

/-! The routes converge. From whatever state the network is in, once links stay up and every node
hears from its neighbours in every epoch, the routes to addresses at a distance of k are right after
2 k epochs: when those at distance k are right and all older messages are gone, the next epoch
brings those at distance k + 1. A right route stays: nothing better is offered, its next hop has a
right route too, and in each epoch it is renewed before it can expire. -/

set_option autoImplicit false

namespace IpTcp.Internet

open Lib Lib.Bytes Network Rip
open Tcp (Netstack)

/-- Distances below this are right in an epoch. -/
def reach (epoch : Nat) : Nat := min 16 ((epoch + 1) / 2)

theorem reach_mono {epoch later : Nat} (le : epoch ≤ later) : reach epoch ≤ reach later := by
  unfold reach
  omega

theorem reach_succ (epoch : Nat) : reach (epoch + 1) ≤ reach (epoch - 1) + 1 := by
  unfold reach
  omega

theorem reach_le (epoch : Nat) : reach epoch ≤ reach (epoch - 1) + 1 :=
  (reach_mono (Nat.le_succ epoch)).trans (reach_succ epoch)

/-! ## A node -/

section
variable {Host : Type} {topology : Topology Host}

def Right (topology : Topology Host) (bound : Nat) (sender : Host) (entries : List RipEntry) : Prop :=
  ∀ entry ∈ entries, entry.cost ≠ infinity → ∀ distance < bound,
    topology.Away distance sender entry.destIP → entry.cost.toNat = distance

def Complete (topology : Topology Host) (bound : Nat) (receiver sender : Host) (entries : List RipEntry) :
    Prop :=
  (entries.map RipEntry.destIP).Nodup ∧ ∀ d, ∀ distance < bound, topology.Away distance sender d →
    topology.Away (distance + 1) receiver d → ∃ entry ∈ entries, entry.destIP = d ∧ entry.cost.toNat = distance

/-- A route at the distance of its address that is not about to expire: an own route, or one that was
renewed since the beginning of the last epoch. -/
def Held (horizon previous : Time) (ft : FwdTable) (d : IntIP) (distance : Nat) : Prop :=
  ∃ entry, ft.entryMap.get d = some entry ∧ entry.cost.toNat = distance ∧
    (distance = 0 → horizon ≤ entry.lastUpdatedTime + entryStaleAfter) ∧
    (0 < distance → previous ≤ entry.lastUpdatedTime)

/-- A node in an epoch. What it has not heard yet may still bring back a route that has expired, so
after a neighbour's update there is a route, or another neighbour that will offer it. -/
structure Settling (topology : Topology Host) (horizon : Time) (epoch : Nat) (previous began : Time)
    (heard : IntIP → Prop) (host : Host) (ft : FwdTable) : Prop where
  reached : ∀ d, ∀ distance < reach epoch, topology.Away distance host d → Held horizon previous ft d distance
  renewed : ∀ d entry, ft.entryMap.get d = some entry → topology.Away entry.cost.toNat host d →
    0 < entry.cost.toNat → entry.cost.toNat ≤ reach (epoch - 1) → heard entry.next →
    began ≤ entry.lastUpdatedTime
  offered : ∀ srcIP, heard srcIP → ∀ d, ∀ distance < reach (epoch - 1), distance + 1 ≤ 15 →
    topology.Away distance (topology.far host srcIP) d → topology.Away (distance + 1) host d →
    Held horizon previous ft d (distance + 1) ∨
      ∃ next, topology.Neighbor host next ∧ ¬ heard next ∧ topology.Away distance (topology.far host next) d

theorem Complete.mono {bound larger : Nat} (le : bound ≤ larger) {receiver sender : Host} {entries : List RipEntry}
    (complete : Complete topology larger receiver sender entries) :
    Complete topology bound receiver sender entries :=
  ⟨complete.1, fun d distance near => complete.2 d distance (by omega)⟩

theorem Right.mono {bound larger : Nat} (le : bound ≤ larger) {sender : Host} {entries : List RipEntry}
    (right : Right topology larger sender entries) : Right topology bound sender entries :=
  fun entry member notInfinite distance near => right entry member notInfinite distance (by omega)

structure Hears (topology : Topology Host) (bound : Nat) (host : Host) (srcIP : IntIP) (entries : List RipEntry) :
    Prop where
  neighbor : topology.Neighbor host srcIP
  announces : ∀ entry ∈ entries, entry.cost = infinity ∨ ∃ owner, topology.Owns owner entry.destIP ∧
    Walk topology.Adjacent entry.cost.toNat (topology.far host srcIP) owner
  right : Right topology bound (topology.far host srcIP) entries
  small : ∀ entry ∈ entries, entry.cost ≤ infinity

theorem finite_of_lt {cost : UInt32} (less : cost.toNat + 1 < 16) : cost + 1 < infinity := by
  have small : cost ≤ infinity := UInt32.le_iff_toNat_le.mpr (show cost.toNat ≤ 16 by omega)
  apply UInt32.lt_iff_toNat_lt.mpr
  rw [toNat_succ small]
  exact less

section
variable {horizon previous began : Time} {epoch bound : Nat} {heard : IntIP → Prop} {host : Host} {ft : FwdTable}
  {srcIP d : IntIP} {entries : List RipEntry} {route : FwdTableEntry}

theorem not_through_own (unique : topology.UniqueAddresses) (plain : topology.NoSelfLinks)
    (neighbor : topology.Neighbor host srcIP) (sound : topology.RouteSound host d route)
    (own : route.cost.toNat = 0) : srcIP ≠ route.next := by
  -- The next hop of an own route is the address itself, which no neighbour has.
  intro through
  rcases sound with ⟨_, self, mine⟩ | ⟨least, _⟩
  · rw [← self, ← through] at mine
    obtain ⟨link, listed, rfl⟩ := neighbor
    exact plain host link listed (unique.far ⟨link, listed, rfl⟩ mine)
  · omega

theorem Hears.quiet (hears : Hears topology bound host srcIP entries) (unique : topology.UniqueAddresses)
    (plain : topology.NoSelfLinks) (sound : topology.RouteSound host d route)
    (away : topology.Away route.cost.toNat host d) (near : route.cost.toNat ≤ bound) :
    ∀ entry ∈ entries, entry.destIP = d → Quiet srcIP route entry := by
  rintro entry member rfl finite
  have succ := toNat_succ (hears.small entry member)
  have notInfinite : entry.cost ≠ infinity := by
    intro is
    rw [is] at finite
    exact absurd finite (by decide)
  obtain ⟨owner, owns, walk⟩ := (hears.announces entry member).resolve_left notInfinite
  refine ⟨UInt32.le_iff_toNat_le.mpr ?_, fun through => UInt32.toNat_inj.mp ?_⟩
  · rw [succ]
    exact away.le unique owns (.first (Topology.adjacent_far hears.neighbor) walk)
  · rw [succ]
    by_cases own : route.cost.toNat = 0
    · exact absurd through (not_through_own unique plain hears.neighbor sound own)
    · obtain ⟨_, nearer⟩ := away.next unique sound (by omega)
      rw [← through] at nearer
      have cost := hears.right entry member notInfinite _ (by omega) nearer
      omega

theorem Hears.kept (hears : Hears topology bound host srcIP entries) (unique : topology.UniqueAddresses)
    (plain : topology.NoSelfLinks) (present : ft.entryMap.get d = some route)
    (sound : topology.RouteSound host d route) (away : topology.Away route.cost.toNat host d)
    (near : route.cost.toNat ≤ bound) (now : Time) :
    (∃ found, (ft.learn srcIP now entries).entryMap.get d = some found ∧
      Kept srcIP now entries d route found) ∧
    ∀ updated ∈ (processEntries srcIP now ft.entryMap entries).2, updated.destIP ≠ d :=
  processEntries_kept present (hears.quiet unique plain sound away near)

theorem Held.learn (hears : Hears topology bound host srcIP entries) (unique : topology.UniqueAddresses)
    (plain : topology.NoSelfLinks)
    (routes : ∀ d entry, ft.entryMap.get d = some entry → topology.RouteSound host d entry) {distance : Nat}
    (held : Held horizon previous ft d distance) (away : topology.Away distance host d)
    (near : distance ≤ bound) {now : Time} (late : previous ≤ now) :
    Held horizon previous (ft.learn srcIP now entries) d distance := by
  obtain ⟨route, present, rfl, lasting, young⟩ := held
  have sound := routes d route present
  obtain ⟨⟨found, there, kept⟩, _⟩ := hears.kept unique plain present sound away near now
  have cost : found.cost = route.cost := congrArg Prod.fst kept.same
  refine ⟨found, there, by rw [cost], ?_, ?_⟩
  · intro own
    rcases kept.time with same | ⟨through, _⟩
    · rw [same]
      exact lasting own
    · exact absurd through (not_through_own unique plain hears.neighbor sound own)
  · intro positive
    rcases kept.time with same | ⟨_, time⟩
    · rw [same]
      exact young positive
    · rw [time]
      exact late

/-- A complete response from a neighbour that is nearer: there is a young route after it, or one that
goes over another neighbour. -/
theorem Hears.offer (hears : Hears topology bound host srcIP entries) (unique : topology.UniqueAddresses)
    (routes : ∀ d entry, ft.entryMap.get d = some entry → topology.RouteSound host d entry)
    (complete : Complete topology bound host (topology.far host srcIP) entries) {distance : Nat}
    (near : distance < bound) (finite : distance + 1 ≤ 15)
    (behind : topology.Away distance (topology.far host srcIP) d) (away : topology.Away (distance + 1) host d)
    (now : Time) :
    (∃ found, (ft.learn srcIP now entries).entryMap.get d = some found ∧ found.cost.toNat = distance + 1 ∧
      found.lastUpdatedTime = now) ∨
    ∃ route, ft.entryMap.get d = some route ∧ (ft.learn srcIP now entries).entryMap.get d = some route ∧
      route.cost.toNat = distance + 1 ∧ route.next ≠ srcIP := by
  obtain ⟨once, all⟩ := complete
  obtain ⟨entry, member, rfl, cost⟩ := all d distance near behind away
  have less : entry.cost + 1 < infinity := finite_of_lt (by omega)
  have succ := toNat_succ (hears.small entry member)
  have decided := @processEntries_nodup srcIP now ft.entryMap entries once entry member
  split at decided
  · rename_i ignored
    obtain ⟨route, present, notWorse⟩ := verdict_ignore ignored less
    have exact_ : route.cost.toNat = distance + 1 := by
      obtain ⟨owner, owns, walk⟩ := (routes _ route present).walk
      have least := away.le unique owns walk
      have most := UInt32.le_iff_toNat_le.mp notWorse
      omega
    refine Or.inr ⟨route, present, decided.trans present, exact_, ?_⟩
    -- from its next hop the entry would have renewed the route
    intro through
    have same : entry.cost + 1 = route.cost := UInt32.toNat_inj.mp (by omega)
    have quiet : Quiet srcIP route entry := fun _ => ⟨same ▸ UInt32.le_refl _, fun _ => same⟩
    rw [verdict_quiet present quiet, if_pos ⟨less, through⟩] at ignored
    cases ignored
  · exact Or.inl ⟨_, decided, by show (entry.cost + 1).toNat = _; omega, rfl⟩

/-- A complete response from the next hop of a right route names it, and so renews it. -/
theorem Hears.renews (hears : Hears topology bound host srcIP entries) (unique : topology.UniqueAddresses)
    (plain : topology.NoSelfLinks)
    (complete : Complete topology bound host (topology.far host srcIP) entries)
    (present : ft.entryMap.get d = some route) (sound : topology.RouteSound host d route)
    (away : topology.Away route.cost.toNat host d) (positive : 0 < route.cost.toNat)
    (near : route.cost.toNat ≤ bound) (through : route.next = srcIP) {now : Time} {found : FwdTableEntry}
    (there : (ft.learn srcIP now entries).entryMap.get d = some found) : found.lastUpdatedTime = now := by
  obtain ⟨_, nearer⟩ := away.next unique sound positive
  rw [through] at nearer
  have onward : topology.Away (route.cost.toNat - 1 + 1) host d := by
    rwa [Nat.sub_add_cancel positive]
  obtain ⟨announced, member, is, cost⟩ := complete.2 d (route.cost.toNat - 1) (by omega) nearer onward
  have small := sound.cost_le
  obtain ⟨⟨_, same, kept⟩, _⟩ := hears.kept unique plain present sound away near now
  cases same.symm.trans there
  exact kept.renewed through.symm ⟨announced, member, is, finite_of_lt (by omega)⟩

/-- After a complete response from a neighbour that is nearer there is a young route, or else one over
another neighbour that was not heard yet. -/
theorem Settling.told (settling : Settling topology horizon epoch previous began heard host ft)
    (hears : Hears topology (reach (epoch - 1)) host srcIP entries) (unique : topology.UniqueAddresses)
    (routes : ∀ d entry, ft.entryMap.get d = some entry → topology.RouteSound host d entry)
    (complete : Complete topology (reach (epoch - 1)) host (topology.far host srcIP) entries)
    {now : Time} (early : previous ≤ began) (late : began ≤ now) {distance : Nat}
    (near : distance < reach (epoch - 1)) (finite : distance + 1 ≤ 15)
    (behind : topology.Away distance (topology.far host srcIP) d)
    (away : topology.Away (distance + 1) host d) :
    Held horizon previous (ft.learn srcIP now entries) d (distance + 1) ∨
      ∃ next, topology.Neighbor host next ∧ ¬ heard next ∧ next ≠ srcIP ∧
        topology.Away distance (topology.far host next) d := by
  rcases hears.offer unique routes complete near finite behind away now with
    ⟨found, there, cost, time⟩ | ⟨route, present, there, cost, other⟩
  · refine Or.inl ⟨found, there, cost, by omega, fun _ => ?_⟩
    rw [time]
    exact early.trans late
  · rw [← cost] at away
    obtain ⟨neighbor, nearer⟩ := away.next unique (routes d route present) (by omega)
    rw [cost, Nat.add_sub_cancel] at nearer
    by_cases known : heard route.next
    · have young := settling.renewed d route present away (by omega) (by omega) known
      exact Or.inl ⟨route, there, cost, by omega, fun _ => early.trans young⟩
    · exact Or.inr ⟨route.next, neighbor, known, other, nearer⟩

theorem Settling.learn (settling : Settling topology horizon epoch previous began heard host ft)
    (hears : Hears topology (reach (epoch - 1)) host srcIP entries) (unique : topology.UniqueAddresses)
    (plain : topology.NoSelfLinks)
    (routes : ∀ d entry, ft.entryMap.get d = some entry → topology.RouteSound host d entry)
    {heardNow : IntIP → Prop}
    (new : ∀ ip, heardNow ip → heard ip ∨ ip = srcIP ∧
      Complete topology (reach (epoch - 1)) host (topology.far host srcIP) entries)
    {now : Time} (early : previous ≤ began) (late : began ≤ now) :
    Settling topology horizon epoch previous began heardNow host (ft.learn srcIP now entries) := by
  have stays : ∀ d distance, distance ≤ reach (epoch - 1) → topology.Away distance host d →
      Held horizon previous ft d distance →
      Held horizon previous (ft.learn srcIP now entries) d distance :=
    fun d distance near away held => held.learn hears unique plain routes away near (early.trans late)
  have fresh : Complete topology (reach (epoch - 1)) host (topology.far host srcIP) entries →
      ∀ d, ∀ distance < reach (epoch - 1), distance + 1 ≤ 15 →
      topology.Away distance (topology.far host srcIP) d → topology.Away (distance + 1) host d →
      Held horizon previous (ft.learn srcIP now entries) d (distance + 1) ∨
        ∃ next, topology.Neighbor host next ∧ ¬ heardNow next ∧
          topology.Away distance (topology.far host next) d := by
    intro complete d distance near finite behind away
    rcases settling.told hears unique routes complete early late near finite behind away with
      held | ⟨next, neighbor, unheard, other, nearer⟩
    · exact Or.inl held
    · refine Or.inr ⟨next, neighbor, fun heardIt => ?_, nearer⟩
      rcases new next heardIt with before | ⟨is, _⟩
      · exact unheard before
      · exact other is
  constructor
  · intro d distance near away
    have before := reach_le epoch
    exact stays d distance (by omega) away (settling.reached d distance near away)
  · intro d entry present away positive near heardIt
    rcases processEntries_get present with old | ⟨announced, _, _, created, _⟩
    · rcases new _ heardIt with before | ⟨through, complete⟩
      · exact settling.renewed d entry old away positive near before
      · -- its next hop is heard now, and names it
        rw [hears.renews unique plain complete old (routes d entry old) away positive near through present]
        exact late
    · rw [created]
      exact late
  · intro ip heardIt d distance near finite behind away
    rcases new ip heardIt with before | ⟨rfl, complete⟩
    · rcases settling.offered ip before d distance near finite behind away with
        held | ⟨next, neighbor, _, nearer⟩
      · exact Or.inl (stays d (distance + 1) (by omega) away held)
      · by_cases known : heardNow next
        · rcases new next known with already | ⟨rfl, complete⟩
          · contradiction
          · exact fresh complete d distance near finite nearer away
        · exact Or.inr ⟨next, neighbor, known, nearer⟩
    · exact fresh complete d distance near finite behind away

theorem two_windows {previous began clock : Int} (before : began ≤ previous + window)
    (within : clock ≤ began + window) : clock ≤ previous + 2 * window := by
  omega

theorem age_le {now limit updated allowed : Int} (before : now ≤ limit) (lasting : limit ≤ updated + allowed) :
    now - updated ≤ allowed := by
  omega

theorem Settling.congr (settling : Settling topology horizon epoch previous began heard host ft)
    {after : FwdTable} (same : after.entryMap = ft.entryMap) :
    Settling topology horizon epoch previous began heard host after := by
  obtain ⟨reached, renewed, offered⟩ := settling
  constructor
  · simpa only [Held, same] using reached
  · simpa only [same] using renewed
  · simpa only [Held, same] using offered

theorem Settling.expire (settling : Settling topology horizon epoch previous began heard host ft)
    (routes : ∀ d entry, ft.entryMap.get d = some entry → topology.RouteSound host d entry) {now : Time}
    (before : now ≤ horizon) (soon : now ≤ previous + 2 * window) (order : Order) :
    Settling topology horizon epoch previous began heard host (periodicExpiry ft order now) := by
  have stays : ∀ d distance, Held horizon previous ft d distance →
      Held horizon previous (periodicExpiry ft order now) d distance := by
    rintro d distance ⟨entry, present, cost, lasting, young⟩
    refine ⟨entry, ?_, cost, lasting, young⟩
    have finite := (routes d entry present).finite
    -- The own route lasts to the horizon, and any other was heard at most two windows ago.
    have age : now - entry.lastUpdatedTime ≤ entryStaleAfter := by
      by_cases own : distance = 0
      · exact age_le before (lasting own)
      · exact age_le soon (Int.add_le_add_right (young (Nat.pos_of_ne_zero own)) _)
    rw [periodicExpiry_get, present, Option.filter_some, if_pos]
    simp [stale, finite, age]
  have old : ∀ d entry, (periodicExpiry ft order now).entryMap.get d = some entry →
      ft.entryMap.get d = some entry := by
    intro d entry present
    rw [periodicExpiry_get] at present
    exact (Option.filter_eq_some_iff.mp present).1
  constructor
  · intro d distance near away
    exact stays d distance (settling.reached d distance near away)
  · intro d entry present
    exact settling.renewed d entry (old d entry present)
  · intro ip heardIt d distance near finite behind away
    rcases settling.offered ip heardIt d distance near finite behind away with held | unheard
    · exact Or.inl (stays d _ held)
    · exact Or.inr unheard

/-- The end of an epoch in which all neighbours were heard. -/
theorem Settling.next (settling : Settling topology horizon epoch previous began heard host ft)
    (unique : topology.UniqueAddresses)
    (routes : ∀ d entry, ft.entryMap.get d = some entry → topology.RouteSound host d entry)
    (positive : 1 ≤ epoch) (all : ∀ link ∈ topology.links host, heard link.destIp) (clock : Time) :
    Settling topology horizon (epoch + 1) began clock (fun _ => False) host ft := by
  refine ⟨?_, fun _ _ _ _ _ _ none => none.elim, fun _ none => none.elim⟩
  intro d distance near away
  cases distance with
  | zero =>
      have here : 0 < reach epoch := by
        unfold reach
        omega
      obtain ⟨entry, present, cost, lasting, _⟩ := settling.reached d 0 here away
      exact ⟨entry, present, cost, lasting, fun less => nomatch less⟩
  | succ distance =>
      have most : reach (epoch + 1) ≤ 16 := Nat.min_le_left _ _
      have step := reach_succ epoch
      obtain ⟨link, member, behind⟩ := away.first
      rcases settling.offered link.destIp (all link member) d distance (by omega) (by omega) behind away with
        ⟨entry, present, cost, lasting, _⟩ | ⟨next, ⟨other, listed, rfl⟩, unheard, _⟩
      · refine ⟨entry, present, cost, lasting, fun _ => ?_⟩
        rw [← cost] at away
        obtain ⟨⟨other, listed, is⟩, _⟩ := away.next unique (routes d entry present) (by omega)
        exact settling.renewed d entry present away (by omega) (by omega) (is ▸ all other listed)
      · exact absurd (all other listed) unheard

end

end

/-! ## The messages -/

section
variable {Host : Type}

/-- What is known of a message from its stamp: it is right as far as the tables were when it was sent,
and a periodic update is complete that far. -/
structure Told (topology : Topology Host) (stamp : Stamp) (receiver sender : Host) (p : RipPacket) : Prop where
  announces : topology.Announces sender p
  right : Right topology (reach stamp.epoch) sender p.entries
  periodic : stamp.periodic = true → p.Accepted ∧ headerLen + p.marshal.length < 65536 ∧
    p.command = commandResponse ∧ Complete topology (reach stamp.epoch) receiver sender p.entries

structure Converging (topology : Topology Host) (horizon : Time) (timed : Timed Host) : Prop where
  started : 1 ≤ timed.epoch
  previous : timed.previous ≤ timed.began ∧ timed.began ≤ timed.previous + window
  clock : timed.began ≤ timed.clock ∧ timed.clock ≤ timed.began + window ∧ timed.clock ≤ horizon
  wired : ∀ host, topology.Wired host (timed.tables host)
  routes : ∀ host d entry, (timed.tables host).entryMap.get d = some entry → topology.RouteSound host d entry
  own : ∀ host, OwnNumber (timed.tables host)
  settling : ∀ host, Settling topology horizon timed.epoch timed.previous timed.began
    (fun ip => (host, ip) ∈ timed.heard) host (timed.tables host)
  transit : ∀ datagram ∈ timed.transit, timed.epoch ≤ datagram.1.epoch + 1 ∧
    Proper topology (Told topology datagram.1) datagram.2

variable {topology : Topology Host} {horizon : Time} {timed : Timed Host}

theorem Converging.fewer (converging : Converging topology horizon timed)
    {transit : List (Stamp × Host × List Byte)} (among : ∀ datagram ∈ transit, datagram ∈ timed.transit) :
    Converging topology horizon { timed with transit := transit } :=
  { converging with transit := fun datagram member => converging.transit datagram (among datagram member) }

theorem Converging.found (converging : Converging topology horizon timed) {k : Nat} (small : k ≤ 15)
    (enough : 2 * k < timed.epoch) {host : Host} {d : IntIP} {distance : Nat}
    (away : topology.Away distance host d) (near : distance ≤ k) :
    ∃ entry, (timed.tables host).entryMap.get d = some entry ∧ entry.cost.toNat = distance := by
  have within : distance < reach timed.epoch := by
    unfold reach
    omega
  obtain ⟨entry, present, cost, _⟩ := (converging.settling host).reached d distance within away
  exact ⟨entry, present, cost⟩

theorem Converging.start {net : Net Host} (routed : Routed topology net) {now : Time} (before : now ≤ horizon)
    (own : ∀ host, ∀ link ∈ topology.links host, ∃ entry, (net.tables host).entryMap.get link.ip = some entry ∧
      entry.cost = 0 ∧ horizon ≤ entry.lastUpdatedTime + entryStaleAfter) :
    Converging topology horizon (Timed.ofNet net now) := by
  -- Nothing is known of what is in transit at first, and only the own routes are known to be right.
  have window_nonneg : (0 : Int) ≤ window := by decide
  refine ⟨Nat.le_refl 1, ⟨Int.le_refl _, Int.le_add_of_nonneg_right window_nonneg⟩,
    ⟨Int.le_refl _, Int.le_add_of_nonneg_right window_nonneg, before⟩, routed.wired, routed.routes, routed.own,
    ?_, ?_⟩
  · intro host
    refine ⟨?_, fun _ _ _ _ _ _ none => (nomatch none), fun _ none => (nomatch none)⟩
    intro d distance near away
    have one : reach 1 = 1 := by decide
    change distance < reach 1 at near
    obtain rfl : distance = 0 := by omega
    obtain ⟨owner, ⟨link, member, rfl⟩, shortest⟩ := away
    obtain rfl := shortest.walk.eq_of_zero
    obtain ⟨entry, present, zero, lasting⟩ := own host link member
    exact ⟨entry, present, by rw [zero]; rfl, fun _ => lasting, fun positive => nomatch positive⟩
  · intro datagram member
    obtain ⟨old, listed, rfl⟩ := List.mem_map.mp member
    refine ⟨Nat.le_refl 1, (routed.transit old listed).mono ?_⟩
    intro sender p announces
    have none : reach 0 = 0 := by decide
    refine ⟨announces, fun _ _ _ _ near => ?_, fun periodic => (nomatch periodic)⟩
    change _ < reach 0 at near
    omega

theorem Settling.response_right {epoch : Nat} {previous began : Time} {heard : IntIP → Prop} {host : Host}
    {ft : FwdTable} (settling : Settling topology horizon epoch previous began heard host ft) (order : Order)
    (neighborIP : IntIP) : Right topology (reach epoch) host (response ft order neighborIP).entries := by
  intro entry member notInfinite distance near away
  obtain ⟨⟨d, route⟩, listed, rfl⟩ := List.mem_map.mp member
  obtain ⟨held, present, cost, _⟩ := settling.reached d distance near away
  cases present.symm.trans ((GoMap.mem_range _ _ _ _).mp listed)
  simp only [ripEntry] at notInfinite ⊢
  split at notInfinite
  · exact absurd rfl notInfinite
  · rename_i unpoisoned
    rw [if_neg unpoisoned]
    exact cost

theorem Converging.response_complete (converging : Converging topology horizon timed)
    (unique : topology.UniqueAddresses) {host : Host} {neighborIP : IntIP}
    (neighbor : topology.Neighbor host neighborIP) (order : Order) :
    Complete topology (reach timed.epoch) (topology.far host neighborIP) host
      (response (timed.tables host) order neighborIP).entries := by
  -- The route to an address that is further away from the neighbour does not lead there, so it is not
  -- poisoned.
  refine ⟨response_once _ order neighborIP, fun d distance near away further => ?_⟩
  obtain ⟨entry, present, rfl, _⟩ := (converging.settling host).reached d distance near away
  have sound : topology.Sound (Net.mk timed.tables timed.running []) :=
    ⟨converging.wired, converging.routes, fun _ none => nomatch none⟩
  obtain ⟨owner, owns, shortest⟩ := further
  obtain ⟨link, member, is⟩ := Topology.far_owns neighbor
  have unpoisoned := sound.not_poisoned unique member owns present shortest
  rw [is] at unpoisoned
  exact ⟨_, Topology.response_entry order present unpoisoned, rfl, rfl⟩

variable [Netstack] [Ipv4]

theorem Converging.told (converging : Converging topology horizon timed) (unique : topology.UniqueAddresses)
    (plain : topology.NoSelfLinks) {addresses : List IntIP} (few : addresses.length ≤ 64)
    (all : ∀ host, ∀ link ∈ topology.links host, link.ip ∈ addresses) {host : Host} {order : Order}
    {event : NodeEvent} {stamp : Stamp} (recent : timed.epoch ≤ stamp.epoch + 1)
    (happens : Happens topology (Told topology stamp) host event) :
    ∀ message ∈ (timed.tables host).messages order event, topology.Neighbor host message.1 ∧
      Told topology ⟨timed.epoch, decide (event = .periodicUpdate)⟩ (topology.far host message.1) host
        message.2 := by
  have hears : ∀ srcIP read, (timed.tables host).heard order event = some (srcIP, read) →
      topology.Neighbor host srcIP ∧ topology.Announces (topology.far host srcIP) read :=
    happens.announced (converging.own host) fun _ _ told => told.announces
  intro message emitted
  obtain ⟨neighbor, announces⟩ := Topology.messages_announce (converging.wired host) (converging.routes host)
    hears message emitted
  refine ⟨neighbor, announces, ?_, ?_⟩
  · -- a triggered update says nothing of an address whose route is right
    cases FwdTable.emits_of_mem emitted with
    | update k inter _ present up => exact (converging.settling host).response_right order inter.destIp
    | request k inter _ present => exact fun _ none => nomatch none
    | answer srcIP heard _ heardIs answers =>
        cases answers with
        | reply request => exact (converging.settling host).response_right order srcIP
        | trigger now destIP response listed =>
            intro updated member notInfinite distance near away
            obtain ⟨route, present, rfl, _⟩ := (converging.settling host).reached _ distance near away
            obtain ⟨heardFrom, p, told, _, cut, _⟩ := happens.heard (converging.own host) heardIs
            obtain ⟨rawMsg, read⟩ := FwdTable.heard_decoded heardIs
            have hearing : Hears topology (reach stamp.epoch) host srcIP heard.entries :=
              ⟨heardFrom, (told.announces.cut cut), fun entry among => told.right entry (cut.subset among),
                (unmarshal_some read).2.1⟩
            change _ < reach timed.epoch at near
            have bound := reach_le timed.epoch
            have stamped : reach (timed.epoch - 1) ≤ reach stamp.epoch := reach_mono (by omega)
            obtain ⟨_, silent⟩ := hearing.kept unique plain present (converging.routes host _ route present) away
              (by omega) now
            exact absurd rfl (silent updated member)
  · intro periodic
    have is : event = .periodicUpdate := of_decide_eq_true periodic
    subst is
    cases FwdTable.emits_of_mem emitted with
    | update k inter _ present up =>
        have sound : topology.Sound (Net.mk timed.tables timed.running []) :=
          ⟨converging.wired, converging.routes, fun _ none => nomatch none⟩
        have accepted := sound.response_accepted few all host order inter.destIp
        refine ⟨accepted, ?_, rfl, converging.response_complete unique neighbor order⟩
        have short : (response (timed.tables host) order inter.destIp).entries.length ≤ 64 :=
          (unmarshal_some accepted).1
        rw [marshal_length]
        simp only [headerLen]
        omega
    | request k inter is _ => cases is
    | answer srcIP heard _ heardIs _ => cases heardIs

/-! ## Steps -/

theorem handlePacketSafe_learns {ft : FwdTable} {order : Order} {now : Time} {buffer : List Byte}
    {srcIP : IntIP} {read : RipPacket} (hears : ft.heard order (.handlePacketSafe now buffer) = some (srcIP, read))
    (response : read.command ≠ commandRequest) :
    (ft.handlePacketSafe order now buffer).table = ft.learn srcIP now read.entries := by
  rcases ft.handlePacketSafe_fate order now buffer with
    ⟨hdr, msgBytes, fate, handled⟩ | ⟨_, _, fate, _⟩ | ⟨fate, _⟩
  · simp only [FwdTable.heard, fate] at hears
    obtain ⟨message, decoded, same⟩ := Option.map_eq_some_iff.mp hears
    cases same
    rw [handled]
    simp only [FwdTable.deliver, ripHandler, decoded, if_neg response]
    rfl
  · simp only [FwdTable.heard, fate] at hears
    cases hears
  · simp only [FwdTable.heard, fate] at hears
    cases hears

theorem Converging.arrival (converging : Converging topology horizon timed) (unique : topology.UniqueAddresses)
    (plain : topology.NoSelfLinks) {stamp : Stamp} (recent : timed.epoch ≤ stamp.epoch + 1) {host : Host}
    {packet : List Byte} (proper : Proper topology (Told topology stamp) (host, packet)) (order : Order) :
    Settling topology horizon timed.epoch timed.previous timed.began
      (fun ip => (host, ip) ∈ timed.heard ++ (timed.hearsFrom (some stamp) host order
        (.handlePacketSafe timed.clock packet)).toList.map (host, ·)) host
      ((timed.tables host).handlePacketSafe order timed.clock packet).table := by
  have happens : Happens topology (Told topology stamp) host (.handlePacketSafe timed.clock packet) :=
    .arrival packet timed.clock proper rfl
  have settling := converging.settling host
  cases hears : (timed.tables host).heard order (.handlePacketSafe timed.clock packet) with
  | none =>
      have unheard : timed.hearsFrom (some stamp) host order
          (.handlePacketSafe timed.clock packet) = none := by
        simp [Timed.hearsFrom, hears]
      rw [unheard, Option.toList_none, List.map_nil, List.append_nil]
      rcases (timed.tables host).handlePacketSafe_table order timed.clock packet with
        same | ⟨_, _, heardIs, _⟩
      · exact settling.congr (congrArg FwdTable.entryMap same)
      · cases hears.symm.trans heardIs
  | some message =>
      obtain ⟨srcIP, read⟩ := message
      obtain ⟨neighbor, p, told, command, cut, whole⟩ := happens.heard (converging.own host) hears
      by_cases request : read.command = commandRequest
      · -- a request is no periodic update
        have unheard : timed.hearsFrom (some stamp) host order
            (.handlePacketSafe timed.clock packet) = none := by
          unfold Timed.hearsFrom
          split
          · rename_i is
            have response := (told.periodic (by rw [Option.some.inj is])).2.2.1
            rw [← command, request] at response
            exact absurd response (by decide)
          · rfl
        rw [unheard, Option.toList_none, List.map_nil, List.append_nil]
        rcases (timed.tables host).handlePacketSafe_table order timed.clock packet with
          same | ⟨_, _, heardIs, other, _⟩
        · exact settling.congr (congrArg FwdTable.entryMap same)
        · cases hears.symm.trans heardIs
          exact absurd request other
      · rw [handlePacketSafe_learns hears request]
        obtain ⟨rawMsg, decoded⟩ := FwdTable.heard_decoded hears
        have stamped : reach (timed.epoch - 1) ≤ reach stamp.epoch := reach_mono (by omega)
        have right : Right topology (reach stamp.epoch) (topology.far host srcIP) read.entries :=
          fun entry among => told.right entry (cut.subset among)
        have hearing : Hears topology (reach (timed.epoch - 1)) host srcIP read.entries :=
          ⟨neighbor, told.announces.cut cut, right.mono stamped, (unmarshal_some decoded).2.1⟩
        refine settling.learn hearing unique plain (converging.routes host) ?_ converging.previous.1
          converging.clock.1
        intro ip member
        rcases List.mem_append.mp member with before | new
        · exact Or.inl before
        · obtain ⟨_, listed, same⟩ := List.mem_map.mp new
          cases same
          have now := Option.mem_toList.mp listed
          unfold Timed.hearsFrom at now
          split at now
          · rename_i is
            rw [hears] at now
            cases now
            obtain ⟨accepted, short, _, complete⟩ := told.periodic (by rw [Option.some.inj is])
            rw [whole accepted short]
            exact Or.inr ⟨rfl, complete.mono stamped⟩
          · cases now

variable [DecidableEq Host]

theorem Converging.perform (converging : Converging topology horizon timed) (unique : topology.UniqueAddresses)
    (plain : topology.NoSelfLinks) {addresses : List IntIP} (few : addresses.length ≤ 64)
    (all : ∀ host, ∀ link ∈ topology.links host, link.ip ∈ addresses) {host : Host} {order : Order}
    {event : NodeEvent} {stamp : Stamp} (recent : timed.epoch ≤ stamp.epoch + 1)
    (happens : Happens topology (Told topology stamp) host event)
    {transit : List (Stamp × Host × List Byte)} (among : ∀ datagram ∈ transit, datagram ∈ timed.transit)
    {heardNow : List IntIP}
    (settles : Settling topology horizon timed.epoch timed.previous timed.began
      (fun ip => (host, ip) ∈ timed.heard ++ heardNow.map (host, ·)) host
      ((timed.tables host).perform order event).table) :
    Converging topology horizon
      { timed with
        toStamped := Stamped.perform topology timed.stamp { timed.toStamped with transit := transit } host
          order event
        heard := timed.heard ++ heardNow.map (host, ·) } := by
  have change := (timed.tables host).perform_change order event
  have hears : ∀ srcIP read, (timed.tables host).heard order event = some (srcIP, read) →
      topology.Neighbor host srcIP ∧ topology.Announces (topology.far host srcIP) read :=
    happens.announced (converging.own host) fun _ _ told => told.announces
  -- Only the table of `host` changes.
  have updated : ∀ property : Host → FwdTable → Prop,
      property host ((timed.tables host).perform order event).table →
      (∀ other, other ≠ host → property other (timed.tables other)) →
      ∀ other, property other (Function.update timed.tables host
        ((timed.tables host).perform order event).table other) :=
    fun property here elsewhere => (Function.forall_update_iff timed.tables property).mpr ⟨here, elsewhere⟩
  refine ⟨converging.started, converging.previous, converging.clock, ?_, ?_, ?_, ?_, ?_⟩
  · exact updated topology.Wired ((converging.wired host).change change) fun other _ => converging.wired other
  · exact updated (fun other ft => ∀ d entry, ft.entryMap.get d = some entry → topology.RouteSound other d entry)
      (Topology.routes_change (converging.wired host) (converging.routes host) hears change)
      fun other _ => converging.routes other
  · exact updated (fun _ => OwnNumber) ((converging.own host).perform happens) fun other _ => converging.own other
  · refine updated (fun other => Settling topology horizon timed.epoch timed.previous timed.began
      (fun ip => (other, ip) ∈ timed.heard ++ heardNow.map (host, ·)) other) settles fun other elsewhere => ?_
    have unheard : ∀ ip, (other, ip) ∈ timed.heard ++ heardNow.map (host, ·) ↔ (other, ip) ∈ timed.heard := by
      intro ip
      simp [Ne.symm elsewhere]
    simp only [unheard]
    exact converging.settling other
  · intro datagram member
    rcases List.mem_append.mp member with earlier | new
    · exact converging.transit datagram (among datagram earlier)
    · obtain ⟨transmission, sent, rfl⟩ := List.mem_map.mp new
      refine ⟨Nat.le_succ _, ?_⟩
      exact happens.sent unique (converging.wired host)
        (converging.told unique plain few all recent happens) sent

theorem Converging.acts (converging : Converging topology horizon timed) (unique : topology.UniqueAddresses)
    (plain : topology.NoSelfLinks) {addresses : List IntIP} (few : addresses.length ≤ 64)
    (all : ∀ host, ∀ link ∈ topology.links host, link.ip ∈ addresses) {host : Host} {order : Order}
    {event : NodeEvent} (happens : Happens topology (Told topology ⟨timed.epoch, false⟩) host event)
    (settles : Settling topology horizon timed.epoch timed.previous timed.began
      (fun ip => (host, ip) ∈ timed.heard) host ((timed.tables host).perform order event).table) :
    Converging topology horizon
      { timed with toStamped := timed.toStamped.perform topology timed.stamp host order event } := by
  have nobody : timed.heard ++ ([] : List IntIP).map (host, ·) = timed.heard := by
    rw [List.map_nil, List.append_nil]
  rw [← nobody] at settles
  have performed := converging.perform unique plain few all (Nat.le_succ _) happens
    (fun _ member => member) settles
  rwa [nobody] at performed

theorem Converging.step (converging : Converging topology horizon timed) (unique : topology.UniqueAddresses)
    (plain : topology.NoSelfLinks) {addresses : List IntIP} (few : addresses.length ≤ 64)
    (all : ∀ host, ∀ link ∈ topology.links host, link.ip ∈ addresses) {event : TimedEvent Host}
    (timely : Timely topology horizon timed event) {after : Timed Host}
    (moves : timed.step topology event = some after) : Converging topology horizon after := by
  cases event with
  | wait now =>
      cases moves
      obtain ⟨later, within, before⟩ := timely
      exact { converging with clock := ⟨converging.clock.1.trans later, within, before⟩ }
  | nextEpoch =>
      cases moves
      obtain ⟨gone, heardAll⟩ := timely
      refine ⟨Nat.le_succ_of_le converging.started, ⟨converging.clock.1, converging.clock.2.1⟩, ?_,
        converging.wired, converging.routes, converging.own, ?_, ?_⟩
      · exact ⟨Int.le_refl _, Int.le_add_of_nonneg_right (by decide), converging.clock.2.2⟩
      · intro host
        -- All neighbours were heard, so what they have offered is now reached.
        have next := (converging.settling host).next unique (converging.routes host) converging.started
          (heardAll host) timed.clock
        simpa using next
      · intro datagram member
        have := gone datagram member
        exact ⟨Nat.succ_le_succ this, (converging.transit datagram member).2⟩
  | ip event =>
      obtain ⟨stamped, moved, rfl⟩ := Option.map_eq_some_iff.mp moves
      cases Stamped.step_moves moved with
      | call host order call running =>
          have silent : timed.heard ++ timed.hears (.call host order call) = timed.heard := List.append_nil _
          rw [silent]
          refine converging.acts unique plain few all (.call call timely rfl) ?_
          exact (converging.settling host).congr (by cases call <;> rfl)
      | task host order task running =>
          have silent : timed.heard ++ timed.hears (.net (.task host order task)) = timed.heard :=
            List.append_nil _
          rw [silent]
          refine converging.acts unique plain few all (.task task rfl) ?_
          cases task with
          | ripInit => exact (converging.settling host).congr rfl
          | periodicUpdate => exact (converging.settling host).congr rfl
          | periodicExpiry now =>
              have is : now = timed.clock := timely
              subst is
              refine (converging.settling host).expire (converging.routes host) converging.clock.2.2 ?_ order
              exact two_windows converging.previous.2 converging.clock.2.1
          | setInterfaceStateSafe id newState now => exact timely.elim
      | arrival index order now sent host packet found running =>
          have is : now = timed.clock := timely
          subst is
          obtain ⟨recent, proper⟩ := converging.transit _ (List.mem_of_getElem? found)
          rw [Timed.hears_deliver found running]
          exact converging.perform unique plain few all recent (.arrival packet timed.clock proper rfl)
            (fun _ member => List.mem_of_mem_eraseIdx member)
            (converging.arrival unique plain recent proper order)
      | nowhere event transit nothing among =>
          have silent : timed.heard ++ timed.hears event = timed.heard := by
            simp only [Timed.hears, nothing, Option.elim_none, List.append_nil]
          rw [silent]
          exact converging.fewer among

theorem converging_run (unique : topology.UniqueAddresses) (plain : topology.NoSelfLinks)
    {addresses : List IntIP} (few : addresses.length ≤ 64)
    (all : ∀ host, ∀ link ∈ topology.links host, link.ip ∈ addresses) {initially : Host → Time} {net : Net Host}
    (run : Run (ipStep topology) Honest (topology.start initially) net) {now : Time} (before : now ≤ horizon)
    (own : ∀ host, ∀ link ∈ topology.links host, ∃ entry, (net.tables host).entryMap.get link.ip = some entry ∧
      entry.cost = 0 ∧ horizon ≤ entry.lastUpdatedTime + entryStaleAfter)
    (onward : Run (Timed.step topology) (Timely topology horizon) (Timed.ofNet net now) timed) :
    Converging topology horizon timed := by
  refine Run.preserves (Converging topology horizon) ?_ onward (.start (routed_run unique run) before own)
  intro state event after converging timely moves
  exact converging.step unique plain few all timely moves

/-- From a state that the network has reached, with whatever losses, failures and traffic, in which all
configured interfaces are up and in the tables of their nodes: once links stay as they are, nodes hear
from each other in every epoch, datagrams get lost or arrive within an epoch after their own, and own
routes do not expire, after 2 k epochs every route to an address at a distance of at most k has this
distance as its cost and a next hop that is one nearer, and stays so; and after 30 epochs no other
routes are left. -/
theorem routes_converge (unique : topology.UniqueAddresses) (plain : topology.NoSelfLinks)
    {addresses : List IntIP} (few : addresses.length ≤ 64)
    (all : ∀ host, ∀ link ∈ topology.links host, link.ip ∈ addresses) {initially : Host → Time} {net : Net Host}
    (run : Run (ipStep topology) Honest (topology.start initially) net) {now : Time} (before : now ≤ horizon)
    (own : ∀ host, ∀ link ∈ topology.links host, ∃ entry, (net.tables host).entryMap.get link.ip = some entry ∧
      entry.cost = 0 ∧ horizon ≤ entry.lastUpdatedTime + entryStaleAfter)
    (onward : Run (Timed.step topology) (Timely topology horizon) (Timed.ofNet net now) timed) :
    (∀ k ≤ 15, 2 * k < timed.epoch → ∀ host d owner distance, topology.Owns owner d →
      Distance topology.Adjacent distance host owner → distance ≤ k →
      ∃ entry, (timed.tables host).entryMap.get d = some entry ∧ entry.cost.toNat = distance ∧
        (0 < distance → topology.Neighbor host entry.next ∧
          Distance topology.Adjacent (distance - 1) (topology.far host entry.next) owner)) ∧
    (30 < timed.epoch → ∀ host d entry, (timed.tables host).entryMap.get d = some entry →
      ∃ owner, topology.Owns owner d ∧ Distance topology.Adjacent entry.cost.toNat host owner) := by
  have converging := converging_run unique plain few all run before own onward
  constructor
  · intro k small enough host d owner distance owns shortest near
    have away : topology.Away distance host d := ⟨owner, owns, shortest⟩
    obtain ⟨entry, present, rfl⟩ := converging.found small enough away near
    refine ⟨entry, present, rfl, fun positive => ?_⟩
    obtain ⟨neighbor, owner', owns', nearer⟩ := away.next unique (converging.routes host d entry present) positive
    rw [unique.owner owns' owns] at nearer
    exact ⟨neighbor, nearer⟩
  · intro enough host d entry present
    -- No walk is shorter than the distance, and the right route is the only one in the table.
    have route := converging.routes host d entry present
    have most := route.cost_le
    obtain ⟨owner, owns, walk⟩ := route.walk
    obtain ⟨distance, below, shortest⟩ := walk.distance_le
    have away : topology.Away distance host d := ⟨owner, owns, shortest⟩
    obtain ⟨right, there, cost⟩ := converging.found (Nat.le_refl 15) enough away (by omega)
    cases present.symm.trans there
    rw [← cost] at shortest
    exact ⟨owner, owns, shortest⟩

end

-- At the start every interface has its own entry, stamped 48 hours ahead.
theorem start_lasting {Host : Type} (topology : Topology Host) (now : Host → Time) (host : Host) {horizon : Time}
    (lasts : horizon ≤ now host + hour * 48 + entryStaleAfter) :
    ∀ link ∈ topology.links host, ∃ entry,
      ((topology.start now).tables host).entryMap.get link.ip = some entry ∧ entry.cost = 0 ∧
        horizon ≤ entry.lastUpdatedTime + entryStaleAfter := by
  intro link member
  refine ⟨FwdTable.selfEntry link.ip (now host), ?_, rfl, lasts⟩
  exact ((FwdTable.initSafe_get (topology.links host) (now host)).2.2 link member).1

section
attribute [local instance] Netstack.standard Ipv4.linux

/-- Two epochs of the loop. All start RIP and send their tables, and what is triggered is lost. -/
def twoEpochs : List (TimedEvent LoopHost) :=
  let updates : List (TimedEvent LoopHost) := [LoopHost.a, .b, .c].map fun host =>
    .ip (.net (.task host Node.anyOrder .periodicUpdate))
  ([LoopHost.a, .b, .c].map fun host => TimedEvent.ip (.net (.task host Node.anyOrder .ripInit))) ++ updates ++
    List.replicate 12 (TimedEvent.ip (.net (.deliver 0 Node.anyOrder 0))) ++ [TimedEvent.nextEpoch] ++
    List.replicate 12 (TimedEvent.ip (.net (.lose 0))) ++ [TimedEvent.wait (5 * second)] ++ updates ++
    List.replicate 6 (TimedEvent.ip (.net (.deliver 0 Node.anyOrder (5 * second)))) ++ [TimedEvent.nextEpoch]

theorem twoEpochs_happen :
    (exec (Timed.step abcLoop) (Timely abcLoop (100 * second)) (Timed.ofNet (abcLoop.start fun _ => 0) 0)
      twoEpochs).isSome := by
  decide +kernel

def secondEpoch : Timed LoopHost :=
  (exec (Timed.step abcLoop) (Timely abcLoop (100 * second)) (Timed.ofNet (abcLoop.start fun _ => 0) 0)
    twoEpochs).get twoEpochs_happen

theorem secondEpoch_epoch : secondEpoch.epoch = 3 := by
  decide +kernel

theorem routes_converge_loop :
    Run (Timed.step abcLoop) (Timely abcLoop (100 * second)) (Timed.ofNet (abcLoop.start fun _ => 0) 0)
        secondEpoch ∧
      ∃ entry, (secondEpoch.tables .a).entryMap.get 0xc0a80004 = some entry ∧ entry.cost.toNat = 1 := by
  have reached : Run (Timed.step abcLoop) (Timely abcLoop (100 * second))
      (Timed.ofNet (abcLoop.start fun _ => 0) 0) secondEpoch := by
    unfold secondEpoch
    exact Run.ofSome twoEpochs_happen
  have plain : abcLoop.NoSelfLinks := by
    intro host
    cases host <;> decide
  have lasts : 100 * second ≤ 0 + hour * 48 + entryStaleAfter := by decide
  have own := fun host => start_lasting abcLoop (fun _ => 0) host lasts
  have adjacent : abcLoop.Adjacent .a .c := ⟨loopLink 1 5002 0xc0a80005 0xc0a80006, by decide, rfl⟩
  have away : Distance abcLoop.Adjacent 1 LoopHost.a .c := by
    refine ⟨.first adjacent (.here _), fun other walk => ?_⟩
    cases walk with
    | first _ _ => exact Nat.succ_pos _
  have owns : abcLoop.Owns .c 0xc0a80004 := ⟨loopLink 0 5001 0xc0a80004 0xc0a80003, by decide, rfl⟩
  obtain ⟨entry, present, cost, _⟩ := (routes_converge abcLoop_unique plain (by decide) abcLoop_addresses Run.refl
    (by decide) own reached).1 1 (by decide) (by rw [secondEpoch_epoch]; decide) .a 0xc0a80004 .c 1 owns away
    (Nat.le_refl 1)
  exact ⟨reached, entry, present, cost⟩

end

end IpTcp.Internet
