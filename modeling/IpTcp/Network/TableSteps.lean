import IpTcp.Network.HandlePacket

/-! What the operations on the forwarding table can do to its interfaces and routes: the loops of
`RIPHandler`, `PeriodicExpiry`, `SetInterfaceStateSafe` and `InitSafe`. -/

set_option autoImplicit false

namespace IpTcp.Rip

open Lib Network

/-! ## Responses -/

theorem toNat_succ {cost : UInt32} (small : cost ≤ infinity) : (cost + 1).toNat = cost.toNat + 1 := by
  have bound : cost.toNat ≤ 16 := UInt32.le_iff_toNat_le.mp small
  rw [UInt32.toNat_add]
  show (cost.toNat + 1) % 4294967296 = cost.toNat + 1
  omega

theorem response_once (ft : FwdTable) (order : Order) (neighborIP : IntIP) :
    ((response ft order neighborIP).entries.map RipEntry.destIP).Nodup := by
  have same : (response ft order neighborIP).entries.map RipEntry.destIP =
      (ft.entryMap.range order.entries).map Prod.fst := by
    rw [response, List.map_map]
    rfl
  rw [same]
  exact GoMap.range_keys_nodup _ _

section
variable {srcIP : IntIP} {now : Time}

theorem processEntry_get {routes : GoMap IntIP FwdTableEntry × List RipEntry} {entry : RipEntry}
    {d : IntIP} {found : FwdTableEntry} (present : (processEntry srcIP now routes entry).1.get d = some found) :
    routes.1.get d = some found ∨
      (d = entry.destIP ∧ found = createFwdTableEntry srcIP (entry.cost + 1) now ∧
        verdict routes.1 srcIP entry ≠ .ignore) := by
  unfold processEntry at present
  cases decided : verdict routes.1 srcIP entry with
  | ignore =>
      rw [decided] at present
      exact Or.inl present
  | update | refresh =>
      rw [decided] at present
      simp only [GoMap.get_insert] at present
      split at present
      · rename_i same
        cases present
        exact Or.inr ⟨same, rfl, by simp⟩
      · exact Or.inl present

theorem verdict_finite {entryMap : GoMap IntIP FwdTableEntry} {entry : RipEntry}
    (taken : verdict entryMap srcIP entry ≠ .ignore) : entry.cost + 1 < infinity := by
  unfold verdict at taken
  by_cases finite : entry.cost + 1 ≥ infinity
  · simp [finite] at taken
  · exact UInt32.not_le.mp finite

/-- A route after a response is an old one, or is announced in the response. -/
theorem processEntries_get {entryMap : GoMap IntIP FwdTableEntry} {entries : List RipEntry}
    {d : IntIP} {found : FwdTableEntry}
    (present : (processEntries srcIP now entryMap entries).1.get d = some found) :
    entryMap.get d = some found ∨
      ∃ entry ∈ entries, d = entry.destIP ∧ found = createFwdTableEntry srcIP (entry.cost + 1) now ∧
        entry.cost + 1 < infinity := by
  unfold processEntries at present
  generalize ([] : List RipEntry) = updated at present
  induction entries generalizing entryMap updated with
  | nil => exact Or.inl present
  | cons entry rest ih =>
      rw [List.foldl_cons] at present
      rcases ih _ present with earlier | ⟨other, member, announced⟩
      · rcases processEntry_get earlier with old | ⟨same, new, taken⟩
        · exact Or.inl old
        · exact Or.inr ⟨entry, List.mem_cons_self, same, new, verdict_finite taken⟩
      · exact Or.inr ⟨other, List.mem_cons_of_mem _ member, announced⟩

theorem verdict_congr {entryMap other : GoMap IntIP FwdTableEntry} {entry : RipEntry}
    (same : entryMap.get entry.destIP = other.get entry.destIP) :
    verdict entryMap srcIP entry = verdict other srcIP entry := by
  unfold verdict
  rw [same]

theorem processEntry_same (routes : GoMap IntIP FwdTableEntry × List RipEntry) (entry : RipEntry) :
    (processEntry srcIP now routes entry).1.get entry.destIP =
      if verdict routes.1 srcIP entry = .ignore then routes.1.get entry.destIP
      else some (createFwdTableEntry srcIP (entry.cost + 1) now) := by
  unfold processEntry
  cases verdict routes.1 srcIP entry with
  | ignore => simp
  | update | refresh => simp [GoMap.get_insert]

theorem processEntry_other {routes : GoMap IntIP FwdTableEntry × List RipEntry} {entry : RipEntry}
    {d : IntIP} (other : d ≠ entry.destIP) :
    (processEntry srcIP now routes entry).1.get d = routes.1.get d := by
  unfold processEntry
  cases verdict routes.1 srcIP entry with
  | ignore => rfl
  | update | refresh => simp [GoMap.get_insert, other]

theorem processEntry_loop {entryMap : GoMap IntIP FwdTableEntry} {d : IntIP} (entries : List RipEntry)
    (ignored : ∀ entry ∈ entries, entry.destIP = d → verdict entryMap srcIP entry = .ignore)
    (routes : GoMap IntIP FwdTableEntry × List RipEntry) (same : routes.1.get d = entryMap.get d) :
    (entries.foldl (processEntry srcIP now) routes).1.get d = entryMap.get d := by
  -- The loop over entries that for a destination are all ignored, from routes which are for it as they
  -- were, leaves its route alone.
  induction entries generalizing routes with
  | nil => exact same
  | cons entry rest ih =>
      rw [List.foldl_cons]
      apply ih fun other member => ignored other (List.mem_cons_of_mem _ member)
      by_cases about : entry.destIP = d
      · have nothing := ignored entry List.mem_cons_self about
        subst about
        rw [processEntry_same, verdict_congr same, if_pos nothing, same]
      · rw [processEntry_other fun equal => about equal.symm, same]

theorem processEntries_ignored {entryMap : GoMap IntIP FwdTableEntry} {entries : List RipEntry}
    {d : IntIP} (ignored : ∀ entry ∈ entries, entry.destIP = d → verdict entryMap srcIP entry = .ignore) :
    (processEntries srcIP now entryMap entries).1.get d = entryMap.get d :=
  processEntry_loop entries ignored (entryMap, []) rfl

/-- Where each destination comes once, its entry alone decides about its route. -/
theorem processEntries_nodup {entryMap : GoMap IntIP FwdTableEntry} {entries : List RipEntry}
    (once : (entries.map RipEntry.destIP).Nodup) {entry : RipEntry} (member : entry ∈ entries) :
    (processEntries srcIP now entryMap entries).1.get entry.destIP =
      if verdict entryMap srcIP entry = .ignore then entryMap.get entry.destIP
      else some (createFwdTableEntry srcIP (entry.cost + 1) now) := by
  obtain ⟨before, after, rfl⟩ := List.append_of_mem member
  rw [List.map_append, List.map_cons] at once
  obtain ⟨_, onceAfter, apart⟩ := List.nodup_append.mp once
  have earlier : ∀ other ∈ before, other.destIP ≠ entry.destIP := by
    intro other listed
    exact apart _ (List.mem_map_of_mem listed) _ List.mem_cons_self
  have later : ∀ other ∈ after, other.destIP ≠ entry.destIP := by
    intro other listed same
    have fresh := (List.nodup_cons.mp onceAfter).1
    rw [← same] at fresh
    exact fresh (List.mem_map_of_mem listed)
  -- neither what comes before the entry nor what comes after it is about the destination
  have reached : (before.foldl (processEntry srcIP now) (entryMap, [])).1.get entry.destIP =
      entryMap.get entry.destIP :=
    processEntries_ignored fun other listed same => absurd same (earlier other listed)
  rw [processEntries, List.foldl_append, List.foldl_cons,
    processEntry_loop after (fun other listed same => absurd same (later other listed)) _ rfl,
    processEntry_same, verdict_congr reached, reached]

end

/-! ## Expiry -/

theorem eraseAll_get (keys : List IntIP) (entryMap : GoMap IntIP FwdTableEntry) (d : IntIP) :
    (keys.foldl (fun entryMap destIP => entryMap.erase destIP) entryMap).get d =
      if d ∈ keys then none else entryMap.get d := by
  induction keys generalizing entryMap with
  | nil => simp
  | cons key rest ih =>
      rw [List.foldl_cons, ih, GoMap.get_erase]
      by_cases later : d ∈ rest
      · simp [later]
      · by_cases first : d = key <;> simp [later, first]

theorem periodicExpiry_get (ft : FwdTable) (order : Order) (now : Time) (d : IntIP) :
    (periodicExpiry ft order now).entryMap.get d =
      (ft.entryMap.get d).filter fun entry => !stale now entry := by
  unfold periodicExpiry
  rw [eraseAll_get]
  cases found : ft.entryMap.get d with
  | none => simp
  | some entry =>
      have listed : d ∈ ((ft.entryMap.range order.entries).filter
          fun route => stale now route.2).map Prod.fst ↔ stale now entry = true := by
        simp [GoMap.mem_range, found]
      by_cases old : stale now entry = true
      · rw [if_pos (listed.mpr old), Option.filter_some, old]
        rfl
      · rw [if_neg fun member => old (listed.mp member), Option.filter_some, Bool.not_eq_true _ |>.mp old]
        rfl

end IpTcp.Rip

namespace IpTcp.Network

open Lib Lib.Bytes Rip
open Tcp (Netstack)

def IpInterface.wired (inter : IpInterface) : IpInterface := { inter with state := .up }

namespace FwdTable

def Owns (ft : FwdTable) (ip : IntIP) : Prop := ∃ k inter, ft.ipInterfaces.get k = some inter ∧ inter.ip = ip
  deriving Decidable

/-- Interfaces are kept under the address at their other end. -/
def Keyed (ft : FwdTable) : Prop := ∀ k inter, ft.ipInterfaces.get k = some inter → inter.destIp = k

def SameLinks (ft after : FwdTable) : Prop :=
  ∀ k, (after.ipInterfaces.get k).map (·.wired) = (ft.ipInterfaces.get k).map (·.wired)

theorem getInterfaceByIp_some {ft : FwdTable} {order : Order} {ip : IntIP} {inter : IpInterface}
    (found : ft.getInterfaceByIp order ip = some inter) :
    inter.ip = ip ∧ ∃ k, ft.ipInterfaces.get k = some inter := by
  have same := List.find?_some found
  have member := List.mem_of_find?_eq_some found
  obtain ⟨⟨k, other⟩, listed, rfl⟩ := List.mem_map.mp member
  exact ⟨by simpa using same, k, (GoMap.mem_range _ _ _ _).mp listed⟩

theorem getInterfaceByIp_none {ft : FwdTable} {order : Order} {ip : IntIP} :
    ft.getInterfaceByIp order ip = none ↔ ¬ ft.Owns ip := by
  simp only [getInterfaceByIp, List.find?_eq_none, List.mem_map, Owns]
  constructor
  · rintro absent ⟨k, inter, present, same⟩
    exact absent inter ⟨(k, inter), (GoMap.mem_range _ _ _ _).mpr present, rfl⟩ (by simpa using same)
  · rintro absent inter ⟨⟨k, other⟩, listed, rfl⟩ same
    exact absent ⟨k, other, (GoMap.mem_range _ _ _ _).mp listed, by simpa using same⟩

section
variable {ft after : FwdTable}

theorem SameLinks.refl (ft : FwdTable) : SameLinks ft ft := fun _ => rfl

theorem SameLinks.trans {third : FwdTable} (first : SameLinks ft after) (second : SameLinks after third) :
    SameLinks ft third :=
  fun k => (second k).trans (first k)

theorem SameLinks.backward (same : SameLinks ft after) {k : IntIP} {inter : IpInterface}
    (present : after.ipInterfaces.get k = some inter) :
    ∃ before, ft.ipInterfaces.get k = some before ∧ before.wired = inter.wired := by
  have mapped := same k
  rw [present, Option.map_some] at mapped
  exact Option.map_eq_some_iff.mp mapped.symm

theorem SameLinks.forward (same : SameLinks ft after) {k : IntIP} {inter : IpInterface}
    (present : ft.ipInterfaces.get k = some inter) :
    ∃ later, after.ipInterfaces.get k = some later ∧ later.wired = inter.wired := by
  have mapped := same k
  rw [present, Option.map_some] at mapped
  exact Option.map_eq_some_iff.mp mapped

theorem wired_ip {inter other : IpInterface} (same : inter.wired = other.wired) :
    inter.ip = other.ip ∧ inter.destIp = other.destIp ∧ inter.id = other.id := by
  simp only [IpInterface.wired, IpInterface.mk.injEq] at same
  exact ⟨same.2.2.2.2.1, same.2.2.2.2.2, same.1⟩

theorem SameLinks.keyed (same : SameLinks ft after) (keyed : ft.Keyed) : after.Keyed := by
  intro k inter present
  obtain ⟨before, found, wired⟩ := same.backward present
  rw [← (wired_ip wired).2.1]
  exact keyed k before found

theorem SameLinks.owns (same : SameLinks ft after) (ip : IntIP) : after.Owns ip ↔ ft.Owns ip := by
  constructor
  · rintro ⟨k, inter, present, rfl⟩
    obtain ⟨before, found, wired⟩ := same.backward present
    exact ⟨k, before, found, (wired_ip wired).1⟩
  · rintro ⟨k, inter, present, rfl⟩
    obtain ⟨later, found, wired⟩ := same.forward present
    exact ⟨k, later, found, (wired_ip wired).1⟩

end

/-! ## `InitSafe` and `SetInterfaceStateSafe` -/

def changed (id : Int) (newState : InterfaceState) (inter : IpInterface) : IpInterface :=
  if inter.id = id then { inter with state := newState } else inter

theorem changed_wired (id : Int) (newState : InterfaceState) (inter : IpInterface) :
    (changed id newState inter).wired = inter.wired := by
  unfold changed
  split <;> rfl

section
variable {id : Int} {newState : InterfaceState} {now : Time}

theorem setState_interfaces (ft : FwdTable) (k : IntIP) (inter : IpInterface) (other : IntIP) :
    (setState id newState now ft (k, inter)).ipInterfaces.get other =
      if inter.id = id ∧ other = k then some { inter with state := newState }
      else ft.ipInterfaces.get other := by
  unfold setState
  by_cases same : inter.id = id
  · simp only [same, if_true, GoMap.get_insert, true_and]
  · simp [same]

theorem setStates_interfaces {ft : FwdTable} (links : List (IntIP × IpInterface))
    (nodup : (links.map Prod.fst).Nodup)
    (members : ∀ link ∈ links, ft.ipInterfaces.get link.1 = some link.2) (current : FwdTable)
    (ahead : ∀ k ∈ links.map Prod.fst, current.ipInterfaces.get k = ft.ipInterfaces.get k)
    (done : ∀ k, k ∉ links.map Prod.fst →
      current.ipInterfaces.get k = (ft.ipInterfaces.get k).map (changed id newState)) (k : IntIP) :
    (links.foldl (setState id newState now) current).ipInterfaces.get k =
      (ft.ipInterfaces.get k).map (changed id newState) := by
  -- The loop over the interfaces, from a table in which those to come are still as they were and the others
  -- are done.
  induction links generalizing current with
  | nil => exact done k (by simp)
  | cons link rest ih =>
      obtain ⟨key, inter⟩ := link
      obtain ⟨fresh, nodup⟩ := List.nodup_cons.mp nodup
      have here : ft.ipInterfaces.get key = some inter := members _ List.mem_cons_self
      rw [List.foldl_cons]
      refine ih nodup (fun link member => members link (List.mem_cons_of_mem _ member)) _ ?_ ?_
      · intro other member
        have different : other ≠ key := fun same => fresh (same ▸ member)
        rw [setState_interfaces, if_neg fun both => different both.2]
        exact ahead other (List.mem_cons_of_mem _ member)
      · intro other missing
        rw [setState_interfaces]
        by_cases same : other = key
        · rw [same, here, Option.map_some, changed]
          by_cases matching : inter.id = id
          · rw [if_pos ⟨matching, rfl⟩, if_pos matching]
          · rw [if_neg fun both => matching both.1, if_neg matching, ← here]
            exact ahead key List.mem_cons_self
        · rw [if_neg fun both => same both.2]
          refine done other fun member => ?_
          rcases List.mem_cons.mp member with equal | later
          · exact same equal
          · exact missing later

theorem setInterfaceStateSafe_interfaces (ft : FwdTable) (order : Order) (k : IntIP) :
    (ft.setInterfaceStateSafe id newState now order).ipInterfaces.get k =
      (ft.ipInterfaces.get k).map (changed id newState) := by
  have keys : ∀ k, k ∈ (ft.ipInterfaces.range order.interfaces).map Prod.fst ↔
      ∃ inter, ft.ipInterfaces.get k = some inter := by
    simp [GoMap.mem_range]
  refine setStates_interfaces _ (GoMap.range_keys_nodup _ _) ?_ ft (fun _ _ => rfl) ?_ k
  · rintro ⟨key, inter⟩ member
    exact (GoMap.mem_range _ _ _ _).mp member
  · intro key missing
    cases found : ft.ipInterfaces.get key with
    | none => rfl
    | some inter => exact absurd ((keys key).mpr ⟨inter, found⟩) missing

def Switches (id : Int) (newState : InterfaceState) (inter : IpInterface) : Prop :=
  inter.id = id ∧ inter.state ≠ newState
  deriving Decidable

def Removes (id : Int) (d : IntIP) (inter : IpInterface) : Prop :=
  Switches id .down inter ∧ (d = inter.destIp ∨ d = inter.ip)
  deriving Decidable

def Restores (id : Int) (d : IntIP) (inter : IpInterface) : Prop := Switches id .up inter ∧ d = inter.ip
  deriving Decidable

theorem setState_down (ft : FwdTable) (link : IntIP × IpInterface) (d : IntIP) :
    (setState id .down now ft link).entryMap.get d =
      if Removes id d link.2 then none else ft.entryMap.get d := by
  unfold setState Removes Switches
  by_cases matching : link.2.id = id
  · by_cases same : InterfaceState.down = link.2.state
    · simp [matching, ← same]
    · simp only [matching, same, if_true, if_false, GoMap.get_erase]
      by_cases own : d = link.2.ip
      · simp [own, Ne.symm same]
      · by_cases far : d = link.2.destIp
        · simp [far, Ne.symm same]
        · simp [own, far]
  · simp [matching]

theorem setState_up (ft : FwdTable) (link : IntIP × IpInterface) (d : IntIP) :
    (setState id .up now ft link).entryMap.get d =
      if Restores id d link.2 then some (selfEntry d now) else ft.entryMap.get d := by
  unfold setState Restores Switches
  by_cases matching : link.2.id = id
  · by_cases same : InterfaceState.up = link.2.state
    · simp [matching, ← same]
    · simp only [matching, same, if_true, if_false, GoMap.get_insert]
      by_cases own : d = link.2.ip
      · simp [own, Ne.symm same]
      · simp [own]
  · simp [matching]

theorem setStates_get {set : Option FwdTableEntry} {d : IntIP} {hits : IpInterface → Prop}
    [DecidablePred hits]
    (turn : ∀ ft link, (setState id newState now ft link).entryMap.get d =
      if hits link.2 then set else ft.entryMap.get d)
    (links : List (IntIP × IpInterface)) (ft : FwdTable) :
    (links.foldl (setState id newState now) ft).entryMap.get d =
      if ∃ link ∈ links, hits link.2 then set else ft.entryMap.get d := by
  -- A loop whose turns each give a route the value `set` or leave it alone.
  induction links generalizing ft with
  | nil => simp
  | cons link rest ih =>
      rw [List.foldl_cons, ih, turn]
      simp only [List.exists_mem_cons_iff]
      by_cases later : ∃ other ∈ rest, hits other.2
      · simp [later]
      · simp [later]

/-- The routes after `SetInterfaceStateSafe`, which do not depend on its order. -/
theorem setInterfaceStateSafe_routes {set : Option FwdTableEntry} {d : IntIP} {hits : IpInterface → Prop}
    [DecidablePred hits]
    (turn : ∀ ft link, (setState id newState now ft link).entryMap.get d =
      if hits link.2 then set else ft.entryMap.get d) (ft : FwdTable) (order : Order) :
    (ft.setInterfaceStateSafe id newState now order).entryMap.get d =
      if ∃ k inter, ft.ipInterfaces.get k = some inter ∧ hits inter then set
      else ft.entryMap.get d := by
  have members : (∃ link ∈ ft.ipInterfaces.range order.interfaces, hits link.2) ↔
      ∃ k inter, ft.ipInterfaces.get k = some inter ∧ hits inter := by
    simp only [Prod.exists, GoMap.mem_range]
  rw [setInterfaceStateSafe, setStates_get turn]
  simp only [members]

theorem setInterfaceStateSafe_takesDown (ft : FwdTable) (order : Order) (d : IntIP) :
    (ft.setInterfaceStateSafe id .down now order).entryMap.get d =
      if ∃ k inter, ft.ipInterfaces.get k = some inter ∧ Removes id d inter then none
      else ft.entryMap.get d :=
  setInterfaceStateSafe_routes (fun ft link => setState_down ft link d) ft order

theorem setInterfaceStateSafe_takesUp (ft : FwdTable) (order : Order) (d : IntIP) :
    (ft.setInterfaceStateSafe id .up now order).entryMap.get d =
      if ∃ k inter, ft.ipInterfaces.get k = some inter ∧ Restores id d inter then some (selfEntry d now)
      else ft.entryMap.get d :=
  setInterfaceStateSafe_routes (fun ft link => setState_up ft link d) ft order

/-- Where a route after `SetInterfaceStateSafe` comes from. -/
theorem setInterfaceStateSafe_get {ft : FwdTable} {order : Order} {d : IntIP} {entry : FwdTableEntry}
    (present : (ft.setInterfaceStateSafe id newState now order).entryMap.get d = some entry) :
    (ft.entryMap.get d = some entry ∧ (newState = .down → ∀ k inter, ft.ipInterfaces.get k = some inter →
        Switches id newState inter → d ≠ inter.destIp ∧ d ≠ inter.ip)) ∨
      (newState = .up ∧ ∃ k inter, ft.ipInterfaces.get k = some inter ∧ Switches id newState inter ∧
        d = inter.ip ∧ entry = selfEntry d now) := by
  cases newState with
  | down =>
      rw [setInterfaceStateSafe_takesDown] at present
      split at present
      · cases present
      · rename_i kept
        refine Or.inl ⟨present, fun _ k inter found switches => ?_⟩
        exact ⟨fun far => kept ⟨k, inter, found, switches, Or.inl far⟩,
          fun own => kept ⟨k, inter, found, switches, Or.inr own⟩⟩
  | up =>
      rw [setInterfaceStateSafe_takesUp] at present
      split at present
      · rename_i restored
        obtain ⟨k, inter, found, switches, own⟩ := restored
        cases present
        exact Or.inr ⟨rfl, k, inter, found, switches, own, rfl⟩
      · exact Or.inl ⟨present, fun down => by cases down⟩

end

theorem initSafe_get (links : List IpInterface) (now : Time) :
    (∀ k inter, (initSafe links now).ipInterfaces.get k = some inter → inter ∈ links ∧ inter.destIp = k) ∧
    (∀ d entry, (initSafe links now).entryMap.get d = some entry →
      entry = selfEntry d now ∧ ∃ link ∈ links, link.ip = d) ∧
    (∀ link ∈ links, (initSafe links now).entryMap.get link.ip = some (selfEntry link.ip now) ∧
      ∃ other ∈ links, (initSafe links now).ipInterfaces.get link.destIp = some other ∧
        other.destIp = link.destIp) := by
  unfold initSafe
  -- On the loop over the links, of which a later one overwrites an earlier one at the same address.
  induction links using List.reverseRecOn with
  | nil => simp [GoMap.get_empty]
  | append_singleton rest link ih =>
      obtain ⟨interfaces, routes, present⟩ := ih
      rw [List.foldl_concat]
      refine ⟨?_, ?_, ?_⟩
      · intro k inter found
        simp only [addLink, GoMap.get_insert] at found
        split at found
        · rename_i same
          cases found
          exact ⟨by simp, same.symm⟩
        · obtain ⟨member, keyed⟩ := interfaces k inter found
          exact ⟨List.mem_append_left _ member, keyed⟩
      · intro d entry found
        simp only [addLink, GoMap.get_insert] at found
        split at found
        · rename_i same
          cases found
          exact ⟨by rw [same], link, by simp, same.symm⟩
        · obtain ⟨self, other, member, own⟩ := routes d entry found
          exact ⟨self, other, List.mem_append_left _ member, own⟩
      · intro other member
        simp only [addLink, GoMap.get_insert]
        refine ⟨?_, ?_⟩
        · split
          · rename_i same
            rw [same]
          · rename_i different
            rcases List.mem_append.mp member with earlier | last
            · exact (present other earlier).1
            · exact absurd (congrArg IpInterface.ip (List.mem_singleton.mp last)) different
        · split
          · rename_i same
            exact ⟨link, by simp, rfl, same.symm⟩
          · rename_i different
            rcases List.mem_append.mp member with earlier | last
            · obtain ⟨_, found, listed, kept, keyed⟩ := present other earlier
              exact ⟨found, List.mem_append_left _ listed, kept, keyed⟩
            · exact absurd (congrArg IpInterface.destIp (List.mem_singleton.mp last)) different

theorem Keyed.initSafe (links : List IpInterface) (now : Time) : (initSafe links now).Keyed :=
  fun k inter present => ((initSafe_get links now).1 k inter present).2

end FwdTable

end IpTcp.Network
