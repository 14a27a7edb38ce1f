import Mathlib.Data.Finset.Card
import IpTcp.Lib.Run
import IpTcp.Tcp.HandshakeCalls

/-! The ports of a node: which ones `VListen` accepts and which one `VConnect` gets. A port
enters `state.ports` when `VListen` accepts it and never leaves; the cursor of
`allocatePortUnsafe` steps over `state.ports` only and comes round after 65536 ports. -/

set_option autoImplicit false

namespace IpTcp.Tcp

open RingBuffer Lib

structure TcpState (Buffer : Type) where
  sockets : Sockets Buffer
  listeners : Finset UInt16
  myIP : IntIP
  ports : Finset UInt16
  nextUnusedPort : UInt16
  /-- History: the listeners that `VListen` has returned. -/
  opened : List TcpListener
  /-- History: the ports that `allocatePortUnsafe` has returned. -/
  allocated : List UInt16

def tcpInit (Buffer : Type) (myIP : IntIP) : TcpState Buffer where
  sockets := fun _ => none
  listeners := ∅
  myIP := myIP
  ports := ∅
  nextUnusedPort := 2000
  opened := []
  allocated := []

/-- The loop of `allocatePortUnsafe`. It passes every port within 65536 rounds, so that with
this much fuel only a loop without end returns nothing. -/
def unusedPort (ports : Finset UInt16) : (fuel : Nat) → UInt16 → Option UInt16
  | 0, _ => none
  | fuel + 1, nextUnusedPort =>
      if nextUnusedPort ∈ ports then unusedPort ports fuel (nextUnusedPort + 1) else some nextUnusedPort

/-- The section of a call under `state.lock`; for `VConnect` and `VAccept` up to where they
wait, with what `sendTcp` returns to them. -/
inductive PortEvent where
  | vListen (port : UInt16)
  | vConnect (foreignIP : IntIP) (foreignPort : UInt16) (isn : UInt32) (sendErr : Option String)
  | vAccept (l : TcpListener) (isn : UInt32) (request : Option TcpPacket) (sendErr : Option String)
  | vClose (l : TcpListener)
  | deleteConnSafe (conn : TcpConn)

namespace TcpState

variable {Buffer : Type}

def vListen (state : TcpState Buffer) (port : UInt16) : Except String TcpListener × TcpState Buffer :=
  if port ∈ state.ports then (.error "vlisten: port already in use", state)
  else
    let l : TcpListener := { ip := state.myIP, port := port }
    (.ok l, { state with
      ports := insert port state.ports
      listeners := insert port state.listeners
      opened := state.opened ++ [l] })

def allocatePortUnsafe (state : TcpState Buffer) : Option (UInt16 × TcpState Buffer) :=
  (unusedPort state.ports 65536 state.nextUnusedPort).map fun res =>
    (res, { state with nextUnusedPort := res + 1, allocated := state.allocated ++ [res] })

def vClose (state : TcpState Buffer) (l : TcpListener) : TcpState Buffer :=
  -- The sockets of the listener are shut down, which leaves them in the table.
  { state with listeners := state.listeners.erase l.port }

section
variable [RingBuffer Buffer]

def vConnect (state : TcpState Buffer) (foreignIP : IntIP) (foreignPort : UInt16) (isn : UInt32)
    (sendErr : Option String) : Option (TcpState Buffer) :=
  state.allocatePortUnsafe.map fun (localPort, state) =>
    let conn : TcpConn :=
      { localIP := state.myIP, localPort := localPort, foreignIP := foreignIP, foreignPort := foreignPort }
    { state with sockets := (connectRequest conn state.sockets isn sendErr).2 }

variable [Netstack]

def step (state : TcpState Buffer) : PortEvent → Option (TcpState Buffer)
  | .vListen port => some (state.vListen port).2
  | .vConnect foreignIP foreignPort isn sendErr => state.vConnect foreignIP foreignPort isn sendErr
  -- A listener is a value that `VListen` has returned.
  | .vAccept l isn request sendErr =>
      if l ∈ state.opened then
        some { state with sockets := (acceptRequest l state.sockets isn request sendErr).2 }
      else none
  | .vClose l => if l ∈ state.opened then some (state.vClose l) else none
  | .deleteConnSafe conn => some { state with sockets := state.sockets.deleteConnSafe conn }

end

def Accepts (state : TcpState Buffer) (port : UInt16) : Prop :=
  ∃ l, (state.vListen port).1 = .ok l

def Used (state : TcpState Buffer) (port : UInt16) : Prop :=
  ∃ conn, (state.sockets conn).isSome ∧ conn.localPort = port

def Listened (state : TcpState Buffer) (port : UInt16) : Prop :=
  ∃ l ∈ state.opened, l.port = port

theorem accepts_iff (state : TcpState Buffer) (port : UInt16) :
    state.Accepts port ↔ port ∉ state.ports := by
  unfold Accepts vListen
  split
  · rename_i known
    simp [known]
  · rename_i unknown
    simp [unknown]

end TcpState

/-! ## The cursor -/

/-- How far a port is ahead of another one, round past the last port. -/
def ahead (base port : UInt16) : Nat := (port - base).toNat

theorem ahead_lt (base port : UInt16) : ahead base port < 65536 := (port - base).toNat_lt

theorem ahead_self (base : UInt16) : ahead base base = 0 := by
  rw [ahead, UInt16.sub_self]
  rfl

theorem ahead_injective {base port other : UInt16} (same : ahead base port = ahead base other) :
    port = other := by
  have equal : port - base = other - base := UInt16.toNat_inj.mp same
  exact (UInt16.sub_left_inj _).mp equal

theorem ahead_add (base port : UInt16) (n : Nat) :
    ahead base (port + UInt16.ofNat n) = (ahead base port + n) % 65536 := by
  unfold ahead
  rw [UInt16.toNat_sub, UInt16.toNat_sub, UInt16.toNat_add, UInt16.toNat_ofNat']
  have bound := port.toNat_lt
  have bound' := base.toNat_lt
  omega

theorem add_ahead (base port : UInt16) : base + UInt16.ofNat (ahead base port) = port := by
  apply @ahead_injective base
  rw [ahead_add, ahead_self]
  have bound := ahead_lt base port
  omega

theorem turn_add (port : UInt16) (n : Nat) : port + 1 + UInt16.ofNat n = port + UInt16.ofNat (n + 1) := by
  apply UInt16.toNat_inj.mp
  simp only [UInt16.toNat_add, UInt16.toNat_ofNat', UInt16.reduceToNat]
  omega

/-- The loop stops at the first port that is not in the set. -/
theorem unusedPort_spec {ports : Finset UInt16} {fuel : Nat} {start res : UInt16}
    (found : unusedPort ports fuel start = some res) :
    res ∉ ports ∧ ∃ n < fuel, res = start + UInt16.ofNat n ∧
      ∀ i < n, start + UInt16.ofNat i ∈ ports := by
  induction fuel generalizing start with
  | zero => cases found
  | succ fuel ih =>
      rw [unusedPort] at found
      split at found
      · rename_i skipped
        obtain ⟨unused, n, bound, lands, passed⟩ := ih found
        refine ⟨unused, n + 1, by omega, ?_, fun i before => ?_⟩
        · rw [lands, turn_add]
        cases i with
        | zero => simpa using skipped
        | succ i =>
            rw [← turn_add]
            exact passed i (by omega)
      · rename_i unused
        cases found
        exact ⟨unused, 0, by omega, by simp, fun i before => absurd before (by omega)⟩

theorem unusedPort_finds {ports : Finset UInt16} {start : UInt16} {n : Nat}
    (unused : start + UInt16.ofNat n ∉ ports) (passed : ∀ i < n, start + UInt16.ofNat i ∈ ports)
    {fuel : Nat} (enough : n < fuel) : unusedPort ports fuel start = some (start + UInt16.ofNat n) := by
  induction n generalizing start fuel with
  | zero =>
      obtain ⟨fuel, rfl⟩ := Nat.exists_eq_succ_of_ne_zero (Nat.ne_of_gt enough)
      have here : start ∉ ports := by simpa using unused
      simp [unusedPort, here]
  | succ n ih =>
      obtain ⟨fuel, rfl⟩ := Nat.exists_eq_succ_of_ne_zero (Nat.ne_of_gt (Nat.zero_lt_of_lt enough))
      have skipped : start ∈ ports := by simpa using passed 0 (by omega)
      rw [← turn_add] at unused ⊢
      rw [unusedPort, if_pos skipped]
      refine ih unused (fun i before => ?_) (by omega)
      rw [turn_add]
      exact passed (i + 1) (by omega)

theorem exists_first_unused {ports : Finset UInt16} (start : UInt16) (room : ∃ port, port ∉ ports) :
    ∃ n < 65536, start + UInt16.ofNat n ∉ ports ∧ ∀ i < n, start + UInt16.ofNat i ∈ ports := by
  obtain ⟨port, free⟩ := room
  have reached : ∃ n, start + UInt16.ofNat n ∉ ports := ⟨ahead start port, by rwa [add_ahead]⟩
  refine ⟨Nat.find reached, ?_, Nat.find_spec reached, fun i before => ?_⟩
  · exact lt_of_le_of_lt (Nat.find_min' reached (by rwa [add_ahead])) (ahead_lt start port)
  · exact not_not.mp (Nat.find_min reached before)

theorem unusedPort_eq_none_iff (ports : Finset UInt16) (start : UInt16) :
    unusedPort ports 65536 start = none ↔ ∀ port, port ∈ ports := by
  constructor
  · intro stuck
    by_contra room
    obtain ⟨n, small, unused, passed⟩ := exists_first_unused start (not_forall.mp room)
    rw [unusedPort_finds unused passed small] at stuck
    cases stuck
  · intro full
    rw [Option.eq_none_iff_forall_ne_some]
    intro res found
    exact (unusedPort_spec found).1 (full res)

theorem covering_count {ports : Finset UInt16} {allocated : List UInt16}
    (covered : ∀ port, port ∈ allocated ∨ port ∈ ports) :
    65536 ≤ allocated.length + ports.card := by
  have injective : Set.InjOn UInt16.ofNat (Finset.range 65536) := by
    intro i small j small' same
    have equal := congrArg UInt16.toNat same
    simp only [Finset.coe_range, Set.mem_Iio, UInt16.toNat_ofNat'] at small small' equal
    omega
  calc 65536 = (Finset.range 65536).card := (Finset.card_range _).symm
    _ ≤ (allocated.toFinset ∪ ports).card :=
        Finset.card_le_card_of_injOn _ (fun i _ => by simpa using covered (UInt16.ofNat i)) injective
    _ ≤ allocated.toFinset.card + ports.card := Finset.card_union_le _ _
    _ ≤ allocated.length + ports.card := Nat.add_le_add_right allocated.toFinset_card_le _

theorem card_ports_le (ports : Finset UInt16) : ports.card ≤ 65536 :=
  calc ports.card ≤ (Finset.range 65536).card :=
        Finset.card_le_card_of_injOn UInt16.toNat (fun port _ => by simpa using port.toNat_lt)
          (fun _ _ _ _ same => UInt16.toNat_inj.mp same)
    _ = 65536 := Finset.card_range _

/-- In a round of the cursor from `base` on: it has handed out or stepped over exactly what is
behind it. -/
structure RoundFrom (base : UInt16) (ports : Finset UInt16) (allocated : List UInt16)
    (cursor : UInt16) : Prop where
  behind : ∀ port ∈ allocated, ahead base port < ahead base cursor
  passed : ∀ port, ahead base port < ahead base cursor → port ∈ allocated ∨ port ∈ ports

theorem roundFrom_start (base : UInt16) (ports : Finset UInt16) : RoundFrom base ports [] base where
  behind _ none := absurd none List.not_mem_nil
  passed port before := absurd before (by rw [ahead_self]; exact Nat.not_lt_zero _)

theorem RoundFrom.searched {base : UInt16} {ports : Finset UInt16} {allocated : List UInt16}
    {cursor : UInt16} (round : RoundFrom base ports allocated cursor) {n : Nat}
    (passed : ∀ k < n, cursor + UInt16.ofNat k ∈ ports) (port : UInt16)
    (before : ahead base port < ahead base cursor + n) : port ∈ allocated ∨ port ∈ ports := by
  rcases Nat.lt_or_ge (ahead base port) (ahead base cursor) with old | skipped
  · exact round.passed port old
  · -- the search has stepped over it
    have step := passed (ahead base port - ahead base cursor) (by omega)
    have same : cursor + UInt16.ofNat (ahead base port - ahead base cursor) = port := by
      apply @ahead_injective base
      rw [ahead_add]
      have := ahead_lt base port
      omega
    exact Or.inr (same ▸ step)

theorem RoundFrom.snoc {base : UInt16} {ports : Finset UInt16} {allocated : List UInt16}
    {cursor res : UInt16} (round : RoundFrom base ports allocated cursor)
    (onward : ahead base cursor ≤ ahead base res) (next : ahead base (res + 1) = ahead base res + 1)
    (covers : ∀ port, ahead base port ≤ ahead base res → port ∈ allocated ++ [res] ∨ port ∈ ports) :
    RoundFrom base ports (allocated ++ [res]) (res + 1) := by
  constructor
  · intro port member
    rw [next]
    rcases List.mem_append.mp member with old | new
    · have := round.behind port old
      omega
    · rw [List.mem_singleton.mp new]
      omega
  · intro port before
    exact covers port (by omega)

/-- While fewer than 65536 ports have been handed out or listened on, the next one is ahead of
the cursor, and the round goes on. -/
theorem RoundFrom.unusedPort {base : UInt16} {ports : Finset UInt16} {allocated : List UInt16}
    {cursor res : UInt16} (round : RoundFrom base ports allocated cursor)
    (room : allocated.length + ports.card < 65536)
    (found : unusedPort ports 65536 cursor = some res) :
    res ∉ allocated ∧ (allocated.length + 1 + ports.card < 65536 →
      RoundFrom base ports (allocated ++ [res]) (res + 1)) := by
  obtain ⟨unused, n, _, rfl, passed⟩ := unusedPort_spec found
  have bound := ahead_lt base cursor
  have covered := round.searched passed
  -- otherwise the search has passed every port
  have within : ahead base cursor + n < 65536 := by
    by_contra beyond
    have count := covering_count fun port => covered port (by have := ahead_lt base port; omega)
    omega
  have lands : ahead base (cursor + UInt16.ofNat n) = ahead base cursor + n := by
    rw [ahead_add, Nat.mod_eq_of_lt within]
  generalize cursor + UInt16.ofNat n = res at lands unused ⊢
  refine ⟨fun again => ?_, fun room => ?_⟩
  · have := round.behind res again
    omega
  -- and the new cursor is not back at the start
  have covers : ∀ port, ahead base port ≤ ahead base res → port ∈ allocated ++ [res] ∨ port ∈ ports := by
    intro port upTo
    rcases Nat.lt_or_eq_of_le upTo with before | same
    · exact (covered port (by omega)).imp_left (List.mem_append_left _)
    · exact Or.inl (by simp [ahead_injective same])
  have short : ahead base res + 1 < 65536 := by
    by_contra beyond
    have count := covering_count fun port => covers port (by have := ahead_lt base port; omega)
    rw [List.length_append, List.length_singleton] at count
    omega
  have next : ahead base (res + 1) = ahead base res + 1 := by
    have add := ahead_add base res 1
    rwa [Nat.mod_eq_of_lt short] at add
  exact round.snoc (by omega) next covers

theorem RoundFrom.listen {base : UInt16} {ports : Finset UInt16} {allocated : List UInt16} {cursor : UInt16}
    (round : RoundFrom base ports allocated cursor) (port : UInt16) :
    RoundFrom base (insert port ports) allocated cursor where
  behind := round.behind
  passed other before := (round.passed other before).imp_right (Finset.mem_insert_of_mem)

/-! ## Runs -/

namespace TcpState

variable {Buffer : Type}

theorem allocatePortUnsafe_eq_some {state after : TcpState Buffer} {res : UInt16}
    (allocates : state.allocatePortUnsafe = some (res, after)) :
    unusedPort state.ports 65536 state.nextUnusedPort = some res ∧
      after = { state with nextUnusedPort := res + 1, allocated := state.allocated ++ [res] } := by
  obtain ⟨found, searched, same⟩ := Option.map_eq_some_iff.mp allocates
  cases same
  exact ⟨searched, rfl⟩

def allocatePorts : (k : Nat) → TcpState Buffer → Option (List UInt16 × TcpState Buffer)
  | 0, state => some ([], state)
  | k + 1, state =>
      match state.allocatePortUnsafe with
      | none => none
      | some (port, state) => (allocatePorts k state).map fun (ports, state) => (port :: ports, state)

theorem allocatePorts_round {base : UInt16} {ports : Finset UInt16} (k : Nat) (state : TcpState Buffer)
    (same : state.ports = ports) (done : List UInt16) (distinct : done.Nodup)
    (round : 0 < k → RoundFrom base ports done state.nextUnusedPort)
    (room : done.length + k + ports.card ≤ 65536) :
    ∃ more after, allocatePorts k state = some (more, after) ∧ more.length = k ∧
      (done ++ more).Nodup ∧ (∀ port ∈ more, port ∉ ports) ∧ after.ports = ports := by
  -- By induction on the calls: the cursor stays in the round that it has started, as long as another call
  -- is to come.
  induction k generalizing state done with
  | zero => exact ⟨[], state, rfl, rfl, by simpa using distinct, by simp, same⟩
  | succ k ih =>
      have missing : ¬ ∀ port, port ∈ ports := by
        intro full
        have count := @covering_count ports [] fun port => Or.inr (full port)
        rw [List.length_nil] at count
        omega
      obtain ⟨res, found⟩ := Option.ne_none_iff_exists'.mp
        (mt (unusedPort_eq_none_iff ports state.nextUnusedPort).mp missing)
      obtain ⟨fresh, next⟩ := (round (Nat.succ_pos k)).unusedPort (by omega) found
      have allocates : state.allocatePortUnsafe = some (res, { state with
          nextUnusedPort := res + 1, allocated := state.allocated ++ [res] }) := by
        rw [allocatePortUnsafe, same, found]
        rfl
      have longer : (done ++ [res]).Nodup := by
        rw [List.nodup_append]
        refine ⟨distinct, List.nodup_singleton res, fun port member other last equal => ?_⟩
        rw [List.mem_singleton.mp last] at equal
        exact fresh (equal ▸ member)
      obtain ⟨more, after, calls, length, nodup, unused, kept⟩ := ih
        { state with nextUnusedPort := res + 1, allocated := state.allocated ++ [res] } same
        (done ++ [res]) longer (fun again => next (by omega))
        (by rw [List.length_append, List.length_singleton]; omega)
      refine ⟨res :: more, after, ?_, by rw [List.length_cons, length], ?_, ?_, kept⟩
      · simp only [allocatePorts, allocates, calls, Option.map_some]
      · simpa using nodup
      · intro port member
        rcases List.mem_cons.mp member with rfl | later
        · exact (unusedPort_spec found).1
        · exact unused port later

/-- Where not all ports are in `state.ports`, the search ends, at the first port from the cursor on
that is not; and as many calls as there are such ports return different ones. -/
theorem allocates_first_unused (state : TcpState Buffer) (room : ∃ port, port ∉ state.ports) :
    (∃ n < 65536, state.nextUnusedPort + UInt16.ofNat n ∉ state.ports ∧
      (∀ i < n, state.nextUnusedPort + UInt16.ofNat i ∈ state.ports) ∧
      (∀ fuel, n < fuel → unusedPort state.ports fuel state.nextUnusedPort =
        some (state.nextUnusedPort + UInt16.ofNat n)) ∧
      (state.allocatePortUnsafe.map Prod.fst) = some (state.nextUnusedPort + UInt16.ofNat n)) ∧
    ∀ k ≤ 65536 - state.ports.card, ∃ ports after, state.allocatePorts k = some (ports, after) ∧
      ports.length = k ∧ ports.Nodup ∧ (∀ port ∈ ports, port ∉ state.ports) ∧
      after.ports = state.ports := by
  constructor
  · obtain ⟨n, small, unused, passed⟩ := exists_first_unused state.nextUnusedPort room
    refine ⟨n, small, unused, passed, fun fuel enough => unusedPort_finds unused passed enough, ?_⟩
    rw [allocatePortUnsafe, unusedPort_finds unused passed small]
    rfl
  · intro k few
    have bound : state.ports.card ≤ 65536 := card_ports_le state.ports
    obtain ⟨ports, after, calls, length, nodup, unused, kept⟩ := allocatePorts_round k state rfl []
      List.nodup_nil (fun _ => roundFrom_start state.nextUnusedPort state.ports)
      (by rw [List.length_nil]; omega)
    exact ⟨ports, after, calls, length, by simpa using nodup, unused, kept⟩

def wrapping : TcpState Fifo := { tcpInit Fifo 1 with ports := {65535, 0}, nextUnusedPort := 65535 }

theorem allocates_first_unused_wrapping :
    wrapping.allocatePortUnsafe.map Prod.fst = some 1 ∧
      ∃ ports after, wrapping.allocatePorts 65534 = some (ports, after) ∧ ports.length = 65534 ∧
        ports.Nodup ∧ ∀ port ∈ ports, port ∉ wrapping.ports := by
  obtain ⟨_, calls⟩ := allocates_first_unused wrapping ⟨1, by decide⟩
  obtain ⟨ports, after, allocates, length, nodup, unused, _⟩ := calls 65534 (by decide)
  exact ⟨by decide, ports, after, allocates, length, nodup, unused⟩

structure Booked (state : TcpState Buffer) : Prop where
  listening : ∀ port ∈ state.listeners, port ∈ state.ports
  opened : ∀ port, port ∈ state.ports ↔ state.Listened port
  count : state.ports.card ≤ state.opened.length
  /-- A socket has the port of a listener or one that was handed out. -/
  used : ∀ port, state.Used port → port ∈ state.allocated ∨ port ∈ state.ports
  /-- The cursor is in its first round, which starts at 2000. -/
  round : state.allocated.length + state.opened.length < 65536 →
    RoundFrom 2000 state.ports state.allocated state.nextUnusedPort

theorem Booked.init (myIP : IntIP) : Booked (tcpInit Buffer myIP) where
  listening port member := absurd member (Finset.notMem_empty port)
  opened port := by simp [tcpInit, Listened]
  count := Nat.le_refl 0
  used port occupied := by
    obtain ⟨conn, present, _⟩ := occupied
    cases present
  round _ := roundFrom_start 2000 ∅

theorem Booked.sockets {state : TcpState Buffer} (booked : Booked state) {sockets : Sockets Buffer}
    (known : ∀ conn, (sockets conn).isSome → (state.sockets conn).isSome ∨
      conn.localPort ∈ state.allocated ∨ conn.localPort ∈ state.ports) :
    Booked { state with sockets := sockets } where
  listening := booked.listening
  opened := booked.opened
  count := booked.count
  used port occupied := by
    obtain ⟨conn, present, rfl⟩ := occupied
    rcases known conn present with old | new
    · exact booked.used _ ⟨conn, old, rfl⟩
    · exact new
  round := booked.round

theorem Booked.deleteConnSafe {state : TcpState Buffer} (booked : Booked state) (conn : TcpConn) :
    Booked { state with sockets := state.sockets.deleteConnSafe conn } := by
  refine booked.sockets fun other present => Or.inl ?_
  by_cases same : other = conn
  · simp [Sockets.deleteConnSafe, same] at present
  · simpa [Sockets.deleteConnSafe, same] using present

theorem Booked.store {state : TcpState Buffer} (booked : Booked state) (sock : TcpSocket Buffer)
    (known : sock.conn.localPort ∈ state.allocated ∨ sock.conn.localPort ∈ state.ports) :
    Booked { state with sockets := state.sockets.store sock } := by
  refine booked.sockets fun conn present => ?_
  by_cases same : conn = sock.conn
  · exact Or.inr (same ▸ known)
  · exact Or.inl (by simpa [Sockets.store, same] using present)

theorem Booked.vListen {state : TcpState Buffer} (booked : Booked state) (port : UInt16) :
    Booked (state.vListen port).2 := by
  unfold TcpState.vListen
  split
  · exact booked
  rename_i unknown
  constructor
  · intro other member
    rcases Finset.mem_insert.mp member with same | old
    · exact same ▸ Finset.mem_insert_self _ _
    · exact Finset.mem_insert_of_mem (booked.listening other old)
  · intro other
    have before := booked.opened other
    simp only [Listened] at before ⊢
    simp only [Finset.mem_insert, before, List.mem_append, List.mem_singleton, or_and_right,
      exists_or, exists_eq_left]
    rw [or_comm, @eq_comm _ other]
  · have count := booked.count
    simp only [Finset.card_insert_of_notMem unknown, List.length_append, List.length_singleton]
    omega
  · intro other occupied
    exact (booked.used other occupied).imp_right Finset.mem_insert_of_mem
  · intro room
    simp only [List.length_append, List.length_singleton] at room
    exact (booked.round (by omega)).listen port

theorem Booked.vClose {state : TcpState Buffer} (booked : Booked state) (l : TcpListener) :
    Booked (state.vClose l) where
  listening port member := booked.listening port (Finset.mem_of_mem_erase member)
  opened := booked.opened
  count := booked.count
  used := booked.used
  round := booked.round

/-- What a port is that `allocatePortUnsafe` returns. -/
theorem Booked.fresh {state after : TcpState Buffer} {res : UInt16} (booked : Booked state)
    (allocates : state.allocatePortUnsafe = some (res, after)) :
    res ∉ state.listeners ∧ (state.Used res → res ∈ state.allocated) ∧
      (state.allocated.length + state.opened.length < 65536 → res ∉ state.allocated) := by
  have found := (allocatePortUnsafe_eq_some allocates).1
  have unlistened := (unusedPort_spec found).1
  refine ⟨fun listening => unlistened (booked.listening res listening),
    fun occupied => (booked.used res occupied).resolve_right unlistened, fun room => ?_⟩
  have count := booked.count
  exact ((booked.round room).unusedPort (by omega) found).1

theorem Booked.allocatePortUnsafe {state after : TcpState Buffer} {res : UInt16} (booked : Booked state)
    (allocates : state.allocatePortUnsafe = some (res, after)) :
    Booked after ∧ res ∈ after.allocated := by
  obtain ⟨found, rfl⟩ := allocatePortUnsafe_eq_some allocates
  refine ⟨?_, by simp⟩
  constructor
  · exact booked.listening
  · exact booked.opened
  · exact booked.count
  · intro port occupied
    exact (booked.used port occupied).imp_left (List.mem_append_left _)
  · intro room
    have count := booked.count
    simp only [List.length_append, List.length_singleton] at room
    exact ((booked.round (by omega)).unusedPort (by omega) found).2 (by omega)

section
variable [RingBuffer Buffer] [Netstack]

theorem Booked.step {state after : TcpState Buffer} (event : PortEvent) (booked : Booked state)
    (steps : state.step event = some after) : Booked after := by
  cases event with
  | vListen port =>
      cases steps
      exact booked.vListen port
  | vConnect foreignIP foreignPort isn sendErr =>
      obtain ⟨⟨localPort, allocated⟩, allocates, rfl⟩ := Option.map_eq_some_iff.mp steps
      obtain ⟨booked, known⟩ := booked.allocatePortUnsafe allocates
      rcases connectRequest_cases
          { localIP := allocated.myIP, localPort := localPort, foreignIP := foreignIP,
            foreignPort := foreignPort } allocated.sockets isn sendErr with
        ⟨sock, waits, own, _⟩ | ⟨returned, stops, _⟩
      · dsimp only
        rw [waits]
        exact booked.store sock (Or.inl (own ▸ known))
      · dsimp only
        rw [stops]
        exact booked
  | vAccept l isn request sendErr =>
      simp only [TcpState.step, Option.ite_none_right_eq_some, Option.some.injEq] at steps
      obtain ⟨member, rfl⟩ := steps
      rcases acceptRequest_cases l state.sockets isn request sendErr with
        ⟨sock, waits, own, _⟩ | ⟨text, stops⟩
      · rw [waits]
        exact booked.store sock (Or.inr ((booked.opened _).mpr ⟨l, member, own.symm⟩))
      · rw [stops]
        exact booked
  | vClose l =>
      simp only [TcpState.step, Option.ite_none_right_eq_some, Option.some.injEq] at steps
      obtain ⟨_, rfl⟩ := steps
      exact booked.vClose l
  | deleteConnSafe conn =>
      cases steps
      exact booked.deleteConnSafe conn

/-- `VListen` accepts what is in use by no listener and no socket, except: a port whose listener
is closed and has no sockets left stays taken, and one that `VConnect` has given to a socket is
accepted. `VConnect` gets no listener's port; it gets one that a socket has only if it was
handed out before, and not before 65536 ports have been handed out or listened on. -/
theorem port_bookkeeping {myIP : IntIP} {state : TcpState Buffer}
    (run : Run TcpState.step anyEvent (tcpInit Buffer myIP) state) :
    (∀ port, (state.Accepts port ↔ port ∉ state.listeners ∧ ¬ state.Used port) ↔
      (state.Listened port → port ∈ state.listeners ∨ state.Used port) ∧
        (state.Used port → state.Listened port)) ∧
    (state.allocatePortUnsafe = none ↔ ∀ port, state.Listened port) ∧
    ∀ res after, state.allocatePortUnsafe = some (res, after) →
      res ∉ state.listeners ∧ (state.Used res → res ∈ state.allocated ∧
        65536 ≤ state.allocated.length + state.opened.length) := by
  have booked : Booked state :=
    run.preserves Booked (fun _ event _ booked _ steps => booked.step event steps) (Booked.init myIP)
  refine ⟨fun port => ?_, ?_, fun res after allocates => ?_⟩
  · rw [accepts_iff, booked.opened]
    have listening : port ∈ state.listeners → state.Listened port := fun member =>
      (booked.opened port).mp (booked.listening port member)
    tauto
  · rw [TcpState.allocatePortUnsafe, Option.map_eq_none_iff, unusedPort_eq_none_iff]
    exact forall_congr' booked.opened
  · obtain ⟨unlistened, again, room⟩ := booked.fresh allocates
    refine ⟨unlistened, fun occupied => ⟨again occupied, ?_⟩⟩
    by_contra few
    exact room (by omega) (again occupied)

end

section
attribute [local instance] Netstack.standard

def listening : TcpState Fifo := ((tcpInit Fifo 1).vListen 80).2

def firstConn : TcpConn where
  localIP := 1
  localPort := 2000
  foreignIP := 2
  foreignPort := 9000

def connecting : TcpState Fifo :=
  { listening with
    sockets := listening.sockets.store (makeTcpSocket .synSent firstConn 0 0)
    nextUnusedPort := 2001
    allocated := [2000] }

theorem port_bookkeeping_listening :
    Run TcpState.step anyEvent (tcpInit Fifo 1) connecting ∧
      (connecting.Accepts 80 ↔ 80 ∉ connecting.listeners ∧ ¬ connecting.Used 80) ∧
      ∃ after, connecting.allocatePortUnsafe = some (2001, after) ∧ 2001 ∉ connecting.listeners ∧
        ¬ connecting.Used 2001 := by
  have reached : exec TcpState.step anyEvent (tcpInit Fifo 1) [.vListen 80, .vConnect 2 9000 0 none] =
      some connecting := rfl
  obtain ⟨listens, _, connects⟩ := port_bookkeeping (Run.ofExec reached)
  have allocates : connecting.allocatePortUnsafe = some (2001, { connecting with
      nextUnusedPort := 2002, allocated := [2000, 2001] }) := rfl
  obtain ⟨unlistened, again⟩ := connects _ _ allocates
  refine ⟨Run.ofExec reached, (listens 80).mpr ⟨fun _ => Or.inl (by decide), fun _ => ?_⟩,
    _, allocates, unlistened, fun used => ?_⟩
  · exact ⟨{ ip := 1, port := 80 }, List.mem_singleton_self _, rfl⟩
  · exact absurd (again used).2 (by decide)

def relisten : TcpState Fifo := listening.vClose { ip := 1, port := 80 }

/-- The first connection is still there; `n` more have been opened to another port, and they
are gone. -/
structure Dialled (n : Nat) (state : TcpState Fifo) : Prop where
  run : Run TcpState.step anyEvent (tcpInit Fifo 1) state
  ports : state.ports = ∅
  cursor : state.nextUnusedPort = 2001 + UInt16.ofNat n
  first : (state.sockets firstConn).isSome

theorem unusedPort_empty (cursor : UInt16) : unusedPort ∅ 65536 cursor = some cursor :=
  if_neg (Finset.notMem_empty cursor)

theorem Dialled.once : ∃ state, Dialled 0 state := by
  have dials : exec TcpState.step anyEvent (tcpInit Fifo 1) [.vConnect 2 9000 0 none] =
      some { tcpInit Fifo 1 with
        sockets := (tcpInit Fifo 1).sockets.store (makeTcpSocket .synSent firstConn 0 0)
        nextUnusedPort := 2001
        allocated := [2000] } := rfl
  exact ⟨_, Run.ofExec dials, rfl, rfl, by simp [Sockets.store, makeTcpSocket, firstConn]⟩

theorem Dialled.again {n : Nat} {state : TcpState Fifo} (dialled : Dialled n state) :
    ∃ next, Dialled (n + 1) next := by
  let conn : TcpConn :=
    { localIP := state.myIP, localPort := state.nextUnusedPort, foreignIP := 2, foreignPort := 9001 }
  have other : firstConn ≠ conn := fun same => by simp [firstConn, conn] at same
  have dials : state.step (.vConnect 2 9001 0 none) = some { state with
      sockets := (connectRequest conn state.sockets 0 none).2
      nextUnusedPort := state.nextUnusedPort + 1
      allocated := state.allocated ++ [state.nextUnusedPort] } := by
    simp only [TcpState.step, TcpState.vConnect, TcpState.allocatePortUnsafe, dialled.ports,
      unusedPort_empty, Option.map_some, conn]
  have kept : ((connectRequest conn state.sockets 0 none).2 firstConn).isSome := by
    rcases connectRequest_cases conn state.sockets 0 none with ⟨sock, waits, own, _⟩ | ⟨_, stops, _⟩
    · rw [waits]
      simpa [Sockets.store, own, other] using dialled.first
    · rw [stops]
      exact dialled.first
  have gone := Relation.ReflTransGen.tail (dialled.run.tail trivial dials)
    ⟨PortEvent.deleteConnSafe conn, trivial, rfl⟩
  refine ⟨_, gone, dialled.ports, ?_, ?_⟩
  · change state.nextUnusedPort + 1 = _
    rw [dialled.cursor, UInt16.add_assoc, UInt16.ofNat_add]
    rfl
  · simpa [Sockets.deleteConnSafe, other] using kept

theorem exists_dialled (n : Nat) : ∃ state, Dialled n state := by
  induction n with
  | zero => exact Dialled.once
  | succ n ih =>
      obtain ⟨state, dialled⟩ := ih
      exact dialled.again

/-- A port that is free again is refused, one that a socket has is accepted, and after 65536
calls `VConnect` gets the port of a connection that is still open. -/
theorem ports_mixed_up :
    (Run TcpState.step anyEvent (tcpInit Fifo 1) relisten ∧
      ¬ relisten.Accepts 80 ∧ 80 ∉ relisten.listeners ∧ ¬ relisten.Used 80) ∧
    (∃ state : TcpState Fifo, Run TcpState.step anyEvent (tcpInit Fifo 1) state ∧
      state.Accepts 2000 ∧ state.Used 2000) ∧
    ∃ state after : TcpState Fifo, Run TcpState.step anyEvent (tcpInit Fifo 1) state ∧
      state.allocatePortUnsafe = some (2000, after) ∧ state.Used 2000 := by
  refine ⟨⟨?_, ?_, by decide, ?_⟩, ?_, ?_⟩
  · have reached : exec TcpState.step anyEvent (tcpInit Fifo 1)
        [.vListen 80, .vClose { ip := 1, port := 80 }] = some relisten := rfl
    exact Run.ofExec reached
  · rw [accepts_iff]
    decide
  · rintro ⟨conn, present, _⟩
    cases present
  · obtain ⟨state, dialled⟩ := exists_dialled 0
    refine ⟨state, dialled.run, (state.accepts_iff 2000).mpr ?_, firstConn, dialled.first, rfl⟩
    simp [dialled.ports]
  · obtain ⟨state, dialled⟩ := exists_dialled 65535
    have cursor : state.nextUnusedPort = 2000 := dialled.cursor.trans (by decide)
    have allocates : state.allocatePortUnsafe = some (2000,
        { state with nextUnusedPort := 2000 + 1, allocated := state.allocated ++ [2000] }) := by
      simp only [TcpState.allocatePortUnsafe, dialled.ports, unusedPort_empty, cursor, Option.map_some]
    exact ⟨state, _, dialled.run, allocates, firstConn, dialled.first, rfl⟩

end

end TcpState

end IpTcp.Tcp
