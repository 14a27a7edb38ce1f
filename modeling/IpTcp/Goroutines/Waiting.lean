import IpTcp.Goroutines.Points

/-! Goroutines that wait for locks do not wait in a circle. There is no order that all of them
follow: `VClose` of a listener takes the locks of its sockets under `state.lock`, and `HandlePacket`
takes `state.lock` under two locks of a socket. It does so only for a socket whose FIN has been
acknowledged, whose `HandleWrites` has returned; the locks of such a socket come before
`state.lock`, and those of the others after it. -/

set_option autoImplicit false

namespace IpTcp.Goroutines

open Lib Lib.Code

variable {Sock Call : Type}

/-! ### What is gained by a move -/

section
variable (sock : Sock) (flags : Flags)

theorem handlePacket_gains (point : PacketPoint) : ∀ after ∈ handlePacket flags point,
    ∀ held ∈ after.2.holds sock, held ∈ point.holds sock ∨ point.wants sock = some held := by
  fun_cases handlePacket flags point <;> grind [PacketPoint.holds, PacketPoint.wants]

theorem handleWrites_gains (point : WriterPoint) : ∀ after ∈ handleWrites flags point,
    ∀ held ∈ after.2.holds sock, held ∈ point.holds sock ∨ point.wants sock = some held := by
  fun_cases handleWrites flags point <;> grind [WriterPoint.holds, WriterPoint.wants]

theorem handleRetransmission_gains (point : RetransmissionPoint) :
    ∀ after ∈ handleRetransmission flags point,
    ∀ held ∈ after.2.holds sock, held ∈ point.holds sock ∨ point.wants sock = some held := by
  fun_cases handleRetransmission flags point <;>
    grind [RetransmissionPoint.holds, RetransmissionPoint.wants]

theorem vRead_gains (point : ReadPoint) : ∀ after ∈ vRead flags point,
    ∀ held ∈ after.2.holds sock, held ∈ point.holds sock ∨ point.wants sock = some held := by
  fun_cases vRead flags point <;> grind [ReadPoint.holds, ReadPoint.wants]

theorem vWrite_gains (point : WritePoint) : ∀ after ∈ vWrite flags point,
    ∀ held ∈ after.2.holds sock, held ∈ point.holds sock ∨ point.wants sock = some held := by
  fun_cases vWrite flags point <;> grind [WritePoint.holds, WritePoint.wants]

omit sock in
theorem vShutdown_idle {after : Flags × ShutdownPoint} (goes : after ∈ vShutdown flags .idle) :
    ∃ sdType, flags.shutdown sdType = some after.1 ∧
      after.2 = if sdType = .read then .reading else .writing sdType := by
  obtain ⟨sdType, -, some⟩ := List.mem_filterMap.mp goes
  obtain ⟨flags, shut, rfl⟩ := Option.map_eq_some_iff.mp some
  exact ⟨sdType, shut, rfl⟩

theorem vShutdown_gains (point : ShutdownPoint) : ∀ after ∈ vShutdown flags point,
    ∀ held ∈ after.2.holds sock, held ∈ point.holds sock ∨ point.wants sock = some held := by
  intro after goes held holds
  cases point with
  | idle =>
      obtain ⟨sdType, -, same⟩ := vShutdown_idle flags goes
      grind [ShutdownPoint.holds]
  | writing | written | reading | read =>
      grind [vShutdown, ShutdownPoint.holds, ShutdownPoint.wants]

end

theorem listenerVClose_gains [DecidableEq Sock] (socks : List Sock) (sockets : Sock → Flags)
    (point : ClosePoint Sock) : ∀ after ∈ listenerVClose socks sockets point,
    ∀ held ∈ after.2.holds, held ∈ point.holds ∨ point.wants = some held := by
  fun_cases listenerVClose socks sockets point <;> grind [ClosePoint.holds, ClosePoint.wants]

theorem handlePacketSafe_gains (point : IpPoint) : ∀ after ∈ handlePacketSafe point,
    ∀ held ∈ (after.holds : List (Held Sock)), held ∈ point.holds ∨ point.wants = some held := by
  fun_cases handlePacketSafe point <;> grind [IpPoint.holds, IpPoint.wants]

theorem brief_gains (locks : List (Held Sock)) (point : BriefPoint Sock) :
    ∀ after ∈ brief locks point,
    ∀ held ∈ after.holds, held ∈ point.holds ∨ point.wants = some held := by
  fun_cases brief locks point <;> grind [BriefPoint.holds, BriefPoint.wants]

theorem onSocket_mem {Local : Type} [DecidableEq Sock] {sock : Sock}
    {moves : Flags → Local → List (Flags × Local)} {sockets : Sock → Flags} {point : Local}
    {after : (Sock → Flags) × Local} (goes : after ∈ onSocket sock moves sockets point) :
    ∃ flags, (flags, after.2) ∈ moves (sockets sock) point ∧
      after.1 = Function.update sockets sock flags := by
  obtain ⟨⟨flags, next⟩, member, rfl⟩ := List.mem_map.mp goes
  exact ⟨flags, member, rfl⟩

theorem quietly_mem {Local : Type} {moves : Local → List Local} {sockets : Sock → Flags} {point : Local}
    {after : (Sock → Flags) × Local} (goes : after ∈ quietly moves sockets point) :
    after.2 ∈ moves point ∧ after.1 = sockets := by
  obtain ⟨next, member, rfl⟩ := List.mem_map.mp goes
  exact ⟨member, rfl⟩

theorem next_gains [DecidableEq Sock] (socks : Call → List Sock) (goroutine : Goroutine Sock Call)
    (sockets : Sock → Flags) (point : Point goroutine) :
    ∀ after ∈ next socks goroutine sockets point, ∀ held ∈ holds goroutine after.2,
      held ∈ holds goroutine point ∨ wants goroutine point = some held := by
  intro after goes
  cases goroutine with
  | handlePacket sock call =>
      obtain ⟨flags, member, -⟩ := onSocket_mem goes
      exact handlePacket_gains sock _ _ _ member
  | handleWrites sock =>
      obtain ⟨flags, member, -⟩ := onSocket_mem goes
      exact handleWrites_gains sock _ _ _ member
  | handleRetransmission sock =>
      obtain ⟨flags, member, -⟩ := onSocket_mem goes
      exact handleRetransmission_gains sock _ _ _ member
  | vRead sock call =>
      obtain ⟨flags, member, -⟩ := onSocket_mem goes
      exact vRead_gains sock _ _ _ member
  | vWrite sock call =>
      obtain ⟨flags, member, -⟩ := onSocket_mem goes
      exact vWrite_gains sock _ _ _ member
  | vShutdown sock call =>
      obtain ⟨flags, member, -⟩ := onSocket_mem goes
      exact vShutdown_gains sock _ _ _ member
  | listenerVClose call => exact listenerVClose_gains _ _ _ _ goes
  | handlePacketSafe call => exact handlePacketSafe_gains _ _ (quietly_mem goes).1
  | tcp call => exact brief_gains _ _ _ (quietly_mem goes).1
  | table call => exact brief_gains _ _ _ (quietly_mem goes).1

def code [DecidableEq Sock] (socks : Call → List Sock) :
    Code (Goroutine Sock Call) (Lock Sock) (Sock → Flags) Point where
  holds := holds
  wants := wants
  next := next socks
  gains := next_gains socks

/-! ### The end of a socket -/

def PacketPoint.Ends (point : PacketPoint) : Prop :=
  point = .closing ∨ point = .received ∨ point = .deleting ∨ point = .deleted ∨ point = .unlisting

structure PacketMove (flags : Flags) (point : PacketPoint) (after : Flags × PacketPoint) : Prop where
  lastAck : after.1.connState = .lastAck → flags.connState = .lastAck
  closed : after.1.connState = .closed →
    flags.connState = .closed ∨ flags.connState = .lastAck ∧ point = .removing
  stays : flags.connState = .closed → after.1.connState = .closed
  ends : after.2.Ends → point.Ends ∨ after.1.connState = .closed
  receiving : after.1.receiving = false → flags.receiving = false ∨ point = .closing
  closing : after.2 = .closing → flags.connState = .lastAck ∧ after.1.receiving = flags.receiving

theorem handlePacket_move {flags : Flags} {point : PacketPoint} {after : Flags × PacketPoint}
    (goes : after ∈ handlePacket flags point) : PacketMove flags point after := by
  revert goes
  fun_cases handlePacket flags point <;> intro goes <;> constructor <;> grind [PacketPoint.Ends]

structure WriterMove (flags : Flags) (point : WriterPoint) (after : Flags × WriterPoint) : Prop where
  runs : point ≠ .over
  lastAck : after.1.connState = .lastAck → flags.connState = .lastAck ∨ after.2 = .finDone
  closed : after.1.connState = .closed → flags.connState = .closed
  receiving : after.1.receiving = flags.receiving
  returns : point = .finDone → after.2 = .over

theorem handleWrites_move {flags : Flags} {point : WriterPoint} {after : Flags × WriterPoint}
    (goes : after ∈ handleWrites flags point) : WriterMove flags point after := by
  revert goes
  fun_cases handleWrites flags point <;> intro goes <;> constructor <;> grind

/-- A socket whose FIN is on its way or acknowledged has no `HandleWrites` any more, and what
closes a socket is received. -/
structure Sane (flags : Flags) (writer : WriterPoint) (packets : Call → PacketPoint) : Prop where
  lastAck : flags.connState = .lastAck → writer = .finDone ∨ writer = .over
  closed : flags.connState = .closed → writer = .over
  ends : ∀ call, (packets call).Ends → flags.connState = .closed
  receiving : flags.receiving = false → flags.connState = .closed
  closing : ∀ call, packets call = .closing → flags.receiving = true

section
variable {flags : Flags} {writer : WriterPoint} {packets : Call → PacketPoint}

theorem Sane.quiet (sane : Sane flags writer packets) {other : Flags}
    (state : other.connState = flags.connState) (receiving : other.receiving = flags.receiving) :
    Sane other writer packets := by
  constructor
  · exact fun last => sane.lastAck (state ▸ last)
  · exact fun closed => sane.closed (state ▸ closed)
  · exact fun call ends => state.trans (sane.ends call ends)
  · exact fun stopped => state.trans (sane.receiving (receiving ▸ stopped))
  · exact fun call closing => receiving.trans (sane.closing call closing)

theorem Sane.writes (sane : Sane flags writer packets) {after : Flags × WriterPoint}
    (move : WriterMove flags writer after) : Sane after.1 after.2 packets := by
  -- `HandleWrites` has returned before a socket is closed, so that one it moves on is open.
  have open' : flags.connState ≠ .closed := fun closed => move.runs (sane.closed closed)
  constructor
  · intro last
    rcases move.lastAck last with before | done
    · rcases sane.lastAck before with done | ended
      · exact .inr (move.returns done)
      · exact absurd ended move.runs
    · exact .inl done
  · exact fun closed => absurd (move.closed closed) open'
  · exact fun call ends => absurd (sane.ends call ends) open'
  · exact fun stopped => absurd (sane.receiving (move.receiving ▸ stopped)) open'
  · exact fun call closing => absurd (sane.ends call (.inl closing)) open'

theorem Sane.handles [DecidableEq Call] (sane : Sane flags writer packets) {call : Call}
    {after : Flags × PacketPoint} (move : PacketMove flags (packets call) after)
    (free : packets call = .removing → writer ≠ .finDone)
    (alone : ∀ other, packets call = .closing → packets other = .closing → other = call) :
    Sane after.1 writer (Function.update packets call after.2) := by
  constructor
  · exact fun last => sane.lastAck (move.lastAck last)
  · intro closed
    rcases move.closed closed with before | ⟨last, removing⟩
    · exact sane.closed before
    · exact (sane.lastAck last).resolve_left (free removing)
  · refine (Function.forall_update_iff packets fun _ (point : PacketPoint) => point.Ends → _).mpr
      ⟨?_, ?_⟩
    · intro ends
      rcases move.ends ends with before | closed
      · exact move.stays (sane.ends call before)
      · exact closed
    · exact fun other _ ends => move.stays (sane.ends other ends)
  · intro stopped
    rcases move.receiving stopped with before | closing
    · exact move.stays (sane.receiving before)
    · exact move.stays (sane.ends call (.inl closing))
  · refine (Function.forall_update_iff packets fun _ (point : PacketPoint) => point = .closing → _).mpr
      ⟨?_, ?_⟩
    · intro closing
      obtain ⟨last, same⟩ := move.closing closing
      rw [same]
      by_contra stopped
      rw [Bool.not_eq_true] at stopped
      rw [sane.receiving stopped] at last
      cases last
    · -- Had this call made the reader stop, both would stand at the same send.
      intro other different closing
      by_contra stopped
      rw [Bool.not_eq_true] at stopped
      rcases move.receiving stopped with before | here
      · rw [sane.closing other closing] at before
        cases before
      · exact different (alone other here closing)

end

/-! ### Every run -/

abbrev State (Sock Call : Type) := Threads (Sock → Flags) (Point : Goroutine Sock Call → Type)

def State.writer (state : State Sock Call) (sock : Sock) : WriterPoint :=
  state.points (.handleWrites sock)

def State.packets (state : State Sock Call) (sock : Sock) (call : Call) : PacketPoint :=
  state.points (.handlePacket sock call)

def Flags.Alike (one other : Flags) : Prop :=
  one.connState = other.connState ∧ one.receiving = other.receiving

theorem Flags.shutdown_alike {flags after : Flags} {sdType : Tcp.ShutdownType}
    (shut : flags.shutdown sdType = some after) : after.Alike flags := by
  cases sdType <;>
  · obtain ⟨-, same⟩ := Option.ite_none_right_eq_some.mp shut
    cases same
    exact ⟨rfl, rfl⟩

theorem handleRetransmission_alike {point : RetransmissionPoint} (flags : Flags) :
    ∀ after ∈ handleRetransmission flags point, after.1.Alike flags := by
  fun_cases handleRetransmission flags point <;> grind [Flags.Alike]

theorem vRead_alike {point : ReadPoint} (flags : Flags) :
    ∀ after ∈ vRead flags point, after.1.Alike flags := by
  fun_cases vRead flags point <;> grind [Flags.Alike]

theorem vWrite_alike {point : WritePoint} (flags : Flags) :
    ∀ after ∈ vWrite flags point, after.1.Alike flags := by
  fun_cases vWrite flags point <;> grind [Flags.Alike]

theorem vShutdown_alike {point : ShutdownPoint} (flags : Flags) :
    ∀ after ∈ vShutdown flags point, after.1.Alike flags := by
  intro after goes
  cases point with
  | idle =>
      obtain ⟨sdType, shut, -⟩ := vShutdown_idle flags goes
      exact Flags.shutdown_alike shut
  | writing | written | reading | read => grind [vShutdown, Flags.Alike]

section
variable [DecidableEq Sock] {sockets : Sock → Flags}

theorem update_alike {sock : Sock} {flags : Flags} (alike : flags.Alike (sockets sock)) (other : Sock) :
    (Function.update sockets sock flags other).Alike (sockets other) := by
  by_cases same : other = sock
  · subst same
    rw [Function.update_self]
    exact alike
  · rw [Function.update_of_ne same]
    exact ⟨rfl, rfl⟩

theorem onSocket_alike {Local : Type} {sock : Sock} {moves : Flags → Local → List (Flags × Local)}
    {point : Local} (alike : ∀ flags, ∀ after ∈ moves flags point, after.1.Alike flags)
    {after : (Sock → Flags) × Local} (goes : after ∈ onSocket sock moves sockets point) (other : Sock) :
    (after.1 other).Alike (sockets other) := by
  obtain ⟨flags, member, same⟩ := onSocket_mem goes
  rw [same]
  exact update_alike (alike _ _ member) other

theorem listenerVClose_alike {served : List Sock} {point : ClosePoint Sock}
    {after : (Sock → Flags) × ClosePoint Sock} (goes : after ∈ listenerVClose served sockets point)
    (sock : Sock) : (after.1 sock).Alike (sockets sock) := by
  revert goes
  fun_cases listenerVClose served sockets point with
  | case4 other rest flags shut =>
      intro goes
      rw [List.mem_singleton.mp goes]
      exact update_alike (Flags.shutdown_alike shut) sock
  | _ =>
      intro goes
      rw [List.mem_singleton.mp goes]
      exact ⟨rfl, rfl⟩

theorem next_alike (socks : Call → List Sock) {goroutine : Goroutine Sock Call} {point : Point goroutine}
    {after : (Sock → Flags) × Point goroutine} (goes : after ∈ next socks goroutine sockets point)
    (packet : ∀ sock call, goroutine ≠ .handlePacket sock call)
    (writes : ∀ sock, goroutine ≠ .handleWrites sock) (sock : Sock) :
    (after.1 sock).Alike (sockets sock) := by
  cases goroutine with
  | handlePacket other call => exact absurd rfl (packet other call)
  | handleWrites other => exact absurd rfl (writes other)
  | handleRetransmission other => exact onSocket_alike handleRetransmission_alike goes sock
  | vRead other call => exact onSocket_alike vRead_alike goes sock
  | vWrite other call => exact onSocket_alike vWrite_alike goes sock
  | vShutdown other call => exact onSocket_alike vShutdown_alike goes sock
  | listenerVClose call => exact listenerVClose_alike goes sock
  | handlePacketSafe call | tcp call | table call =>
      rw [(quietly_mem goes).2]
      exact ⟨rfl, rfl⟩

end

structure Orderly [DecidableEq Sock] (socks : Call → List Sock) (state : State Sock Call) : Prop where
  exclusive : (code socks).Exclusive state
  sane : ∀ sock, Sane (state.data sock) (state.writer sock) (state.packets sock)

section
variable [DecidableEq Sock] {socks : Call → List Sock} {state : State Sock Call}

/-- Two calls of `HandlePacket` are not both past its first line. -/
theorem Orderly.alone (orderly : Orderly socks state) {sock : Sock} {call other : Call}
    (closing : state.packets sock call = .closing) (closingToo : state.packets sock other = .closing) :
    other = call := by
  have same := orderly.exclusive (.handlePacket sock other) (.handlePacket sock call) (.var sock) .exclusive
    (by change _ ∈ (state.packets sock other).holds sock; rw [closingToo]; exact List.mem_cons_self)
    (by change _ ∈ (state.packets sock call).holds sock; rw [closing]; exact List.mem_cons_self)
  cases same
  rfl

theorem Orderly.free (orderly : Orderly socks state) {sock : Sock} {call : Call}
    (removing : state.packets sock call = .removing) : state.writer sock ≠ .finDone := by
  intro done
  have same := orderly.exclusive (.handlePacket sock call) (.handleWrites sock) (.var sock) .exclusive
    (by change _ ∈ (state.packets sock call).holds sock; rw [removing]; exact List.mem_cons_self)
    (by change _ ∈ (state.writer sock).holds sock; rw [done]; exact List.mem_cons_self)
  cases same

variable [DecidableEq Call]

theorem writer_elsewhere (data : Sock → Flags) {goroutine : Goroutine Sock Call} (point : Point goroutine)
    {sock : Sock} (other : goroutine ≠ .handleWrites sock) :
    State.writer ⟨data, Function.update state.points goroutine point⟩ sock = state.writer sock :=
  Function.update_of_ne other.symm _ _

theorem writer_update (data : Sock → Flags) (sock : Sock)
    (point : Point (.handleWrites sock : Goroutine Sock Call)) :
    State.writer ⟨data, Function.update state.points (.handleWrites sock) point⟩ sock = point :=
  Function.update_self _ _ _

theorem packets_elsewhere (data : Sock → Flags) {goroutine : Goroutine Sock Call} (point : Point goroutine)
    {sock : Sock} (other : ∀ call, goroutine ≠ .handlePacket sock call) :
    State.packets ⟨data, Function.update state.points goroutine point⟩ sock = state.packets sock := by
  funext call
  exact Function.update_of_ne (other call).symm _ _

theorem packets_update (data : Sock → Flags) (sock : Sock) (call : Call)
    (point : Point (.handlePacket sock call : Goroutine Sock Call)) :
    State.packets ⟨data, Function.update state.points (.handlePacket sock call) point⟩ sock =
      Function.update (state.packets sock) call (point : PacketPoint) := by
  funext other
  by_cases same : other = call
  · subst same
    rw [Function.update_self]
    exact Function.update_self _ _ _
  · rw [Function.update_of_ne same]
    refine Function.update_of_ne (fun equal => same ?_) _ _
    cases equal
    rfl

theorem Orderly.step [Fintype Sock] [Fintype Call] (orderly : Orderly socks state)
    {event : Goroutine Sock Call × Nat} {after : State Sock Call}
    (moves : (code socks).step state event = some after) : Orderly socks after := by
  obtain ⟨goroutine, choice⟩ := event
  obtain ⟨-, data, point, goes, rfl⟩ := step_moves moves
  refine ⟨orderly.exclusive.step moves, fun sock => ?_⟩
  have sane := orderly.sane sock
  cases goroutine with
  | handlePacket other call =>
      obtain ⟨flags, member, same⟩ := onSocket_mem goes
      dsimp only at same
      subst same
      rw [writer_elsewhere _ _ (fun equal => by cases equal)]
      by_cases here : sock = other
      · subst here
        rw [packets_update]
        dsimp only
        rw [Function.update_self]
        exact sane.handles (handlePacket_move member) orderly.free fun _ => orderly.alone
      · rw [packets_elsewhere _ _ (fun _ equal => by cases equal; exact here rfl)]
        dsimp only
        rw [Function.update_of_ne here]
        exact sane
  | handleWrites other =>
      obtain ⟨flags, member, same⟩ := onSocket_mem goes
      dsimp only at same
      subst same
      rw [packets_elsewhere _ _ (fun _ equal => by cases equal)]
      by_cases here : sock = other
      · subst here
        rw [writer_update]
        dsimp only
        rw [Function.update_self]
        exact sane.writes (handleWrites_move member)
      · rw [writer_elsewhere _ _ (fun equal => by cases equal; exact here rfl)]
        dsimp only
        rw [Function.update_of_ne here]
        exact sane
  | _ =>
      -- No other goroutine changes the state of a socket or stops its reader.
      rw [writer_elsewhere _ _ (fun equal => by cases equal),
        packets_elsewhere _ _ (fun _ equal => by cases equal)]
      obtain ⟨connState, receiving⟩ := next_alike socks goes (fun _ _ => nofun) (fun _ => nofun) sock
      exact sane.quiet connState receiving

end

/-! ### The order of the locks -/

/-- The locks of a closed socket come before `state.lock`. -/
def rank (sockets : Sock → Flags) : Lock Sock → Nat
  | .var sock => if (sockets sock).connState = .closed then 0 else 4
  | .inFlightList sock => if (sockets sock).connState = .closed then 1 else 5
  | .state => 2
  | .writeBuffer _ => 3
  | .readBuffer _ => 6
  | .fwdTable => 7

theorem rank_le (sockets : Sock → Flags) (lock : Lock Sock) : rank sockets lock ≤ 7 := by
  fun_cases rank sockets lock <;> omega

section
variable {sockets : Sock → Flags} {sock : Sock} {wanted : Held Sock}

theorem PacketPoint.ordered {point : PacketPoint} (ends : point.Ends → (sockets sock).connState = .closed)
    (wants : point.wants sock = some wanted) :
    ∀ held ∈ point.holds sock, rank sockets held.1 < rank sockets wanted.1 := by
  fun_cases PacketPoint.wants sock point <;>
    grind [PacketPoint.holds, PacketPoint.wants, PacketPoint.Ends, rank]

theorem WriterPoint.ordered {point : WriterPoint}
    (closed : (sockets sock).connState = .closed → point = .over)
    (wants : point.wants sock = some wanted) :
    ∀ held ∈ point.holds sock, rank sockets held.1 < rank sockets wanted.1 := by
  fun_cases WriterPoint.wants sock point <;> grind [WriterPoint.holds, WriterPoint.wants, rank]

theorem RetransmissionPoint.ordered {point : RetransmissionPoint} (wants : point.wants sock = some wanted) :
    ∀ held ∈ point.holds sock, rank sockets held.1 < rank sockets wanted.1 := by
  fun_cases RetransmissionPoint.wants sock point <;>
    grind [RetransmissionPoint.holds, RetransmissionPoint.wants, rank]

theorem ClosePoint.ordered {point : ClosePoint Sock} (wants : point.wants = some wanted) :
    ∀ held ∈ point.holds, rank sockets held.1 < rank sockets wanted.1 := by
  fun_cases ClosePoint.wants point <;> grind [ClosePoint.holds, ClosePoint.wants, rank]

end

/-! The other functions hold nothing where they want something. -/

section
variable {sock : Sock} {wanted : Held Sock}

theorem ReadPoint.holds_nil {point : ReadPoint} (wants : point.wants sock = some wanted) :
    point.holds sock = [] := by
  cases point <;> first | rfl | cases wants

theorem WritePoint.holds_nil {point : WritePoint} (wants : point.wants sock = some wanted) :
    point.holds sock = [] := by
  cases point <;> first | rfl | cases wants

theorem ShutdownPoint.holds_nil {point : ShutdownPoint} (wants : point.wants sock = some wanted) :
    point.holds sock = [] := by
  cases point <;> first | rfl | cases wants

theorem IpPoint.holds_nil {point : IpPoint} (wants : point.wants = some wanted) :
    (point.holds : List (Held Sock)) = [] := by
  cases point <;> first | rfl | cases wants

theorem BriefPoint.holds_nil {point : BriefPoint Sock} (wants : point.wants = some wanted) :
    point.holds = [] := by
  cases point <;> first | rfl | cases wants

theorem ordered_of_nil {sockets : Sock → Flags} {locks : List (Held Sock)} (none : locks = []) :
    ∀ held ∈ locks, rank sockets held.1 < rank sockets wanted.1 := by
  rw [none]
  exact fun _ member => absurd member List.not_mem_nil

end

theorem Orderly.ordered [DecidableEq Sock] {socks : Call → List Sock} {state : State Sock Call}
    (orderly : Orderly socks state) : (code socks).Ordered state (rank state.data) 7 := by
  refine ⟨rank_le state.data, fun goroutine wanted wants held holds => ?_⟩
  cases goroutine with
  | handlePacket sock call => exact PacketPoint.ordered ((orderly.sane sock).ends call) wants held holds
  | handleWrites sock => exact WriterPoint.ordered (orderly.sane sock).closed wants held holds
  | handleRetransmission sock => exact RetransmissionPoint.ordered wants held holds
  | listenerVClose call => exact ClosePoint.ordered wants held holds
  | vRead sock call => exact ordered_of_nil (ReadPoint.holds_nil wants) held holds
  | vWrite sock call => exact ordered_of_nil (WritePoint.holds_nil wants) held holds
  | vShutdown sock call => exact ordered_of_nil (ShutdownPoint.holds_nil wants) held holds
  | handlePacketSafe call => exact ordered_of_nil (IpPoint.holds_nil wants) held holds
  | tcp call | table call => exact ordered_of_nil (BriefPoint.holds_nil wants) held holds

/-! ### Where the code ends -/

def Flags.Spins (flags : Flags) : Prop := flags.connState ≠ .established ∧ flags.connState ≠ .closeWait

/-- The three places at which a lock is kept for good: `HandleWrites` after a FIN that could not be
sent, `HandlePacketSafe` after a packet whose time to live is over, and `VRead` with nothing to read
and in a state in which it neither sleeps nor returns. -/
def Abandons (state : State Sock Call) : Goroutine Sock Call → Prop
  | .handleWrites sock => state.writer sock = .failed
  | .handlePacketSafe call => state.points (.handlePacketSafe call) = IpPoint.leaked
  | .vRead sock call => state.points (.vRead sock call) = ReadPoint.spins ∧ (state.data sock).Spins
  | _ => False

section
variable {sock : Sock} {flags : Flags}

theorem handlePacket_ends {point : PacketPoint} (ends : handlePacket flags point = []) :
    point = .closing ∧ flags.receiving = false ∨ point = .over ∨ point = .idle := by
  revert ends
  fun_cases handlePacket flags point <;> grind

theorem handleWrites_ends {point : WriterPoint} (ends : handleWrites flags point = []) :
    point = .failed ∨ point = .over := by
  revert ends
  fun_cases handleWrites flags point <;> grind

theorem handleRetransmission_ends {point : RetransmissionPoint}
    (ends : handleRetransmission flags point = []) : point = .over := by
  revert ends
  fun_cases handleRetransmission flags point <;> grind

theorem vRead_ends {point : ReadPoint} (ends : vRead flags point = []) :
    point = .idle ∨ point = .spins ∧ flags.Spins := by
  revert ends
  fun_cases vRead flags point <;> grind [Flags.Spins]

theorem vWrite_ends {point : WritePoint} (ends : vWrite flags point = []) : point = .idle := by
  revert ends
  fun_cases vWrite flags point <;> grind

theorem vShutdown_ends {point : ShutdownPoint} (ends : vShutdown flags point = []) : point = .idle := by
  cases point <;> grind [vShutdown]

theorem listenerVClose_ends [DecidableEq Sock] {socks : List Sock} {sockets : Sock → Flags}
    {point : ClosePoint Sock} : listenerVClose socks sockets point ≠ [] := by
  fun_cases listenerVClose socks sockets point <;> exact List.cons_ne_nil _ _

theorem handlePacketSafe_ends {point : IpPoint} (ends : handlePacketSafe point = []) :
    point = .leaked := by
  cases point <;> first | rfl | cases ends

theorem brief_ends {locks : List (Held Sock)} {point : BriefPoint Sock} (ends : brief locks point = []) :
    point = .idle := by
  cases point <;> first | rfl | cases ends

end

theorem not_busy_at [DecidableEq Sock] {socks : Call → List Sock} {state : State Sock Call}
    {goroutine : Goroutine Sock Call} {point : Point goroutine} (here : state.points goroutine = point)
    (holding : holds goroutine point = []) (wanting : wants goroutine point = none) :
    ¬ (code socks).Busy state goroutine := by
  subst here
  exact not_busy holding wanting

theorem Orderly.abandons [DecidableEq Sock] {socks : Call → List Sock} {state : State Sock Call}
    (orderly : Orderly socks state) (goroutine : Goroutine Sock Call)
    (busy : (code socks).Busy state goroutine)
    (ends : (code socks).next goroutine state.data (state.points goroutine) = []) :
    Abandons state goroutine := by
  cases goroutine with
  | handlePacket sock call =>
      rcases handlePacket_ends (List.map_eq_nil_iff.mp ends) with ⟨closing, stopped⟩ | ended | idle
      · -- Whoever sends on `isClosed` finds `HandleConnection` at its `select`.
        rw [(orderly.sane sock).closing call closing] at stopped
        cases stopped
      · exact absurd busy (not_busy_at ended rfl rfl)
      · exact absurd busy (not_busy_at idle rfl rfl)
  | handleWrites sock =>
      rcases handleWrites_ends (List.map_eq_nil_iff.mp ends) with failed | ended
      · exact failed
      · exact absurd busy (not_busy_at ended rfl rfl)
  | handleRetransmission sock =>
      have ended := handleRetransmission_ends (List.map_eq_nil_iff.mp ends)
      exact absurd busy (not_busy_at ended rfl rfl)
  | vRead sock call =>
      rcases vRead_ends (List.map_eq_nil_iff.mp ends) with idle | spins
      · exact absurd busy (not_busy_at idle rfl rfl)
      · exact spins
  | vWrite sock call =>
      have idle := vWrite_ends (List.map_eq_nil_iff.mp ends)
      exact absurd busy (not_busy_at idle rfl rfl)
  | vShutdown sock call =>
      have idle := vShutdown_ends (List.map_eq_nil_iff.mp ends)
      exact absurd busy (not_busy_at idle rfl rfl)
  | listenerVClose call => exact absurd ends listenerVClose_ends
  | handlePacketSafe call => exact handlePacketSafe_ends (List.map_eq_nil_iff.mp ends)
  | tcp call | table call =>
      have idle := brief_ends (List.map_eq_nil_iff.mp ends)
      exact absurd busy (not_busy_at idle rfl rfl)

theorem vRead_spins {flags : Flags} (spins : flags.Spins) : vRead flags .spins = [] := by
  obtain ⟨notEstablished, notCloseWait⟩ := spins
  rw [vRead]
  split
  · contradiction
  · contradiction
  · rfl

section
variable [DecidableEq Sock] {socks : Call → List Sock}

theorem handlePacket_spins {flags : Flags} {point : PacketPoint} (spins : flags.Spins) :
    ∀ after ∈ handlePacket flags point, after.1.Spins := by
  fun_cases handlePacket flags point <;> grind [Flags.Spins]

theorem handleWrites_spins {flags : Flags} {point : WriterPoint} (spins : flags.Spins) :
    ∀ after ∈ handleWrites flags point, after.1.Spins := by
  fun_cases handleWrites flags point <;> grind [Flags.Spins]

theorem next_spins {goroutine : Goroutine Sock Call} {sockets : Sock → Flags} {point : Point goroutine}
    {after : (Sock → Flags) × Point goroutine} (goes : after ∈ next socks goroutine sockets point)
    {sock : Sock} (spins : (sockets sock).Spins) : (after.1 sock).Spins := by
  -- `CLOSE_WAIT` is entered from `ESTABLISHED` only, and nothing enters `ESTABLISHED`.
  have update : ∀ {other : Sock} {flags : Flags}, ((sockets other).Spins → flags.Spins) →
      (Function.update sockets other flags sock).Spins := by
    intro other flags kept
    rw [Function.update_apply]
    split
    · rename_i same
      exact kept (same ▸ spins)
    · exact spins
  cases goroutine with
  | handlePacket other call =>
      obtain ⟨flags, member, same⟩ := onSocket_mem goes
      rw [same]
      exact update fun before => handlePacket_spins before _ member
  | handleWrites other =>
      obtain ⟨flags, member, same⟩ := onSocket_mem goes
      rw [same]
      exact update fun before => handleWrites_spins before _ member
  | _ =>
      obtain ⟨connState, -⟩ := next_alike socks goes (fun _ _ => nofun) (fun _ => nofun) sock
      unfold Flags.Spins
      rw [connState]
      exact spins

theorem Abandons.stops {state : State Sock Call} {goroutine : Goroutine Sock Call}
    (abandons : Abandons state goroutine) :
    next socks goroutine state.data (state.points goroutine) = [] := by
  cases goroutine with
  | handleWrites sock =>
      have failed : state.points (.handleWrites sock) = WriterPoint.failed := abandons
      rw [failed]
      rfl
  | handlePacketSafe call =>
      have leaked : state.points (.handlePacketSafe call) = IpPoint.leaked := abandons
      rw [leaked]
      rfl
  | vRead sock call =>
      obtain ⟨spinning, spins⟩ := abandons
      rw [spinning]
      exact List.map_eq_nil_iff.mpr (vRead_spins spins)
  | _ => exact abandons.elim

theorem Abandons.step [DecidableEq Call] [Fintype Sock] [Fintype Call] {state after : State Sock Call}
    {goroutine : Goroutine Sock Call} {event : Goroutine Sock Call × Nat} (abandons : Abandons state goroutine)
    (moves : (code socks).step state event = some after) : Abandons after goroutine := by
  obtain ⟨mover, choice⟩ := event
  obtain ⟨-, data, point, goes, rfl⟩ := step_moves moves
  have other : goroutine ≠ mover := by
    rintro rfl
    change _ ∈ next socks goroutine _ _ at goes
    rw [abandons.stops] at goes
    cases goes
  have same : Function.update state.points mover point goroutine = state.points goroutine :=
    Function.update_of_ne other _ _
  cases goroutine with
  | handleWrites | handlePacketSafe => exact same.trans abandons
  | vRead sock call => exact ⟨same.trans abandons.1, next_spins goes abandons.2⟩
  | _ => exact abandons.elim

end

/-! ### No circle -/

def start : (goroutine : Goroutine Sock Call) → Point goroutine
  | .handlePacket _ _ => .idle
  | .handleWrites _ => .top
  | .handleRetransmission _ => .top
  | .vRead _ _ => .idle
  | .vWrite _ _ => .idle
  | .vShutdown _ _ => .idle
  | .listenerVClose _ => .idle
  | .handlePacketSafe _ => .idle
  | .tcp _ => .idle
  | .table _ => .idle

theorem start_holds (goroutine : Goroutine Sock Call) : holds goroutine (start goroutine) = [] := by
  cases goroutine <;> rfl

/-- The sockets as `VConnect` and `VAccept` leave them to `HandleConnection`; a `VAccept` that was
sent something else than an acknowledgement leaves the state of the handshake. -/
structure Begins (state : State Sock Call) : Prop where
  points : state.points = start
  receiving : ∀ sock, (state.data sock).receiving = true
  connState : ∀ sock, (state.data sock).connState = .established ∨ (state.data sock).connState = .synSent

section
variable [DecidableEq Sock] {socks : Call → List Sock} {first state : State Sock Call}

theorem Begins.orderly (begins : Begins first) : Orderly socks first := by
  refine ⟨?_, fun sock => ?_⟩
  · intro one other lock mode holding
    change _ ∈ holds one (first.points one) at holding
    rw [begins.points, start_holds] at holding
    cases holding
  · have state := begins.connState sock
    have packets : first.packets sock = fun _ => .idle := by
      funext call
      exact congrFun begins.points (.handlePacket sock call)
    rw [packets]
    refine ⟨?_, ?_, ?_, ?_, ?_⟩
    · grind
    · grind
    · grind [PacketPoint.Ends]
    · grind [begins.receiving sock]
    · exact fun _ closing => by cases closing

variable [DecidableEq Call] [Fintype Sock] [Fintype Call]

end

section

def served (_ : Bool) : List Unit := [()]

def oneSocket : State Unit Bool where
  data _ :=
    { connState := .established, canRead := true, canWrite := true, closed := false, receiving := true }
  points := start

/-- The peer has closed and `VShutdown` was called; `VClose` of the listener has taken `state.lock`
when the acknowledgement of the FIN comes in. -/
def lastAckComes : List (Goroutine Unit Bool × Nat) :=
  [0, 0, 3, 0, 0, 0, 0, 0, 0, 0].map (.handlePacket () false, ·) ++
  [2, 0, 0].map (.vShutdown () false, ·) ++
  [0, 0, 0, 0, 0, 0, 0, 0, 0, 0].map (.handleWrites (), ·) ++
  [0, 0].map (.listenerVClose false, ·) ++
  [0, 0, 2, 0, 2, 0, 0].map (.handlePacket () true, ·)

theorem lastAck_comes : (exec (code served).step anyEvent oneSocket lastAckComes).isSome := by
  decide +kernel

def lastAckCame : State Unit Bool :=
  (exec (code served).step anyEvent oneSocket lastAckComes).get lastAck_comes

/-- `VShutdown` for writing was called, and the FIN sent; `VRead` has found nothing when the peer
sends data. -/
def dataComes : List (Goroutine Unit Bool × Nat) :=
  [2, 0, 0].map (.vShutdown () false, ·) ++ List.replicate 10 (.handleWrites (), 0) ++
  [0, 0, 1].map (.vRead () false, ·) ++ [0, 0, 1, 0, 0, 1].map (.handlePacket () false, ·)

theorem data_comes : (exec (code served).step anyEvent oneSocket dataComes).isSome := by
  decide +kernel

def dataCame : State Unit Bool :=
  (exec (code served).step anyEvent oneSocket dataComes).get data_comes

theorem oneSocket_begins : Begins oneSocket := ⟨rfl, fun _ => rfl, fun _ => .inl rfl⟩

end

end IpTcp.Goroutines
