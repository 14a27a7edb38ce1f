import Mathlib.Data.Fintype.Sigma
import Mathlib.Data.Fintype.Sum
import Mathlib.Tactic.DeriveFintype
import IpTcp.Lib.Locks
import IpTcp.Tcp.Types

/-! The goroutines of a node and the locks they take. Each function is given by the points of
its code at which it takes a lock, releases one, goes to sleep or reads what decides how it goes
on; what depends on the buffers, on the packets and on the clock may go either way. A lock that
a point holds and the next one does not has been released between them. -/

set_option autoImplicit false

namespace IpTcp.Goroutines

open Lib
open Tcp (ConnState ShutdownType)

/-- `state.lock`, `FwdTable.Lock`, and the four locks of a socket that are taken. -/
inductive Lock (Sock : Type) where
  | state
  | fwdTable
  | readBuffer (sock : Sock)
  | writeBuffer (sock : Sock)
  | inFlightList (sock : Sock)
  | var (sock : Sock)
  deriving DecidableEq, Repr

abbrev Held (Sock : Type) := Lock Sock × Mode

variable {Sock : Type}

/-- What decides about the locks of a socket. While `receiving`, `HandleConnection` is in its
loop and takes what is sent to `ch` and to `isClosed`. -/
structure Flags where
  connState : ConnState
  canRead : Bool
  canWrite : Bool
  closed : Bool
  receiving : Bool
  deriving DecidableEq, Repr

/-! ### HandlePacket -/

inductive PacketPoint where
  | idle
  | entry
  | opened
  | sameAck
  | sameAckLocked
  | newAck
  | removing
  | closing
  | received
  | deleting
  | deleted
  | unlisting
  | payload
  | storing
  | stored
  | draining
  | drainBroadcasting
  | drainBroadcast
  | drainStoring
  | drainStored
  | acknowledging
  | acknowledged
  | fin
  | finAcknowledging
  | finAcknowledged
  | finReceived
  | finBroadcasting
  | finBroadcast
  | returning
  | over
  deriving DecidableEq, Repr

def PacketPoint.holds (sock : Sock) : PacketPoint → List (Held Sock)
  | .idle | .entry | .over => []
  | .sameAckLocked | .removing | .closing | .received | .deleting | .unlisting =>
      [(.var sock, .exclusive), (.inFlightList sock, .exclusive)]
  | .deleted => [(.var sock, .exclusive), (.inFlightList sock, .exclusive), (.state, .exclusive)]
  | .stored | .drainBroadcast | .drainStored | .finBroadcast =>
      [(.var sock, .exclusive), (.readBuffer sock, .exclusive)]
  | .acknowledged | .finAcknowledged => [(.var sock, .exclusive), (.fwdTable, .shared)]
  | _ => [(.var sock, .exclusive)]

def PacketPoint.wants (sock : Sock) : PacketPoint → Option (Held Sock)
  | .entry => some (.var sock, .exclusive)
  | .sameAck | .newAck => some (.inFlightList sock, .exclusive)
  | .deleting => some (.state, .exclusive)
  | .storing | .drainBroadcasting | .drainStoring | .finBroadcasting =>
      some (.readBuffer sock, .exclusive)
  | .acknowledging | .finAcknowledging => some (.fwdTable, .shared)
  | _ => none

def handlePacket (flags : Flags) : PacketPoint → List (Flags × PacketPoint)
  -- `HandleConnection` starts it with a packet from `ch`.
  | .idle => if flags.receiving then [(flags, .entry)] else []
  | .entry => [(flags, .opened)]
  -- A bad checksum, an old acknowledgement and flags that are neither ACK nor FIN return at once.
  | .opened =>
      if flags.closed then [(flags, .returning)]
      else [(flags, .returning), (flags, .sameAck), (flags, .newAck), (flags, .fin)]
  | .sameAck => [(flags, .sameAckLocked)]
  | .sameAckLocked => [(flags, .payload)]
  | .newAck => [(flags, .removing)]
  -- Nothing more is acknowledged; an item is removed; the item is the FIN and changes the state.
  | .removing => [(flags, .payload), (flags, .removing)] ++
      match flags.connState with
      | .finWait1 => [({ flags with connState := .finWait2 }, .removing)]
      | .lastAck => [({ flags with connState := .closed }, .closing)]
      | _ => []
  -- `isClosed <- true` waits for `HandleConnection`, which returns.
  | .closing => if flags.receiving then [({ flags with receiving := false }, .received)] else []
  | .received => [({ flags with closed := true }, .deleting)]
  | .deleting => [(flags, .deleted)]
  | .deleted => [(flags, .unlisting)]
  | .unlisting => [(flags, .returning)]
  -- No payload or no space for it; the awaited one; an early or an old one.
  | .payload => [(flags, .returning), (flags, .storing), (flags, .acknowledging)]
  | .storing => [(flags, .stored)]
  | .stored => [(flags, .draining)]
  -- The queue has nothing that is due; it has a segment; it has a FIN.
  | .draining => [(flags, .acknowledging), (flags, .drainStoring)] ++
      match flags.connState with
      | .established => [({ flags with connState := .closeWait }, .drainBroadcasting)]
      | .finWait2 => [({ flags with connState := .timeWait }, .drainStoring)]
      | _ => []
  | .drainBroadcasting => [(flags, .drainBroadcast)]
  | .drainBroadcast => [(flags, .drainStoring)]
  | .drainStoring => [(flags, .drainStored)]
  | .drainStored => [(flags, .draining)]
  | .acknowledging => [(flags, .acknowledged)]
  | .acknowledged => [(flags, .returning)]
  | .fin => [(flags, .finAcknowledging), (flags, .returning)]
  | .finAcknowledging => [(flags, .finAcknowledged)]
  | .finAcknowledged => [(flags, .finReceived)]
  | .finReceived =>
      match flags.connState with
      | .established => [({ flags with connState := .closeWait }, .finBroadcasting)]
      | .finWait2 => [({ flags with connState := .timeWait }, .returning)]
      | _ => [(flags, .returning)]
  | .finBroadcasting => [(flags, .finBroadcast)]
  | .finBroadcast => [(flags, .returning)]
  | .returning => [(flags, .over)]
  | .over => []

/-! ### HandleWrites -/

inductive WriterPoint where
  | top
  | looks
  | empty
  | decides
  | waits
  | asleep
  | finSending
  | finSent
  | finListing
  | finListed
  | finState
  | finDone
  | failed
  | probing
  | probed
  | probeListing
  | probeListed
  | probeAsleep
  | probeWoken
  | probeAwake
  | segment
  | segmentSent
  | segmentListing
  | segmentListed
  | segmentCounting
  | over
  deriving DecidableEq, Repr

def WriterPoint.holds (sock : Sock) : WriterPoint → List (Held Sock)
  | .looks | .empty | .waits => [(.writeBuffer sock, .exclusive)]
  | .decides => [(.writeBuffer sock, .exclusive), (.var sock, .exclusive)]
  | .finSending | .finListing | .finState | .finDone | .failed => [(.var sock, .exclusive)]
  | .finSent => [(.var sock, .exclusive), (.fwdTable, .shared)]
  | .finListed => [(.var sock, .exclusive), (.inFlightList sock, .exclusive)]
  | .probed | .segmentSent => [(.fwdTable, .shared)]
  | .probeListed | .probeAwake | .segmentListed => [(.inFlightList sock, .exclusive)]
  | _ => []

def WriterPoint.wants (sock : Sock) : WriterPoint → Option (Held Sock)
  | .top => some (.writeBuffer sock, .exclusive)
  | .empty => some (.var sock, .exclusive)
  | .finSending | .probing | .segment => some (.fwdTable, .shared)
  | .finListing | .probeListing | .probeWoken | .segmentListing =>
      some (.inFlightList sock, .exclusive)
  | _ => none

def handleWrites (flags : Flags) : WriterPoint → List (Flags × WriterPoint)
  | .top => [(flags, .looks)]
  -- The buffer is empty; the window is full; there is something to send; `sizeToWrite` is zero.
  | .looks => [(flags, .empty), (flags, .probing), (flags, .segment), (flags, .top)]
  | .empty => [(flags, .decides)]
  | .decides => if flags.canWrite then [(flags, .waits)] else [(flags, .finSending)]
  | .waits => [(flags, .asleep)]
  | .asleep => [(flags, .top)]
  | .finSending => [(flags, .finSent)]
  | .finSent => [(flags, .finListing), (flags, .failed)]
  | .finListing => [(flags, .finListed)]
  | .finListed => [(flags, .finState)]
  | .finState =>
      match flags.connState with
      | .established => [({ flags with connState := .finWait1 }, .finDone)]
      | .closeWait => [({ flags with connState := .lastAck }, .finDone)]
      | _ => [(flags, .finDone)]
  | .finDone => [(flags, .over)]
  -- The `break` after a failed send of the FIN leads, with `varLock` held, to the `Unlock` of a
  -- `writeBufferLock` that has been released already.
  | .failed => []
  | .probing => [(flags, .probed)]
  | .probed => [(flags, .probeListing), (flags, .over)]
  | .probeListing => [(flags, .probeListed)]
  | .probeListed => [(flags, .probeAsleep)]
  | .probeAsleep => [(flags, .probeWoken)]
  | .probeWoken => [(flags, .probeAwake)]
  | .probeAwake => [(flags, .top)]
  | .segment => [(flags, .segmentSent)]
  | .segmentSent => [(flags, .segmentListing), (flags, .top)]
  | .segmentListing => [(flags, .segmentListed)]
  | .segmentListed => [(flags, .segmentCounting)]
  | .segmentCounting => [(flags, .segment), (flags, .top)]
  | .over => []

/-! ### HandleRetransmission -/

inductive RetransmissionPoint where
  | top
  | listing
  | listed
  | resending
  | resent
  | unlisting
  | over
  deriving DecidableEq, Repr

def RetransmissionPoint.holds (sock : Sock) : RetransmissionPoint → List (Held Sock)
  | .listed | .resending | .unlisting => [(.inFlightList sock, .exclusive)]
  | .resent => [(.inFlightList sock, .exclusive), (.fwdTable, .shared)]
  | _ => []

def RetransmissionPoint.wants (sock : Sock) : RetransmissionPoint → Option (Held Sock)
  | .listing => some (.inFlightList sock, .exclusive)
  | .resending => some (.fwdTable, .shared)
  | _ => none

def handleRetransmission (flags : Flags) : RetransmissionPoint → List (Flags × RetransmissionPoint)
  | .top => if flags.closed then [(flags, .over)] else [(flags, .listing)]
  | .listing => [(flags, .listed)]
  | .listed => [(flags, .unlisting), (flags, .resending)]
  | .resending => [(flags, .resent)]
  | .resent => [(flags, .unlisting)]
  | .unlisting => [(flags, .top)]
  | .over => []

/-! ### Calls of the application -/

inductive ReadPoint where
  | idle
  | entering
  | looks
  | spins
  | asleep
  | woken
  | returning
  deriving DecidableEq, Repr

def ReadPoint.holds (sock : Sock) : ReadPoint → List (Held Sock)
  | .looks | .spins | .returning => [(.readBuffer sock, .exclusive)]
  | _ => []

def ReadPoint.wants (sock : Sock) : ReadPoint → Option (Held Sock)
  | .entering | .woken => some (.readBuffer sock, .exclusive)
  | _ => none

def vRead (flags : Flags) : ReadPoint → List (Flags × ReadPoint)
  | .idle => if flags.canRead then [(flags, .entering)] else []
  | .entering => [(flags, .looks)]
  -- Something to read; else it depends on the state, and in most of them `VRead` looks again.
  | .looks => (flags, .returning) ::
      match flags.connState with
      | .established => [(flags, .asleep)]
      | .closeWait => []
      | _ => [(flags, .spins)]
  -- Nobody can write to the buffer meanwhile, and only another state would change anything.
  | .spins =>
      match flags.connState with
      | .established => [(flags, .asleep)]
      | .closeWait => [(flags, .returning)]
      | _ => []
  | .asleep => [(flags, .woken)]
  | .woken => [(flags, .looks)]
  | .returning => [(flags, .idle)]

inductive WritePoint where
  | idle
  | entering
  | looks
  | asleep
  | woken
  deriving DecidableEq, Repr

def WritePoint.holds (sock : Sock) : WritePoint → List (Held Sock)
  | .looks => [(.writeBuffer sock, .exclusive)]
  | _ => []

def WritePoint.wants (sock : Sock) : WritePoint → Option (Held Sock)
  | .entering | .woken => some (.writeBuffer sock, .exclusive)
  | _ => none

def vWrite (flags : Flags) : WritePoint → List (Flags × WritePoint)
  | .idle => if flags.canWrite then [(flags, .entering)] else []
  | .entering => [(flags, .looks)]
  -- The buffer is full; there is more to write; all is written.
  | .looks => [(flags, .asleep), (flags, .looks), (flags, .idle)]
  | .asleep => [(flags, .woken)]
  | .woken => [(flags, .looks)]

/-- `VShutdown` sets the flags first and takes the locks one after the other. -/
inductive ShutdownPoint where
  | idle
  | writing (sdType : ShutdownType)
  | written (sdType : ShutdownType)
  | reading
  | read
  deriving DecidableEq, Repr

def ShutdownPoint.holds (sock : Sock) : ShutdownPoint → List (Held Sock)
  | .written _ => [(.writeBuffer sock, .exclusive)]
  | .read => [(.readBuffer sock, .exclusive)]
  | _ => []

def ShutdownPoint.wants (sock : Sock) : ShutdownPoint → Option (Held Sock)
  | .writing _ => some (.writeBuffer sock, .exclusive)
  | .reading => some (.readBuffer sock, .exclusive)
  | _ => none

def Flags.shutdown (flags : Flags) : ShutdownType → Option Flags
  | .both =>
      if flags.canRead ∧ flags.canWrite then some { flags with canRead := false, canWrite := false }
      else none
  | .read => if flags.canRead then some { flags with canRead := false } else none
  | .write => if flags.canWrite then some { flags with canWrite := false } else none

def vShutdown (flags : Flags) : ShutdownPoint → List (Flags × ShutdownPoint)
  | .idle => [ShutdownType.both, .read, .write].filterMap fun sdType =>
      (flags.shutdown sdType).map fun flags =>
        (flags, if sdType = .read then .reading else .writing sdType)
  | .writing sdType => [(flags, .written sdType)]
  | .written sdType => if sdType = .both then [(flags, .reading)] else [(flags, .idle)]
  | .reading => [(flags, .read)]
  | .read => [(flags, .idle)]

/-- `VClose` of a listener shuts down its sockets one by one, and holds `state.lock` meanwhile. -/
inductive ClosePoint (Sock : Type) where
  | idle
  | entering
  | remaining (socks : List Sock)
  | writing (sock : Sock) (rest : List Sock)
  | written (sock : Sock) (rest : List Sock)
  | reading (sock : Sock) (rest : List Sock)
  | read (sock : Sock) (rest : List Sock)
  deriving DecidableEq, Repr

def ClosePoint.holds : ClosePoint Sock → List (Held Sock)
  | .idle | .entering => []
  | .remaining _ | .writing .. | .reading .. => [(.state, .exclusive)]
  | .written sock _ => [(.state, .exclusive), (.writeBuffer sock, .exclusive)]
  | .read sock _ => [(.state, .exclusive), (.readBuffer sock, .exclusive)]

def ClosePoint.wants : ClosePoint Sock → Option (Held Sock)
  | .entering => some (.state, .exclusive)
  | .writing sock _ => some (.writeBuffer sock, .exclusive)
  | .reading sock _ => some (.readBuffer sock, .exclusive)
  | _ => none

def listenerVClose [DecidableEq Sock] (socks : List Sock) (sockets : Sock → Flags) :
    ClosePoint Sock → List ((Sock → Flags) × ClosePoint Sock)
  | .idle => [(sockets, .entering)]
  | .entering => [(sockets, .remaining socks)]
  | .remaining [] => [(sockets, .idle)]
  | .remaining (sock :: rest) =>
      match (sockets sock).shutdown .both with
      | some flags => [(Function.update sockets sock flags, .writing sock rest)]
      | none => [(sockets, .remaining rest)]
  | .writing sock rest => [(sockets, .written sock rest)]
  | .written sock rest => [(sockets, .reading sock rest)]
  | .reading sock rest => [(sockets, .read sock rest)]
  | .read _ rest => [(sockets, .remaining rest)]

/-! ### HandlePacketSafe -/

inductive IpPoint where
  | idle
  | looking
  | looked
  | handling
  | requesting
  | requested
  | responding
  | responded
  | forwarding
  | routed
  | leaked
  deriving DecidableEq, Repr

def IpPoint.holds : IpPoint → List (Held Sock)
  | .looked | .requested | .routed | .leaked => [(.fwdTable, .shared)]
  | .responded => [(.fwdTable, .exclusive)]
  | _ => []

def IpPoint.wants : IpPoint → Option (Held Sock)
  | .looking | .requesting | .forwarding => some (.fwdTable, .shared)
  | .responding => some (.fwdTable, .exclusive)
  | _ => none

/-- The handlers of TCP and of the test protocol take no lock. -/
def handlePacketSafe : IpPoint → List IpPoint
  | .idle => [.idle, .looking]
  | .looking => [.looked]
  | .looked => [.handling]
  | .handling => [.idle, .requesting, .responding, .forwarding]
  | .requesting => [.requested]
  | .requested => [.idle]
  | .responding => [.responded]
  | .responded => [.idle]
  | .forwarding => [.routed]
  -- A packet whose time to live is over leaves the function without `RUnlock`.
  | .routed => [.idle, .leaked]
  | .leaked => []

/-! ### What takes one lock at a time -/

inductive BriefPoint (Sock : Type) where
  | idle
  | entering (held : Held Sock)
  | inside (held : Held Sock)
  deriving DecidableEq, Repr

def BriefPoint.holds : BriefPoint Sock → List (Held Sock)
  | .inside held => [held]
  | _ => []

def BriefPoint.wants : BriefPoint Sock → Option (Held Sock)
  | .entering held => some held
  | _ => none

def brief (locks : List (Held Sock)) : BriefPoint Sock → List (BriefPoint Sock)
  | .idle => locks.map .entering
  | .entering held => [.inside held]
  | .inside _ => [.idle]

/-- `VListen`, `VConnect`, `VAccept`, `timeWait`, `GetSocketById` and `GetSocketInfo`: the table of
sockets, and `sendTcp` between. -/
def tcpLocks : List (Held Sock) := [(.state, .exclusive), (.fwdTable, .shared)]

/-- `RegisterHandlerSafe`, `SetInterfaceStateSafe` and `PeriodicExpiry` write to the forwarding
table; `PeriodicUpdate`, `RIPInit` and the commands that list or send read it. -/
def tableLocks : List (Held Sock) := [(.fwdTable, .exclusive), (.fwdTable, .shared)]

/-! ### All of them -/

/-- The goroutines of a node; of those that come and go there is one for each `Call`. -/
inductive Goroutine (Sock Call : Type) where
  | handlePacket (sock : Sock) (call : Call)
  | handleWrites (sock : Sock)
  | handleRetransmission (sock : Sock)
  | vRead (sock : Sock) (call : Call)
  | vWrite (sock : Sock) (call : Call)
  | vShutdown (sock : Sock) (call : Call)
  | listenerVClose (call : Call)
  | handlePacketSafe (call : Call)
  | tcp (call : Call)
  | table (call : Call)
  deriving DecidableEq, Repr, Fintype

variable {Call : Type}

abbrev Point : Goroutine Sock Call → Type
  | .handlePacket _ _ => PacketPoint
  | .handleWrites _ => WriterPoint
  | .handleRetransmission _ => RetransmissionPoint
  | .vRead _ _ => ReadPoint
  | .vWrite _ _ => WritePoint
  | .vShutdown _ _ => ShutdownPoint
  | .listenerVClose _ => ClosePoint Sock
  | .handlePacketSafe _ => IpPoint
  | .tcp _ | .table _ => BriefPoint Sock

def onSocket {Local : Type} [DecidableEq Sock] (sock : Sock)
    (moves : Flags → Local → List (Flags × Local)) (sockets : Sock → Flags) (point : Local) :
    List ((Sock → Flags) × Local) :=
  (moves (sockets sock) point).map fun after => (Function.update sockets sock after.1, after.2)

def quietly {Local : Type} (moves : Local → List Local) (sockets : Sock → Flags) (point : Local) :
    List ((Sock → Flags) × Local) :=
  (moves point).map fun after => (sockets, after)

def holds : (goroutine : Goroutine Sock Call) → Point goroutine → List (Held Sock)
  | .handlePacket sock _ => PacketPoint.holds sock
  | .handleWrites sock => WriterPoint.holds sock
  | .handleRetransmission sock => RetransmissionPoint.holds sock
  | .vRead sock _ => ReadPoint.holds sock
  | .vWrite sock _ => WritePoint.holds sock
  | .vShutdown sock _ => ShutdownPoint.holds sock
  | .listenerVClose _ => ClosePoint.holds
  | .handlePacketSafe _ => IpPoint.holds
  | .tcp _ | .table _ => BriefPoint.holds

def wants : (goroutine : Goroutine Sock Call) → Point goroutine → Option (Held Sock)
  | .handlePacket sock _ => PacketPoint.wants sock
  | .handleWrites sock => WriterPoint.wants sock
  | .handleRetransmission sock => RetransmissionPoint.wants sock
  | .vRead sock _ => ReadPoint.wants sock
  | .vWrite sock _ => WritePoint.wants sock
  | .vShutdown sock _ => ShutdownPoint.wants sock
  | .listenerVClose _ => ClosePoint.wants
  | .handlePacketSafe _ => IpPoint.wants
  | .tcp _ | .table _ => BriefPoint.wants

def next [DecidableEq Sock] (socks : Call → List Sock) : (goroutine : Goroutine Sock Call) →
    (Sock → Flags) → Point goroutine → List ((Sock → Flags) × Point goroutine)
  | .handlePacket sock _ => onSocket sock handlePacket
  | .handleWrites sock => onSocket sock handleWrites
  | .handleRetransmission sock => onSocket sock handleRetransmission
  | .vRead sock _ => onSocket sock vRead
  | .vWrite sock _ => onSocket sock vWrite
  | .vShutdown sock _ => onSocket sock vShutdown
  | .listenerVClose call => listenerVClose (socks call)
  | .handlePacketSafe _ => quietly handlePacketSafe
  | .tcp _ => quietly (brief tcpLocks)
  | .table _ => quietly (brief tableLocks)

end IpTcp.Goroutines
