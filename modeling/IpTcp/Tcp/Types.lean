import Mathlib.Data.List.Basic
import IpTcp.Lib.Heap

/-! The data of the TCP package: constants, header fields, packets, the items of
the two queues and the priority queue of early arrivals. Go's fixed-width
integers stay fixed-width; an `int` that is only ever filled from a `uint32` or a
length is a natural number. Send times are left out: they only feed the
retransmission timer, which here may fire at any time. -/

set_option autoImplicit false

namespace IpTcp.Tcp

abbrev Byte := UInt8

abbrev IntIP := UInt32

def tcpProtocolNum : UInt8 := 6
def tcpHeaderLen : Nat := 20
def bufferSize : Nat := 1 <<< 16 - 1
def tcpMaxSegmentSize : Nat := 1024

/-! The flag bits of netstack's `header` package. -/

def tcpFlagFin : UInt8 := 0x01
def tcpFlagSyn : UInt8 := 0x02
def tcpFlagAck : UInt8 := 0x10

inductive ConnState where
  | synReceived
  | synSent
  | established
  | finWait1
  | finWait2
  | closeWait
  | timeWait
  | lastAck
  | closed
  deriving DecidableEq, Repr

inductive ShutdownType where
  | read
  | write
  | both
  deriving DecidableEq, Repr

structure TCPFields where
  srcPort : UInt16
  dstPort : UInt16
  seqNum : UInt32
  ackNum : UInt32
  dataOffset : UInt8
  flags : UInt8
  windowSize : UInt16
  checksum : UInt16
  urgentPointer : UInt16
  deriving DecidableEq, Repr

structure TcpPacket where
  srcIP : IntIP
  header : TCPFields
  data : List Byte
  deriving DecidableEq, Repr

/-- Does the packet have its FIN bit set, whatever its other flags? -/
def TcpPacket.hasFin (packet : TcpPacket) : Bool :=
  packet.header.flags &&& tcpFlagFin != 0

/-- The amount `HandlePacket` takes a packet in flight to occupy: a FIN counts for one byte. -/
def TcpPacket.payloadSize (packet : TcpPacket) : Nat :=
  if packet.data.length = 0 then 1 else packet.data.length

structure TcpConn where
  localIP : IntIP
  localPort : UInt16
  foreignIP : IntIP
  foreignPort : UInt16
  deriving DecidableEq, Repr

structure TcpPacketItem where
  value : TcpPacket
  /-- The relative sequence number of the packet. -/
  priority : Nat
  /-- Maintained by the `heap.Interface` methods. -/
  index : Int := 0
  retransmitted : Bool := false
  isZwp : Bool := false
  deriving DecidableEq, Repr

/-! ## The early-arrival priority queue -/

abbrev PriorityQueue := List TcpPacketItem

namespace PriorityQueue

def len (pq : PriorityQueue) : Nat := pq.length

def less (pq : PriorityQueue) (i j : Nat) : Bool :=
  match pq[i]?, pq[j]? with
  | some first, some second => first.priority < second.priority
  | _, _ => false

def swap (pq : PriorityQueue) (i j : Nat) : PriorityQueue :=
  match pq[i]?, pq[j]? with
  | some first, some second =>
      (pq.set i { second with index := i }).set j { first with index := j }
  | _, _ => pq

def push (pq : PriorityQueue) (item : TcpPacketItem) : PriorityQueue :=
  pq ++ [{ item with index := pq.length }]

def pop (pq : PriorityQueue) : Option (TcpPacketItem × PriorityQueue) :=
  match pq.getLast? with
  | some item => some ({ item with index := -1 }, pq.dropLast)
  | none => none

def heapInterface : Lib.Heap.Interface PriorityQueue TcpPacketItem where
  len := len
  less := less
  swap := swap
  push := push
  pop := pop

/-- What a queued item stands for: its packet and its priority. `Index` is bookkeeping. -/
def entry (item : TcpPacketItem) : TcpPacket × Nat := (item.value, item.priority)

def entries (pq : PriorityQueue) : List (TcpPacket × Nat) := pq.map entry

theorem values_of_entries {first second : List TcpPacketItem} (same : entries first = entries second) :
    first.map (·.value) = second.map (·.value) := by
  have values := congrArg (List.map Prod.fst) same
  simp only [entries, List.map_map] at values
  exact values

theorem heapInterface_lawful : Lib.Heap.Lawful heapInterface entries entry where
  len_view items := by simp [heapInterface, len, entries]
  swap_view items i j left atI right atJ := by
    simp only [entries, List.getElem?_map, Option.mem_def, Option.map_eq_some_iff] at atI atJ
    obtain ⟨first, foundI, rfl⟩ := atI
    obtain ⟨second, foundJ, rfl⟩ := atJ
    simp [heapInterface, swap, entries, foundI, foundJ, List.map_set, entry]
  push_view items item := by simp [heapInterface, push, entries, entry]
  pop_view items front last view := by
    obtain ⟨init, final, rfl, rfl, mapped⟩ := List.map_eq_append_iff.mp view
    obtain ⟨item, rest, rfl, rfl, none⟩ := List.map_eq_cons_iff.mp mapped
    obtain rfl := List.map_eq_nil_iff.mp none
    exact ⟨{ item with index := -1 }, init, by simp [heapInterface, pop], rfl, rfl⟩

def heapPush (pq : PriorityQueue) (item : TcpPacketItem) : PriorityQueue :=
  Lib.Heap.push heapInterface pq item

/-- `heap.Pop(&pq)` for its effect on the queue; the caller has read the root before. -/
def heapPop (pq : PriorityQueue) : PriorityQueue :=
  match Lib.Heap.pop heapInterface pq with
  | some (_, rest) => rest
  | none => pq

theorem heapPush_entries (pq : PriorityQueue) (item : TcpPacketItem) :
    (heapPush pq item).entries.Perm (entry item :: pq.entries) :=
  heapInterface_lawful.push_perm pq item

theorem heapPop_entries (root : TcpPacketItem) (others : PriorityQueue) :
    (heapPop (root :: others)).entries.Perm (entries others) := by
  obtain ⟨item, rest, popped, _, kept, _⟩ :=
    heapInterface_lawful.pop_sifted (root :: others) (entry root) (entries others) rfl
  simp only [heapPop, popped]
  exact kept

end PriorityQueue

end IpTcp.Tcp
