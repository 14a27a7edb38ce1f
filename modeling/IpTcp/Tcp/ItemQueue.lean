import Mathlib.Data.List.Nodup
import IpTcp.Lib.HeapOrder
import IpTcp.Lib.Run
import IpTcp.Tcp.Types

/-! The priority queue as `heap.go` has it, a slice of pointers: an item keeps its identity
while it moves, and its `Index` is where `Update` finds it again. Priorities are of any
linearly ordered type, Go's `int` among them. -/

set_option autoImplicit false

namespace IpTcp.Tcp

open Lib

/-- A `*TcpPacketItem`, with the fields of the item that `heap.go` reads or writes. -/
structure ItemRef (Priority : Type) where
  ptr : Nat
  value : TcpPacket
  priority : Priority
  index : Int := 0
  deriving DecidableEq, Repr

abbrev ItemQueue (Priority : Type) := List (ItemRef Priority)

namespace ItemQueue

variable {Priority : Type}

def len (pq : ItemQueue Priority) : Nat := pq.length

def swap (pq : ItemQueue Priority) (i j : Nat) : ItemQueue Priority :=
  match pq[i]?, pq[j]? with
  | some first, some second =>
      (pq.set i { second with index := i }).set j { first with index := j }
  | _, _ => pq

def push (pq : ItemQueue Priority) (item : ItemRef Priority) : ItemQueue Priority :=
  pq ++ [{ item with index := pq.length }]

def pop (pq : ItemQueue Priority) : Option (ItemRef Priority × ItemQueue Priority) :=
  match pq.getLast? with
  | some item => some ({ item with index := -1 }, pq.dropLast)
  | none => none

/-- The item behind the pointer with a new value and priority, wherever it is queued. -/
def assign (pq : ItemQueue Priority) (ptr : Nat) (value : TcpPacket) (priority : Priority) :
    ItemQueue Priority :=
  pq.map fun item => if item.ptr = ptr then { item with value := value, priority := priority } else item

@[simp] theorem length_swap (pq : ItemQueue Priority) (i j : Nat) :
    List.length (pq.swap i j) = pq.length := by
  simp only [swap]
  split <;> simp

def entry (item : ItemRef Priority) : Nat × TcpPacket × Priority := (item.ptr, item.value, item.priority)

def entries (pq : ItemQueue Priority) : List (Nat × TcpPacket × Priority) := pq.map entry

theorem ptrs_eq (pq : ItemQueue Priority) : pq.map (·.ptr) = pq.entries.map Prod.fst := by
  simp [entries, entry, Function.comp_def]

theorem entries_assign {pq : ItemQueue Priority} {i : Nat} {item : ItemRef Priority}
    (distinct : (pq.map (·.ptr)).Nodup) (here : pq[i]? = some item) (value : TcpPacket)
    (priority : Priority) :
    (pq.assign item.ptr value priority).entries = pq.entries.set i (item.ptr, value, priority) := by
  -- With distinct items the assignment changes one position.
  apply List.ext_getElem?
  intro k
  simp only [entries, assign, List.map_map, List.getElem?_map, List.getElem?_set, List.length_map]
  obtain ⟨bound, _⟩ := List.getElem?_eq_some_iff.mp here
  split
  · rename_i same
    subst same
    simp only [here, if_pos, Option.map_some, Function.comp_apply, entry]
  · rename_i other
    cases found : pq[k]? with
    | none => rfl
    | some moved =>
        -- the pointer stands at no second position
        have apart : moved.ptr ≠ item.ptr := fun same => other <| by
          refine (List.getElem?_inj (by simpa using bound) distinct).mp ?_
          simp only [List.getElem?_map, here, found, Option.map_some, same]
        simp [apart, entry]

def Indexed (pq : ItemQueue Priority) : Prop :=
  ∀ (i : Nat) (item : ItemRef Priority), pq[i]? = some item → item.index = i

theorem Indexed.set {pq : ItemQueue Priority} (indexed : Indexed pq) (i : Nat) (item : ItemRef Priority) :
    Indexed (pq.set i { item with index := i }) := by
  intro k other found
  rw [List.getElem?_set] at found
  split at found
  · rename_i same
    split at found
    · cases found
      exact congrArg Int.ofNat same
    · cases found
  · exact indexed k other found

theorem Indexed.swap {pq : ItemQueue Priority} (indexed : Indexed pq) (i j : Nat) :
    Indexed (pq.swap i j) := by
  simp only [ItemQueue.swap]
  split
  · exact (indexed.set i _).set j _
  · exact indexed

theorem Indexed.push {pq : ItemQueue Priority} (indexed : Indexed pq) (item : ItemRef Priority) :
    Indexed (pq.push item) := by
  intro i other found
  simp only [ItemQueue.push, List.getElem?_append] at found
  split at found
  · exact indexed i other found
  · obtain ⟨bound, rfl⟩ := List.getElem?_eq_some_iff.mp found
    simp only [List.length_singleton] at bound
    simp only [List.getElem_singleton]
    omega

theorem Indexed.assign {pq : ItemQueue Priority} (indexed : Indexed pq) (ptr : Nat) (value : TcpPacket)
    (priority : Priority) : Indexed (pq.assign ptr value priority) := by
  intro i item found
  simp only [ItemQueue.assign, List.getElem?_map, Option.map_eq_some_iff] at found
  obtain ⟨old, foundOld, rfl⟩ := found
  have here := indexed i old foundOld
  split <;> exact here

variable [LinearOrder Priority]

def less (pq : ItemQueue Priority) (i j : Nat) : Bool :=
  match pq[i]?, pq[j]? with
  | some first, some second => first.priority < second.priority
  | _, _ => false

def heapInterface : Heap.Interface (ItemQueue Priority) (ItemRef Priority) where
  len := len
  less := less
  swap := swap
  push := push
  pop := pop

def update (pq : ItemQueue Priority) (ptr : Nat) (value : TcpPacket) (priority : Priority) :
    Option (ItemQueue Priority) :=
  match pq.find? (fun item => item.ptr = ptr) with
  | none => none
  | some item =>
      match item.index with
      | .ofNat i => some (Heap.fix heapInterface (pq.assign ptr value priority) i)
      -- the `Index` of an item that was popped: there is nothing to sift
      | .negSucc _ => some (pq.assign ptr value priority)

theorem heapInterface_lawful : Heap.Lawful heapInterface entries (entry : ItemRef Priority → _) where
  len_view items := by simp [heapInterface, len, entries]
  swap_view items i j left atI right atJ := by
    simp only [entries, List.getElem?_map, Option.mem_def, Option.map_eq_some_iff] at atI atJ
    obtain ⟨first, foundI, rfl⟩ := atI
    obtain ⟨second, foundJ, rfl⟩ := atJ
    simp [heapInterface, swap, entries, foundI, foundJ, List.map_set, entry]
  push_view items item := by simp [heapInterface, push, entries, entry]
  pop_view items front last view := by
    obtain ⟨init, final, rfl, rfl, mapped⟩ := List.map_eq_append_iff.mp view
    obtain ⟨item, rest, rfl, rfl, none⟩ := List.map_eq_cons_iff.mp mapped
    obtain rfl := List.map_eq_nil_iff.mp none
    exact ⟨{ item with index := -1 }, init, by simp [heapInterface, pop], rfl, rfl⟩

theorem ranked : Heap.Ranked heapInterface entries (fun key : Nat × TcpPacket × Priority => key.2.2) := by
  intro pq i j boundI boundJ
  simp only [entries, List.length_map] at boundI boundJ
  simp only [heapInterface, less, Heap.rankAt, entries, List.getElem?_map,
    List.getElem?_eq_getElem boundI, List.getElem?_eq_getElem boundJ, Option.map_some, entry,
    decide_eq_true_eq, WithTop.coe_lt_coe]

def IsHeap (pq : ItemQueue Priority) : Prop :=
  Heap.IsHeap entries (fun key : Nat × TcpPacket × Priority => key.2.2) pq

def erase (item : ItemRef Nat) : TcpPacketItem :=
  { value := item.value, priority := item.priority, index := item.index }

/-- Without the identities this is the queue of the receiver's model. -/
theorem simulates : Heap.Simulates heapInterface PriorityQueue.heapInterface erase (List.map erase) where
  len items := List.length_map _
  less items i j := by
    simp only [heapInterface, PriorityQueue.heapInterface, less, PriorityQueue.less, List.getElem?_map]
    cases items[i]? <;> cases items[j]? <;> rfl
  swap items i j := by
    simp only [heapInterface, PriorityQueue.heapInterface, swap, PriorityQueue.swap, List.getElem?_map]
    cases items[i]? <;> cases items[j]? <;> simp [List.map_set, erase]
  push items item := by simp [heapInterface, PriorityQueue.heapInterface, push, PriorityQueue.push, erase]
  pop items := by
    simp only [heapInterface, PriorityQueue.heapInterface, pop, PriorityQueue.pop, List.getLast?_map]
    cases items.getLast? <;> simp [erase]

theorem heapPush_erase (pq : ItemQueue Nat) (item : ItemRef Nat) :
    PriorityQueue.heapPush (pq.map erase) (erase item) = (Heap.push heapInterface pq item).map erase :=
  simulates.heapPush pq item

theorem heapPop_erase (pq : ItemQueue Nat) :
    PriorityQueue.heapPop (pq.map erase) =
      ((Heap.pop heapInterface pq).map fun popped => popped.2.map erase).getD (pq.map erase) := by
  simp only [PriorityQueue.heapPop, simulates.heapPop pq]
  cases Heap.pop heapInterface pq <;> rfl

/-! ## Positions -/

theorem Indexed.heapPush {pq : ItemQueue Priority} (indexed : Indexed pq) (item : ItemRef Priority) :
    Indexed (Heap.push heapInterface pq item) := by
  refine heapInterface_lawful.up_keeps Indexed (fun _ i j _ _ kept => kept.swap i j) _ _ _ ?_
    (indexed.push item)
  simp [heapInterface, len, ItemQueue.push, entries]

theorem Indexed.heapPop {pq rest : ItemQueue Priority} {item : ItemRef Priority} (indexed : Indexed pq)
    (popped : Heap.pop heapInterface pq = some (item, rest)) : Indexed rest ∧ item.index = -1 := by
  -- `heap.Pop` takes an item off the end, once the swaps have brought it there.
  have bound : List.length pq - 1 ≤ (entries (pq.swap 0 (List.length pq - 1))).length := by
    simp [entries]
  have sifted := heapInterface_lawful.down_keeps Indexed (fun _ i j _ _ kept => kept.swap i j) _
    (List.length pq - 1) _ 0 bound (indexed.swap 0 _)
  simp only [Heap.pop, heapInterface, len] at popped sifted
  revert popped sifted
  generalize (Heap.down _ _ _ _ 0).1 = moved
  intro popped sifted
  simp only [pop] at popped
  split at popped
  · cases popped
    refine ⟨fun i other found => sifted i other ?_, rfl⟩
    rw [List.getElem?_dropLast] at found
    split at found
    · exact found
    · cases found
  · cases popped

theorem Indexed.fix {pq : ItemQueue Priority} (indexed : Indexed pq) {i : Nat} (bound : i < pq.length) :
    Indexed (Heap.fix heapInterface pq i) :=
  heapInterface_lawful.fix_keeps Indexed (fun _ i j _ _ kept => kept.swap i j) pq i
    (by simpa [entries] using bound) indexed

/-! ## Updates -/

theorem update_found {pq after : ItemQueue Priority} {ptr : Nat} {value : TcpPacket} {priority : Priority}
    (indexed : Indexed pq) (updates : pq.update ptr value priority = some after) :
    ∃ i, ∃ item, pq[i]? = some item ∧ item.ptr = ptr ∧
      after = Heap.fix heapInterface (pq.assign ptr value priority) i := by
  simp only [update] at updates
  split at updates
  · cases updates
  · rename_i item found
    have isPtr : item.ptr = ptr := by simpa using List.find?_some found
    obtain ⟨i, bound, here⟩ := List.mem_iff_getElem.mp (List.mem_of_find?_eq_some found)
    have atI : pq[i]? = some item := List.getElem?_eq_some_iff.mpr ⟨bound, here⟩
    have index := indexed i item atI
    rw [index] at updates
    exact ⟨i, item, atI, isPtr, (Option.some.inj updates).symm⟩

/-- `Update` puts the new value and priority in the place of the old ones, and the order is
restored around them. -/
theorem update_spec {pq after : ItemQueue Priority} {ptr : Nat} {value : TcpPacket} {priority : Priority}
    (heap : IsHeap pq) (indexed : Indexed pq) (distinct : (pq.map (·.ptr)).Nodup)
    (updates : pq.update ptr value priority = some after) :
    IsHeap after ∧ Indexed after ∧ ∃ (i : Nat) (item : ItemRef Priority), pq[i]? = some item ∧
      item.ptr = ptr ∧ after.entries.Perm (pq.entries.set i (ptr, value, priority)) := by
  obtain ⟨i, item, here, rfl, rfl⟩ := update_found indexed updates
  obtain ⟨bound, _⟩ := List.getElem?_eq_some_iff.mp here
  have changed := entries_assign distinct here value priority
  have boundChanged : i < (pq.assign item.ptr value priority).entries.length := by
    rw [changed, List.length_set, entries, List.length_map]
    exact bound
  refine ⟨heapInterface_lawful.fix_heap ranked _ i boundChanged ?_,
    (indexed.assign _ _ _).fix (by simpa [entries] using boundChanged), i, item, here, rfl, ?_⟩
  · rw [changed, List.length_set]
    refine Heap.Ordered.around heap (by simpa [entries] using bound) fun k other => ?_
    simp only [Heap.rankAt, List.getElem?_set_ne (Ne.symm other)]
  · rw [← changed]
    exact heapInterface_lawful.fix_perm _ i boundChanged

/-! ## Runs of operations -/

/-- A queue with what was done to it: the pointers that `heap.Push` was given and `heap.Pop`
has returned, and what was last assigned to each item. -/
structure History (Priority : Type) where
  queue : ItemQueue Priority
  pushed : List Nat
  popped : List Nat
  latest : Nat → Option (TcpPacket × Priority)

def History.start : History Priority :=
  { queue := [], pushed := [], popped := [], latest := fun _ => none }

inductive Operation (Priority : Type) where
  | push (item : ItemRef Priority)
  | pop
  | update (ptr : Nat) (value : TcpPacket) (priority : Priority)
  deriving DecidableEq, Repr

def History.step (history : History Priority) : Operation Priority → Option (History Priority)
  -- An item is not pushed while it is queued, and only a queued one is updated.
  | .push item =>
      if item.ptr ∈ history.queue.map (·.ptr) then none
      else some {
        queue := Heap.push heapInterface history.queue item
        pushed := item.ptr :: history.pushed
        popped := history.popped
        latest := Function.update history.latest item.ptr (some (item.value, item.priority)) }
  | .pop =>
      match Heap.pop heapInterface history.queue with
      | none => none
      | some (item, rest) => some { history with queue := rest, popped := item.ptr :: history.popped }
  | .update ptr value priority =>
      match history.queue.update ptr value priority with
      | none => none
      | some after => some { history with
          queue := after
          latest := Function.update history.latest ptr (some (value, priority)) }

structure History.Kept (history : History Priority) : Prop where
  heap : IsHeap history.queue
  indexed : Indexed history.queue
  distinct : (history.queue.entries.map Prod.fst).Nodup
  balance : (history.queue.entries.map Prod.fst ++ history.popped).Perm history.pushed
  latest : ∀ key ∈ history.queue.entries, history.latest key.1 = some key.2

theorem History.kept_start : (History.start : History Priority).Kept where
  heap := fun _ _ bound => absurd bound (Nat.not_lt_zero _)
  indexed i item found := by simp [start] at found
  distinct := List.nodup_nil
  balance := List.Perm.refl _
  latest key member := by simp [start, entries] at member

theorem History.Kept.push {history : History Priority} (kept : history.Kept) (item : ItemRef Priority)
    (fresh : item.ptr ∉ history.queue.map (·.ptr)) :
    History.Kept {
      queue := Heap.push heapInterface history.queue item
      pushed := item.ptr :: history.pushed
      popped := history.popped
      latest := Function.update history.latest item.ptr (some (item.value, item.priority)) } := by
  have perm := heapInterface_lawful.push_perm history.queue item
  have ptrs := perm.map Prod.fst
  rw [ptrs_eq] at fresh
  refine ⟨heapInterface_lawful.push_heap ranked kept.heap item, kept.indexed.heapPush item, ?_, ?_, ?_⟩
  · exact ptrs.nodup_iff.mpr (List.nodup_cons.mpr ⟨fresh, kept.distinct⟩)
  · exact (ptrs.append_right _).trans (kept.balance.cons item.ptr)
  · intro key member
    rcases List.mem_cons.mp (perm.mem_iff.mp member) with rfl | old
    · exact Function.update_self ..
    · have apart : key.1 ≠ item.ptr := fun same => fresh (same ▸ List.mem_map_of_mem old)
      exact (Function.update_of_ne apart _ _).trans (kept.latest key old)

theorem History.Kept.pops {history : History Priority} (kept : history.Kept) {root : ItemRef Priority}
    {others : ItemQueue Priority} (nonempty : history.queue = root :: others) :
    ∃ rest, Heap.pop heapInterface history.queue = some ({ root with index := -1 }, rest) ∧
      IsHeap rest ∧ Indexed rest ∧ (entries rest).Perm (entries others) := by
  have view : history.queue.entries = entry root :: entries others := by rw [nonempty]; rfl
  obtain ⟨item, rest, popped, keyed, perm, _⟩ := heapInterface_lawful.pop_sifted _ _ _ view
  obtain ⟨indexed, index⟩ := kept.indexed.heapPop popped
  obtain ⟨_, _, same, heap⟩ := heapInterface_lawful.pop_heap ranked kept.heap view
  rw [popped] at same
  cases same
  have whole : item = { root with index := -1 } := by
    obtain ⟨ptr, value, priority, _⟩ := item
    simp only [entry, Prod.mk.injEq] at keyed index
    obtain ⟨rfl, rfl, rfl⟩ := keyed
    rw [index]
  exact ⟨rest, whole ▸ popped, heap, indexed, perm⟩

theorem History.Kept.pop {history : History Priority} (kept : history.Kept) {item : ItemRef Priority}
    {rest : ItemQueue Priority} (popped : Heap.pop heapInterface history.queue = some (item, rest)) :
    History.Kept { history with queue := rest, popped := item.ptr :: history.popped } := by
  cases queued : history.queue with
  | nil =>
      rw [queued] at popped
      cases popped
  | cons root others =>
      obtain ⟨_, same, heap, indexed, perm⟩ := kept.pops queued
      rw [popped] at same
      cases same
      have ptrs := perm.map Prod.fst
      obtain ⟨_, _, distinct, balance, latest⟩ := kept
      simp only [queued, entries, List.map_cons] at distinct balance latest
      refine ⟨heap, indexed, ?_, ?_, ?_⟩
      · exact ptrs.nodup_iff.mpr (List.nodup_cons.mp distinct).2
      · exact ((ptrs.append_right _).trans List.perm_middle).trans balance
      · intro key member
        exact latest key (List.mem_cons_of_mem _ (perm.mem_iff.mp member))

theorem History.Kept.update {history : History Priority} (kept : history.Kept) {ptr : Nat}
    {value : TcpPacket} {priority : Priority} {after : ItemQueue Priority}
    (updates : history.queue.update ptr value priority = some after) :
    History.Kept { history with
      queue := after
      latest := Function.update history.latest ptr (some (value, priority)) } := by
  obtain ⟨heap, indexed, i, item, here, rfl, perm⟩ :=
    update_spec kept.heap kept.indexed (ptrs_eq history.queue ▸ kept.distinct) updates
  have changed : (history.queue.entries.set i (item.ptr, value, priority)).map Prod.fst =
      history.queue.entries.map Prod.fst := by
    obtain ⟨bound, here⟩ := List.getElem?_eq_some_iff.mp here
    have boundPtrs : i < (history.queue.entries.map Prod.fst).length := by simpa [entries] using bound
    have stands : item.ptr = (history.queue.entries.map Prod.fst)[i] := by simp [entries, entry, here]
    rw [List.map_set, stands, List.set_getElem_self]
  have ptrs := perm.map Prod.fst
  rw [changed] at ptrs
  refine ⟨heap, indexed, ptrs.nodup_iff.mpr kept.distinct, (ptrs.append_right _).trans kept.balance, ?_⟩
  intro key member
  have among := perm.mem_iff.mp member
  by_cases same : key.1 = item.ptr
  · -- the pointer is in one entry only, the new one
    have new : key = (item.ptr, value, priority) :=
      List.inj_on_of_nodup_map (changed ▸ kept.distinct) among
        (List.mem_set (by simpa [entries] using (List.getElem?_eq_some_iff.mp here).1) _) same
    rw [new]
    exact Function.update_self ..
  · have old := (List.mem_or_eq_of_mem_set among).resolve_right fun new => same (congrArg Prod.fst new)
    exact (Function.update_of_ne same _ _).trans (kept.latest key old)

theorem History.Kept.step {before after : History Priority} {operation : Operation Priority}
    (kept : before.Kept) (moves : before.step operation = some after) : after.Kept := by
  cases operation with
  | push item =>
      simp only [History.step] at moves
      split at moves
      · cases moves
      · cases moves
        exact kept.push item ‹_›
  | pop =>
      simp only [History.step] at moves
      split at moves
      · cases moves
      · cases moves
        exact kept.pop ‹_›
  | update ptr value priority =>
      simp only [History.step] at moves
      split at moves
      · cases moves
      · cases moves
        exact kept.update ‹_›

theorem IsHeap.parent_le {pq : ItemQueue Priority} (heap : IsHeap pq) {i : Nat}
    {item parent : ItemRef Priority} (positive : 0 < i) (here : pq[i]? = some item)
    (above : pq[(i - 1) / 2]? = some parent) : parent.priority ≤ item.priority := by
  obtain ⟨bound, _⟩ := List.getElem?_eq_some_iff.mp here
  have ordered := heap i positive (by simpa [entries] using bound)
  simpa [Heap.rankAt, entries, here, above, entry] using ordered

/-- Whatever is pushed, popped and updated, starting from the empty queue: the slice is a
min-heap, every item knows its position and has the value and priority last assigned to it,
what is queued is what was pushed and not popped, and `heap.Pop` returns a least item. -/
theorem operations_sound {history : History Priority}
    (run : Run History.step anyEvent History.start history) :
    (∀ (i : Nat) (item parent : ItemRef Priority), 0 < i → history.queue[i]? = some item →
      history.queue[(i - 1) / 2]? = some parent → parent.priority ≤ item.priority) ∧
    (∀ (i : Nat) (item : ItemRef Priority), history.queue[i]? = some item → item.index = i) ∧
    (history.queue.map (·.ptr)).Nodup ∧
    (history.queue.map (·.ptr) ++ history.popped).Perm history.pushed ∧
    (∀ item ∈ history.queue, history.latest item.ptr = some (item.value, item.priority)) ∧
    (history.queue ≠ [] → ∃ root ∈ history.queue, ∃ rest,
      Heap.pop heapInterface history.queue = some ({ root with index := -1 }, rest) ∧
      ∀ item ∈ history.queue, root.priority ≤ item.priority) := by
  have kept : history.Kept :=
    run.preserves _ (fun _ _ _ kept _ moves => kept.step moves) History.kept_start
  refine ⟨fun i item parent positive here above => kept.heap.parent_le positive here above,
    kept.indexed, ?_, ?_, ?_, ?_⟩
  · rw [ptrs_eq]
    exact kept.distinct
  · rw [ptrs_eq]
    exact kept.balance
  · intro item member
    exact kept.latest (entry item) (List.mem_map_of_mem member)
  · intro nonempty
    obtain ⟨root, others, queued⟩ := List.exists_cons_of_ne_nil nonempty
    obtain ⟨rest, popped, _⟩ := kept.pops queued
    refine ⟨root, by simp [queued], rest, popped, fun item member => ?_⟩
    have view : history.queue.entries = entry root :: entries others := by rw [queued]; rfl
    exact Heap.IsHeap.root_le kept.heap view (entry item) (List.mem_map_of_mem member)

def anyPacket : TcpPacket :=
  { srcIP := 0, data := [],
    header := {
      srcPort := 0, dstPort := 0, seqNum := 0, ackNum := 0, dataOffset := 20, flags := tcpFlagAck,
      windowSize := 0, checksum := 0, urgentPointer := 0 } }

def mixedOperations : List (Operation Int) :=
  -- Four items are pushed, one is popped, and one of the others becomes the least by an update.
  [.push { ptr := 1, value := anyPacket, priority := 30 },
   .push { ptr := 2, value := anyPacket, priority := 10 },
   .push { ptr := 3, value := anyPacket, priority := 20 },
   .push { ptr := 4, value := anyPacket, priority := 5 },
   .pop, .update 1 anyPacket (-7)]

theorem mixedOperations_reach :
    (exec History.step anyEvent History.start mixedOperations).isSome := by decide +kernel

theorem operations_sound_mixed :
    ∃ history : History Int, Run History.step anyEvent History.start history ∧
      history.queue.map (fun item => (item.ptr, item.priority, item.index)) =
        [(1, -7, 0), (2, 10, 1), (3, 20, 2)] ∧
      ∃ root ∈ history.queue, ∃ rest,
        Heap.pop heapInterface history.queue = some ({ root with index := -1 }, rest) ∧
        ∀ item ∈ history.queue, root.priority ≤ item.priority := by
  have queued : ((exec History.step anyEvent History.start mixedOperations).get
        mixedOperations_reach).queue.map
      (fun item => (item.ptr, item.priority, item.index)) =
        [(1, -7, 0), (2, 10, 1), (3, 20, 2)] := by decide +kernel
  refine ⟨_, Run.ofSome mixedOperations_reach, queued, ?_⟩
  have sound := operations_sound (Run.ofSome mixedOperations_reach)
  refine sound.2.2.2.2.2 fun empty => ?_
  rw [empty] at queued
  cases queued

end ItemQueue

end IpTcp.Tcp
