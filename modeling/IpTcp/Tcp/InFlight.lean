import IpTcp.Tcp.AckProcessing
import IpTcp.Tcp.EarlyArrivals
import IpTcp.Tcp.Joint

/-! Which segments `inFlightList` holds. `HandleWrites` sends a segment first and pushes it onto
the list later, and an acknowledgement may be handled in between: it takes off the list what
it covers, but not a segment that is not there yet. -/

set_option autoImplicit false

namespace IpTcp.Tcp

open RingBuffer Lib

variable {Buffer : Type}

namespace TcpSocket

theorem removeAcked_closes_socket (rel : UInt32) (sock : TcpSocket Buffer) (items : List TcpPacketItem)
    (closes : (removeAcked rel sock items).2 = true) : (removeAcked rel sock items).1.closed = true := by
  induction items generalizing sock with
  | nil => cases closes
  | cons item rest ih =>
      simp only [removeAcked] at closes ⊢
      split at closes
      · split at closes
        · rename_i covered last
          rw [if_pos covered, if_pos last]
        · rename_i covered last
          rw [if_pos covered, if_neg last]
          exact ih (sock.ackedItem item) closes
      · cases closes

theorem removeAcked_rest (rel : UInt32) (sock : TcpSocket Buffer) (items : List TcpPacketItem)
    (stays : (removeAcked rel sock items).2 = false) {item : TcpPacketItem} {rest : List TcpPacketItem}
    (front : (removeAcked rel sock items).1.inFlightList = item :: rest) :
    rel.toNat < item.priority + item.value.payloadSize := by
  induction items generalizing sock with
  | nil => cases front
  | cons first others ih =>
      simp only [removeAcked] at stays front
      split at stays
      · rename_i covered
        split at stays
        · cases stays
        · rename_i last
          rw [if_pos covered, if_neg last] at front
          exact ih (sock.ackedItem first) stays front
      · rename_i uncovered
        rw [if_neg uncovered] at front
        cases front
        exact Nat.lt_of_not_le uncovered

theorem receiveAck_front (sock : TcpSocket Buffer) (tcpHdr : TCPFields)
    (live : (sock.receiveAck tcpHdr).1.closed = false)
    (newer : sock.largestAckReceived < tcpHdr.ackNum) {item : TcpPacketItem}
    {rest : List TcpPacketItem} (front : (sock.receiveAck tcpHdr).1.inFlightList = item :: rest) :
    (tcpHdr.ackNum - sock.myInitSeqNum).toNat < item.priority + item.value.payloadSize := by
  have closes := removeAcked_closes_socket (tcpHdr.ackNum - sock.myInitSeqNum) (sock.storeAck tcpHdr)
    sock.inFlightList
  have stays := @removeAcked_rest _ (tcpHdr.ackNum - sock.myInitSeqNum) (sock.storeAck tcpHdr)
    sock.inFlightList
  unfold receiveAck at live front
  rw [if_neg (UInt32.not_lt.mpr (UInt32.le_of_lt newer)), if_neg (UInt32.ne_of_lt newer).symm] at live front
  generalize (sock.storeAck tcpHdr).removeAcked (tcpHdr.ackNum - sock.myInitSeqNum)
    sock.inFlightList = result at closes stays live front
  obtain ⟨after, ended⟩ := result
  cases ended with
  | true =>
      -- the FIN was covered in LAST_ACK: the loop is left early, but with the socket closed
      have closed := closes rfl
      simp only at live closed
      rw [closed] at live
      cases live
  | false => exact stays rfl front

variable [RingBuffer Buffer]

theorem drainEarlyArrivals_closed (sock : TcpSocket Buffer) :
    (sock.drainEarlyArrivals sock.earlyArrivalQueue.length).1.closed = sock.closed := by
  have turn : ∀ (other : TcpSocket Buffer) root others, other.closed = sock.closed →
      other.earlyArrivalQueue = root :: others → root.priority = other.nextExpectedByte.toNat →
      (other.drained root).closed = sock.closed := fun _ _ _ same _ _ => same
  exact (drainEarlyArrivals_loop turn _ sock (Nat.le_refl _) rfl).1

variable [Netstack]

theorem receiveData_closed (sock : TcpSocket Buffer) (packet : TcpPacket) :
    (sock.receiveData packet).1.closed = sock.closed := by
  have written : (sock.writeIntoReadBuffer packet.data).1.closed = sock.closed := by
    rw [writeIntoReadBuffer_fst]
  unfold receiveData
  split
  · split
    · exact (drainEarlyArrivals_closed _).trans written
    · rfl
  split
  · unfold queueEarlyArrival
    dsimp only
    split <;> rfl
  · rfl

theorem handlePacket_acked (sock : TcpSocket Buffer) (packet : TcpPacket) :
    SameSender sock (sock.handlePacket packet).1 ∨
      (SameSender (sock.receiveAck packet.header).1 (sock.handlePacket packet).1 ∧
        (sock.handlePacket packet).1.closed = (sock.receiveAck packet.header).1.closed) := by
  unfold handlePacket
  split
  · exact Or.inl (SameSender.refl sock)
  split
  · exact Or.inl (SameSender.refl sock)
  split
  · refine Or.inr ?_
    split
    · rename_i after effects result
      rw [result]
      exact ⟨SameSender.refl after, rfl⟩
    · rename_i after effects result
      rw [result]
      split
      · exact ⟨SameSender.refl after, rfl⟩
      · exact ⟨(after.receiveData_sender packet).1, after.receiveData_closed packet⟩
  split
  · exact Or.inl (sock.receiveFin_sender packet).1
  · exact Or.inl (SameSender.refl sock)

/-- A packet that brings a newer acknowledgement, and does not close the socket, leaves nothing
that it covers at the front of the list. -/
theorem handlePacket_front (sock : TcpSocket Buffer) (packet : TcpPacket)
    (live : (sock.handlePacket packet).1.closed = false)
    (newer : (sock.handlePacket packet).1.largestAckReceived ≠ sock.largestAckReceived)
    {item : TcpPacketItem} {rest : List TcpPacketItem}
    (front : (sock.handlePacket packet).1.inFlightList = item :: rest) :
    ((sock.handlePacket packet).1.largestAckReceived - sock.myInitSeqNum).toNat <
      item.priority + item.value.payloadSize := by
  rcases sock.handlePacket_acked packet with same | ⟨same, closed⟩
  · exact absurd same.largestAckReceived newer
  · rw [same.largestAckReceived] at newer ⊢
    rw [same.inFlightList] at front
    rw [closed] at live
    have largest := sock.receiveAck_largest packet.header
    by_cases old : packet.header.ackNum < sock.largestAckReceived
    · rw [if_pos old] at largest
      exact absurd largest newer
    · rw [if_neg old] at largest
      rw [largest] at newer ⊢
      exact sock.receiveAck_front packet.header live
        (UInt32.lt_of_le_of_ne (UInt32.not_lt.mp old) (Ne.symm newer)) front

theorem handlePacket_newer (sock : TcpSocket Buffer) (packet : TcpPacket)
    (newer : (sock.handlePacket packet).1.largestAckReceived ≠ sock.largestAckReceived) :
    ∃ removed, Acknowledges packet.header sock removed (sock.handlePacket packet).1 ∧
      sock.largestAckReceived < packet.header.ackNum ∧
      (sock.handlePacket packet).1.largestAckReceived = packet.header.ackNum := by
  rcases handlePacket_sender sock packet with ⟨same, _⟩ | ⟨_, ⟨removed, acknowledges⟩, _⟩
  · exact absurd same.largestAckReceived newer
  · rcases acknowledges.stored with ⟨_, equal, _⟩ | ⟨above, stored, _⟩
    · exact absurd equal newer
    · exact ⟨removed, acknowledges, above, stored⟩

theorem handlePacket_sameList (sock : TcpSocket Buffer) (packet : TcpPacket)
    (same : (sock.handlePacket packet).1.largestAckReceived = sock.largestAckReceived) :
    (sock.handlePacket packet).1.inFlightList = sock.inFlightList := by
  rcases handlePacket_sender sock packet with ⟨sender, _⟩ | ⟨_, ⟨removed, acknowledges⟩, _⟩
  · exact sender.inFlightList
  · rcases acknowledges.stored with ⟨rfl, _⟩ | ⟨newer, stored, _⟩
    · exact acknowledges.list.symm
    · rw [← stored, same] at newer
      exact absurd newer (UInt32.lt_irrefl _)

end TcpSocket

namespace Endpoint

def ackedUpTo (e : Endpoint Buffer) : Nat :=
  (e.sock.largestAckReceived - e.sock.myInitSeqNum).toNat

def Unacked (e : Endpoint Buffer) (packet : TcpPacket) : Prop :=
  e.ackedUpTo < e.relNum packet + packet.payloadSize
  deriving Decidable

def InFlightExact (e : Endpoint Buffer) : Prop :=
  e.sock.inFlightList.map (·.value) = e.sent.filter fun packet => decide (e.Unacked packet)

/-- The segments that were taken off the list are acknowledged, and those on it are not. Before
the first acknowledgement none were taken off. -/
def Tracked (e : Endpoint Buffer) : Prop :=
  ∃ acked, e.sent = acked ++ e.sock.inFlightList.map (·.value) ++ e.writer.unpushed ∧
    (e.acks = [] → acked = []) ∧
    (e.acks ≠ [] → (∀ packet ∈ acked, ¬ e.Unacked packet) ∧
      ∀ packet ∈ e.sock.inFlightList.map (·.value), e.Unacked packet)

structure NoWrap (e : Endpoint Buffer) : Prop where
  short : e.transmitted.length + 2 < 2 ^ 32
  acks : ∀ ackNum ∈ e.acks, e.sock.myInitSeqNum ≤ ackNum

instance (e : Endpoint Buffer) : Decidable e.NoWrap :=
  decidable_of_iff (e.transmitted.length + 2 < 2 ^ 32 ∧
      e.acks.all (fun ackNum => decide (e.sock.myInitSeqNum ≤ ackNum)) = true)
    ⟨fun holds => ⟨holds.1, by simpa using holds.2⟩,
      fun noWrap => ⟨noWrap.short, by simpa using noWrap.acks⟩⟩

theorem Tracked.exact {e : Endpoint Buffer} (tracked : e.Tracked) (acks : e.acks ≠ [])
    (pushed : e.writer.unpushed = []) : e.InFlightExact := by
  obtain ⟨acked, split, _, known⟩ := tracked
  obtain ⟨covered, uncovered⟩ := known acks
  rw [pushed, List.append_nil] at split
  have gone : acked.filter (fun packet => decide (e.Unacked packet)) = [] :=
    List.filter_eq_nil_iff.mpr fun packet member => by simpa using covered packet member
  have kept : (e.sock.inFlightList.map (·.value)).filter (fun packet => decide (e.Unacked packet)) =
      e.sock.inFlightList.map (·.value) :=
    List.filter_eq_self.mpr fun packet member => decide_eq_true (uncovered packet member)
  rw [InFlightExact, split, List.filter_append, gone, kept, List.nil_append]

/-- A segment ends before a later one starts. -/
theorem Numbered.later {e : Endpoint Buffer} (numbered : e.Numbered)
    (short : e.transmitted.length + 2 < 2 ^ 32) {before middle after : List TcpPacket}
    {first second : TcpPacket} (split : e.sent = before ++ first :: (middle ++ second :: after)) :
    e.relNum first + first.payloadSize ≤ e.relNum second := by
  have regroup : e.sent = (before ++ first :: middle) ++ second :: after := by
    rw [split, List.append_assoc]
    rfl
  have segments := numbered.segments
  rw [regroup] at segments
  have data : IsData first := segments.before.1 first (by simp)
  rw [numbered.relNum short split, numbered.relNum short regroup, data.payloadSize, payloads_append,
    payloads_cons]
  simp only [List.length_append]
  omega

theorem Numbered.unacked {e : Endpoint Buffer} (numbered : e.Numbered)
    (short : e.transmitted.length + 2 < 2 ^ 32) {before rest after : List TcpPacket}
    {first : TcpPacket} (split : e.sent = before ++ first :: rest ++ after)
    (unacked : e.Unacked first) : ∀ packet ∈ first :: rest, e.Unacked packet := by
  intro packet member
  rcases List.mem_cons.mp member with rfl | later
  · exact unacked
  · obtain ⟨middle, others, rfl⟩ := List.append_of_mem later
    have regroup : e.sent = before ++ first :: (middle ++ packet :: (others ++ after)) := by
      simpa using split
    have order := numbered.later short regroup
    unfold Unacked at unacked ⊢
    omega

theorem Numbered.inOrder {e : Endpoint Buffer} (numbered : e.Numbered)
    (short : e.transmitted.length + 2 < 2 ^ 32) :
    e.sent.Pairwise fun packet later => e.relNum packet < e.relNum later := by
  -- by induction on a tail of the list; what comes before it fixes the numbers in it
  have suffix : ∀ rest before, e.sent = before ++ rest →
      rest.Pairwise fun packet later => e.relNum packet < e.relNum later := by
    intro rest
    induction rest with
    | nil => exact fun _ _ => List.Pairwise.nil
    | cons first rest ih =>
        intro before split
        refine List.Pairwise.cons (fun packet member => ?_) (ih (before ++ [first]) (by simpa using split))
        obtain ⟨middle, others, rfl⟩ := List.append_of_mem member
        have order := numbered.later short split
        have size : 1 ≤ first.payloadSize := by
          unfold TcpPacket.payloadSize
          split <;> omega
        omega
  exact suffix e.sent [] rfl

theorem unacked_iff {e after : Endpoint Buffer}
    (isn : after.sock.myInitSeqNum = e.sock.myInitSeqNum)
    (largest : after.sock.largestAckReceived = e.sock.largestAckReceived) (packet : TcpPacket) :
    after.Unacked packet ↔ e.Unacked packet := by
  simp only [Unacked, ackedUpTo, relNum, isn, largest]

theorem ackedUpTo_le {e : Endpoint Buffer} {ackNum : UInt32}
    (low : e.sock.myInitSeqNum ≤ e.sock.largestAckReceived)
    (newer : e.sock.largestAckReceived < ackNum) :
    e.ackedUpTo ≤ (ackNum - e.sock.myInitSeqNum).toNat := by
  have above := UInt32.le_trans low (UInt32.le_of_lt newer)
  rw [UInt32.lt_iff_toNat_lt] at newer
  rw [ackedUpTo, UInt32.toNat_sub_of_le _ _ low, UInt32.toNat_sub_of_le _ _ above]
  omega

theorem Tracked.moved {e after : Endpoint Buffer} (tracked : e.Tracked)
    (isn : after.sock.myInitSeqNum = e.sock.myInitSeqNum)
    (largest : after.sock.largestAckReceived = e.sock.largestAckReceived)
    (acks : after.acks = e.acks) {more : List TcpPacket} (sent : after.sent = e.sent ++ more)
    {pushed : List TcpPacket}
    (list : after.sock.inFlightList.map (·.value) = e.sock.inFlightList.map (·.value) ++ pushed)
    (unpushed : pushed ++ after.writer.unpushed = e.writer.unpushed ++ more)
    (unacked : e.acks ≠ [] → ∀ packet ∈ pushed, e.Unacked packet) : after.Tracked := by
  obtain ⟨acked, split, none, known⟩ := tracked
  refine ⟨acked, ?_, fun empty => none (acks ▸ empty), fun some => ?_⟩
  · rw [sent, split, list]
    simp only [List.append_assoc]
    rw [unpushed]
  · rw [acks] at some
    obtain ⟨covered, uncovered⟩ := known some
    refine ⟨fun packet member => ?_, fun packet member => (unacked_iff isn largest packet).mpr ?_⟩
    · rw [unacked_iff isn largest]
      exact covered packet member
    · rw [list] at member
      rcases List.mem_append.mp member with old | new
      · exact uncovered packet old
      · exact unacked some packet new

variable [RingBuffer Buffer]

structure Tracking (e : Endpoint Buffer) : Prop where
  sender : e.Sender
  recorded : e.Recorded
  tracked : e.NoWrap → e.sock.closed = false → e.Tracked

theorem Opened.tracking {e : Endpoint Buffer} (opened : Opened e) : e.Tracking := by
  refine ⟨opened.sender, ?_, fun _ _ => ?_⟩
  · cases opened with
    | client => exact Or.inr List.mem_cons_self
    | server => exact Or.inl rfl
  · have list : e.sock.inFlightList = [] := by cases opened <;> rfl
    have sent : e.sent = e.writer.unpushed := by cases opened <;> rfl
    refine ⟨[], ?_, fun _ => rfl, fun _ => ⟨?_, ?_⟩⟩
    · rw [list, sent]
      rfl
    · exact fun _ member => absurd member List.not_mem_nil
    · rw [list]
      exact fun _ member => absurd member List.not_mem_nil

section
variable [Netstack]

def pushedNext (e : Endpoint Buffer) : Option TcpPacket :=
  match e.writer with
  | .probePush packet => some packet
  | .pushing packet _ => some packet
  | .fin => some (e.sock.conn.seal (finHeader e.sock) [])
  | _ => none

def pushesUnacked (e : Endpoint Buffer) : Event → Prop
  | .handleWrites => ∀ packet ∈ e.pushedNext, e.acks ≠ [] → e.Unacked packet
  | _ => True

instance (e : Endpoint Buffer) : (event : Event) → Decidable (pushesUnacked e event)
  | .handleWrites =>
      inferInstanceAs (Decidable (∀ packet ∈ e.pushedNext, e.acks ≠ [] → e.Unacked packet))
  | .vWrite _ | .vWriteLoop _ | .vRead _ | .vReadLoop _ | .vShutdown _ | .handleRetransmission _
  | .handlePacket _ | .timeWaitOver => .isTrue trivial

variable {e after : Endpoint Buffer} {event : Event} {out : List TcpPacket}

theorem Tracked.sameAck (tracked : e.Tracked) (packet : TcpPacket)
    (same : (e.sock.handlePacket packet).1.largestAckReceived = e.sock.largestAckReceived) :
    (e.handlePacket packet).1.Tracked := by
  have isn := (TcpSocket.handlePacket_acts e.sock packet).sameIdentity.myInitSeqNum
  have list := congrArg (List.map (·.value)) (TcpSocket.handlePacket_sameList e.sock packet same)
  refine tracked.moved isn same (if_pos same) (List.append_nil _).symm
    (list.trans (List.append_nil _).symm) ?_ (by simp)
  simpa using handlePacket_unpushed e packet

theorem unacked_newer (packet : TcpPacket)
    (stored : (e.sock.handlePacket packet).1.largestAckReceived = packet.header.ackNum)
    (other : TcpPacket) : (e.handlePacket packet).1.Unacked other ↔
      (packet.header.ackNum - e.sock.myInitSeqNum).toNat < e.relNum other + other.payloadSize := by
  have isn := (TcpSocket.handlePacket_acts e.sock packet).sameIdentity.myInitSeqNum
  change ((e.sock.handlePacket packet).1.largestAckReceived -
    (e.sock.handlePacket packet).1.myInitSeqNum).toNat <
      (other.header.seqNum - (e.sock.handlePacket packet).1.myInitSeqNum).toNat + _ ↔ _
  rw [stored, isn]
  rfl

/-- The items that the acknowledgement removes join the acknowledged segments, and the first item
that it leaves is beyond it. -/
theorem Tracked.newerAck (tracked : e.Tracked) (numbered : e.Numbered) (recorded : e.Recorded)
    (packet : TcpPacket) (noWrap : (e.handlePacket packet).1.NoWrap)
    (live : (e.handlePacket packet).1.sock.closed = false)
    (differs : (e.sock.handlePacket packet).1.largestAckReceived ≠ e.sock.largestAckReceived) :
    (e.handlePacket packet).1.Tracked := by
  have isn := (TcpSocket.handlePacket_acts e.sock packet).sameIdentity.myInitSeqNum
  have acks : (e.handlePacket packet).1.acks =
      e.acks ++ [(e.sock.handlePacket packet).1.largestAckReceived] := if_neg differs
  obtain ⟨removed, acknowledges, newer, stored⟩ :=
    TcpSocket.handlePacket_newer e.sock packet differs
  obtain ⟨acked, split, none, known⟩ := tracked
  have regroup : e.sent = acked ++ removed.map (·.value) ++
      (e.sock.handlePacket packet).1.inFlightList.map (·.value) ++ e.writer.unpushed := by
    rw [split, acknowledges.list, List.map_append]
    simp only [List.append_assoc]
  have priority : ∀ item ∈ e.sock.inFlightList, item.priority = e.relNum item.value :=
    numbered.priorities
  rw [acknowledges.list] at priority
  refine ⟨acked ++ removed.map (·.value), ?_, fun empty => ?_, fun _ => ⟨?_, ?_⟩⟩
  · rw [handlePacket_unpushed]
    exact regroup
  · rw [acks] at empty
    simp at empty
  · intro other member
    rw [unacked_newer packet stored]
    rcases List.mem_append.mp member with old | new
    · -- what was acknowledged before, is so now
      have some : e.acks ≠ [] := fun empty => by simp [none empty] at old
      have low := noWrap.acks e.sock.largestAckReceived (by
        rw [acks]
        exact List.mem_append_left _ (recorded.resolve_left some))
      change (e.sock.handlePacket packet).1.myInitSeqNum ≤ _ at low
      rw [isn] at low
      have reached := ackedUpTo_le low newer
      have before := (known some).1 other old
      unfold Unacked at before
      omega
    · obtain ⟨item, found, rfl⟩ := List.mem_map.mp new
      have covered := acknowledges.covered item found
      rw [priority item (List.mem_append_left _ found)] at covered
      omega
  · change ∀ other ∈ (e.sock.handlePacket packet).1.inFlightList.map (·.value), _
    cases front : (e.sock.handlePacket packet).1.inFlightList with
    | nil => exact fun _ member => absurd member List.not_mem_nil
    | cons item rest =>
        have first := TcpSocket.handlePacket_front e.sock packet live differs front
        rw [front] at regroup priority
        rw [stored, priority item (List.mem_append_right _ List.mem_cons_self)] at first
        exact (numbered.settle packet).unacked noWrap.short regroup
          ((unacked_newer packet stored item.value).mpr first)

theorem Tracked.handlePacket (tracked : e.Tracked) (numbered : e.Numbered) (recorded : e.Recorded)
    (packet : TcpPacket) (noWrap : (e.handlePacket packet).1.NoWrap)
    (live : (e.handlePacket packet).1.sock.closed = false) : (e.handlePacket packet).1.Tracked := by
  by_cases same : (e.sock.handlePacket packet).1.largestAckReceived = e.sock.largestAckReceived
  · exact tracked.sameAck packet same
  · exact tracked.newerAck numbered recorded packet noWrap live same

theorem Tracked.step (tracked : e.Tracked) (numbered : e.Numbered) (recorded : e.Recorded)
    (moves : Moves e event out after) (guard : pushesUnacked e event) (noWrap : after.NoWrap)
    (live : after.sock.closed = false) : after.Tracked := by
  cases moves with
  | packet packet => exact tracked.handlePacket numbered recorded packet noWrap live
  | fin pc =>
      -- sent and pushed in one step; only an acknowledgement in advance can cover it
      have next : e.pushedNext = some (e.sock.conn.seal (finHeader e.sock) []) := by
        simp [pushedNext, pc]
      refine tracked.moved rfl rfl rfl rfl (List.map_append ..) ?_ fun acks packet member => ?_
      · rw [pc]
        rfl
      · rw [List.mem_singleton.mp member]
        exact guard _ next acks
  | probe pc =>
      refine tracked.moved rfl rfl rfl rfl (List.append_nil _).symm ?_ (by simp)
      rw [pc]
      rfl
  | send payload pc =>
      refine tracked.moved rfl rfl rfl rfl (List.append_nil _).symm ?_ (by simp)
      rw [pc]
      rfl
  | probePush packet pc =>
      refine tracked.moved rfl rfl rfl (List.append_nil _).symm (List.map_append ..) ?_
        fun acks other member => ?_
      · rw [pc]
        rfl
      · rw [List.mem_singleton.mp member]
        exact guard packet (by simp [pushedNext, pc]) acks
  | push packet payload pc =>
      refine tracked.moved rfl rfl rfl (List.append_nil _).symm (List.map_append ..) ?_
        fun acks other member => ?_
      · rw [pc]
        rfl
      · rw [List.mem_singleton.mp member]
        exact guard packet (by simp [pushedNext, pc]) acks
  | toFin pc | toProbe pc | toSegment pc | none pc | take pc =>
      refine tracked.moved rfl rfl rfl (List.append_nil _).symm (List.append_nil _).symm ?_ (by simp)
      rw [pc]
      rfl
  | count packet payload pc =>
      refine tracked.moved rfl rfl rfl (List.append_nil _).symm (List.append_nil _).symm ?_ (by simp)
      rw [pc]
      dsimp only
      split <;> rfl
  | resend item rest front =>
      have list : ({ item with retransmitted := true } :: rest).map (·.value) =
          e.sock.inFlightList.map (·.value) ++ [] := by
        rw [front, List.append_nil]
        rfl
      exact tracked.moved rfl rfl rfl (List.append_nil _).symm list (List.append_nil _).symm (by simp)
  | _ => exact tracked

theorem Moves.open_before (moves : Moves e event out after) (live : after.sock.closed = false) :
    e.sock.closed = false := by
  cases moves with
  | packet packet =>
      by_contra closed
      have same : (e.sock.handlePacket packet).1 = e.sock := by
        simp [TcpSocket.handlePacket, eq_true_of_ne_false closed]
      change (e.sock.handlePacket packet).1.closed = false at live
      rw [same] at live
      exact closed live
  | _ => exact live

theorem Moves.acks_grow (moves : Moves e event out after) :
    after.sock.myInitSeqNum = e.sock.myInitSeqNum ∧ e.acks <+: after.acks := by
  cases moves with
  | packet packet =>
      refine ⟨(TcpSocket.handlePacket_acts e.sock packet).sameIdentity.myInitSeqNum, ?_⟩
      simp only [handlePacket, settle]
      split
      · exact List.prefix_rfl
      · exact List.prefix_append _ _
  | _ => exact ⟨rfl, List.prefix_rfl⟩

theorem NoWrap.before (noWrap : after.NoWrap) (moves : Moves e event out after) : e.NoWrap := by
  obtain ⟨isn, grow⟩ := moves.acks_grow
  have sent := moves.transmitted_le
  have short := noWrap.short
  exact ⟨by omega, fun ackNum member => isn ▸ noWrap.acks ackNum (grow.subset member)⟩

theorem Tracking.step (tracking : e.Tracking) (guard : pushesUnacked e event)
    (moves : Moves e event out after) (sender : after.Sender) : after.Tracking := by
  refine ⟨sender, tracking.recorded.step moves, fun noWrap live => ?_⟩
  -- numbers that have not wrapped now had not before, and a socket that is open was open
  have tracked := tracking.tracked (noWrap.before moves) (moves.open_before live)
  exact tracked.step tracking.sender.numbered tracking.recorded moves guard noWrap live

theorem Tracking.run {first : Endpoint Buffer} (opened : Opened first)
    (run : Run move pushesUnacked first e) : e.Tracking := by
  refine run_keeps Tracking (fun before event out after tracking guard steps => ?_) run opened.tracking
  exact tracking.step guard (step_moves steps) (tracking.sender.step steps)

theorem handleWrites_pushes (steps : e.handleWrites = some (after, out)) {packet : TcpPacket}
    (next : e.pushedNext = some packet) :
    packet ∈ after.sock.inFlightList.map (·.value) ∧ ∀ other, after.Unacked other ↔ e.Unacked other := by
  unfold handleWrites at steps
  unfold pushedNext at next
  cases pc : e.writer with
  | fin =>
      simp only [pc] at steps next
      cases steps
      cases next
      refine ⟨?_, unacked_iff rfl rfl⟩
      simp [inFlightItem]
  | probePush other =>
      simp only [pc] at steps next
      cases steps
      cases next
      refine ⟨?_, unacked_iff rfl rfl⟩
      simp [pushInFlight, countInFlight, inFlightItem]
  | pushing other payload =>
      simp only [pc] at steps next
      cases steps
      cases next
      refine ⟨?_, unacked_iff rfl rfl⟩
      simp [pushInFlight, inFlightItem]
  | _ => simp [pc] at next

theorem InFlightExact.pushesUnacked (exact : after.InFlightExact)
    (steps : e.step event = some (after, out)) : pushesUnacked e event := by
  cases event with
  | handleWrites =>
      intro packet next _
      obtain ⟨listed, same⟩ := handleWrites_pushes steps next
      rw [exact] at listed
      have unacked := (List.mem_filter.mp listed).2
      exact (same packet).mp (of_decide_eq_true unacked)
  | _ => trivial

/-- As long as no segment is pushed after its acknowledgement was handled, the list holds exactly
the unacknowledged segments, in the order of their numbers; the step that pushes such a segment
leaves it wrong. -/
theorem in_flight_exact_iff {first : Endpoint Buffer} (opened : Opened first)
    (run : Run move pushesUnacked first e) (noWrap : e.NoWrap) (live : e.sock.closed = false)
    (acks : e.acks ≠ []) :
    e.sent.Pairwise (fun packet later => e.relNum packet < e.relNum later) ∧
    (e.writer.unpushed = [] → e.InFlightExact) ∧
    ∀ event after, e.move event = some after → after.NoWrap → after.sock.closed = false →
      after.writer.unpushed = [] → (after.InFlightExact ↔ pushesUnacked e event) := by
  have tracking := Tracking.run opened run
  refine ⟨tracking.sender.numbered.inOrder noWrap.short, fun pushed =>
    (tracking.tracked noWrap live).exact acks pushed, fun event after moves wide still pushed => ?_⟩
  obtain ⟨⟨_, out⟩, steps, rfl⟩ := Option.map_eq_some_iff.mp moves
  refine ⟨fun exact => exact.pushesUnacked steps, fun guard => ?_⟩
  have next := tracking.step guard (step_moves steps) (tracking.sender.step steps)
  refine (next.tracked wide still).exact (fun none => acks ?_) pushed
  exact List.prefix_nil.mp (none ▸ (step_moves steps).acks_grow.2)

end

section
attribute [local instance] Netstack.standard

def firstAcked : List Event :=
  [.vWrite [7], .vWriteLoop 0] ++ List.replicate 5 .handleWrites ++
    [.vWrite [8], .vWriteLoop 0] ++ List.replicate 5 .handleWrites ++
    [.handlePacket (Connection.fromServer 201 102 tcpFlagAck [])]

theorem firstAcked_isSome :
    (exec move pushesUnacked (connected loopback 100 200 : Endpoint Fifo) firstAcked).isSome := by
  decide +kernel

theorem in_flight_exact_firstAcked :
    let e := (exec move pushesUnacked (connected loopback 100 200 : Endpoint Fifo) firstAcked).get
      firstAcked_isSome
    payloads e.sent = [7, 8] ∧ payloads (e.sock.inFlightList.map (·.value)) = [8] ∧
      e.InFlightExact := by
  have account := in_flight_exact_iff (opened_connected loopback 100 200)
    (Run.ofSome firstAcked_isSome) (by decide +kernel) (by decide +kernel) (by decide +kernel)
  exact ⟨by decide +kernel, by decide +kernel, account.2.1 (by decide +kernel)⟩

def ackedEarly : List Event :=
  -- A byte is sent, its acknowledgement is handled, and it is pushed.
  [.vWrite [7], .vWriteLoop 0] ++ List.replicate 3 .handleWrites ++
    [.handlePacket (Connection.fromServer 201 102 tcpFlagAck [])] ++ List.replicate 2 .handleWrites

theorem ackedEarly_isSome :
    (exec move anyEvent (connected loopback 100 200 : Endpoint Fifo) ackedEarly).isSome := by
  decide +kernel

theorem acked_segment_in_flight :
    let e := (exec move anyEvent (connected loopback 100 200 : Endpoint Fifo) ackedEarly).get
      ackedEarly_isSome
    e.NoWrap ∧ e.sock.closed = false ∧ e.acks = [101, 102] ∧ e.writer = .top ∧
      payloads (e.sock.inFlightList.map (·.value)) = [7] ∧ (∀ packet ∈ e.sent, ¬ e.Unacked packet) ∧
      ¬ e.InFlightExact := by
  unfold InFlightExact
  decide +kernel

end

end Endpoint

end IpTcp.Tcp
