import IpTcp.Goroutines.Waiting
import IpTcp.Network.Locking
import IpTcp.Tcp.ReadLoop

/-! The points against the code they stand for: what `HandlePacket`, `HandleWrites` and
`HandleRetransmission` do to a socket is done along a path of their points, and each effect at a
point that holds the lock it needs; and where the loop of `VRead` starts again, its point has no next
one. -/

set_option autoImplicit false

namespace IpTcp.Goroutines

open Lib Tcp

variable {Sock : Type}

def guardOf (sock : Sock) : Effect → Option (Held Sock)
  | .sendTcp _ => some (.fwdTable, .shared)
  | .broadcast .windowNotEmpty => some (.inFlightList sock, .exclusive)
  | .broadcast .readBufferIsNotEmpty => some (.readBuffer sock, .exclusive)
  | .writeIntoReadBuffer _ => some (.readBuffer sock, .exclusive)
  | .deleteConnSafe => some (.state, .exclusive)
  | .timeWait => none

section
variable {Local : Type} (sock : Sock) (moves : Flags → Local → List (Flags × Local))
  (holds : Sock → Local → List (Held Sock))

def Guarded (point : Local) (effects : List Effect) : Prop :=
  ∀ effect ∈ effects, ∀ held ∈ guardOf sock effect, held ∈ holds sock point

inductive Path : Flags × Local → List Effect → Flags × Local → Prop where
  | here (place : Flags × Local) : Path place [] place
  | move {before after final : Flags × Local} {effects : List Effect} :
      after ∈ moves before.1 before.2 → Path after effects final → Path before effects final
  | effect {before final : Flags × Local} {effect : Effect} {effects : List Effect} :
      (∀ held ∈ guardOf sock effect, held ∈ holds sock before.2) → Path before effects final →
      Path before (effect :: effects) final

variable {sock moves holds} {before middle final : Flags × Local} {now later : List Effect}

theorem Path.effects (guarded : Guarded sock holds before.2 now)
    (rest : Path sock moves holds before later final) : Path sock moves holds before (now ++ later) final := by
  induction now with
  | nil => exact rest
  | cons effect others ih =>
      exact .effect (guarded effect List.mem_cons_self)
        (ih fun other member => guarded other (List.mem_cons_of_mem _ member))

theorem Path.trans (first : Path sock moves holds before now middle)
    (rest : Path sock moves holds middle later final) : Path sock moves holds before (now ++ later) final := by
  induction first with
  | here => exact rest
  | move goes _ ih => exact .move goes (ih rest)
  | effect guarded _ ih => exact .effect guarded (ih rest)

theorem Path.single (guarded : Guarded sock holds before.2 now) (goes : middle ∈ moves before.1 before.2) :
    Path sock moves holds before now middle := by
  rw [← List.append_nil now]
  exact .effects guarded (.move goes (.here middle))

end

/-! ### HandlePacket -/

variable {Buffer : Type}

def flagsOf (sock : TcpSocket Buffer) (receiving : Bool) : Flags :=
  { connState := sock.connState, canRead := sock.canRead, canWrite := sock.canWrite
    closed := sock.closed, receiving := receiving }

section
variable (id : Sock) {sock : TcpSocket Buffer} {receiving : Bool}

abbrev PacketPath := Path id handlePacket PacketPoint.holds

theorem guarded_of {Local : Type} {holds : Sock → Local → List (Held Sock)} {point : Local} {held : Held Sock}
    (holding : held ∈ holds id point) {effects : List Effect}
    (same : ∀ effect ∈ effects, guardOf id effect = some held) : Guarded id holds point effects := by
  intro effect member other guards
  rw [same effect member] at guards
  cases guards
  exact holding

theorem sendTcp_path {Local : Type} {moves : Flags → Local → List (Flags × Local)}
    {holds : Sock → Local → List (Held Sock)} {point : Local} (holding : (.fwdTable, .shared) ∈ holds id point)
    (flags : Flags) (packet : TcpPacket) :
    Path id moves holds (flags, point) [.sendTcp packet] (flags, point) :=
  .effect (fun held guards => by cases guards; exact holding) (.here _)

theorem wakeProbe_guard (sock : TcpSocket Buffer) :
    ∀ effect ∈ sock.wakeProbe, guardOf id effect = some (.inFlightList id, .exclusive) := by
  intro effect member
  unfold TcpSocket.wakeProbe at member
  split at member
  · rw [List.mem_singleton.mp member]
    rfl
  · cases member

theorem removeAcked_path (sock : TcpSocket Buffer) (receiving : Bool) (reached : UInt32)
    (items : List TcpPacketItem) :
    (∀ after, sock.removeAcked reached items = (after, false) →
      PacketPath id (flagsOf sock receiving, .removing) [] (flagsOf after receiving, .removing)) ∧
    (∀ after, sock.removeAcked reached items = (after, true) →
      PacketPath id (flagsOf sock true, .removing) [] (flagsOf after false, .deleting)) := by
  induction items generalizing sock with
  | nil =>
      refine ⟨fun after result => ?_, fun after result => ?_⟩
      · cases result
        exact .here _
      · cases result
  | cons item rest ih =>
      rw [TcpSocket.removeAcked]
      split
      · split
        · rename_i fin
          refine ⟨fun after result => ?_, fun after result => ?_⟩
          · cases result
          · cases result
            have closes : ({ flagsOf sock true with connState := .closed }, PacketPoint.closing) ∈
                handlePacket (flagsOf sock true) .removing := by
              grind [handlePacket, flagsOf]
            have received : ({ flagsOf sock false with connState := .closed }, PacketPoint.received) ∈
                handlePacket { flagsOf sock true with connState := .closed } .closing := by
              grind [handlePacket, flagsOf]
            exact .move closes (.move received (.move List.mem_cons_self (.here _)))
        · have stays : ∀ receiving, (flagsOf (sock.ackedItem item) receiving, PacketPoint.removing) ∈
              handlePacket (flagsOf sock receiving) .removing := by
            grind [handlePacket, flagsOf, TcpSocket.ackedItem]
          obtain ⟨remains, closes⟩ := ih (sock.ackedItem item)
          exact ⟨fun after result => .move (stays _) (remains after result),
            fun after result => .move (stays _) (closes after result)⟩
      · refine ⟨fun after result => ?_, fun after result => ?_⟩
        · cases result
          exact .here _
        · cases result

theorem opened_goes (open' : sock.closed = false) : ∀ point ∈ [PacketPoint.returning, .sameAck, .newAck, .fin],
    (flagsOf sock receiving, point) ∈ handlePacket (flagsOf sock receiving) .opened := by
  grind [handlePacket, flagsOf]

theorem receiveAck_path (open' : sock.closed = false) (tcpHdr : TCPFields) :
    ((sock.receiveAck tcpHdr).2.2 = true →
      PacketPath id (flagsOf sock true, .opened) (sock.receiveAck tcpHdr).2.1
        (flagsOf (sock.receiveAck tcpHdr).1 true, .payload)) ∧
    ((sock.receiveAck tcpHdr).2.2 = false → ∃ receiving,
      PacketPath id (flagsOf sock true, .opened) (sock.receiveAck tcpHdr).2.1
        (flagsOf (sock.receiveAck tcpHdr).1 receiving, .returning)) := by
  unfold TcpSocket.receiveAck
  dsimp only
  split
  · -- An old acknowledgement.
    refine ⟨fun goesOn => (by cases goesOn), fun _ => ⟨true, ?_⟩⟩
    exact .move (opened_goes open' _ (by decide)) (.here _)
  split
  · refine ⟨fun _ => ?_, fun ends => (by cases ends)⟩
    refine .move (opened_goes open' .sameAck (by decide)) (.move List.mem_cons_self ?_)
    refine .single (guarded_of id (List.mem_cons_of_mem _ List.mem_cons_self) (wakeProbe_guard id _)) ?_
    split <;> exact List.mem_cons_self
  · have enters : ∀ {effects final},
        PacketPath id (flagsOf sock true, .removing) effects final →
        PacketPath id (flagsOf sock true, .opened) effects final :=
      fun path => .move (opened_goes open' .newAck (by decide)) (.move List.mem_cons_self path)
    obtain ⟨remains, closes⟩ := removeAcked_path id (sock.storeAck tcpHdr) true
      (tcpHdr.ackNum - sock.myInitSeqNum) sock.inFlightList
    split
    · rename_i after removed
      refine ⟨fun goesOn => (by cases goesOn), fun _ => ⟨false, enters ?_⟩⟩
      have rest : PacketPath id (flagsOf after false, .deleting) [.deleteConnSafe]
          (flagsOf after false, .returning) :=
        .move List.mem_cons_self (.effect (by grind [guardOf, PacketPoint.holds])
          (.move List.mem_cons_self (.move List.mem_cons_self (.here _))))
      exact (closes after removed).trans rest
    · rename_i after removed
      refine ⟨fun _ => enters ?_, fun ends => (by cases ends)⟩
      refine (remains after removed).trans (.single ?_ List.mem_cons_self)
      exact guarded_of id (List.mem_cons_of_mem _ List.mem_cons_self) (wakeProbe_guard id _)

def pointOfRetransmitter : RetransmitterPc → RetransmissionPoint
  | .test => .top
  | .body => .listing
  | .returned => .over

theorem handleRetransmission_path {e after : Endpoint Buffer} {timedOut : Bool} {out : List TcpPacket}
    (moves : e.handleRetransmission timedOut = some (after, out)) :
    Path id handleRetransmission RetransmissionPoint.holds
      (flagsOf e.sock receiving, pointOfRetransmitter e.retransmitter) (out.map .sendTcp)
      (flagsOf after.sock receiving, pointOfRetransmitter after.retransmitter) := by
  unfold Endpoint.handleRetransmission at moves
  split at moves
  · rename_i pc
    cases moves
    rw [pc]
    refine .move ?_ (.here _)
    cases closed : e.sock.closed <;> simp [handleRetransmission, flagsOf, pointOfRetransmitter, closed]
  · rename_i pc
    rw [pc]
    have resends : (flagsOf e.sock receiving, RetransmissionPoint.resending) ∈
        handleRetransmission (flagsOf e.sock receiving) .listed := by
      grind [handleRetransmission]
    split at moves
    · cases moves
      -- The front has timed out, and is sent again with the list still locked.
      refine .move List.mem_cons_self (.move resends (.move List.mem_cons_self ?_))
      refine .effect (fun held guards => ?_) (.move List.mem_cons_self (.move List.mem_cons_self (.here _)))
      cases guards
      exact List.mem_cons_of_mem _ List.mem_cons_self
    · cases moves
      exact .move List.mem_cons_self (.move List.mem_cons_self (.move List.mem_cons_self (.here _)))
  · cases moves

theorem finReceived_drained (sock : TcpSocket Buffer) (receiving : Bool) :
    PacketPath id (flagsOf sock receiving, .draining) sock.finReceived.2
      (flagsOf sock.finReceived.1 receiving, .drainStoring) := by
  fun_cases TcpSocket.finReceived sock with
  | case1 established =>
      have closes : ({ flagsOf sock receiving with connState := .closeWait }, PacketPoint.drainBroadcasting) ∈
          handlePacket (flagsOf sock receiving) .draining := by
        grind [handlePacket, flagsOf]
      exact .move closes (.move List.mem_cons_self
        (.effect (by grind [guardOf, PacketPoint.holds]) (.move List.mem_cons_self (.here _))))
  | case2 finWait2 =>
      have closes : ({ flagsOf sock receiving with connState := .timeWait }, PacketPoint.drainStoring) ∈
          handlePacket (flagsOf sock receiving) .draining := by
        grind [handlePacket, flagsOf]
      exact .move closes (.effect (by grind [guardOf]) (.here _))
  | case3 => exact .move (List.mem_cons_of_mem _ List.mem_cons_self) (.here _)

theorem queueEarlyArrival_flags (sock : TcpSocket Buffer) (packet : TcpPacket) (receiving : Bool) :
    flagsOf (sock.queueEarlyArrival packet) receiving = flagsOf sock receiving := by
  unfold TcpSocket.queueEarlyArrival
  dsimp only
  split <;> rfl

variable [RingBuffer Buffer]

theorem writeIntoReadBuffer_guard (sock : TcpSocket Buffer) (data : List Byte) :
    ∀ effect ∈ (sock.writeIntoReadBuffer data).2, guardOf id effect = some (.readBuffer id, .exclusive) := by
  unfold TcpSocket.writeIntoReadBuffer
  dsimp only
  split
  · intro effect member
    rw [List.mem_singleton.mp member]
    rfl
  · split
    · intro effect member
      rw [List.mem_singleton.mp member]
      rfl
    · intro effect member
      rcases List.mem_pair.mp member with rfl | rfl <;> rfl

theorem writeIntoReadBuffer_flags (sock : TcpSocket Buffer) (data : List Byte) (receiving : Bool) :
    flagsOf (sock.writeIntoReadBuffer data).1 receiving = flagsOf sock receiving := by
  unfold TcpSocket.writeIntoReadBuffer
  dsimp only
  split
  · rfl
  · split <;> rfl

theorem drainEarlyArrivals_path (fuel : Nat) (sock : TcpSocket Buffer) (receiving : Bool) :
    PacketPath id (flagsOf sock receiving, .draining) (sock.drainEarlyArrivals fuel).2
      (flagsOf (sock.drainEarlyArrivals fuel).1 receiving, .draining) := by
  induction fuel generalizing sock with
  | zero => exact .here _
  | succ fuel ih =>
      cases queue : sock.earlyArrivalQueue with
      | nil =>
          rw [TcpSocket.drainEarlyArrivals, queue]
          exact .here _
      | cons root others =>
          rw [TcpSocket.drainEarlyArrivals, queue]
          dsimp only
          split
          · -- A FIN changes the state before the write that follows for both; a segment does not.
            have pops : ∀ received : TcpSocket Buffer × List Effect,
                received = (if root.value.header.flags = tcpFlagFin
                  then (sock.popEarlyArrival root.value).finReceived
                  else (sock.popEarlyArrival root.value, [])) →
                PacketPath id (flagsOf sock receiving, .draining) received.2
                  (flagsOf received.1 receiving, .drainStoring) := by
              rintro _ rfl
              split
              · exact finReceived_drained id (sock.popEarlyArrival root.value) receiving
              · exact .move (List.mem_cons_of_mem _ List.mem_cons_self) (.here _)
            refine ((pops _ rfl).trans ?_).trans (ih _)
            refine .move List.mem_cons_self ?_
            rw [writeIntoReadBuffer_flags]
            refine .single (guarded_of id ?_ (writeIntoReadBuffer_guard id _ _)) List.mem_cons_self
            exact List.mem_cons_of_mem _ List.mem_cons_self
          · exact .here _

variable [Netstack]

theorem receiveData_path (sock : TcpSocket Buffer) (packet : TcpPacket) (receiving : Bool) :
    PacketPath id (flagsOf sock receiving, .payload) (sock.receiveData packet).2
      (flagsOf (sock.receiveData packet).1 receiving, .returning) := by
  have acknowledges : ∀ sock : TcpSocket Buffer, PacketPath id (flagsOf sock receiving, .acknowledging)
      sock.sendAck (flagsOf sock receiving, .returning) := fun sock =>
    .move List.mem_cons_self (.effect (by grind [guardOf, PacketPoint.holds])
      (.move List.mem_cons_self (.here _)))
  unfold TcpSocket.receiveData
  split
  · split
    · dsimp only
      have stores : PacketPath id (flagsOf sock receiving, .payload) (sock.writeIntoReadBuffer packet.data).2
          (flagsOf (sock.writeIntoReadBuffer packet.data).1 receiving, .draining) := by
        refine .move (List.mem_cons_of_mem _ List.mem_cons_self) (.move List.mem_cons_self ?_)
        rw [writeIntoReadBuffer_flags]
        refine .single (guarded_of id ?_ (writeIntoReadBuffer_guard id _ _)) List.mem_cons_self
        exact List.mem_cons_of_mem _ List.mem_cons_self
      refine (stores.trans (drainEarlyArrivals_path id _ _ receiving)).trans ?_
      exact .move List.mem_cons_self (acknowledges _)
    · exact .move List.mem_cons_self (.here _)
  · -- A payload that is not due is acknowledged without the lock of the read buffer.
    have early : (flagsOf sock receiving, PacketPoint.acknowledging) ∈
        handlePacket (flagsOf sock receiving) .payload :=
      List.mem_cons_of_mem _ (List.mem_cons_of_mem _ List.mem_cons_self)
    split
    · refine .move early ?_
      rw [← queueEarlyArrival_flags sock packet]
      exact acknowledges _
    · exact .move early (acknowledges _)

theorem receiveFin_path (sock : TcpSocket Buffer) (packet : TcpPacket) (receiving : Bool) :
    PacketPath id (flagsOf sock receiving, .fin) (sock.receiveFin packet).2
      (flagsOf (sock.receiveFin packet).1 receiving, .returning) := by
  unfold TcpSocket.receiveFin
  split
  · refine .move List.mem_cons_self (.move List.mem_cons_self
      (.effect (by grind [guardOf, PacketPoint.holds]) (.move List.mem_cons_self ?_)))
    fun_cases TcpSocket.finReceived sock with
    | case1 established =>
        have closes : ({ flagsOf sock receiving with connState := .closeWait }, PacketPoint.finBroadcasting) ∈
            handlePacket (flagsOf sock receiving) .finReceived := by
          grind [handlePacket, flagsOf]
        exact .move closes (.move List.mem_cons_self
          (.effect (by grind [guardOf, PacketPoint.holds]) (.move List.mem_cons_self (.here _))))
    | case2 finWait2 =>
        have closes : ({ flagsOf sock receiving with connState := .timeWait }, PacketPoint.returning) ∈
            handlePacket (flagsOf sock receiving) .finReceived := by
          grind [handlePacket, flagsOf]
        exact .move closes (.effect (by grind [guardOf]) (.here _))
    | case3 other others =>
        have stays : (flagsOf sock receiving, PacketPoint.returning) ∈
            handlePacket (flagsOf sock receiving) .finReceived := by
          grind [handlePacket, flagsOf]
        exact .move stays (.here _)
  · have returns : (flagsOf sock receiving, PacketPoint.returning) ∈
        handlePacket (flagsOf sock receiving) .fin := List.mem_cons_of_mem _ List.mem_cons_self
    split
    · rw [queueEarlyArrival_flags]
      exact .move returns (.here _)
    · exact .move returns (.here _)

/-- `HandlePacket` from its first line to its return. -/
theorem handlePacket_path (sock : TcpSocket Buffer) (packet : TcpPacket) : ∃ receiving,
    PacketPath id (flagsOf sock true, .entry) (sock.handlePacket packet).2
      (flagsOf (sock.handlePacket packet).1 receiving, .over) := by
  -- `varLock` is taken in the first line and released at the return, whatever lies between.
  have leaves : ∀ {flags : Flags} {effects : List Effect},
      PacketPath id (flagsOf sock true, .opened) effects (flags, .returning) →
      PacketPath id (flagsOf sock true, .entry) effects (flags, .over) := by
    intro flags effects path
    have whole := path.trans (.move List.mem_cons_self (.here (flags, PacketPoint.over)))
    rw [List.append_nil] at whole
    exact .move List.mem_cons_self whole
  unfold TcpSocket.handlePacket
  split
  · have returns : (flagsOf sock true, PacketPoint.returning) ∈ handlePacket (flagsOf sock true) .opened := by
      grind [handlePacket, flagsOf]
    exact ⟨true, leaves (.move returns (.here _))⟩
  rename_i still
  have open' : sock.closed = false := by simpa using still
  have dropped : PacketPath id (flagsOf sock true, .opened) [] (flagsOf sock true, .returning) :=
    .move (opened_goes open' .returning (by decide)) (.here _)
  split
  · exact ⟨true, leaves dropped⟩
  split
  · obtain ⟨goesOn, ends⟩ := receiveAck_path id open' packet.header
    split
    · rename_i after effects received
      rw [received] at ends
      obtain ⟨receiving, path⟩ := ends rfl
      exact ⟨receiving, leaves path⟩
    · rename_i after effects received
      rw [received] at goesOn
      have path := goesOn rfl
      refine ⟨true, leaves ?_⟩
      split
      · have whole := path.trans (.move List.mem_cons_self (.here (flagsOf after true, PacketPoint.returning)))
        rwa [List.append_nil] at whole
      · exact path.trans (receiveData_path id after packet true)
  split
  · refine ⟨true, leaves (.move (opened_goes open' .fin (by decide)) ?_)⟩
    exact receiveFin_path id sock packet true
  · exact ⟨true, leaves dropped⟩

/-! ### HandleWrites -/

def pointOf : WriterPc → WriterPoint
  | .top => .top
  | .fin => .finSending
  | .probe | .segment => .looks
  | .probePush _ => .probed
  | .waiting => .probeAsleep
  | .sending _ => .segment
  | .pushing _ _ => .segmentSent
  | .counting _ _ => .segmentCounting
  | .returned => .over

abbrev WriterPath := Path id handleWrites WriterPoint.holds

theorem sendFin_path (e : Endpoint Buffer) (pc : e.writer = .fin) :
    WriterPath id (flagsOf e.sock receiving, pointOf e.writer) (e.sendFin.2.map .sendTcp)
      (flagsOf e.sendFin.1.sock receiving, pointOf e.sendFin.1.writer) := by
  have ends : (flagsOf e.sendFin.1.sock receiving, WriterPoint.finDone) ∈
      handleWrites (flagsOf e.sock receiving) .finState := by
    cases state : e.sock.connState <;> simp [handleWrites, flagsOf, Endpoint.sendFin, state]
  rw [pc]
  refine .move List.mem_cons_self (.effect (by grind [guardOf, WriterPoint.holds]) ?_)
  exact .move List.mem_cons_self (.move List.mem_cons_self (.move List.mem_cons_self
    (.move ends (.move List.mem_cons_self (.here _)))))

/-- A step of `HandleWrites`. -/
theorem handleWrites_path {e after : Endpoint Buffer} {out : List TcpPacket}
    (moves : e.handleWrites = some (after, out)) :
    WriterPath id (flagsOf e.sock receiving, pointOf e.writer) (out.map .sendTcp)
      (flagsOf after.sock receiving, pointOf after.writer) := by
  cases Endpoint.handleWrites_moves moves with
  | calls => exact .here _
  | toFin pc _ shut =>
      have decides : (flagsOf e.sock receiving, WriterPoint.finSending) ∈
          handleWrites (flagsOf e.sock receiving) .decides := by
        grind [handleWrites, flagsOf]
      rw [pc]
      exact .move List.mem_cons_self (.move List.mem_cons_self (.move List.mem_cons_self
        (.move decides (.here _))))
  | fin pc => exact sendFin_path id e pc
  | toProbe pc | toSegment pc =>
      rw [pc]
      exact .move List.mem_cons_self (.here _)
  | probe pc =>
      rw [pc]
      exact .move (List.mem_cons_of_mem _ List.mem_cons_self) (.move List.mem_cons_self
        (sendTcp_path id List.mem_cons_self _ _))
  | probePush packet pc =>
      rw [pc]
      exact .move List.mem_cons_self (.move List.mem_cons_self (.move List.mem_cons_self (.here _)))
  | none pc =>
      rw [pc]
      have again : (flagsOf e.sock receiving, WriterPoint.top) ∈
          handleWrites (flagsOf e.sock receiving) .looks := by
        grind [handleWrites]
      exact .move again (.here _)
  | take pc =>
      rw [pc]
      have takes : (flagsOf e.sock receiving, WriterPoint.segment) ∈
          handleWrites (flagsOf e.sock receiving) .looks := by
        grind [handleWrites]
      exact .move takes (.here _)
  | send payload pc =>
      rw [pc]
      exact .move List.mem_cons_self (sendTcp_path id List.mem_cons_self _ _)
  | push packet payload pc =>
      rw [pc]
      exact .move List.mem_cons_self (.move List.mem_cons_self (.move List.mem_cons_self (.here _)))
  | count packet payload pc =>
      rw [pc]
      dsimp only
      split
      · exact .move (List.mem_cons_of_mem _ List.mem_cons_self) (.here _)
      · exact .move List.mem_cons_self (.here _)

end

/-! ### VRead -/

def pointOfPass : ReadPass → ReadPoint
  | .returns => .returning
  | .waits => .asleep
  | .repeats => .spins

/-- A pass goes to its point, from which there is a way on unless it is to be repeated. -/
theorem readPass_path [RingBuffer Buffer] (sock : TcpSocket Buffer) (receiving : Bool) :
    (flagsOf sock receiving, pointOfPass sock.readPass) ∈ vRead (flagsOf sock receiving) .looks ∧
      (vRead (flagsOf sock receiving) (pointOfPass sock.readPass) = [] ↔ sock.readPass = .repeats) := by
  unfold TcpSocket.readPass
  cases RingBuffer.isEmpty sock.readBuffer with
  | false => simp [vRead, pointOfPass]
  | true => cases state : sock.connState <;> simp [vRead, flagsOf, pointOfPass, state]

/-! ### HandlePacketSafe -/

section
open Network

def IpPoint.mode (point : IpPoint) : Option Mode := (point.holds : List (Held Unit)).head?.map Prod.snd

def lockOps (before after : IpPoint) : List LockOp :=
  match before.mode, after.mode with
  | none, some .shared => [.rLock]
  | none, some .exclusive => [.lock]
  | some .shared, none => [.rUnlock]
  | some .exclusive, none => [.unlock]
  | _, _ => []

def opsAlong : List IpPoint → List LockOp
  | before :: after :: rest => lockOps before after ++ opsAlong (after :: rest)
  | _ => []

def LockPath (ops : List LockOp) (final : IpPoint) : Prop :=
  ∃ points, (IpPoint.idle :: points).IsChain (fun before after => after ∈ handlePacketSafe before) ∧
    (IpPoint.idle :: points).getLast? = some final ∧ opsAlong (.idle :: points) = ops

theorem dropped_path : LockPath [] .idle := ⟨[], by decide, rfl, rfl⟩

theorem looked_path : LockPath FwdTable.lookupLocks .idle :=
  ⟨[.looking, .looked, .handling, .idle], by decide, rfl, rfl⟩

theorem requested_path : LockPath (FwdTable.lookupLocks ++ [.rLock, .rUnlock]) .idle :=
  ⟨[.looking, .looked, .handling, .requesting, .requested, .idle], by decide, rfl, rfl⟩

theorem responded_path : LockPath (FwdTable.lookupLocks ++ [.lock, .unlock]) .idle :=
  ⟨[.looking, .looked, .handling, .responding, .responded, .idle], by decide, rfl, rfl⟩

theorem forwarded_path : LockPath (FwdTable.lookupLocks ++ [.rLock, .rUnlock]) .idle :=
  ⟨[.looking, .looked, .handling, .forwarding, .routed, .idle], by decide, rfl, rfl⟩

theorem leaked_path : LockPath (FwdTable.lookupLocks ++ [.rLock]) .leaked :=
  ⟨[.looking, .looked, .handling, .forwarding, .routed, .leaked], by decide, rfl, rfl⟩

variable [Netstack] [Ipv4]

theorem deliver_path (ft : FwdTable) (order : Order) (now : Time) (hdr : Header)
    (msgBytes : List Byte) (application : Application) :
    LockPath (ft.deliver order now hdr msgBytes application).locks .idle := by
  cases application with
  | testProtocol | tcp => exact looked_path
  | rip =>
      change LockPath (FwdTable.lookupLocks ++ (Rip.ripHandler ft order now hdr.src msgBytes).locks) .idle
      unfold Rip.ripHandler
      split
      · exact looked_path
      · split
        · exact requested_path
        · exact responded_path

/-- `HandlePacketSafe` does to `FwdTable.Lock` what a path of its points does, and the path ends
where the lock is kept exactly for a packet that expires here. -/
theorem handlePacketSafe_path (ft : FwdTable) (order : Order) (now : Time) (buffer : List Byte) :
    (ft.expires order buffer ∧ LockPath (ft.handlePacketSafe order now buffer).locks .leaked) ∨
      (¬ ft.expires order buffer ∧ LockPath (ft.handlePacketSafe order now buffer).locks .idle) := by
  rcases ft.handlePacketSafe_locks order now buffer with ⟨ends, locks⟩ | ⟨goes, -⟩
  · rw [locks]
    exact .inl ⟨ends, leaked_path⟩
  · refine .inr ⟨goes, ?_⟩
    unfold FwdTable.handlePacketSafe
    split
    · exact dropped_path
    rename_i hdr parsed
    dsimp only
    split
    · exact dropped_path
    rename_i valid
    split
    · exact dropped_path
    rename_i msgBytes slice
    split
    · split
      · exact looked_path
      · split
        · exact looked_path
        · exact deliver_path ft order now _ _ _
    · rename_i own
      rw [FwdTable.forward_locks]
      split
      · rename_i ends
        exact absurd ⟨hdr, parsed, not_not.mp valid, by simp [slice], own, ends.1, ends.2⟩ goes
      · exact forwarded_path

end

end IpTcp.Goroutines
