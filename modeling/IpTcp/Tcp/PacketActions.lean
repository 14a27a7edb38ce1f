import IpTcp.Tcp.Socket

/-! What `HandlePacket` can do, said once. Every call is a sequence of elementary
actions, each with the guard under which the code reaches it; the invariants of
the development are proved action by action and carried along the sequence. -/

set_option autoImplicit false

namespace IpTcp.Tcp

open RingBuffer

def ConnState.afterFin : ConnState → ConnState
  | .established => .closeWait
  | .finWait2 => .timeWait
  | state => state

def ConnState.afterFinAcked : ConnState → ConnState
  | .finWait1 => .finWait2
  | state => state

namespace TcpSocket

variable {Buffer : Type}

theorem finReceived_fst (sock : TcpSocket Buffer) :
    sock.finReceived.1 = { sock with connState := sock.connState.afterFin } := by
  unfold finReceived ConnState.afterFin
  cases sock with
  | mk connState => cases connState <;> rfl

theorem finReceived_snd (sock : TcpSocket Buffer) : ∀ effect ∈ sock.finReceived.2,
    effect = .broadcast .readBufferIsNotEmpty ∨ effect = .timeWait := by
  unfold finReceived
  split <;> simp

theorem ackedItem_connState (sock : TcpSocket Buffer) (item : TcpPacketItem) :
    (sock.ackedItem item).connState =
      if item.value.hasFin then sock.connState.afterFinAcked else sock.connState := by
  unfold ackedItem ConnState.afterFinAcked
  cases sock with
  | mk connState => cases connState <;> cases item.value.hasFin <;> simp

theorem withInFlight_self (sock : TcpSocket Buffer) (items : List TcpPacketItem)
    (same : sock.inFlightList = items) : sock.withInFlight items = sock := by
  subst same
  rfl

/-- The intermediate sockets of the loop carry a stale list; only its argument counts. -/
theorem removeAcked_withInFlight (rel : UInt32) (sock : TcpSocket Buffer)
    (stale items : List TcpPacketItem) :
    removeAcked rel (sock.withInFlight stale) items = removeAcked rel sock items := by
  induction items generalizing sock with
  | nil => rfl
  | cons item rest ih =>
      simp only [removeAcked]
      split
      · split
        · rw [if_pos (by assumption)]
          rfl
        · rw [if_neg (by assumption)]
          exact ih (sock.ackedItem item)
      · rfl

structure SameReceiver (before after : TcpSocket Buffer) : Prop where
  readBuffer : after.readBuffer = before.readBuffer
  nextExpectedByte : after.nextExpectedByte = before.nextExpectedByte
  earlyArrivalQueue : after.earlyArrivalQueue = before.earlyArrivalQueue
  earlyArrivalSeqNumSet : after.earlyArrivalSeqNumSet = before.earlyArrivalSeqNumSet
  foreignInitSeqNum : after.foreignInitSeqNum = before.foreignInitSeqNum
  conn : after.conn = before.conn

theorem removeAcked_frame (rel : UInt32) (sock : TcpSocket Buffer) (items : List TcpPacketItem) :
    ∃ connState closed inFlightList inFlightPacketSize, (removeAcked rel sock items).1 = { sock with
      connState := connState
      closed := closed
      inFlightList := inFlightList
      inFlightPacketSize := inFlightPacketSize } := by
  induction items generalizing sock with
  | nil => exact ⟨_, _, [], _, rfl⟩
  | cons item rest ih =>
      simp only [removeAcked]
      split
      · split
        · exact ⟨_, _, _, _, rfl⟩
        · obtain ⟨connState, closed, inFlightList, inFlightPacketSize, result⟩ := ih (sock.ackedItem item)
          exact ⟨connState, closed, inFlightList, inFlightPacketSize, result⟩
      · exact ⟨_, _, _, _, rfl⟩

/-- The fields that the acknowledgement half writes. -/
theorem receiveAck_frame (sock : TcpSocket Buffer) (tcpHdr : TCPFields) :
    ∃ connState closed inFlightList inFlightPacketSize foreignWindowSize largestAckReceived,
      (sock.receiveAck tcpHdr).1 = { sock with
        connState := connState
        closed := closed
        inFlightList := inFlightList
        inFlightPacketSize := inFlightPacketSize
        foreignWindowSize := foreignWindowSize
        largestAckReceived := largestAckReceived } := by
  unfold receiveAck
  split
  · exact ⟨_, _, _, _, _, _, rfl⟩
  split
  · dsimp only
    split <;> exact ⟨_, _, _, _, _, _, rfl⟩
  · obtain ⟨connState, closed, inFlightList, inFlightPacketSize, removed⟩ :=
      removeAcked_frame (tcpHdr.ackNum - sock.myInitSeqNum) (sock.storeAck tcpHdr) sock.inFlightList
    split
    all_goals
      rename_i result
      rw [result] at removed
      exact ⟨connState, closed, inFlightList, inFlightPacketSize, _, _, removed⟩

theorem receiveAck_receiver (sock : TcpSocket Buffer) (tcpHdr : TCPFields) :
    SameReceiver sock (sock.receiveAck tcpHdr).1 := by
  obtain ⟨_, _, _, _, _, _, result⟩ := sock.receiveAck_frame tcpHdr
  rw [result]
  exact ⟨rfl, rfl, rfl, rfl, rfl, rfl⟩

variable [RingBuffer Buffer]

theorem writeIntoReadBuffer_fst (sock : TcpSocket Buffer) (data : List Byte) :
    (sock.writeIntoReadBuffer data).1 = { sock with
      readBuffer := (write sock.readBuffer data).1
      nextExpectedByte :=
        if data.length ≤ free sock.readBuffer then sock.nextExpectedByte + UInt32.ofNat data.length
        else sock.nextExpectedByte } := by
  unfold writeIntoReadBuffer
  have count : (write sock.readBuffer data).2.1 = min data.length (free sock.readBuffer) :=
    write_count sock.readBuffer data
  by_cases fits : data.length ≤ free sock.readBuffer
  · have noError := write_error_of_le sock.readBuffer data fits
    simp [noError, count, fits]
  · obtain ⟨err, failed⟩ := write_error_of_lt sock.readBuffer data (by omega)
    simp [failed, fits]

theorem writeIntoReadBuffer_snd (sock : TcpSocket Buffer) (data : List Byte) :
    (sock.writeIntoReadBuffer data).2 =
      if data.length ≤ free sock.readBuffer then
        [.broadcast .readBufferIsNotEmpty, .writeIntoReadBuffer none]
      else [.writeIntoReadBuffer ((write sock.readBuffer data).2.2.map SockErr.ring)] := by
  unfold writeIntoReadBuffer
  have count : (write sock.readBuffer data).2.1 = min data.length (free sock.readBuffer) :=
    write_count sock.readBuffer data
  by_cases fits : data.length ≤ free sock.readBuffer
  · have noError := write_error_of_le sock.readBuffer data fits
    simp [noError, count, fits]
  · obtain ⟨err, failed⟩ := write_error_of_lt sock.readBuffer data (by omega)
    simp [failed, fits]

theorem writeIntoReadBuffer_quiet (sock : TcpSocket Buffer) (data : List Byte) :
    (∀ sent, .sendTcp sent ∉ (sock.writeIntoReadBuffer data).2) ∧
      (∀ err, .writeIntoReadBuffer err ∈ (sock.writeIntoReadBuffer data).2 →
        err = none ∨ free sock.readBuffer < data.length) ∧
      .deleteConnSafe ∉ (sock.writeIntoReadBuffer data).2 ∧
      .broadcast .windowNotEmpty ∉ (sock.writeIntoReadBuffer data).2 := by
  rw [writeIntoReadBuffer_snd]
  split
  · simp
  · rename_i excess
    refine ⟨by simp, fun _ _ => Or.inr (by omega), by simp, by simp⟩

def drained (sock : TcpSocket Buffer) (root : TcpPacketItem) : TcpSocket Buffer :=
  { sock with
    connState :=
      if root.value.header.flags = tcpFlagFin then sock.connState.afterFin else sock.connState
    earlyArrivalQueue := sock.earlyArrivalQueue.heapPop
    earlyArrivalPacketSize := sock.earlyArrivalPacketSize - UInt32.ofNat root.value.data.length
    readBuffer := (write sock.readBuffer root.value.data).1
    nextExpectedByte :=
      if root.value.data.length ≤ free sock.readBuffer then
        sock.nextExpectedByte + UInt32.ofNat root.value.data.length
      else sock.nextExpectedByte }

theorem drained_entries {sock : TcpSocket Buffer} {root : TcpPacketItem} {others : PriorityQueue}
    (queue : sock.earlyArrivalQueue = root :: others) :
    ∀ entry ∈ PriorityQueue.entries (sock.drained root).earlyArrivalQueue,
      entry ∈ PriorityQueue.entries sock.earlyArrivalQueue := by
  intro entry member
  simp only [drained, queue] at member ⊢
  exact List.mem_cons_of_mem _ ((PriorityQueue.heapPop_entries root others).mem_iff.mp member)

theorem drainEarlyArrivals_turn (fuel : Nat) (sock : TcpSocket Buffer) (root : TcpPacketItem)
    (others : PriorityQueue) (queue : sock.earlyArrivalQueue = root :: others)
    (inOrder : root.priority = sock.nextExpectedByte.toNat) :
    sock.drainEarlyArrivals (fuel + 1) =
      let popped := sock.popEarlyArrival root.value
      let absorbed := if root.value.header.flags = tcpFlagFin then popped.finReceived else (popped, [])
      let stored := absorbed.1.writeIntoReadBuffer root.value.data
      let rest := stored.1.drainEarlyArrivals fuel
      (rest.1, absorbed.2 ++ stored.2 ++ rest.2) := by
  simp only [drainEarlyArrivals, queue, if_pos inOrder]

theorem drainEarlyArrivals_succ (fuel : Nat) (sock : TcpSocket Buffer) (root : TcpPacketItem)
    (others : PriorityQueue) (queue : sock.earlyArrivalQueue = root :: others)
    (inOrder : root.priority = sock.nextExpectedByte.toNat) :
    ∃ turn : List Effect, sock.drainEarlyArrivals (fuel + 1) =
        (((sock.drained root).drainEarlyArrivals fuel).1,
          turn ++ ((sock.drained root).drainEarlyArrivals fuel).2) ∧
      (∀ sent, .sendTcp sent ∉ turn) ∧
      (∀ err, .writeIntoReadBuffer err ∈ turn →
        err = none ∨ free sock.readBuffer < root.value.data.length) ∧
      .deleteConnSafe ∉ turn ∧ .broadcast .windowNotEmpty ∉ turn := by
  generalize marked : (if root.value.header.flags = tcpFlagFin
    then (sock.popEarlyArrival root.value).finReceived
    else (sock.popEarlyArrival root.value, [])) = fin
  have socket : fin.1 = { sock.popEarlyArrival root.value with
      connState :=
        if root.value.header.flags = tcpFlagFin then sock.connState.afterFin else sock.connState } := by
    subst marked
    split
    · rw [finReceived_fst]; rfl
    · rfl
  have quiet : ∀ effect ∈ fin.2,
      effect = .broadcast .readBufferIsNotEmpty ∨ effect = .timeWait := by
    subst marked
    split
    · exact finReceived_snd _
    · simp
  have result : (fin.1.writeIntoReadBuffer root.value.data).1 = sock.drained root := by
    rw [writeIntoReadBuffer_fst, socket]
    rfl
  have sameFree : free fin.1.readBuffer = free sock.readBuffer := by rw [socket]; rfl
  obtain ⟨noSend, writes, noDelete, noWake⟩ := fin.1.writeIntoReadBuffer_quiet root.value.data
  refine ⟨fin.2 ++ (fin.1.writeIntoReadBuffer root.value.data).2, ?_, ?_, ?_, ?_, ?_⟩
  · rw [drainEarlyArrivals_turn fuel sock root others queue inOrder]
    simp only [marked, result]
  · intro sent member
    rcases List.mem_append.mp member with early | late
    · simpa using quiet _ early
    · exact noSend sent late
  · intro err member
    rcases List.mem_append.mp member with early | late
    · simpa using quiet _ early
    · exact sameFree ▸ writes err late
  · intro member
    rcases List.mem_append.mp member with early | late
    · simpa using quiet _ early
    · exact noDelete late
  · intro member
    rcases List.mem_append.mp member with early | late
    · simpa using quiet _ early
    · exact noWake late

theorem writeIntoReadBuffer_conn (sock : TcpSocket Buffer) (data : List Byte) :
    (sock.writeIntoReadBuffer data).1.conn = sock.conn := by
  rw [writeIntoReadBuffer_fst]

theorem drainEarlyArrivals_conn (fuel : Nat) (sock : TcpSocket Buffer) :
    (sock.drainEarlyArrivals fuel).1.conn = sock.conn := by
  induction fuel generalizing sock with
  | zero => rfl
  | succ fuel ih =>
      cases queue : sock.earlyArrivalQueue with
      | nil => simp only [drainEarlyArrivals, queue]
      | cons root others =>
          by_cases inOrder : root.priority = sock.nextExpectedByte.toNat
          · obtain ⟨turn, unfolded, _⟩ := drainEarlyArrivals_succ fuel sock root others queue inOrder
            rw [unfolded]
            exact ih (sock.drained root)
          · simp only [drainEarlyArrivals, queue, inOrder, if_false]

section
variable [Netstack] (packet : TcpPacket) (stores : TcpSocket Buffer → List Byte → Prop)
  (absorbs : ConnState → Prop)

/-- The elementary actions of `HandlePacket` on `packet`, with the effects of each.
`stores` is an extra condition on the writes of the drain loop, `absorbs` one on the
state in which a FIN is taken in order. -/
inductive Act : TcpSocket Buffer → List Effect → TcpSocket Buffer → Prop where
  | sameAck (sock : TcpSocket Buffer) (flags : packet.header.flags = tcpFlagAck)
      (same : packet.header.ackNum = sock.largestAckReceived)
      (wider : sock.foreignWindowSize < packet.header.windowSize.toUInt32) :
      Act sock [] { sock with foreignWindowSize := packet.header.windowSize.toUInt32 }
  | newAck (sock : TcpSocket Buffer) (flags : packet.header.flags = tcpFlagAck)
      (newer : sock.largestAckReceived < packet.header.ackNum) :
      Act sock [] (sock.storeAck packet.header)
  | acked (sock : TcpSocket Buffer) (item : TcpPacketItem) (rest : List TcpPacketItem)
      (flags : packet.header.flags = tcpFlagAck)
      (latest : sock.largestAckReceived = packet.header.ackNum)
      (front : sock.inFlightList = item :: rest)
      (covered : item.priority + item.value.payloadSize ≤
        (sock.largestAckReceived - sock.myInitSeqNum).toNat)
      (stays : item.value.hasFin = true → sock.connState ≠ .lastAck) :
      Act sock [] ((sock.ackedItem item).withInFlight rest)
  | closing (sock : TcpSocket Buffer) (item : TcpPacketItem) (rest : List TcpPacketItem)
      (flags : packet.header.flags = tcpFlagAck)
      (latest : sock.largestAckReceived = packet.header.ackNum)
      (front : sock.inFlightList = item :: rest)
      (covered : item.priority + item.value.payloadSize ≤
        (sock.largestAckReceived - sock.myInitSeqNum).toNat)
      (fin : item.value.hasFin = true) (last : sock.connState = .lastAck) :
      Act sock [.deleteConnSafe] { sock with connState := .closed, closed := true }
  | wake (sock : TcpSocket Buffer) : Act sock sock.wakeProbe sock
  | store (sock : TcpSocket Buffer) (flags : packet.header.flags = tcpFlagAck)
      (payload : packet.data ≠ []) (inOrder : sock.relSeqNum packet = sock.nextExpectedByte)
      (fits : packet.data.length ≤ free sock.readBuffer) :
      Act sock [.broadcast .readBufferIsNotEmpty, .writeIntoReadBuffer none] { sock with
        readBuffer := (write sock.readBuffer packet.data).1
        nextExpectedByte := sock.nextExpectedByte + UInt32.ofNat packet.data.length }
  | drain (sock : TcpSocket Buffer) (root : TcpPacketItem) (others : PriorityQueue)
      (effects : List Effect) (queue : sock.earlyArrivalQueue = root :: others)
      (inOrder : root.priority = sock.nextExpectedByte.toNat)
      (stored : stores sock root.value.data)
      (quiet : ∀ sent, .sendTcp sent ∉ effects)
      (written : ∀ err, .writeIntoReadBuffer err ∈ effects →
        err = none ∨ free sock.readBuffer < root.value.data.length)
      (kept : .deleteConnSafe ∉ effects) (asleep : .broadcast .windowNotEmpty ∉ effects) :
      Act sock effects (sock.drained root)
  | queue (sock : TcpSocket Buffer)
      (kind : (packet.header.flags = tcpFlagAck ∧ packet.data ≠ []) ∨ packet.hasFin = true)
      (early : sock.nextExpectedByte < sock.relSeqNum packet)
      (fresh : sock.relSeqNum packet ∉ sock.earlyArrivalSeqNumSet) :
      Act sock [] { sock with
        earlyArrivalQueue := sock.earlyArrivalQueue.heapPush
          { value := packet, priority := (sock.relSeqNum packet).toNat }
        earlyArrivalSeqNumSet := insert (sock.relSeqNum packet) sock.earlyArrivalSeqNumSet
        earlyArrivalPacketSize :=
          sock.earlyArrivalPacketSize + UInt32.ofNat packet.data.length }
  | sendAck (sock : TcpSocket Buffer) (flags : packet.header.flags = tcpFlagAck)
      (payload : packet.data ≠ []) : Act sock sock.sendAck sock
  | finInOrder (sock : TcpSocket Buffer) (effects : List Effect)
      (flags : packet.header.flags ≠ tcpFlagAck) (fin : packet.hasFin = true)
      (inOrder : sock.relSeqNum packet = sock.nextExpectedByte) (absorbed : absorbs sock.connState)
      (quiet : ∀ effect ∈ effects, effect = .broadcast .readBufferIsNotEmpty ∨ effect = .timeWait) :
      Act sock (.sendTcp (sock.conn.seal sock.getFinAckHeader []) :: effects)
        { sock with connState := sock.connState.afterFin }

inductive Acts : TcpSocket Buffer → List Effect → TcpSocket Buffer → Prop where
  | nil (sock : TcpSocket Buffer) : Acts sock [] sock
  | snoc {first middle last : TcpSocket Buffer} {effects more : List Effect} :
      Acts first effects middle → Act packet stores absorbs middle more last →
        Acts first (effects ++ more) last

end

variable [Netstack] {packet : TcpPacket} {stores : TcpSocket Buffer → List Byte → Prop}
  {absorbs : ConnState → Prop} {first middle last : TcpSocket Buffer} {effects more : List Effect}

theorem Act.acts (act : Act packet stores absorbs first effects last) :
    Acts packet stores absorbs first effects last := by
  simpa using Acts.snoc (Acts.nil first) act

theorem Acts.append (front : Acts packet stores absorbs first effects middle)
    (back : Acts packet stores absorbs middle more last) :
    Acts packet stores absorbs first (effects ++ more) last := by
  induction back with
  | nil => simpa using front
  | snoc _ act ih =>
      rw [← List.append_assoc]
      exact Acts.snoc ih act

/-- What every action preserves, together with its effects, `HandlePacket` preserves. -/
theorem Acts.preserves (invariant : TcpSocket Buffer → List Effect → Prop)
    (step : ∀ sock done more after, invariant sock done → Act packet stores absorbs sock more after →
      invariant after (done ++ more))
    (acts : Acts packet stores absorbs first effects last) (initially : invariant first []) :
    invariant last effects := by
  induction acts with
  | nil => exact initially
  | snoc _ act ih => exact step _ _ _ _ ih act

structure SameIdentity (before after : TcpSocket Buffer) : Prop where
  conn : after.conn = before.conn
  myInitSeqNum : after.myInitSeqNum = before.myInitSeqNum
  foreignInitSeqNum : after.foreignInitSeqNum = before.foreignInitSeqNum
  numBytesSent : after.numBytesSent = before.numBytesSent
  writeBuffer : after.writeBuffer = before.writeBuffer
  canRead : after.canRead = before.canRead
  canWrite : after.canWrite = before.canWrite

theorem Act.sameIdentity (act : Act packet stores absorbs first effects last) :
    SameIdentity first last := by
  cases act <;> exact ⟨rfl, rfl, rfl, rfl, rfl, rfl, rfl⟩

theorem Acts.sameIdentity (acts : Acts packet stores absorbs first effects last) :
    SameIdentity first last := by
  induction acts with
  | nil => exact ⟨rfl, rfl, rfl, rfl, rfl, rfl, rfl⟩
  | snoc _ act ih =>
      have same := act.sameIdentity
      exact ⟨same.conn.trans ih.conn, same.myInitSeqNum.trans ih.myInitSeqNum,
        same.foreignInitSeqNum.trans ih.foreignInitSeqNum, same.numBytesSent.trans ih.numBytesSent,
        same.writeBuffer.trans ih.writeBuffer, same.canRead.trans ih.canRead,
        same.canWrite.trans ih.canWrite⟩

/-! ## The code as a sequence of actions -/

theorem removeAcked_acts (stores : TcpSocket Buffer → List Byte → Prop)
    (absorbs : ConnState → Prop) (flags : packet.header.flags = tcpFlagAck) (sock : TcpSocket Buffer)
    (latest : sock.largestAckReceived = packet.header.ackNum) (items : List TcpPacketItem)
    (same : sock.inFlightList = items) :
    ∃ effects, Acts packet stores absorbs sock effects
        (sock.removeAcked (packet.header.ackNum - sock.myInitSeqNum) items).1 ∧
      effects = if (sock.removeAcked (packet.header.ackNum - sock.myInitSeqNum) items).2
        then [.deleteConnSafe] else [] := by
  induction items generalizing sock with
  | nil =>
      refine ⟨[], ?_, rfl⟩
      simp only [removeAcked]
      rw [withInFlight_self sock [] same]
      exact Acts.nil sock
  | cons item rest ih =>
      by_cases covered : item.priority + item.value.payloadSize ≤
          (packet.header.ackNum - sock.myInitSeqNum).toNat
      · by_cases ends : item.value.hasFin = true ∧ sock.connState = .lastAck
        · refine ⟨[.deleteConnSafe], ?_, by simp [removeAcked, covered, ends]⟩
          have act : Act packet stores absorbs sock _ _ := Act.closing sock item rest flags latest same
            (by rw [latest]; exact covered) ends.1 ends.2
          simpa [removeAcked, covered, ends, ← same] using act.acts
        · have act : Act packet stores absorbs sock _ _ := Act.acked sock item rest flags latest same
            (by rw [latest]; exact covered) (fun fin last => ends ⟨fin, last⟩)
          -- The loop goes on with the list that the action has left.
          have again : removeAcked (packet.header.ackNum - sock.myInitSeqNum) sock (item :: rest) =
              removeAcked (packet.header.ackNum - sock.myInitSeqNum)
                ((sock.ackedItem item).withInFlight rest) rest := by
            rw [removeAcked_withInFlight]
            simp only [removeAcked]
            rw [if_pos covered, if_neg ends]
          obtain ⟨effects, acts, known⟩ := ih ((sock.ackedItem item).withInFlight rest) latest rfl
          rw [again]
          refine ⟨effects, ?_, known⟩
          exact act.acts.append acts
      · refine ⟨[], ?_, by simp [removeAcked, covered]⟩
        simp only [removeAcked]
        rw [if_neg covered, withInFlight_self sock _ same]
        exact Acts.nil sock

theorem drainEarlyArrivals_acts (packet : TcpPacket) {loop : TcpSocket Buffer → Prop}
    (stored : ∀ sock root others, loop sock → sock.earlyArrivalQueue = root :: others →
      root.priority = sock.nextExpectedByte.toNat →
      stores sock root.value.data ∧ loop (sock.drained root))
    (fuel : Nat) (sock : TcpSocket Buffer) (holds : loop sock) :
    Acts packet stores absorbs sock (sock.drainEarlyArrivals fuel).2 (sock.drainEarlyArrivals fuel).1 := by
  -- The drain loop is a sequence of drain actions, given an invariant of the loop that yields the condition
  -- on its writes.
  induction fuel generalizing sock with
  | zero => exact Acts.nil sock
  | succ fuel ih =>
      cases queue : sock.earlyArrivalQueue with
      | nil =>
          simp only [drainEarlyArrivals, queue]
          exact Acts.nil sock
      | cons root others =>
          by_cases inOrder : root.priority = sock.nextExpectedByte.toNat
          · obtain ⟨turn, unfolded, noSend, writes, noDelete, noWake⟩ :=
              drainEarlyArrivals_succ fuel sock root others queue inOrder
            obtain ⟨condition, still⟩ := stored sock root others holds queue inOrder
            rw [unfolded]
            exact (Act.drain sock root others turn queue inOrder condition noSend writes noDelete
              noWake).acts.append (ih (sock.drained root) still)
          · simp only [drainEarlyArrivals, queue, inOrder, if_false]
            exact Acts.nil sock

theorem receiveAck_acts (stores : TcpSocket Buffer → List Byte → Prop)
    (absorbs : ConnState → Prop) (flags : packet.header.flags = tcpFlagAck) (sock : TcpSocket Buffer) :
    Acts packet stores absorbs sock (sock.receiveAck packet.header).2.1 (sock.receiveAck packet.header).1 := by
  unfold receiveAck
  by_cases old : packet.header.ackNum < sock.largestAckReceived
  · simp only [old, if_true]
    exact Acts.nil sock
  by_cases same : packet.header.ackNum = sock.largestAckReceived
  · rw [if_neg old, if_pos same]
    by_cases wider : sock.foreignWindowSize < packet.header.windowSize.toUInt32
    · have widened : Act packet stores absorbs sock _ _ := Act.sameAck sock flags same wider
      simp only [wider, if_true]
      exact widened.acts.append (Act.wake _).acts
    · simp only [wider, if_false]
      exact (Act.wake sock).acts
  · have newer : sock.largestAckReceived < packet.header.ackNum :=
      UInt32.lt_of_le_of_ne (UInt32.not_lt.mp old) (Ne.symm same)
    have stored : Act packet stores absorbs sock _ _ := Act.newAck sock flags newer
    obtain ⟨effects, removal, known⟩ := removeAcked_acts stores absorbs flags
      (sock.storeAck packet.header) rfl sock.inFlightList rfl
    change Acts packet stores absorbs _ _ ((sock.storeAck packet.header).removeAcked
      (packet.header.ackNum - sock.myInitSeqNum) sock.inFlightList).1 at removal
    change effects = if ((sock.storeAck packet.header).removeAcked
      (packet.header.ackNum - sock.myInitSeqNum) sock.inFlightList).2 then _ else _ at known
    rw [if_neg old, if_neg same]
    generalize (sock.storeAck packet.header).removeAcked
      (packet.header.ackNum - sock.myInitSeqNum) sock.inFlightList = result at removal known ⊢
    obtain ⟨after, ended⟩ := result
    cases ended with
    | true =>
        subst known
        exact stored.acts.append removal
    | false =>
        subst known
        exact (stored.acts.append removal).append (Act.wake _).acts

theorem queueEarlyArrival_acts (sock : TcpSocket Buffer)
    (kind : (packet.header.flags = tcpFlagAck ∧ packet.data ≠ []) ∨ packet.hasFin = true)
    (early : sock.nextExpectedByte < sock.relSeqNum packet) :
    Acts packet stores absorbs sock [] (sock.queueEarlyArrival packet) := by
  unfold queueEarlyArrival
  by_cases known : sock.relSeqNum packet ∈ sock.earlyArrivalSeqNumSet
  · simp only [known, if_true]
    exact Acts.nil sock
  · simp only [known, if_false]
    exact (Act.queue sock kind early known).acts

section
-- The loop invariant is asked for the packet at hand, once its payload is stored.
variable {loop : TcpSocket Buffer → Prop}
  (stored : ∀ sock root others, loop sock → sock.earlyArrivalQueue = root :: others →
    root.priority = sock.nextExpectedByte.toNat →
    stores sock root.value.data ∧ loop (sock.drained root))
include stored

theorem receiveData_acts (flags : packet.header.flags = tcpFlagAck) (payload : packet.data ≠ [])
    (sock : TcpSocket Buffer)
    (holds : sock.relSeqNum packet = sock.nextExpectedByte →
      packet.data.length ≤ free sock.readBuffer → loop (sock.writeIntoReadBuffer packet.data).1) :
    Acts packet stores absorbs sock (sock.receiveData packet).2 (sock.receiveData packet).1 := by
  unfold receiveData
  by_cases inOrder : sock.relSeqNum packet = sock.nextExpectedByte
  · rw [if_pos inOrder]
    by_cases fits : packet.data.length ≤ free sock.readBuffer
    · rw [if_pos fits]
      have write : Act packet stores absorbs sock _ _ := Act.store sock flags payload inOrder fits
      have first := sock.writeIntoReadBuffer_fst packet.data
      have second := sock.writeIntoReadBuffer_snd packet.data
      rw [if_pos fits] at first second
      have start := holds inOrder fits
      rw [← first, ← second] at write
      exact (write.acts.append (drainEarlyArrivals_acts packet stored _ _ start)).append
        (Act.sendAck _ flags payload).acts
    · rw [if_neg fits]
      exact Acts.nil sock
  · rw [if_neg inOrder]
    by_cases early : sock.nextExpectedByte < sock.relSeqNum packet
    · rw [if_pos early]
      exact (queueEarlyArrival_acts sock (Or.inl ⟨flags, payload⟩) early).append
        (Act.sendAck _ flags payload).acts
    · rw [if_neg early]
      exact (Act.sendAck sock flags payload).acts

omit stored in
theorem receiveFin_acts (flags : packet.header.flags ≠ tcpFlagAck) (fin : packet.hasFin = true)
    (sock : TcpSocket Buffer)
    (absorbed : sock.relSeqNum packet = sock.nextExpectedByte → absorbs sock.connState) :
    Acts packet stores absorbs sock (sock.receiveFin packet).2 (sock.receiveFin packet).1 := by
  unfold receiveFin
  by_cases inOrder : sock.relSeqNum packet = sock.nextExpectedByte
  · simp only [inOrder, if_true]
    rw [finReceived_fst]
    exact (Act.finInOrder sock sock.finReceived.2 flags fin inOrder (absorbed inOrder)
      (finReceived_snd sock)).acts
  · by_cases early : sock.nextExpectedByte < sock.relSeqNum packet
    · simp only [inOrder, if_false, early, if_true]
      exact queueEarlyArrival_acts sock (Or.inr fin) early
    · simp only [inOrder, if_false, early]
      exact Acts.nil sock

/-- `HandlePacket` is a sequence of its elementary actions. The loop invariant is
wanted where the drain loop starts, the other condition where a FIN is taken in order. -/
theorem handlePacket_acts_of (sock : TcpSocket Buffer)
    (holds : ∀ after effects, sock.receiveAck packet.header = (after, effects, true) →
      packet.data ≠ [] → after.relSeqNum packet = after.nextExpectedByte →
      packet.data.length ≤ free after.readBuffer → loop (after.writeIntoReadBuffer packet.data).1)
    (absorbed : packet.header.flags ≠ tcpFlagAck → packet.hasFin = true →
      sock.relSeqNum packet = sock.nextExpectedByte → absorbs sock.connState) :
    Acts packet stores absorbs sock (sock.handlePacket packet).2 (sock.handlePacket packet).1 := by
  unfold handlePacket
  split
  · exact Acts.nil sock
  split
  · exact Acts.nil sock
  split
  · rename_i flags
    have front := receiveAck_acts stores absorbs flags sock
    split
    · rename_i after effects result
      rw [result] at front
      exact front
    · rename_i after effects result
      rw [result] at front
      split
      · exact front
      · rename_i payload
        have some : packet.data ≠ [] := fun empty => payload (List.length_eq_zero_iff.mpr empty)
        exact front.append (receiveData_acts stored flags some after (holds after effects result some))
  split
  · rename_i flags fin
    exact receiveFin_acts flags fin sock (absorbed flags fin)
  · exact Acts.nil sock

end

theorem handlePacket_acts (sock : TcpSocket Buffer) (packet : TcpPacket) :
    Acts packet (fun _ _ => True) (fun _ => True) sock (sock.handlePacket packet).2
      (sock.handlePacket packet).1 :=
  have stored : ∀ (sock : TcpSocket Buffer) (root : TcpPacketItem) (others : PriorityQueue), True →
      sock.earlyArrivalQueue = root :: others → root.priority = sock.nextExpectedByte.toNat →
      True ∧ True := fun _ _ _ _ _ _ => ⟨trivial, trivial⟩
  handlePacket_acts_of stored sock (fun _ _ _ _ _ _ => trivial) fun _ _ _ => trivial

end TcpSocket

end IpTcp.Tcp
