import IpTcp.Tcp.Sender

/-! The states an end goes through while a connection is taken down, tied to what its
goroutines have done: when its FIN was sent, when it was acknowledged, and when the
socket left the table. -/

set_option autoImplicit false

namespace IpTcp.Tcp

open RingBuffer

namespace ConnState

def pastFin : ConnState → Bool
  | .closeWait | .lastAck | .closed | .timeWait => true
  | _ => false

def finSent : ConnState → Bool
  | .finWait1 | .finWait2 | .timeWait | .lastAck | .closed => true
  | _ => false

def finAcked : ConnState → Bool
  | .finWait2 | .timeWait | .closed => true
  | _ => false

def opening : ConnState → Bool
  | .synSent | .synReceived => true
  | _ => false

@[simp] theorem finSent_afterFin (state : ConnState) : state.afterFin.finSent = state.finSent := by
  cases state <;> rfl

@[simp] theorem finAcked_afterFin (state : ConnState) : state.afterFin.finAcked = state.finAcked := by
  cases state <;> rfl

@[simp] theorem opening_afterFin (state : ConnState) : state.afterFin.opening = state.opening := by
  cases state <;> rfl

@[simp] theorem finSent_afterFinAcked (state : ConnState) :
    state.afterFinAcked.finSent = state.finSent := by
  cases state <;> rfl

@[simp] theorem opening_afterFinAcked (state : ConnState) :
    state.afterFinAcked.opening = state.opening := by
  cases state <;> rfl

@[simp] theorem pastFin_afterFinAcked (state : ConnState) :
    state.afterFinAcked.pastFin = state.pastFin := by
  cases state <;> rfl

theorem before_finSent {state : ConnState} (running : state.opening = false)
    (unsent : state.finSent = false) : state = .established ∨ state = .closeWait := by
  cases state <;> simp_all [opening, finSent]

theorem finSent_of_finAcked {state : ConnState} (acked : state.finAcked = true) :
    state.finSent = true := by
  cases state <;> first | rfl | cases acked

theorem finAcked_afterFinAcked {state : ConnState} (sent : state.finSent = true)
    (stays : state ≠ .lastAck) : state.afterFinAcked.finAcked = true := by
  cases state <;> first | rfl | exact absurd rfl stays | cases sent

theorem pastFin_afterFin {state : ConnState} (past : state.pastFin = true) :
    state.afterFin.pastFin = true := by
  cases state <;> first | rfl | cases past

/-- Where no FIN was received, taking one in order is the only way to have received it,
and it works in every state but `FIN_WAIT_1`. -/
theorem pastFin_of_afterFin {state : ConnState} (running : state.opening = false)
    (absorbs : state ≠ .finWait1) : state.afterFin.pastFin = true := by
  cases state <;> first | rfl | exact absurd rfl absorbs | cases running

/-- No step opens a connection, begins a handshake or ends one, and the states on the far side of
a FIN are not left. -/
structure Leads (before after : ConnState) : Prop where
  opened : after = .established → before = .established
  opening : after.opening = before.opening
  past : before.pastFin = true → after.pastFin = true
  acked : before.finAcked = true → after.finAcked = true

theorem Leads.refl (state : ConnState) : Leads state state := ⟨id, rfl, id, id⟩

theorem Leads.trans {first middle last : ConnState} (front : Leads first middle)
    (back : Leads middle last) : Leads first last :=
  ⟨fun opened => front.opened (back.opened opened), back.opening.trans front.opening,
    fun past => back.past (front.past past), fun acked => back.acked (front.acked acked)⟩

theorem leads_afterFin (state : ConnState) : Leads state state.afterFin := by
  refine ⟨fun opened => ?_, by simp, pastFin_afterFin, by simp⟩
  cases state <;> first | rfl | cases opened

theorem leads_afterFinAcked (state : ConnState) : Leads state state.afterFinAcked := by
  refine ⟨fun opened => ?_, by simp, by simp, ?_⟩
  · cases state <;> first | rfl | cases opened
  · cases state <;> simp [afterFinAcked, finAcked]

end ConnState

namespace Endpoint

variable {Buffer : Type}

/-- The connection state goes with what happened to this end's FIN. -/
structure Control (e : Endpoint Buffer) : Prop where
  running : e.sock.connState.opening = false
  returned : e.writer = .returned ↔ e.sock.connState.finSent = true
  outstanding : e.sock.connState.finSent = true →
    (∃ item ∈ e.sock.inFlightList, item.value.hasFin = true) ∨ e.sock.connState.finAcked = true
  bounded : e.sock.connState.finAcked = true → e.transmitted.length + 2 < 2 ^ 32
  removed : e.deleted = true → e.sock.connState = .timeWait ∨ e.sock.connState = .closed

theorem Numbered.fin_covered {e : Endpoint Buffer} (numbered : e.Numbered) {item : TcpPacketItem}
    {rest : List TcpPacketItem} (front : e.sock.inFlightList = item :: rest)
    (fin : item.value.hasFin = true) {reached : Nat}
    (covered : item.priority + item.value.payloadSize ≤ reached) :
    e.transmitted.length + 2 ≤ reached := by
  -- An acknowledgement that covers the FIN is past all of the payload.
  obtain ⟨acked, split, bound⟩ := numbered.inFlight
  rw [front, List.map_cons] at split
  have regroup : e.sent = acked ++ item.value :: (rest.map (·.value) ++ e.writer.unpushed) := by
    simpa using split
  have priority := numbered.priority (by simp [front]) regroup bound
  have segments := numbered.segments
  rw [regroup] at segments
  obtain ⟨data, isData | ⟨_, isFin, last⟩⟩ := segments.before
  · rw [isData.hasFin] at fin
    cases fin
  · have total : e.transmitted.length = occupied acked := by
      rw [occupied_of_data data, transmitted, regroup, last]
      simp [isFin.empty]
    rw [isFin.payloadSize] at covered
    omega

theorem Control.same {e other : Endpoint Buffer} (control : e.Control)
    (state : other.sock.connState = e.sock.connState)
    (list : PriorityQueue.entries other.sock.inFlightList = PriorityQueue.entries e.sock.inFlightList)
    (sent : other.sent = e.sent) (writer : other.writer = .returned ↔ e.writer = .returned)
    (deleted : other.deleted = e.deleted) : other.Control := by
  have transmits : other.transmitted = e.transmitted := congrArg payloads sent
  refine ⟨state ▸ control.running, ?_, ?_, ?_, ?_⟩
  · rw [writer, state]
    exact control.returned
  · rw [state]
    intro finSent
    rcases control.outstanding finSent with ⟨item, member, fin⟩ | acked
    · have value : item.value ∈ other.sock.inFlightList.map (·.value) := by
        rw [PriorityQueue.values_of_entries list]
        exact List.mem_map_of_mem member
      obtain ⟨kept, found, same⟩ := List.mem_map.mp value
      exact Or.inl ⟨kept, found, same ▸ fin⟩
    · exact Or.inr acked
  · rw [state, transmits]
    exact control.bounded
  · rw [state, deleted]
    exact control.removed

theorem Control.stillRunning {e other : Endpoint Buffer} (control : e.Control)
    (running : e.writer ≠ .returned) (still : other.writer ≠ .returned)
    (state : other.sock.connState = e.sock.connState) (deleted : other.deleted = e.deleted) :
    other.Control := by
  have unsent : e.sock.connState.finSent ≠ true := fun sent => running (control.returned.mpr sent)
  refine ⟨state ▸ control.running, ?_, ?_, ?_, ?_⟩
  · rw [state]
    exact ⟨fun returned => absurd returned still, fun sent => absurd sent unsent⟩
  · rw [state]
    exact fun sent => absurd sent unsent
  · rw [state]
    exact fun acked => absurd (ConnState.finSent_of_finAcked acked) unsent
  · rw [state, deleted]
    exact control.removed

theorem Control.afterFin {e : Endpoint Buffer} {sock after : TcpSocket Buffer}
    (control : Control { e with sock := sock })
    (state : after.connState = sock.connState.afterFin)
    (list : after.inFlightList = sock.inFlightList) : Control { e with sock := after } := by
  obtain ⟨running, returned, outstanding, bounded, removed⟩ := control
  refine ⟨?_, ?_, ?_, ?_, ?_⟩
  all_goals simp only [state, list, ConnState.opening_afterFin, ConnState.finSent_afterFin,
    ConnState.finAcked_afterFin]
  · exact running
  · exact returned
  · exact outstanding
  · exact bounded
  · intro deleted
    rcases removed deleted with waits | closed
    · exact Or.inl (by simp only at waits; rw [waits]; rfl)
    · exact Or.inr (by simp only at closed; rw [closed]; rfl)

theorem Control.finAcked {e : Endpoint Buffer} {sock after : TcpSocket Buffer}
    (control : Control { e with sock := sock })
    (state : after.connState = sock.connState.afterFinAcked) (stays : sock.connState ≠ .lastAck)
    (bound : e.transmitted.length + 2 < 2 ^ 32) : Control { e with sock := after } := by
  obtain ⟨running, returned, _, _, removed⟩ := control
  refine ⟨?_, ?_, ?_, fun _ => bound, ?_⟩
  all_goals simp only [state, ConnState.opening_afterFinAcked, ConnState.finSent_afterFinAcked]
  · exact running
  · exact returned
  · exact fun sent => Or.inr (ConnState.finAcked_afterFinAcked sent stays)
  · intro deleted
    rcases removed deleted with waits | closed
    · exact Or.inl (by simp only at waits; rw [waits]; rfl)
    · exact Or.inr (by simp only at closed; rw [closed]; rfl)

theorem control_established {e : Endpoint Buffer} (state : e.sock.connState = .established)
    (running : e.writer ≠ .returned) (kept : e.deleted = false) : e.Control := by
  refine ⟨?_, ?_, ?_, ?_, ?_⟩
  all_goals simp only [state, kept]
  · rfl
  · simp [ConnState.finSent, running]
  · intro sent
    cases sent
  · intro acked
    cases acked
  · intro deleted
    cases deleted

variable [RingBuffer Buffer]

theorem Opened.control {e : Endpoint Buffer} (opened : Opened e) : e.Control := by
  cases opened with
  | client => exact control_established rfl nofun rfl
  | server => exact control_established rfl nofun rfl

variable [Netstack]

theorem Control.act {e : Endpoint Buffer} {sock after : TcpSocket Buffer} {effects : List Effect}
    {packet : TcpPacket} {stores : TcpSocket Buffer → List Byte → Prop} {absorbs : ConnState → Prop}
    (numbered : Numbered { e with sock := sock }) (control : Control { e with sock := sock })
    (act : TcpSocket.Act packet stores absorbs sock effects after) :
    Control { e with sock := after } := by
  cases act with
  | sameAck | newAck | wake | store | queue | sendAck => exact control.same rfl rfl rfl Iff.rfl rfl
  | finInOrder => exact control.afterFin rfl rfl
  | drain root others _ queue =>
      by_cases fin : root.value.header.flags = tcpFlagFin
      · exact control.afterFin (if_pos fin) rfl
      · exact control.same (if_neg fin) rfl rfl Iff.rfl rfl
  | closing item rest flags latest front covered fin last =>
      -- The number is past the FIN, so the payload is bounded.
      have past := numbered.fin_covered front fin covered
      have below := (sock.largestAckReceived - sock.myInitSeqNum).toNat_lt
      refine ⟨rfl, ?_, fun _ => Or.inr rfl, fun _ => ?_, fun _ => Or.inr rfl⟩
      · have returned := control.returned
        simp only [last] at returned
        exact returned
      · change e.transmitted.length + 2 ≤ _ at past
        change e.transmitted.length + 2 < _
        omega
  | acked item rest flags latest front covered stays =>
      have state : ((sock.ackedItem item).withInFlight rest).connState =
          if item.value.hasFin then sock.connState.afterFinAcked else sock.connState :=
        sock.ackedItem_connState item
      by_cases fin : item.value.hasFin = true
      · rw [if_pos fin] at state
        have past := numbered.fin_covered front fin covered
        have below := (sock.largestAckReceived - sock.myInitSeqNum).toNat_lt
        refine control.finAcked state (stays fin) ?_
        change e.transmitted.length + 2 ≤ _ at past
        omega
      · rw [if_neg fin] at state
        obtain ⟨running, returned, outstanding, bounded, removed⟩ := control
        refine ⟨?_, ?_, ?_, ?_, ?_⟩
        all_goals simp only [state]
        · exact running
        · exact returned
        · intro sent
          rcases outstanding sent with ⟨other, member, isFin⟩ | acked
          · simp only [front, List.mem_cons] at member
            rcases member with rfl | later
            · exact absurd isFin fin
            · exact Or.inl ⟨other, later, isFin⟩
          · exact Or.inr acked
        · exact bounded
        · exact removed

/-- The socket leaves the table only when it is closed. -/
theorem deleteConnSafe_closes {sock after : TcpSocket Buffer} {effects more : List Effect}
    {packet : TcpPacket} {stores : TcpSocket Buffer → List Byte → Prop} {absorbs : ConnState → Prop}
    (closed : .deleteConnSafe ∈ effects → sock.connState = .closed)
    (act : TcpSocket.Act packet stores absorbs sock more after)
    (deletes : .deleteConnSafe ∈ effects ++ more) : after.connState = .closed := by
  rcases List.mem_append.mp deletes with before | now
  · have state := closed before
    cases act with
    | sameAck | newAck | wake | store | queue | sendAck => exact state
    | closing => rfl
    | acked item => simp [TcpSocket.withInFlight, TcpSocket.ackedItem, state]
    | finInOrder => simp [state, ConnState.afterFin]
    | drain root => simp [TcpSocket.drained, state, ConnState.afterFin]
  · cases act with
    | closing => rfl
    | sameAck | newAck | acked | store | queue | sendAck => simp [TcpSocket.sendAck] at now
    | wake =>
        unfold TcpSocket.wakeProbe at now
        split at now <;> simp at now
    | finInOrder _ _ _ _ _ quiet =>
        simp only [List.mem_cons, reduceCtorEq, false_or] at now
        simpa using quiet _ now
    | drain _ _ _ _ _ _ _ _ kept => exact absurd now kept

theorem handlePacket_deletes (sock : TcpSocket Buffer) (packet : TcpPacket)
    (deletes : .deleteConnSafe ∈ (sock.handlePacket packet).2) :
    (sock.handlePacket packet).1.connState = .closed :=
  (sock.handlePacket_acts packet).preserves
    (fun sock effects => .deleteConnSafe ∈ effects → sock.connState = .closed)
    (fun _ _ _ _ held act => deleteConnSafe_closes held act) (by simp) deletes

theorem Control.settle {e : Endpoint Buffer} (numbered : e.Numbered) (control : e.Control)
    (packet : TcpPacket) : (e.handlePacket packet).1.Control := by
  have acts := e.sock.handlePacket_acts packet
  obtain ⟨_, running, returned, outstanding, bounded, removed⟩ := acts.preserves
    (fun sock _ => Numbered { e with sock := sock } ∧ Control { e with sock := sock })
    (fun _ _ _ _ held act => ⟨held.1.act act, Control.act held.1 held.2 act⟩) ⟨numbered, control⟩
  refine ⟨running, (e.handlePacket_returned packet).trans returned, outstanding, bounded, ?_⟩
  intro deleted
  simp only [handlePacket, Endpoint.settle, Bool.or_eq_true, decide_eq_true_eq] at deleted
  rcases deleted with before | now
  · exact removed before
  · exact Or.inr (handlePacket_deletes e.sock packet now)

theorem Control.sendFin {e : Endpoint Buffer} (control : e.Control) (pc : e.writer = .fin) :
    e.sendFin.1.Control := by
  have unsent : e.sock.connState.finSent = false := by
    rw [← Bool.not_eq_true, ← control.returned, pc]
    decide
  have running := control.running
  have fresh : e.deleted ≠ true := by
    intro deleted
    rcases control.removed deleted with state | state <;> rw [state] at unsent <;> cases unsent
  have isFin : IsFin (e.sock.conn.seal (finHeader e.sock) []) := ⟨rfl, rfl⟩
  have item : ∃ item ∈ e.sendFin.1.sock.inFlightList, item.value.hasFin = true :=
    ⟨_, List.mem_append_right _ (List.mem_singleton_self _), isFin.hasFin⟩
  -- Only an end in `ESTABLISHED` or `CLOSE_WAIT` still has its FIN to send.
  have state : e.sendFin.1.sock.connState = .finWait1 ∨ e.sendFin.1.sock.connState = .lastAck := by
    simp only [Endpoint.sendFin]
    rcases ConnState.before_finSent running unsent with known | known
    · rw [known]
      exact Or.inl rfl
    · rw [known]
      exact Or.inr rfl
  refine ⟨?_, ?_, fun _ => Or.inl item, ?_, fun deleted => absurd deleted fresh⟩
  all_goals rcases state with state | state <;> rw [state]
  · rfl
  · rfl
  · exact ⟨fun _ => rfl, fun _ => rfl⟩
  · exact ⟨fun _ => rfl, fun _ => rfl⟩
  · intro acked
    cases acked
  · intro acked
    cases acked

theorem Control.step {e after : Endpoint Buffer} {event : Event} {out : List TcpPacket}
    (numbered : e.Numbered) (control : e.Control) (moves : Moves e event out after) :
    after.Control := by
  cases moves with
  | calls | stored | delivered | shutdown | timer => exact control.same rfl rfl rfl Iff.rfl rfl
  | expired state =>
      exact ⟨control.running, control.returned, control.outstanding, control.bounded,
        fun _ => Or.inl state⟩
  | fin pc => exact control.sendFin pc
  | toFin pc | toProbe pc | toSegment pc | none pc | take pc | probe pc =>
      exact control.stillRunning (by simp [pc]) (by simp [sendSegment]) rfl rfl
  | probePush _ pc | send _ pc | push _ _ pc =>
      exact control.stillRunning (by simp [pc]) (by simp [sendSegment]) rfl rfl
  | count _ _ pc =>
      refine control.stillRunning (by simp [pc]) ?_ rfl rfl
      dsimp only
      split <;> simp
  | resend item rest front =>
      refine control.same rfl ?_ rfl Iff.rfl rfl
      simp [TcpSocket.withInFlight, front, PriorityQueue.entries, PriorityQueue.entry]
  | packet packet => exact control.settle numbered packet

theorem leads_act {sock after : TcpSocket Buffer} {effects : List Effect} {packet : TcpPacket}
    {stores : TcpSocket Buffer → List Byte → Prop} {absorbs : ConnState → Prop}
    (act : TcpSocket.Act packet stores absorbs sock effects after) :
    sock.connState.Leads after.connState := by
  cases act with
  | sameAck | newAck | wake | store | queue | sendAck => exact ConnState.Leads.refl _
  | finInOrder => exact ConnState.leads_afterFin _
  | drain root =>
      simp only [TcpSocket.drained]
      split
      · exact ConnState.leads_afterFin _
      · exact ConnState.Leads.refl _
  | acked item rest =>
      change sock.connState.Leads (sock.ackedItem item).connState
      rw [TcpSocket.ackedItem_connState]
      split
      · exact ConnState.leads_afterFinAcked _
      · exact ConnState.Leads.refl _
  | closing _ _ _ _ _ _ _ last => exact ⟨by simp, by rw [last]; rfl, fun _ => rfl, fun _ => rfl⟩

theorem Moves.leads {e after : Endpoint Buffer} {event : Event} {out : List TcpPacket}
    (moves : Moves e event out after) : e.sock.connState.Leads after.sock.connState := by
  cases moves with
  | fin =>
      simp only [sendFin]
      cases e.sock.connState <;> refine ⟨?_, rfl, id, id⟩ <;> simp
  | packet packet =>
      exact (e.sock.handlePacket_acts packet).preserves
        (fun sock _ => e.sock.connState.Leads sock.connState)
        (fun _ _ _ _ held act => held.trans (leads_act act)) (ConnState.Leads.refl _)
  | _ => exact ConnState.Leads.refl _

end Endpoint

end IpTcp.Tcp
