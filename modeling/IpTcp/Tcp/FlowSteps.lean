import IpTcp.Tcp.Flow

/-! One direction of a connection through the steps of its two ends. -/

set_option autoImplicit false

namespace IpTcp.Tcp

open RingBuffer Lib

variable {Buffer : Type}

namespace Endpoint

theorem Numbered.carries {x : Endpoint Buffer} (numbered : x.Numbered) {packet : TcpPacket}
    (member : packet ∈ x.sent) : x.Carries packet := by
  intro _
  obtain ⟨before, after, split⟩ := List.append_of_mem member
  have contiguous := numbered.contiguous
  have segments := numbered.segments
  rw [split] at contiguous segments
  have stream : x.transmitted = payloads before ++ packet.data ++ payloads after := by
    rw [transmitted, split, payloads_append, payloads_cons, List.append_assoc]
  refine ⟨_, contiguous.seqNum, ?_, fun fin => ?_⟩
  · rw [stream]
    exact Slice.last.grow
  · rcases segments.before.2 with isData | ⟨finished, isFin, last⟩
    · rw [isData.hasFin] at fin
      cases fin
    · refine ⟨isFin.flags, isFin.empty, finished, ?_⟩
      rw [stream, last, isFin.empty]
      simp

theorem Carries.grow {x after : Endpoint Buffer} {packet : TcpPacket} (carries : x.Carries packet)
    {more : List Byte} (isn : after.sock.myInitSeqNum = x.sock.myInitSeqNum)
    (stream : after.transmitted = x.transmitted ++ more)
    (final : x.finished → after.finished ∧ more = []) : after.Carries packet := by
  intro kind
  obtain ⟨offset, number, slice, isFin⟩ := carries kind
  refine ⟨offset, isn ▸ number, ?_, fun fin => ?_⟩
  · rw [stream]
    exact slice.grow
  · obtain ⟨flags, empty, finished, last⟩ := isFin fin
    obtain ⟨still, none⟩ := final finished
    refine ⟨flags, empty, still, ?_⟩
    rw [stream, none, List.append_nil]
    exact last

variable [RingBuffer Buffer]

section
variable {whole graceful : Prop} {x y after : Endpoint Buffer} {toY toX out : List TcpPacket}

theorem Flow.sender (flow : Flow whole graceful x y toY toX) {more : List Byte}
    (isn : after.sock.myInitSeqNum = x.sock.myInitSeqNum)
    (stream : after.transmitted = x.transmitted ++ more)
    (final : x.finished → after.finished ∧ more = [])
    (acks : ∀ ackNum ∈ after.acks, Truth graceful x y True ackNum)
    (confirmed : after.sock.connState.finAcked = true → x.sock.connState.finAcked = true ∨
      (x.finished ∧ y.sock.nextExpectedByte.toNat = x.transmitted.length + 1 ∧
        (graceful → y.sock.connState.pastFin = true)))
    (carried : ∀ packet ∈ out, after.Carries packet) :
    Flow whole graceful after y (toY ++ out) toX := by
  have same : x.finished → after.finished ∧ after.transmitted = x.transmitted := by
    intro finished
    obtain ⟨still, none⟩ := final finished
    exact ⟨still, by rw [stream, none, List.append_nil]⟩
  have grows : Grows x y after y := ⟨isn, same, le_refl _, fun _ complete => complete, id⟩
  have below := flow.stored.below
  -- What is stored lies within what had been sent before.
  have kept : after.transmitted.take (y.sock.nextExpectedByte.toNat - 1) =
      x.transmitted.take (y.sock.nextExpectedByte.toNat - 1) := by
    rw [stream, List.take_append_of_le_length (by omega)]
  refine ⟨flow.isn.trans isn.symm, ?_, ?_, ⟨flow.stored.positive, ?_, ?_, ?_⟩,
    flow.answers.grow grows, flow.replies.grow grows, ?_, ?_, ?_⟩
  · intro packet member
    rcases List.mem_append.mp member with early | late
    · exact (flow.carried packet early).grow isn stream final
    · exact carried packet late
  · intro entry member
    obtain ⟨carries, kind, priority⟩ := flow.queued entry member
    exact ⟨carries.grow isn stream final, kind, isn ▸ priority⟩
  · rw [stream, List.length_append]
    omega
  · rw [kept]
    exact flow.stored.placed
  · rw [kept]
    exact flow.stored.exactly
  · exact fun ackNum member => (acks ackNum member).grow grows
  · intro past
    obtain ⟨finished, complete⟩ := flow.received past
    obtain ⟨still, equal⟩ := same finished
    exact ⟨still, equal ▸ complete⟩
  · intro acked
    obtain ⟨finished, complete, past⟩ := (confirmed acked).elim flow.confirmed id
    obtain ⟨still, equal⟩ := same finished
    exact ⟨still, equal ▸ complete, past⟩

theorem Flow.finCovered {sock : TcpSocket Buffer} {packet : TcpPacket}
    (flow : Flow whole graceful { x with sock := sock } y toY toX)
    (numbered : Numbered { x with sock := sock }) (member : packet ∈ toX)
    (flags : packet.header.flags = tcpFlagAck)
    (latest : sock.largestAckReceived = packet.header.ackNum) {item : TcpPacketItem}
    {rest : List TcpPacketItem} (front : sock.inFlightList = item :: rest)
    (covered : item.priority + item.value.payloadSize ≤
      (sock.largestAckReceived - sock.myInitSeqNum).toNat) (fin : item.value.hasFin = true) :
    x.finished ∧ y.sock.nextExpectedByte.toNat = x.transmitted.length + 1 ∧
      (graceful → y.sock.connState.pastFin = true) := by
  have past := numbered.fin_covered front fin covered
  have below := flow.stored.below
  rw [latest] at past
  have notSyn : packet.header.flags ≠ tcpFlagSyn := by
    rw [flags]
    decide
  rcases flow.answers packet member notSyn with stored | ⟨_, finished, _, complete, gentle⟩
  · simp only [transmitted] at past below stored
    omega
  · exact ⟨finished, complete, gentle⟩

end

section
variable [Netstack] {whole graceful : Prop} {x y after : Endpoint Buffer}
  {toY toX out : List TcpPacket} {event : Event}

/-- What a step other than the handling of a packet puts on the network was sent first, now
or before. -/
theorem Moves.out_sent (moves : Moves x event out after) (numbered : x.Numbered)
    (own : ∀ packet, event ≠ .handlePacket packet) : ∀ packet ∈ out, packet ∈ after.sent := by
  intro packet member
  cases moves with
  | fin | probe | send => exact List.mem_append_right _ member
  | resend item rest front =>
      obtain ⟨acked, split, _⟩ := numbered.inFlight
      rw [List.mem_singleton] at member
      change packet ∈ x.sent
      rw [split, front, member]
      simp
  | packet packet => exact absurd rfl (own packet)
  | _ => cases member

theorem Moves.sent (moves : Moves x event out after) (own : ∀ packet, event ≠ .handlePacket packet) :
    after.sent = x.sent ∨
      ∃ packet, after.sent = x.sent ++ [packet] ∧ packet.header.ackNum = x.sock.getAckHeader.ackNum := by
  cases moves with
  | fin | probe | send => exact Or.inr ⟨_, rfl, rfl⟩
  | packet packet => exact absurd rfl (own packet)
  | _ => exact Or.inl rfl

theorem Flow.senderMoves (flow : Flow whole graceful x y toY toX) (sender : x.Sender)
    (moves : Moves x event out after) (own : ∀ packet, event ≠ .handlePacket packet) :
    Flow whole graceful after y (toY ++ out) toX := by
  have numbered := sender.numbered.step sender.conserved moves
  have carried : ∀ packet ∈ out, after.Carries packet :=
    fun packet member => numbered.carries (moves.out_sent sender.numbered own packet member)
  have same : x.transmitted = x.transmitted ++ [] := (List.append_nil _).symm
  cases moves with
  | calls | stored | delivered | shutdown | expired | timer | resend =>
      exact flow.sender rfl same (fun finished => ⟨finished, rfl⟩) flow.acks Or.inl carried
  | toFin pc | toProbe pc | toSegment pc | none pc | take pc =>
      exact flow.sender rfl same (fun finished => nomatch pc.symm.trans finished) flow.acks Or.inl carried
  | probePush _ pc | push _ _ pc | count _ _ pc =>
      exact flow.sender rfl same (fun finished => nomatch pc.symm.trans finished) flow.acks Or.inl carried
  | probe pc =>
      exact flow.sender rfl (transmitted_sendSegment _ _ _)
        (fun finished => nomatch pc.symm.trans finished) flow.acks Or.inl carried
  | send _ pc =>
      exact flow.sender rfl (transmitted_sendSegment _ _ _)
        (fun finished => nomatch pc.symm.trans finished) flow.acks Or.inl carried
  | fin pc =>
      refine flow.sender rfl ((transmitted_sendFin x).trans same)
        (fun finished => nomatch pc.symm.trans finished) flow.acks ?_ carried
      simp only [sendFin]
      cases x.sock.connState <;> exact Or.inl
  | packet packet => exact absurd rfl (own packet)

theorem Flow.receiverMoves (flow : Flow whole graceful x y toY toX) (numbered : y.Numbered)
    (moves : Moves y event out after) (own : ∀ packet, event ≠ .handlePacket packet) :
    Flow whole graceful x after toY (toX ++ out) := by
  have replies : Truthful graceful x y after.sent := by
    rcases moves.sent own with same | ⟨packet, more, ackNum⟩
    · rw [same]
      exact flow.replies
    · rw [more]
      refine flow.replies.append fun other member _ => ?_
      rw [List.mem_singleton.mp member, ackNum]
      exact flow.ackNum _
  have sent := moves.out_sent numbered own
  suffices moved : Flow whole graceful x after toY toX from
    moved.answer fun packet member => moved.replies packet (sent packet member)
  obtain ⟨positive, below, placed, exactly⟩ := flow.stored
  cases moves with
  | delivered call len vReads =>
      -- Bytes that are read leave the buffer in their order.
      have same : y.delivered ++ (content y.sock.readBuffer).take len ++
          content (read y.sock.readBuffer len).1 = y.delivered ++ content y.sock.readBuffer := by
        rw [read_content, List.append_assoc, List.take_append_drop]
      refine flow.advance rfl flow.queued ⟨positive, below, ?_, ?_⟩ (le_refl _) replies id Or.inl
      · exact same ▸ placed
      · exact fun all => (exactly all).trans same.symm
  | fin =>
      have state : y.sendFin.1.sock.connState.pastFin = y.sock.connState.pastFin := by
        simp only [sendFin]
        cases y.sock.connState <;> rfl
      refine flow.advance rfl flow.queued ⟨positive, below, placed, exactly⟩ (le_refl _) replies ?_ ?_
      · rw [state]
        exact id
      · rw [state]
        exact Or.inl
  | packet packet => exact absurd rfl (own packet)
  | _ =>
      exact flow.advance rfl flow.queued ⟨positive, below, placed, exactly⟩ (le_refl _) replies id Or.inl

/-! ## Packets -/

section
variable {packet : TcpPacket} {sock sockAfter : TcpSocket Buffer} {effects : List Effect}
  {stores : TcpSocket Buffer → List Byte → Prop} {absorbs : ConnState → Prop}

theorem Flow.receiverHandles (flow : Flow whole graceful x y toY toX)
    (bound : x.transmitted.length + 2 < 2 ^ 32) (carries : x.Carries packet)
    (condition : ∀ sock data, stores sock data → whole →
      data.length ≤ free sock.readBuffer ∨ free sock.readBuffer = 0)
    (absorbed : ∀ state, absorbs state → graceful → state.afterFin.pastFin = true)
    (acts : TcpSocket.Acts packet stores absorbs y.sock (y.sock.handlePacket packet).2
      (y.sock.handlePacket packet).1) :
    Flow whole graceful x (y.handlePacket packet).1 toY (toX ++ (y.handlePacket packet).2) := by
  have handled := acts.preserves
    (fun sock done => Flow whole graceful x { y with sock := sock } toY (toX ++ sends done))
    (fun sock done more after held act => by
      rw [sends_append, ← List.append_assoc]
      exact held.act bound carries condition absorbed act)
    (by simpa [sends] using flow)
  exact ⟨handled.1, handled.2, handled.3,
    ⟨handled.4.1, handled.4.2, handled.4.3, handled.4.4⟩, handled.5, handled.6, handled.7, handled.8,
    handled.9⟩

theorem sends_bare (act : TcpSocket.Act packet stores absorbs sock effects sockAfter) :
    ∀ answer ∈ sends effects, answer.data = [] ∧ answer.hasFin = false := by
  intro answer member
  obtain ⟨header, rfl, flags, _⟩ := sends_seal act answer member
  exact ⟨rfl, hasFin_of_ack flags⟩

theorem handlePacket_bare (e : Endpoint Buffer) (packet : TcpPacket) :
    ∀ answer ∈ (e.handlePacket packet).2, answer.data = [] ∧ answer.hasFin = false := by
  have acts := e.sock.handlePacket_acts packet
  refine acts.preserves (fun _ effects => ∀ answer ∈ sends effects, answer.data = [] ∧ answer.hasFin = false)
    ?_ ?_
  · intro sock done more after bare act answer member
    rw [sends_append] at member
    rcases List.mem_append.mp member with early | late
    · exact bare answer early
    · exact sends_bare act answer late
  · exact fun _ member => absurd member List.not_mem_nil

theorem Flow.senderAct (flow : Flow whole graceful { x with sock := sock } y toY toX)
    (numbered : Numbered { x with sock := sock }) (member : packet ∈ toX)
    (act : TcpSocket.Act packet stores absorbs sock effects sockAfter) :
    Flow whole graceful { x with sock := sockAfter } y toY toX := by
  have same : x.transmitted = x.transmitted ++ [] := (List.append_nil _).symm
  suffices confirmed : sockAfter.connState.finAcked = true → sock.connState.finAcked = true ∨
      (x.finished ∧ y.sock.nextExpectedByte.toNat = x.transmitted.length + 1 ∧
        (graceful → y.sock.connState.pastFin = true)) by
    have moved : Flow whole graceful { x with sock := sockAfter } y (toY ++ []) toX :=
      flow.sender act.sameIdentity.myInitSeqNum same (fun finished => ⟨finished, rfl⟩) flow.acks
        confirmed (by simp)
    rwa [List.append_nil] at moved
  intro acked
  cases act with
  | sameAck | newAck | wake | store | queue | sendAck => exact Or.inl acked
  | acked item rest flags latest front covered stays =>
      -- Only the acknowledgement of the FIN changes the state.
      by_cases fin : item.value.hasFin = true
      · exact Or.inr (flow.finCovered numbered member flags latest front covered fin)
      · rw [TcpSocket.withInFlight, TcpSocket.ackedItem_connState, if_neg fin] at acked
        exact Or.inl acked
  | closing item rest flags latest front covered fin last =>
      exact Or.inr (flow.finCovered numbered member flags latest front covered fin)
  | drain root =>
      simp only [TcpSocket.drained] at acked
      split at acked
      · rw [ConnState.finAcked_afterFin] at acked
        exact Or.inl acked
      · exact Or.inl acked
  | finInOrder =>
      simp only [ConnState.finAcked_afterFin] at acked
      exact Or.inl acked

theorem largestAckReceived_act (act : TcpSocket.Act packet stores absorbs sock effects sockAfter) :
    sockAfter.largestAckReceived = sock.largestAckReceived ∨
      (packet.header.flags = tcpFlagAck ∧ sockAfter.largestAckReceived = packet.header.ackNum) := by
  cases act with
  | newAck flags => exact Or.inr ⟨flags, rfl⟩
  | _ => exact Or.inl rfl

theorem Flow.senderHandles (flow : Flow whole graceful x y toY toX) (numbered : x.Numbered)
    (member : packet ∈ toX) :
    Flow whole graceful (x.handlePacket packet).1 y (toY ++ (x.handlePacket packet).2) toX := by
  have acts := x.sock.handlePacket_acts packet
  obtain ⟨_, handled⟩ := acts.preserves
    (fun sock _ => Numbered { x with sock := sock } ∧
      Flow whole graceful { x with sock := sock } y toY toX)
    (fun _ _ _ _ held act => ⟨held.1.act act, held.2.senderAct held.1 member act⟩) ⟨numbered, flow⟩
  have bare := acts.preserves
    (fun _ done => ∀ answer ∈ sends done, answer.data = [] ∧ answer.hasFin = false)
    (fun _ done more _ held act answer found => by
      rw [sends_append] at found
      rcases List.mem_append.mp found with early | late
      · exact held answer early
      · exact sends_bare act answer late)
    (by simp [sends])
  have largest := acts.preserves
    (fun sock _ => sock.largestAckReceived = x.sock.largestAckReceived ∨
      (packet.header.flags = tcpFlagAck ∧ sock.largestAckReceived = packet.header.ackNum))
    (fun _ _ _ _ held act => by
      rcases largestAckReceived_act act with same | new
      · rw [same]
        exact held
      · exact Or.inr new)
    (Or.inl rfl)
  refine handled.sender rfl (List.append_nil _).symm ?_ ?_ Or.inl ?_
  · exact fun finished => ⟨(x.handlePacket_returned packet).mpr finished, rfl⟩
  · intro ackNum recorded
    simp only [handlePacket, settle] at recorded
    split at recorded
    · exact handled.acks ackNum recorded
    · rename_i differs
      rcases List.mem_append.mp recorded with early | late
      · exact handled.acks ackNum early
      · -- A number that is stored came with a packet, which was truthful.
        obtain ⟨flags, stored⟩ := largest.resolve_left differs
        rw [List.mem_singleton.mp late, stored]
        exact (handled.answers packet member (by rw [flags]; decide)).weaken fun _ => trivial
  · intro answer found kind
    obtain ⟨empty, noFin⟩ := bare answer found
    simp [empty, noFin] at kind

end

end

end Endpoint

end IpTcp.Tcp
