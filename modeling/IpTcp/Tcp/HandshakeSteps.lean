import IpTcp.Tcp.Handshake
import IpTcp.Tcp.Teardown

/-! What a step of the handshake makes of the `VConnect` call and of each `VAccept` call,
and what follows from that alone: a socket becomes `ESTABLISHED` only where its call
receives its answer, and nothing was sent or received on it before. -/

set_option autoImplicit false

namespace IpTcp.Tcp

open RingBuffer Lib

variable {Buffer : Type}

def Connecting.socket : Connecting Buffer → Option (TcpSocket Buffer)
  | .waiting sock => some sock
  | .opened e => some e.sock
  | .failed => none

def Accepting.socket : Accepting Buffer → Option (TcpSocket Buffer)
  | .waiting sock => some sock
  | .started e => some e.sock
  | .failed => none

namespace Handshake

open Endpoint

def acceptingSocket (h : Handshake Buffer) (call : Nat) : Option (TcpSocket Buffer) :=
  (h.stage call).bind Accepting.socket

/-- The client may still be, or get, `ESTABLISHED`. -/
def Live (h : Handshake Buffer) : Prop :=
  match h.connecting with
  | .waiting _ => True
  | .opened e => e.sock.connState = .established
  | .failed => False

theorem stage_set {h after : Handshake Buffer} {call : Nat} {before result : Accepting Buffer}
    (present : h.stage call = some before)
    (set : after.accepting = h.accepting.set call result) (other : Nat) :
    after.stage other = if other = call then some result else h.stage other := by
  have bound : call < h.accepting.length := (List.getElem?_eq_some_iff.mp present).1
  rw [stage, set]
  split
  · rename_i same
    rw [same, List.getElem?_set_self bound]
  · rename_i different
    exact List.getElem?_set_ne (Ne.symm different)

theorem stage_conclude {h : Handshake Buffer} {call : Nat} {before : Accepting Buffer}
    (present : h.stage call = some before) (conn : TcpConn) (result : Accepting Buffer) (other : Nat) :
    (h.conclude call conn result).stage other = if other = call then some result else h.stage other := by
  cases result <;> exact stage_set present rfl other

theorem stage_append {h after : Handshake Buffer} {made : Accepting Buffer}
    (grown : after.accepting = h.accepting ++ [made]) (call : Nat) :
    after.stage call = if call = h.accepting.length then some made else h.stage call := by
  rw [stage, grown]
  split
  · rename_i last
    rw [last, List.getElem?_concat_length]
  · rename_i different
    rcases Nat.lt_or_ge call h.accepting.length with early | late
    · exact List.getElem?_append_left early
    · rw [stage, List.getElem?_eq_none late, List.getElem?_eq_none]
      rw [List.length_append, List.length_singleton]
      omega

theorem tcpHandler_keeps (h : Handshake Buffer) (packet : TcpPacket) :
    (h.tcpHandler packet).connecting = h.connecting ∧ (h.tcpHandler packet).accepting = h.accepting := by
  unfold tcpHandler
  split
  · exact ⟨rfl, rfl⟩
  split <;> exact ⟨rfl, rfl⟩

theorem conclude_keeps (h : Handshake Buffer) (call : Nat) (made : TcpConn) (result : Accepting Buffer) :
    (h.conclude call made result).connecting = h.connecting := by
  cases result <;> rfl

variable [RingBuffer Buffer] [Netstack] {h after : Handshake Buffer}

theorem vAccept_keeps (h : Handshake Buffer) (serverIsn : UInt32) (packet : TcpPacket) :
    (h.vAccept serverIsn packet).connecting = h.connecting ∧
      ((h.vAccept serverIsn packet).accepting = h.accepting ∨
        ∃ made syn, (h.vAccept serverIsn packet).accepting =
          h.accepting ++ [.waiting (TcpSocket.acceptSyn made syn serverIsn)]) := by
  unfold vAccept
  split
  · exact ⟨rfl, Or.inl rfl⟩
  dsimp only
  split
  · exact ⟨rfl, Or.inl rfl⟩
  split
  · exact ⟨rfl, Or.inl rfl⟩
  · exact ⟨rfl, Or.inr ⟨_, _, rfl⟩⟩

inductive Connects : Connecting Buffer → Connecting Buffer → Prop where
  | same (connecting : Connecting Buffer) : Connects connecting connecting
  | stops (sock : TcpSocket Buffer) : Connects (.waiting sock) .failed
  | receives (sock : TcpSocket Buffer) (packet : TcpPacket) :
      Connects (.waiting sock) (connectReceive sock packet).1
  | moves (e moved : Endpoint Buffer) (leads : e.sock.connState.Leads moved.sock.connState) :
      Connects (.opened e) (.opened moved)

inductive Accepts : Option (Accepting Buffer) → Option (Accepting Buffer) → Prop where
  | same (stage : Option (Accepting Buffer)) : Accepts stage stage
  | makes (made : TcpConn) (syn : TCPFields) (serverIsn : UInt32) :
      Accepts none (some (.waiting (TcpSocket.acceptSyn made syn serverIsn)))
  | stops (sock : TcpSocket Buffer) : Accepts (some (.waiting sock)) (some .failed)
  | receives (sock : TcpSocket Buffer) (packet : TcpPacket) :
      Accepts (some (.waiting sock)) (some (acceptReceive sock packet))
  | moves (e moved : Endpoint Buffer) (leads : e.sock.connState.Leads moved.sock.connState) :
      Accepts (some (.started e)) (some (.started moved))

theorem step_progress {event : Event} (stepped : h.step event = some after) :
    Connects h.connecting after.connecting ∧ ∀ call, Accepts (h.stage call) (after.stage call) := by
  -- Only the call that is concluded changes its stage.
  have concludes {read : Handshake Buffer} {call : Nat} {sock : TcpSocket Buffer} {result : Accepting Buffer}
      (pending : read.stage call = some (.waiting sock))
      (becomes : Accepts (some (.waiting sock)) (some result)) (other : Nat) :
      Accepts (read.stage other) ((read.conclude call sock.conn result).stage other) := by
    rw [stage_conclude pending]
    split
    · rename_i here
      rw [here, pending]
      exact becomes
    · exact .same _
  cases event with
  | lose side packet | duplicate side packet =>
      simp only [Handshake.step] at stepped
      split at stepped
      · cases stepped
        exact ⟨.same _, fun _ => .same _⟩
      · cases stepped
  | connectReceive packet =>
      simp only [Handshake.step] at stepped
      split at stepped
      · rename_i sock dialling
        split at stepped
        · cases stepped
          rw [dialling]
          exact ⟨.receives sock packet, fun _ => .same _⟩
        · cases stepped
      · cases stepped
  | connectStops =>
      simp only [Handshake.step] at stepped
      split at stepped
      · rename_i sock dialling
        cases stepped
        rw [dialling]
        exact ⟨.stops sock, fun _ => .same _⟩
      · cases stepped
  | client event =>
      simp only [Handshake.step] at stepped
      split at stepped
      · rename_i e isOpen
        split at stepped
        · rename_i waiting moved out consumed moves
          cases stepped
          rw [isOpen]
          exact ⟨.moves e moved (step_moves moves).leads, fun _ => .same _⟩
        · cases stepped
      · cases stepped
  | tcpHandler packet =>
      simp only [Handshake.step] at stepped
      split at stepped
      · cases stepped
        obtain ⟨connecting, accepting⟩ := tcpHandler_keeps (h.receive .server packet) packet
        rw [connecting]
        refine ⟨.same _, fun call => ?_⟩
        rw [stage, stage, accepting]
        exact .same _
      · cases stepped
  | vAccept serverIsn packet =>
      simp only [Handshake.step] at stepped
      split at stepped
      · cases stepped
        obtain ⟨connecting, accepting⟩ := vAccept_keeps
          { h with handlers := h.handlers.erase (none, packet) } serverIsn packet
        rw [connecting]
        refine ⟨.same _, fun call => ?_⟩
        rcases accepting with same | ⟨made, syn, grown⟩
        · rw [stage, stage, same]
          exact .same _
        · rw [stage_append grown]
          split
          · rename_i last
            rw [last, show h.stage h.accepting.length = none from List.getElem?_eq_none (le_refl _)]
            exact .makes made syn serverIsn
          · exact .same _
      · cases stepped
  | acceptReceive call packet =>
      simp only [Handshake.step] at stepped
      split at stepped
      · rename_i sock pending
        split at stepped
        · cases stepped
          rw [conclude_keeps]
          refine ⟨.same _, fun other => ?_⟩
          have unread : Handshake.stage { h with handlers := h.handlers.erase (some call, packet) } call =
              some (.waiting sock) := pending
          exact concludes unread (.receives sock packet) other
        · cases stepped
      · cases stepped
  | acceptTimeout call =>
      simp only [Handshake.step] at stepped
      split at stepped
      · rename_i sock pending
        cases stepped
        rw [conclude_keeps]
        exact ⟨.same _, concludes pending (.stops sock)⟩
      · cases stepped
  | server call event =>
      simp only [Handshake.step] at stepped
      split at stepped
      · rename_i e started
        split at stepped
        · rename_i handlers moved out read moves
          have becomes (result : Handshake Buffer)
              (set : result.accepting = h.accepting.set call (.started moved)) (other : Nat) :
              Accepts (h.stage other) (result.stage other) := by
            rw [stage_set started set]
            split
            · rename_i here
              rw [here, started]
              exact .moves e moved (step_moves moves).leads
            · exact .same _
          split at stepped
          · cases stepped
            exact ⟨.same _, becomes _ rfl⟩
          · cases stepped
            exact ⟨.same _, becomes _ rfl⟩
        · cases stepped
      · cases stepped

theorem live_before {event : Event} (stepped : h.step event = some after) (live : after.Live) : h.Live := by
  have connects := (step_progress stepped).1
  unfold Live at live ⊢
  generalize h.connecting = first at connects
  generalize after.connecting = last at connects live
  cases connects with
  | same => exact live
  | stops | receives => trivial
  | moves e moved leads => exact leads.opened live

structure Fresh (h : Handshake Buffer) : Prop where
  connecting : ∀ sock, h.connecting = .waiting sock →
    sock.numBytesSent = 0 ∧ sock.connState ≠ .established
  accepting : ∀ call sock, h.stage call = some (.waiting sock) →
    sock.nextExpectedByte = 1 ∧ sock.numBytesSent = 0 ∧ sock.connState ≠ .established

theorem Fresh.step (fresh : h.Fresh) {event : Event} (stepped : h.step event = some after) :
    after.Fresh := by
  obtain ⟨connects, accepts⟩ := step_progress stepped
  constructor
  · intro sock waiting
    have before := fresh.connecting
    generalize h.connecting = first at connects before
    rw [waiting] at connects
    generalize last : Connecting.waiting sock = connecting at connects
    cases connects with
    | same =>
        subst last
        exact before sock rfl
    | receives =>
        unfold connectReceive at last
        split at last
        · cases last
        split at last
        · cases last
        split at last <;> cases last
    | stops | moves => cases last
  · intro call sock waiting
    have before := fresh.accepting call
    have becomes := accepts call
    generalize h.stage call = first at becomes before
    rw [waiting] at becomes
    generalize last : some (Accepting.waiting sock) = stage at becomes
    cases becomes with
    | same =>
        subst last
        exact before sock rfl
    | makes =>
        cases last
        exact ⟨rfl, rfl, by simp [TcpSocket.acceptSyn]⟩
    | receives =>
        unfold acceptReceive at last
        split at last
        · split at last
          · cases last
          split at last <;> cases last
        · cases last
    | stops | moves => cases last

theorem fresh_run {conn : TcpConn} {isn : UInt32} (run : Run Handshake.step anyEvent (dialled conn isn) h) :
    h.Fresh := by
  refine run.preserves Fresh (fun _ _ _ fresh _ stepped => fresh.step stepped) ?_
  refine ⟨?_, ?_⟩
  · rintro sock ⟨rfl⟩
    exact ⟨rfl, by simp [makeTcpSocket]⟩
  · intro call sock waiting
    cases waiting

/-- A socket becomes `ESTABLISHED` with nothing sent and nothing received. -/
theorem Fresh.establishes (fresh : h.Fresh) {event : Event} (stepped : h.step event = some after) :
    (∀ sock, after.connecting.socket = some sock → sock.connState = .established →
      (∃ before, h.connecting.socket = some before ∧ before.connState = .established) ∨
        sock.nextExpectedByte = 1 ∧ sock.numBytesSent = 0) ∧
    ∀ call sock, after.acceptingSocket call = some sock → sock.connState = .established →
      (∃ before, h.acceptingSocket call = some before ∧ before.connState = .established) ∨
        sock.nextExpectedByte = 1 ∧ sock.numBytesSent = 0 := by
  obtain ⟨connects, accepts⟩ := step_progress stepped
  constructor
  · intro sock found established
    have before := fresh.connecting
    generalize h.connecting = first at connects before ⊢
    generalize after.connecting = last at connects found
    cases connects with
    | same => exact Or.inl ⟨sock, found, established⟩
    | stops => cases found
    | moves e moved leads =>
        cases found
        exact Or.inl ⟨e.sock, rfl, leads.opened established⟩
    | receives dialling packet =>
        have unsent := (before dialling rfl).1
        unfold connectReceive at found
        split at found
        · cases found
        split at found
        · cases found
        split at found
        · cases found
        · cases found
          exact Or.inr ⟨rfl, unsent⟩
  · intro call sock found established
    have before := fresh.accepting call
    have becomes := accepts call
    simp only [acceptingSocket] at found ⊢
    generalize h.stage call = first at becomes before ⊢
    generalize after.stage call = last at becomes found
    cases becomes with
    | same => exact Or.inl ⟨sock, found, established⟩
    | stops => cases found
    | makes =>
        cases found
        cases established
    | moves e moved leads =>
        cases found
        exact Or.inl ⟨e.sock, rfl, leads.opened established⟩
    | receives pending packet =>
        obtain ⟨expects, unsent, unopened⟩ := before pending rfl
        unfold acceptReceive at found
        split at found
        · split at found
          · cases found
          split at found
          · cases found
          · cases found
            exact Or.inr ⟨expects, unsent⟩
        · cases found
          exact absurd established unopened

end Handshake

end IpTcp.Tcp
