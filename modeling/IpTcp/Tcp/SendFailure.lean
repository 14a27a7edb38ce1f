import IpTcp.Lib.Run
import IpTcp.Tcp.Established
import IpTcp.Tcp.Segments
import IpTcp.Tcp.Sender

/-! `HandleWrites` where `sendTcp` returns an error. Each of its three send sites has taken its
bytes and raised `numBytesSent` before it sends, and leaves another loop by its `break`: the
wait for a non-empty buffer, the goroutine's main loop, the segmentation loop. -/

set_option autoImplicit false

namespace IpTcp.Tcp

open RingBuffer Lib

/-- The two locks that the goroutine of `HandleWrites` may hold at a send. -/
structure Locks where
  writeBufferLock : Bool
  varLock : Bool
  deriving DecidableEq, Repr

inductive Resumption where
  /-- To `writeBufferLock.Lock()` at the head of the main loop. -/
  | mainLoop
  /-- To the test of the window, whose branches both begin with `writeBufferLock.Unlock()`. -/
  | windowTest
  /-- Out of `HandleWrites`. -/
  | returned
  deriving DecidableEq, Repr

/-- The locks that the statements from there on rely on: neither is taken by the goroutine for
good, and the one that is unlocked next is held. -/
def Resumption.relies : Resumption → Locks
  | .mainLoop => { writeBufferLock := false, varLock := false }
  | .windowTest => { writeBufferLock := true, varLock := false }
  | .returned => { writeBufferLock := false, varLock := false }

structure FailedSend (Buffer : Type) where
  after : Endpoint Buffer
  locks : Locks
  resumes : Resumption

variable {Buffer : Type}

namespace Endpoint

def addBytesSent (e : Endpoint Buffer) (n : Nat) : Endpoint Buffer :=
  { e with sock := { e.sock with numBytesSent := e.sock.numBytesSent + UInt32.ofNat n } }

variable [RingBuffer Buffer]

def failedSend (e : Endpoint Buffer) : Option (FailedSend Buffer) :=
  match e.writer with
  -- the FIN: `writeBufferLock` was released, `varLock` is still held
  | .fin =>
      some {
        after := { e.addBytesSent 1 with
          writer := if e.sock.foreignWindowSize ≤ e.sock.inFlightPacketSize then .probe else .segment }
        locks := { writeBufferLock := false, varLock := true }
        resumes := .windowTest }
  -- the probe, for which the wait before it has found a byte
  | .probe =>
      if isEmpty e.sock.writeBuffer then none
      else
        some {
          after := { (e.takeBytes 1).addBytesSent 1 with writer := .returned }
          locks := { writeBufferLock := false, varLock := false }
          resumes := .returned }
  -- the next segment, where the loop has not come to its end
  | .sending payload =>
      if payload = [] then none
      else
        some {
          after := { e.addBytesSent (payload.take tcpMaxSegmentSize).length with writer := .top }
          locks := { writeBufferLock := false, varLock := false }
          resumes := .mainLoop }
  | _ => none

def inFlightBytes (e : Endpoint Buffer) : List Byte := payloads (e.sock.inFlightList.map (·.value))

/-- Each number up to `numBytesSent` is acknowledged or belongs to a packet in flight. -/
def Covered (e : Endpoint Buffer) : Prop :=
  ∀ n, 1 ≤ n → n ≤ e.sock.numBytesSent.toNat →
    n < (e.sock.largestAckReceived - e.sock.myInitSeqNum).toNat ∨
      ∃ item ∈ e.sock.inFlightList, item.priority ≤ n ∧ n < item.priority + item.value.payloadSize

/-- A failed send loses nothing: the bytes that were in the buffer, in flight or in the hands
of `HandleWrites` are in the buffer or in flight; the numbers have no gap; and the locks are
as what comes next expects them. -/
structure LosesNothing (e : Endpoint Buffer) (failed : FailedSend Buffer) : Prop where
  bytes : (failed.after.inFlightBytes ++ content failed.after.sock.writeBuffer).Perm
    (e.inFlightBytes ++ e.writer.pending ++ content e.sock.writeBuffer)
  covered : failed.after.Covered
  locks : failed.locks = failed.resumes.relies

/-- Whichever send fails, something is lost: the FIN's leaves `varLock` held and goes on to
unlock `writeBufferLock`, which is free; the others drop the bytes they have taken. -/
theorem failed_send_loses (e : Endpoint Buffer) (failed : FailedSend Buffer)
    (fails : e.failedSend = some failed) : ¬ LosesNothing e failed := by
  intro loses
  have bytes := loses.bytes.length_eq
  unfold failedSend at fails
  split at fails
  · cases fails
    -- The FIN: `varLock` is still held.
    have locks := loses.locks
    simp [Resumption.relies] at locks
  · rename_i writer
    split at fails
    · cases fails
    · rename_i filled
      cases fails
      -- The probe: its byte has been taken from the buffer.
      have taken : content (e.takeBytes 1).sock.writeBuffer = (content e.sock.writeBuffer).drop 1 :=
        read_content e.sock.writeBuffer 1
      have positive : 0 < (content e.sock.writeBuffer).length := by
        simpa [isEmpty, List.length_pos_iff] using filled
      simp only [addBytesSent, inFlightBytes, takeBytes, writer, WriterPc.pending] at bytes taken
      simp only [taken, List.length_append, List.length_drop, List.length_nil] at bytes
      omega
  · rename_i payload writer
    split at fails
    · cases fails
    · rename_i rest
      cases fails
      -- A segment: all that was taken with it is dropped.
      have positive : 0 < payload.length := List.length_pos_iff.mpr rest
      simp only [addBytesSent, inFlightBytes, writer, WriterPc.pending, List.length_append] at bytes
      omega
  · cases fails

section
attribute [local instance] Netstack.standard

def takesSegment : List Event := [.vWrite [7], .vWriteLoop 0, .handleWrites, .handleWrites]

theorem takesSegment_isSome :
    (exec move anyEvent (connected loopback 100 200 : Endpoint Fifo) takesSegment).isSome := by
  decide +kernel

theorem takesSegment_failedSend :
    (((exec move anyEvent (connected loopback 100 200 : Endpoint Fifo) takesSegment).get
      takesSegment_isSome).failedSend).isSome := by
  decide +kernel

theorem failed_send_loses_byte :
    ∃ (e : Endpoint Fifo) (failed : FailedSend Fifo), e.failedSend = some failed ∧
      ¬ LosesNothing e failed := by
  have fails := (Option.some_get takesSegment_failedSend).symm
  exact ⟨_, _, fails, failed_send_loses _ _ fails⟩

/-- No route: the byte is neither in the buffer nor in flight, and will not be sent again. -/
theorem byte_lost :
    ∃ (e : Endpoint Fifo) (failed : FailedSend Fifo),
      Run move anyEvent (connected loopback 100 200) e ∧ e.failedSend = some failed ∧
      e.written = [7] ∧ e.writer.pending = [7] ∧ failed.after.inFlightBytes = [] ∧
      content failed.after.sock.writeBuffer = [] ∧ failed.after.sock.numBytesSent = 1 ∧
      ¬ LosesNothing e failed := by
  have fails := (Option.some_get takesSegment_failedSend).symm
  refine ⟨_, _, Run.ofSome takesSegment_isSome, fails, ?_, ?_, ?_, ?_, ?_, ?_⟩
  · decide +kernel
  · decide +kernel
  · decide +kernel
  · decide +kernel
  · decide +kernel
  · intro loses
    have bytes := loses.bytes.length_eq
    revert bytes
    decide +kernel

end

end Endpoint

end IpTcp.Tcp
