import IpTcp.Tcp.Joint

/-! Acknowledgements are truthful: nothing on the way and nothing recorded acknowledges
a byte that the other end has not stored. -/

set_option autoImplicit false

namespace IpTcp.Tcp

open RingBuffer Lib

variable {Buffer : Type}

namespace Endpoint

theorem Numbered.numBytesSent {x : Endpoint Buffer} (numbered : x.Numbered)
    (bound : x.transmitted.length + 2 < 2 ^ 32) :
    x.sock.numBytesSent.toNat = x.transmitted.length + if x.writer = .returned then 1 else 0 := by
  rw [numbered.counted, Word.toNat_ofNat]
  split <;> omega

variable [RingBuffer Buffer]

/-- The number acknowledges no more than `x` has sent, and every byte below it went into
the read buffer of `y`. -/
def Acknowledged (x y : Endpoint Buffer) (ackNum : UInt32) : Prop :=
  (ackNum - x.sock.myInitSeqNum).toNat ≤ x.sock.numBytesSent.toNat + 1 ∧
    (x.transmitted.take ((ackNum - x.sock.myInitSeqNum).toNat - 1)).Sublist
      (y.delivered ++ content y.sock.readBuffer)

theorem Truth.acknowledged {graceful fin whole : Prop} {x y : Endpoint Buffer} {ackNum : UInt32}
    (truth : Truth graceful x y fin ackNum) (numbered : x.Numbered) (stored : Stored whole x y)
    (bound : x.transmitted.length + 2 < 2 ^ 32) : Acknowledged x y ackNum := by
  have count := numbered.numBytesSent bound
  have below := stored.below
  rcases truth with known | ⟨_, finished, number, complete, _⟩
  · refine ⟨by omega, List.Sublist.trans ?_ stored.placed⟩
    exact (List.take_prefix_take_left (by omega)).sublist
  · have returned : x.writer = .returned := finished
    rw [if_pos returned] at count
    refine ⟨by omega, ?_⟩
    have all : x.transmitted.take ((ackNum - x.sock.myInitSeqNum).toNat - 1) =
        x.transmitted.take (y.sock.nextExpectedByte.toNat - 1) := by
      rw [List.take_of_length_le (by omega), List.take_of_length_le (by omega)]
    rw [all]
    exact stored.placed

end Endpoint

namespace Connection

open Endpoint

variable [RingBuffer Buffer]

section
variable [Netstack]

/-- In every reachable state, each packet on the way to an end and each acknowledgement
number that end has stored is truthful. A SYN, late from the handshake, acknowledges
nothing. -/
theorem acknowledgements_truthful {conn : TcpConn} {clientIsn serverIsn : UInt32}
    {c : Connection Buffer} (run : Run step anyEvent (established conn clientIsn serverIsn) c)
    (short : ∀ side, (c.ends side).transmitted.length < 2 ^ 32 - 2) (side : Side) :
    (∀ packet ∈ c.net side, packet.header.flags ≠ tcpFlagSyn →
      Acknowledged (c.ends side) (c.ends side.other) packet.header.ackNum) ∧
    ((c.ends side).acks = [] ∨ (c.ends side).sock.largestAckReceived ∈ (c.ends side).acks) ∧
    ∀ ackNum ∈ (c.ends side).acks, Acknowledged (c.ends side) (c.ends side.other) ackNum := by
  have joint := Joint.run run
  have bound : (c.ends side).transmitted.length + 2 < 2 ^ 32 := by
    have := short side
    omega
  have flow := joint.flow side bound
  have numbered := (joint.sender side).numbered
  refine ⟨fun packet member flags => ?_, joint.recorded side, fun ackNum member => ?_⟩
  · exact (flow.answers packet member flags).acknowledged numbered flow.stored bound
  · exact (flow.acks ackNum member).acknowledged numbered flow.stored bound

end

section
attribute [local instance] Netstack.standard

def acknowledgedByte : List Action :=
  sendsByte .client 7 ++ [.act .server (.handlePacket (fromClient 101 201 tcpFlagAck [7]))]

theorem acknowledgedByte_isSome :
    (exec step anyEvent (established loopback 100 200 : Connection Fifo) acknowledgedByte).isSome := by
  decide +kernel

theorem acknowledgements_truthful_byte :
    ∃ c : Connection Fifo, Run step anyEvent (established loopback 100 200) c ∧
      (c.net .client).map (·.header.ackNum) = [101, 102] ∧
      ∀ packet ∈ c.net .client, packet.header.flags ≠ tcpFlagSyn →
        Acknowledged (c.ends .client) (c.ends .server) packet.header.ackNum := by
  refine ⟨_, Run.ofSome acknowledgedByte_isSome, by decide +kernel, ?_⟩
  refine (acknowledgements_truthful (Run.ofSome acknowledgedByte_isSome) ?_ .client).1
  rintro (_ | _) <;> decide +kernel

end

end Connection

end IpTcp.Tcp
