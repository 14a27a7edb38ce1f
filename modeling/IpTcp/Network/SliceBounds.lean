import IpTcp.Network.HeaderChecksum

/-! The slices that are taken of a received buffer. Three lengths are the sender's: that of the
header, the total one, and the data offset of TCP. `ParseHeader` checks the first against the
buffer; nothing checks the other two. -/

set_option autoImplicit false

namespace IpTcp.Network

open Lib Lib.Bytes
open Tcp (Netstack)

namespace FwdTable

/-- The packet is for this node, on an interface that is up, and goes to `TcpHandler`. -/
def ToTcp (ft : FwdTable) (order : Order) (hdr : Header) : Prop :=
  ∃ myInterface, ft.getInterfaceByIp order hdr.dst = some myInterface ∧ myInterface.state = .up ∧
    ft.applications (UInt8.ofNat hdr.protocol) = some .tcp

variable [Netstack] [Ipv4]

/-- What `HandlePacketSafe` slices and indexes, and `TcpHandler` if it gets there, is within bounds:
`buffer[:hdr.Len]`, then `buffer[hdr.Len:hdr.TotalLen]` if the checksum is right, then the header
and the data of TCP. -/
def InRange (ft : FwdTable) (order : Order) (buffer : List Byte) : Prop :=
  ∀ hdr, Ipv4.parseHeader buffer = some hdr → hdr.len ≤ buffer.length ∧
    (PassesTest buffer hdr → ∃ msgBytes, message buffer hdr = some msgBytes ∧
      (ft.ToTcp order hdr → (Tcp.unmarshalTcpPacket msgBytes hdr.src).isSome))

structure Consistent (ft : FwdTable) (order : Order) (buffer : List Byte) (hdr : Header) : Prop where
  ordered : hdr.len ≤ hdr.totalLen
  within : hdr.totalLen ≤ maxMsgSize
  header : ft.ToTcp order hdr → Tcp.parsedLen ≤ hdr.totalLen - hdr.len
  data : ft.ToTcp order hdr → Tcp.claimedOffset (buffer.drop hdr.len) ≤ hdr.totalLen - hdr.len

omit [Netstack] [Ipv4] in
theorem message_some {buffer : List Byte} {hdr : Header} :
    (∃ msgBytes, message buffer hdr = some msgBytes) ↔
      hdr.len ≤ hdr.totalLen ∧ hdr.totalLen ≤ buffer.length := by
  unfold message
  split
  · rename_i bounds
    simp [bounds]
  · rename_i bounds
    simp [bounds]

omit [Netstack] [Ipv4] in
theorem message_length {buffer msgBytes : List Byte} {hdr : Header}
    (found : message buffer hdr = some msgBytes) :
    msgBytes.length = hdr.totalLen - hdr.len ∧
      (Tcp.parsedLen ≤ msgBytes.length → Tcp.claimedOffset msgBytes = Tcp.claimedOffset (buffer.drop hdr.len)) := by
  unfold message at found
  split at found
  · rename_i bounds
    cases found
    have length : ((buffer.take hdr.totalLen).drop hdr.len).length = hdr.totalLen - hdr.len := by
      rw [List.length_drop, List.length_take]
      omega
    refine ⟨length, fun enough => ?_⟩
    rw [length] at enough
    unfold Tcp.parsedLen at enough
    -- the byte of the offset stands before the end of the message
    have same : ((buffer.take hdr.totalLen).drop hdr.len)[12]? = (buffer.drop hdr.len)[12]? := by
      rw [List.getElem?_drop, List.getElem?_drop, List.getElem?_take_of_lt (by omega)]
    simp only [Tcp.claimedOffset, List.getD_eq_getElem?_getD, same]
  · cases found

theorem inRange_iff (ft : FwdTable) (order : Order) {buffer : List Byte}
    (whole : buffer.length = maxMsgSize) :
    ft.InRange order buffer ↔ ∀ hdr, Ipv4.parseHeader buffer = some hdr → PassesTest buffer hdr →
      ft.Consistent order buffer hdr := by
  constructor
  · intro inRange hdr parsed passes
    obtain ⟨_, slices⟩ := inRange hdr parsed
    obtain ⟨msgBytes, found, reads⟩ := slices passes
    obtain ⟨ordered, within⟩ := message_some.mp ⟨msgBytes, found⟩
    obtain ⟨length, offset⟩ := message_length found
    refine ⟨ordered, whole ▸ within, fun tcp => ?_, fun tcp => ?_⟩
    · rw [← length]
      exact ((Tcp.unmarshalTcpPacket_isSome msgBytes hdr.src).mp (reads tcp)).1
    · obtain ⟨enough, claimed⟩ := (Tcp.unmarshalTcpPacket_isSome msgBytes hdr.src).mp (reads tcp)
      rw [← offset enough, ← length]
      exact claimed
  · intro consistent hdr parsed
    have inside := (Header.ofLayout_bounds (Ipv4.parseHeader_eq buffer ▸ parsed)).2.1
    refine ⟨inside, fun passes => ?_⟩
    obtain ⟨ordered, within, header, data⟩ := consistent hdr parsed passes
    obtain ⟨msgBytes, found⟩ := message_some.mpr ⟨ordered, whole ▸ within⟩
    obtain ⟨length, offset⟩ := message_length found
    refine ⟨msgBytes, found, fun tcp => (Tcp.unmarshalTcpPacket_isSome msgBytes hdr.src).mpr ?_⟩
    have enough : Tcp.parsedLen ≤ msgBytes.length := length ▸ header tcp
    refine ⟨enough, ?_⟩
    rw [offset enough, length]
    exact data tcp

theorem inRange_parsed {ft : FwdTable} {order : Order} {buffer : List Byte} {hdr : Header}
    (parsed : Ipv4.parseHeader buffer = some hdr) :
    ft.InRange order buffer ↔ (PassesTest buffer hdr → ∃ msgBytes, message buffer hdr = some msgBytes ∧
      (ft.ToTcp order hdr → (Tcp.unmarshalTcpPacket msgBytes hdr.src).isSome)) := by
  have inside := (Header.ofLayout_bounds (Ipv4.parseHeader_eq buffer ▸ parsed)).2.1
  constructor
  · intro inRange
    exact (inRange hdr parsed).2
  · intro slices other same
    cases parsed.symm.trans same
    exact ⟨inside, slices⟩

/-- A packet that is accepted and for another handler than those of RIP and of the forwarding
branch takes the node down exactly if it is for TCP and cannot be read. -/
theorem handlePacketSafe_own {ft : FwdTable} {order : Order} {now : Time} {buffer msgBytes : List Byte}
    {hdr : Header} {myInterface : IpInterface} (parsed : Ipv4.parseHeader buffer = some hdr)
    (passes : PassesTest buffer hdr) (found : message buffer hdr = some msgBytes)
    (own : ft.getInterfaceByIp order hdr.dst = some myInterface)
    (ends : ¬ (myInterface.state = .up ∧ ft.applications (UInt8.ofNat hdr.protocol) = some .rip)) :
    (ft.handlePacketSafe order now buffer).returned ≠ none ↔
      (ft.ToTcp order hdr → (Tcp.unmarshalTcpPacket msgBytes hdr.src).isSome) := by
  have same : validateChecksum (buffer.take hdr.len) (UInt16.ofNat hdr.checksum) =
      UInt16.ofNat hdr.checksum := passes
  unfold handlePacketSafe
  simp only [parsed, same, ne_eq, not_true_eq_false, if_false, found, own]
  by_cases down : myInterface.state = .down
  · simp [down, unchanged, ToTcp, own]
  · have up : myInterface.state = .up := by
      cases state : myInterface.state with
      | up => rfl
      | down => exact absurd state down
    rw [if_neg down]
    cases app : ft.applications (UInt8.ofNat hdr.protocol) with
    | none => simp [unchanged, ToTcp, app]
    | some application =>
        cases application with
        | rip => exact absurd ⟨up, app⟩ ends
        | testProtocol => simp [deliver, unchanged, ToTcp, app]
        | tcp => simp [deliver, unchanged, ToTcp, own, up, app, Option.isSome_iff_ne_none]

/-- A slice that is out of range takes the node down, and nothing else does before the handler of
RIP or the forwarding branch is reached. -/
theorem inRange_outcome (ft : FwdTable) (order : Order) (now : Time) (buffer : List Byte) :
    (ft.fate order buffer = .ends →
      ((ft.handlePacketSafe order now buffer).returned ≠ none ↔ ft.InRange order buffer)) ∧
    (ft.fate order buffer ≠ .ends → ft.InRange order buffer) := by
  cases parsed : Ipv4.parseHeader buffer with
  | none =>
      have inRange : ft.InRange order buffer := by
        intro hdr some
        rw [parsed] at some
        cases some
      simp [inRange, handlePacketSafe, parsed, unchanged]
  | some hdr =>
      rw [inRange_parsed parsed]
      by_cases passes : PassesTest buffer hdr
      · have same : validateChecksum (buffer.take hdr.len) (UInt16.ofNat hdr.checksum) =
            UInt16.ofNat hdr.checksum := passes
        cases found : message buffer hdr with
        | none => simp [fate, accepted, parsed, same, found, handlePacketSafe, unchanged, passes]
        | some msgBytes =>
            simp only [passes, true_imp_iff, Option.some.injEq, exists_eq_left']
            cases own : ft.getInterfaceByIp order hdr.dst with
            | none => simp [fate, accepted, parsed, same, found, own, ToTcp]
            | some myInterface =>
                simp only [fate, accepted, parsed, Option.bind_some, same, if_true, found, Option.map_some, own]
                -- A message for RIP is sliced no further here.
                by_cases rip : myInterface.state = .up ∧
                    ft.applications (UInt8.ofNat hdr.protocol) = some .rip
                · simp [rip, ToTcp]
                · rw [if_neg rip]
                  exact ⟨fun _ => handlePacketSafe_own parsed passes found own rip, fun other => absurd rfl other⟩
      · have differs : ¬ validateChecksum (buffer.take hdr.len) (UInt16.ofNat hdr.checksum) =
            UInt16.ofNat hdr.checksum := passes
        simp [fate, accepted, parsed, differs, passes, handlePacketSafe, unchanged]

/-- For every buffer of `Transport.Recv`, the slices and the indices are within bounds exactly if
the lengths in a header whose checksum is right are consistent; otherwise the node goes down. -/
theorem slices_in_range_iff (ft : FwdTable) (order : Order) (now : Time) {buffer : List Byte}
    (whole : buffer.length = maxMsgSize) :
    (ft.InRange order buffer ↔ ∀ hdr, Ipv4.parseHeader buffer = some hdr → PassesTest buffer hdr →
      ft.Consistent order buffer hdr) ∧
    (¬ ft.InRange order buffer → (ft.handlePacketSafe order now buffer).returned = none) := by
  refine ⟨inRange_iff ft order whole, fun out => ?_⟩
  obtain ⟨ends, goesOn⟩ := inRange_outcome ft order now buffer
  by_cases fate : ft.fate order buffer = .ends
  · by_contra returns
    exact out ((ends fate).mp returns)
  · exact absurd (goesOn fate) out

end FwdTable

section
attribute [local instance] Netstack.standard Ipv4.linux

def tcpTable : FwdTable := (linkedTable 0x0a000001 0x0a000002).registerHandlerSafe Tcp.tcpProtocolNum .tcp

def datagramOf (protocol : UInt8) (totalLen : Nat) (msg : List Byte) : List Byte :=
  (FwdTable.marshalWithChecksum
    { FwdTable.newHeader 0x0a000002 0x0a000001 protocol msg with totalLen := totalLen }).getD [] ++ msg

theorem slices_in_range_bare :
    (recv (datagramOf Tcp.tcpProtocolNum 40 (List.replicate 20 0))).length = maxMsgSize ∧
      ∀ hdr, Ipv4.parseHeader (recv (datagramOf Tcp.tcpProtocolNum 40 (List.replicate 20 0))) = some hdr →
        PassesTest (recv (datagramOf Tcp.tcpProtocolNum 40 (List.replicate 20 0))) hdr →
        tcpTable.Consistent ⟨[], [], []⟩
          (recv (datagramOf Tcp.tcpProtocolNum 40 (List.replicate 20 0))) hdr := by
  have whole := recv_length (datagramOf Tcp.tcpProtocolNum 40 (List.replicate 20 0))
  refine ⟨whole, (tcpTable.slices_in_range_iff ⟨[], [], []⟩ 0 whole).1.mp ?_⟩
  refine ((tcpTable.inRange_outcome ⟨[], [], []⟩ 0 _).1 ?_).mp ?_ <;> decide +kernel

/-- A total length below that of the header, a total length beyond the buffer, and a message for
TCP that is shorter than its header: each takes the node down. -/
theorem slices_out_of_range :
    (tcpTable.handlePacketSafe ⟨[], [], []⟩ 0 (recv (datagramOf 0 10 []))).returned = none ∧
    ¬ tcpTable.InRange ⟨[], [], []⟩ (recv (datagramOf 0 10 [])) ∧
    (tcpTable.handlePacketSafe ⟨[], [], []⟩ 0 (recv (datagramOf 0 1401 []))).returned = none ∧
    ¬ tcpTable.InRange ⟨[], [], []⟩ (recv (datagramOf 0 1401 [])) ∧
    (tcpTable.handlePacketSafe ⟨[], [], []⟩ 0 (recv (datagramOf Tcp.tcpProtocolNum 20 []))).returned =
      none ∧
    ¬ tcpTable.InRange ⟨[], [], []⟩ (recv (datagramOf Tcp.tcpProtocolNum 20 [])) := by
  have ends : ∀ buffer ∈ [recv (datagramOf 0 10 []), recv (datagramOf 0 1401 []),
      recv (datagramOf Tcp.tcpProtocolNum 20 [])],
      tcpTable.fate ⟨[], [], []⟩ buffer = .ends ∧
        (tcpTable.handlePacketSafe ⟨[], [], []⟩ 0 buffer).returned = none := by
    decide +kernel
  have out : ∀ buffer ∈ [recv (datagramOf 0 10 []), recv (datagramOf 0 1401 []),
      recv (datagramOf Tcp.tcpProtocolNum 20 [])],
      (tcpTable.handlePacketSafe ⟨[], [], []⟩ 0 buffer).returned = none ∧
        ¬ tcpTable.InRange ⟨[], [], []⟩ buffer := by
    intro buffer member
    obtain ⟨fate, down⟩ := ends buffer member
    refine ⟨down, fun inRange => ?_⟩
    exact ((tcpTable.inRange_outcome ⟨[], [], []⟩ 0 buffer).1 fate).mpr inRange down
  exact ⟨(out _ (by simp)).1, (out _ (by simp)).2, (out _ (by simp)).1, (out _ (by simp)).2,
    (out _ (by simp)).1, (out _ (by simp)).2⟩

end

end IpTcp.Network
