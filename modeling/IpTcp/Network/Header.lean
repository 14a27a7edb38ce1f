import IpTcp.Tcp.Checksum

/-! The IPv4 header of `golang.org/x/net/ipv4`, which is third-party code: its `ParseHeader` and
`Marshal` are parameters, of which the standard layout is relied on. A field that the package
keeps as an `int` and fills from the wire is a natural number; `TTL` is counted down past zero. -/

set_option autoImplicit false

namespace IpTcp.Network

open Lib.Bytes
open Tcp (Netstack)

abbrev IntIP := UInt32

def headerLen : Nat := 20

structure Header where
  version : Nat
  len : Nat
  tos : Nat
  totalLen : Nat
  id : Nat
  flags : Nat
  fragOff : Nat
  ttl : Int
  protocol : Nat
  checksum : Nat
  src : IntIP
  dst : IntIP
  options : List Byte
  deriving DecidableEq, Repr

def putInt16 (value : Nat) : List Byte := putUint16 (UInt16.ofNat value)

namespace Header

def layout (hdr : Header) : List Byte :=
  -- The standard layout, with version 4 and the length that the options give.
  [UInt8.ofNat (4 * 16 + (headerLen + hdr.options.length) / 4 % 16), UInt8.ofNat hdr.tos] ++
    putInt16 hdr.totalLen ++ putInt16 hdr.id ++ putInt16 (hdr.flags % 8 * 8192 + hdr.fragOff % 8192) ++
    [UInt8.ofNat (hdr.ttl % 256).toNat, UInt8.ofNat hdr.protocol] ++ putInt16 hdr.checksum ++
    putUint32 hdr.src ++ putUint32 hdr.dst ++ hdr.options

def ofLayout : List Byte → Option Header
  -- The standard layout read back; nothing where the buffer is shorter than its header.
  | b0 :: b1 :: b2 :: b3 :: b4 :: b5 :: b6 :: b7 :: b8 :: b9 :: b10 :: b11 :: b12 :: b13 :: b14 :: b15 ::
      b16 :: b17 :: b18 :: b19 :: rest =>
      let hdrlen := b0.toNat % 16 * 4
      let flagsAndFragOff := (uint16 b6 b7).toNat
      if headerLen + rest.length < hdrlen then none
      else some {
        version := b0.toNat / 16
        len := hdrlen
        tos := b1.toNat
        totalLen := (uint16 b2 b3).toNat
        id := (uint16 b4 b5).toNat
        flags := flagsAndFragOff / 8192
        fragOff := flagsAndFragOff % 8192
        ttl := b8.toNat
        protocol := b9.toNat
        checksum := (uint16 b10 b11).toNat
        src := uint32 b12 b13 b14 b15
        dst := uint32 b16 b17 b18 b19
        options := rest.take (hdrlen - headerLen) }
  | _ => none

def onWire (hdr : Header) : Header where
  version := 4
  len := headerLen + hdr.options.length
  tos := hdr.tos % 256
  totalLen := hdr.totalLen % 65536
  id := hdr.id % 65536
  flags := hdr.flags % 8
  fragOff := hdr.fragOff % 8192
  ttl := hdr.ttl % 256
  protocol := hdr.protocol % 256
  checksum := hdr.checksum % 65536
  src := hdr.src
  dst := hdr.dst
  options := hdr.options

def Aligned (hdr : Header) : Prop := hdr.options.length % 4 = 0 ∧ hdr.options.length ≤ 40

theorem layout_length (hdr : Header) : hdr.layout.length = headerLen + hdr.options.length := by
  simp [layout, putInt16, putUint16, putUint32, headerLen]
  omega

theorem ofLayout_layout {hdr : Header} (aligned : hdr.Aligned) (rest : List Byte) :
    ofLayout (hdr.layout ++ rest) = some hdr.onWire := by
  obtain ⟨words, fits⟩ := aligned
  have length : (64 + (headerLen + hdr.options.length) / 4 % 16) % 256 % 16 * 4 =
      headerLen + hdr.options.length := by
    unfold headerLen
    omega
  have version : (64 + (headerLen + hdr.options.length) / 4 % 16) % 256 / 16 = 4 := by omega
  have flags : (hdr.flags % 8 * 8192 + hdr.fragOff % 8192) % 65536 / 8192 = hdr.flags % 8 := by omega
  have fragOff : (hdr.flags % 8 * 8192 + hdr.fragOff % 8192) % 65536 % 8192 = hdr.fragOff % 8192 := by omega
  have ttl : (((hdr.ttl % 256).toNat % 256 : Nat) : Int) = hdr.ttl % 256 := by omega
  have inside : ¬ headerLen + (hdr.options ++ rest).length < headerLen + hdr.options.length := by
    rw [List.length_append]
    omega
  simp only [layout, putInt16, putUint16, putUint32, List.cons_append, List.nil_append,
    ofLayout, uint16_put, uint32_put, UInt8.toNat_ofNat', UInt16.toNat_ofNat', Nat.reducePow, Nat.reduceMul,
    length, version, flags, fragOff, ttl, inside, if_false, Nat.add_sub_cancel_left, List.take_left, onWire]

theorem onWire_ofLayout {bytes : List Byte} {hdr : Header} (read : ofLayout bytes = some hdr)
    (long : headerLen ≤ hdr.len) : hdr.Aligned ∧ hdr.onWire = { hdr with version := 4 } := by
  unfold ofLayout at read
  split at read
  · rename_i b0 b1 b2 b3 b4 b5 b6 b7 b8 b9 b10 b11 b12 b13 b14 b15 b16 b17 b18 b19 rest
    dsimp only at read
    split at read
    · cases read
    rename_i inside
    cases read
    dsimp only at long
    -- The length is a number of words below 16, and the options are what it leaves beyond 20 bytes.
    have nibble : b0.toNat % 16 < 16 := Nat.mod_lt _ (by decide)
    have options : (rest.take (b0.toNat % 16 * 4 - headerLen)).length = b0.toNat % 16 * 4 - headerLen := by
      rw [List.length_take]
      unfold headerLen at *
      omega
    have tos := b1.toNat_lt
    have totalLen := (uint16 b2 b3).toNat_lt
    have id := (uint16 b4 b5).toNat_lt
    have flagsAndFragOff := (uint16 b6 b7).toNat_lt
    have ttl := b8.toNat_lt
    have protocol := b9.toNat_lt
    have checksum := (uint16 b10 b11).toNat_lt
    constructor
    · constructor
      · show (rest.take (b0.toNat % 16 * 4 - headerLen)).length % 4 = 0
        rw [options]
        unfold headerLen
        omega
      · show (rest.take (b0.toNat % 16 * 4 - headerLen)).length ≤ 40
        rw [options]
        unfold headerLen
        omega
    · simp only [onWire, Header.mk.injEq, options, and_self, and_true, true_and]
      omega
  · cases read

/-- What `ParseHeader` makes sure of. A header of the least length or more does not sum up to zero. -/
theorem ofLayout_bounds {bytes : List Byte} {hdr : Header} (read : ofLayout bytes = some hdr) :
    headerLen ≤ bytes.length ∧ hdr.len ≤ bytes.length ∧ hdr.len ≤ 60 ∧ hdr.checksum < 65536 ∧
      (headerLen ≤ hdr.len → 0 < wordSum (bytes.take hdr.len)) := by
  unfold ofLayout at read
  split at read
  · rename_i b0 b1 b2 b3 b4 b5 b6 b7 b8 b9 b10 b11 b12 b13 b14 b15 b16 b17 b18 b19 rest
    dsimp only at read
    split at read
    · cases read
    rename_i inside
    cases read
    have nibble : b0.toNat % 16 < 16 := Nat.mod_lt _ (by decide)
    have checksum := (uint16 b10 b11).toNat_lt
    simp only [List.length_cons]
    unfold headerLen at inside ⊢
    refine ⟨by omega, by omega, by omega, checksum, fun long => ?_⟩
    obtain ⟨more, length⟩ : ∃ more, b0.toNat % 16 * 4 = more + 2 := ⟨b0.toNat % 16 * 4 - 2, by omega⟩
    rw [length, List.take_succ_cons, List.take_succ_cons, wordSum]
    omega
  · cases read

end Header

/-- The two functions of the package; nothing is returned for their errors. -/
class Ipv4 where
  parseHeader : List Byte → Option Header
  marshal : Header → Option (List Byte)
  parseHeader_eq : ∀ bytes, parseHeader bytes = Header.ofLayout bytes
  marshal_eq : ∀ hdr, marshal hdr = if hdr.len < headerLen then none else some hdr.layout

abbrev Ipv4.linux : Ipv4 where
  parseHeader := Header.ofLayout
  marshal hdr := if hdr.len < headerLen then none else some hdr.layout
  parseHeader_eq _ := rfl
  marshal_eq _ := rfl

variable [Netstack]

def computeChecksum (b : List Byte) : UInt16 := Netstack.checksum b 0 ^^^ 0xffff

def validateChecksum (b : List Byte) (fromHeader : UInt16) : UInt16 := Netstack.checksum b fromHeader

end IpTcp.Network
