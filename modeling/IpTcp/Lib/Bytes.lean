import Mathlib.Data.UInt

/-! Big-endian integers in byte lists, as `encoding/binary` writes and reads them, and the
one's-complement sum of a buffer. -/

set_option autoImplicit false

namespace IpTcp.Lib.Bytes

abbrev Byte := UInt8

def putUint16 (value : UInt16) : List Byte := [(value >>> 8).toUInt8, value.toUInt8]

def putUint32 (value : UInt32) : List Byte :=
  [(value >>> 24).toUInt8, (value >>> 16).toUInt8, (value >>> 8).toUInt8, value.toUInt8]

def uint16 (b0 b1 : Byte) : UInt16 := UInt16.ofNat (b0.toNat * 256 + b1.toNat)

def uint32 (b0 b1 b2 b3 : Byte) : UInt32 :=
  UInt32.ofNat (b0.toNat * 16777216 + b1.toNat * 65536 + b2.toNat * 256 + b3.toNat)

theorem uint16_toNat (b0 b1 : Byte) : (uint16 b0 b1).toNat = b0.toNat * 256 + b1.toNat := by
  have high := b0.toNat_lt
  have low := b1.toNat_lt
  rw [uint16, UInt16.toNat_ofNat']
  omega

theorem uint16_put (value : UInt16) : uint16 (value >>> 8).toUInt8 value.toUInt8 = value := by
  have small := value.toNat_lt
  apply UInt16.toNat_inj.mp
  rw [uint16_toNat]
  simp only [UInt16.toNat_toUInt8, UInt16.toNat_shiftRight, UInt16.reduceToNat,
    Nat.shiftRight_eq_div_pow, Nat.reduceMod, Nat.reducePow]
  omega

theorem uint32_put (value : UInt32) :
    uint32 (value >>> 24).toUInt8 (value >>> 16).toUInt8 (value >>> 8).toUInt8 value.toUInt8 = value := by
  have small := value.toNat_lt
  apply UInt32.toNat_inj.mp
  rw [uint32, UInt32.toNat_ofNat']
  simp only [UInt32.toNat_toUInt8, UInt32.toNat_shiftRight, UInt32.reduceToNat,
    Nat.shiftRight_eq_div_pow, Nat.reduceMod, Nat.reducePow]
  omega

theorem put_uint16 (b0 b1 : Byte) : putUint16 (uint16 b0 b1) = [b0, b1] := by
  have high := b0.toNat_lt
  have low := b1.toNat_lt
  simp only [putUint16, List.cons.injEq, ← UInt8.toNat_inj, UInt16.toNat_toUInt8,
    UInt16.toNat_shiftRight, uint16_toNat, UInt16.reduceToNat, Nat.shiftRight_eq_div_pow,
    Nat.reduceMod, Nat.reducePow, and_true]
  omega

theorem put_uint32 (b0 b1 b2 b3 : Byte) : putUint32 (uint32 b0 b1 b2 b3) = [b0, b1, b2, b3] := by
  have first := b0.toNat_lt
  have second := b1.toNat_lt
  have third := b2.toNat_lt
  have last := b3.toNat_lt
  simp only [putUint32, uint32, List.cons.injEq, ← UInt8.toNat_inj, UInt32.toNat_toUInt8,
    UInt32.toNat_shiftRight, UInt32.toNat_ofNat', UInt32.reduceToNat, Nat.shiftRight_eq_div_pow,
    Nat.reduceMod, Nat.reducePow, and_true]
  omega

/-! ## The one's-complement sum -/

/-- The sum of the big-endian 16-bit words of a buffer, an odd last byte taken as a high byte. -/
def wordSum : List Byte → Nat
  | [] => 0
  | [high] => high.toNat * 256
  | high :: low :: rest => high.toNat * 256 + low.toNat + wordSum rest

/-- RFC 1071: the folded one's-complement sum of the buffer, from an initial value. -/
def foldedSum (bytes : List Byte) (initial : UInt16) : UInt16 :=
  let total := initial.toNat + wordSum bytes
  let once := total % 65536 + total / 65536
  UInt16.ofNat (once % 65536 + once / 65536)

theorem wordSum_putUint16 (value : UInt16) (rest : List Byte) :
    wordSum (putUint16 value ++ rest) = value.toNat + wordSum rest := by
  have whole := congrArg UInt16.toNat (uint16_put value)
  rw [uint16_toNat] at whole
  simp only [putUint16, List.cons_append, List.nil_append, wordSum, whole]

theorem wordSum_le (bytes : List Byte) : wordSum bytes ≤ 65536 * bytes.length := by
  fun_induction wordSum bytes with
  | case1 => simp
  | case2 high =>
      have := high.toNat_lt
      simp only [List.length_singleton]
      omega
  | case3 high low rest ih =>
      have := high.toNat_lt
      have := low.toNat_lt
      simp only [List.length_cons]
      omega

theorem wordSum_append (front rest : List Byte) (even : front.length % 2 = 0) :
    wordSum (front ++ rest) = wordSum front + wordSum rest := by
  fun_induction wordSum front with
  | case1 => simp
  | case2 high => simp at even
  | case3 high low more ih =>
      simp only [List.length_cons] at even
      rw [List.cons_append, List.cons_append, wordSum, ih (by omega)]
      omega

theorem wordSum_putUint32 (value : UInt32) (rest : List Byte) :
    wordSum (putUint32 value ++ rest) = value.toNat / 65536 + value.toNat % 65536 + wordSum rest := by
  have small := value.toNat_lt
  simp only [putUint32, List.cons_append, List.nil_append, wordSum, UInt32.toNat_toUInt8,
    UInt32.toNat_shiftRight, UInt32.reduceToNat, Nat.shiftRight_eq_div_pow, Nat.reduceMod, Nat.reducePow]
  omega

def flipBit (bytes : List Byte) (position : Nat) (bit : Fin 8) : List Byte :=
  bytes.modify position (· ^^^ (1 <<< UInt8.ofNat bit))

@[simp] theorem flipBit_length (bytes : List Byte) (position : Nat) (bit : Fin 8) :
    (flipBit bytes position bit).length = bytes.length := List.length_modify ..

theorem flipBit_getD {bytes : List Byte} {position other : Nat} (bit : Fin 8) (apart : position ≠ other) :
    (flipBit bytes position bit).getD other 0 = bytes.getD other 0 := by
  simp only [flipBit, List.getD_eq_getElem?_getD, List.getElem?_modify, if_neg apart]
  cases bytes[other]? <;> rfl

theorem xor_bit_toNat (byte : Byte) (bit : Fin 8) :
    (byte ^^^ (1 <<< UInt8.ofNat bit)).toNat = byte.toNat + 2 ^ bit.val ∨
      (byte ^^^ (1 <<< UInt8.ofNat bit)).toNat + 2 ^ bit.val = byte.toNat := by
  have power : ∀ bit : Fin 8, ((1 : UInt8) <<< UInt8.ofNat bit).toNat = 2 ^ bit.val := by decide
  have flipped : ∀ (n : Fin 256) (bit : Fin 8),
      n.val ^^^ 2 ^ bit.val = n.val + 2 ^ bit.val ∨ (n.val ^^^ 2 ^ bit.val) + 2 ^ bit.val = n.val := by
    decide +kernel
  rw [UInt8.toNat_xor, power]
  exact flipped ⟨byte.toNat, byte.toNat_lt⟩ bit

theorem wordSum_flipBit {bytes : List Byte} {position : Nat} (bit : Fin 8) (inside : position < bytes.length) :
    ∃ k < 16, wordSum (flipBit bytes position bit) = wordSum bytes + 2 ^ k ∨
      wordSum (flipBit bytes position bit) + 2 ^ k = wordSum bytes := by
  fun_induction wordSum bytes generalizing position with
  | case1 => simp at inside
  | case2 high =>
      -- An odd byte at the end counts as a high byte.
      obtain rfl : position = 0 := by simpa using inside
      have here : flipBit [high] 0 bit = [high ^^^ (1 <<< UInt8.ofNat bit)] := rfl
      have changed := xor_bit_toNat high bit
      refine ⟨bit.val + 8, by omega, ?_⟩
      rw [here, wordSum, Nat.pow_add]
      omega
  | case3 high low rest ih =>
      match position with
      | 0 =>
          have here : flipBit (high :: low :: rest) 0 bit =
            (high ^^^ (1 <<< UInt8.ofNat bit)) :: low :: rest := rfl
          have changed := xor_bit_toNat high bit
          refine ⟨bit.val + 8, by omega, ?_⟩
          rw [here, wordSum, Nat.pow_add]
          omega
      | 1 =>
          have here : flipBit (high :: low :: rest) 1 bit =
            high :: (low ^^^ (1 <<< UInt8.ofNat bit)) :: rest := rfl
          have changed := xor_bit_toNat low bit
          refine ⟨bit.val, by omega, ?_⟩
          rw [here, wordSum]
          omega
      | position + 2 =>
          obtain ⟨k, small, changed⟩ := @ih position (by simpa using inside)
          have later : flipBit (high :: low :: rest) (position + 2) bit =
            high :: low :: flipBit rest position bit := rfl
          refine ⟨k, small, ?_⟩
          rw [later, wordSum]
          omega

def fold (total : Nat) : UInt16 := if total = 0 then 0 else UInt16.ofNat ((total - 1) % 65535 + 1)

/-- Folding keeps a total modulo 65535 and makes it a word, which is not zero unless the total is. -/
theorem fold_spec {total : Nat} (positive : 0 < total) :
    0 < (fold total).toNat ∧ total = (fold total).toNat + 65535 * ((total - 1) / 65535) := by
  rw [fold, if_neg (by omega), UInt16.toNat_ofNat']
  omega

theorem fold_add (first second : Nat) : fold ((fold first).toNat + second) = fold (first + second) := by
  rcases Nat.eq_zero_or_pos first with rfl | positive
  · rfl
  · obtain ⟨least, total⟩ := fold_spec positive
    obtain ⟨leastAll, whole⟩ := fold_spec (show 0 < first + second by omega)
    obtain ⟨leastPart, part⟩ := fold_spec (show 0 < (fold first).toNat + second by omega)
    have small := (fold (first + second)).toNat_lt
    have smallPart := (fold ((fold first).toNat + second)).toNat_lt
    apply UInt16.toNat_inj.mp
    omega

theorem fold_eq_ones {total : Nat} (positive : 0 < total) : fold total = 0xffff ↔ 65535 ∣ total := by
  obtain ⟨least, whole⟩ := fold_spec positive
  have small := (fold total).toNat_lt
  have ones : (0xffff : UInt16).toNat = 65535 := rfl
  rw [← UInt16.toNat_inj, ones]
  omega

theorem foldedSum_eq_fold (bytes : List Byte) (initial : UInt16)
    (short : initial.toNat + wordSum bytes < 4294967296) :
    foldedSum bytes initial = fold (initial.toNat + wordSum bytes) := by
  -- Two folds are enough for a total of 32 bits.
  apply UInt16.toNat_inj.mp
  simp only [foldedSum, UInt16.toNat_ofNat', Nat.reducePow]
  generalize initial.toNat + wordSum bytes = total at short ⊢
  rcases Nat.eq_zero_or_pos total with rfl | positive
  · rfl
  · obtain ⟨least, whole⟩ := fold_spec positive
    have small := (fold total).toNat_lt
    obtain ⟨once, is, first, bound⟩ : ∃ once, total % 65536 + total / 65536 = once ∧
      total = once + 65535 * (total / 65536) ∧ once < 131071 := ⟨_, rfl, by omega⟩
    obtain ⟨twice, isTwice, second, fits⟩ : ∃ twice, once % 65536 + once / 65536 = twice ∧
      once = twice + 65535 * (once / 65536) ∧ twice < 65536 := ⟨_, rfl, by omega⟩
    rw [is, isTwice]
    omega

theorem foldedSum_from (bytes : List Byte) (initial : UInt16) (short : bytes.length ≤ 60)
    (positive : 0 < initial.toNat + wordSum bytes) :
    0 < (foldedSum bytes initial).toNat ∧
      ∃ k, initial.toNat + wordSum bytes = (foldedSum bytes initial).toNat + 65535 * k := by
  have bound : initial.toNat + wordSum bytes < 4294967296 := by
    have words := wordSum_le bytes
    have small := initial.toNat_lt
    omega
  rw [foldedSum_eq_fold bytes initial bound]
  obtain ⟨least, whole⟩ := fold_spec positive
  exact ⟨least, _, whole⟩

theorem foldedSum_spec (bytes : List Byte) (short : bytes.length ≤ 60) (positive : 0 < wordSum bytes) :
    0 < (foldedSum bytes 0).toNat ∧ ∃ k, wordSum bytes = (foldedSum bytes 0).toNat + 65535 * k := by
  have zero : (0 : UInt16).toNat = 0 := rfl
  have folded := foldedSum_from bytes 0 short (by omega)
  rwa [zero, Nat.zero_add] at folded

/-- Folding a buffer onto a word gives the word back exactly if the buffer sums up to 0xffff and
the word is not zero: zero has two representations, and a sum that was folded is never 0x0000. -/
theorem foldedSum_eq_initial (bytes : List Byte) (initial : UInt16) (short : bytes.length ≤ 60)
    (positive : 0 < wordSum bytes) :
    foldedSum bytes initial = initial ↔ foldedSum bytes 0 = 0xffff ∧ initial ≠ 0 := by
  obtain ⟨least, k, total⟩ := foldedSum_spec bytes short positive
  obtain ⟨leastFrom, k', totalFrom⟩ := foldedSum_from bytes initial short (by omega)
  have small := (foldedSum bytes 0).toNat_lt
  have smallFrom := (foldedSum bytes initial).toNat_lt
  have initialSmall := initial.toNat_lt
  have ones : (0xffff : UInt16).toNat = 65535 := rfl
  have zero : (0 : UInt16).toNat = 0 := rfl
  simp only [← UInt16.toNat_inj, ne_eq, ones, zero]
  constructor
  · intro same
    omega
  · rintro ⟨full, nonzero⟩
    omega

theorem toNat_complement (word : UInt16) : (word ^^^ 0xffff).toNat = 65535 - word.toNat := by
  have ones : (0xffff : UInt16).toBitVec = BitVec.allOnes 16 := rfl
  rw [← UInt16.toNat_toBitVec, UInt16.toBitVec_xor, ones, BitVec.xor_allOnes, BitVec.toNat_not,
    UInt16.toNat_toBitVec]

/-- The complement of a folded total is a word exactly if the word brings the total to a multiple
of 65535; it is never 0xffff. -/
theorem complement_fold {total : Nat} (positive : 0 < total) (word : UInt16) :
    fold total ^^^ 0xffff = word ↔ word ≠ 0xffff ∧ 65535 ∣ total + word.toNat := by
  obtain ⟨least, whole⟩ := fold_spec positive
  have small := (fold total).toNat_lt
  have smallWord := word.toNat_lt
  have ones : (0xffff : UInt16).toNat = 65535 := rfl
  rw [← UInt16.toNat_inj, toNat_complement, ne_eq, ← UInt16.toNat_inj, ones]
  omega

theorem foldedSum_complement {bytes sealed : List Byte} (short : bytes.length ≤ 60)
    (same : sealed.length = bytes.length) (positive : 0 < wordSum bytes)
    (added : wordSum sealed = wordSum bytes + (foldedSum bytes 0 ^^^ 0xffff).toNat) :
    foldedSum sealed 0 = 0xffff := by
  obtain ⟨least, k, total⟩ := foldedSum_spec bytes short positive
  have small := (foldedSum bytes 0).toNat_lt
  rw [toNat_complement] at added
  obtain ⟨sealedLeast, k', sealedTotal⟩ := foldedSum_spec sealed (by omega) (by omega)
  have sealedSmall := (foldedSum sealed 0).toNat_lt
  apply UInt16.toNat_inj.mp
  show (foldedSum sealed 0).toNat = 65535
  omega

end IpTcp.Lib.Bytes
