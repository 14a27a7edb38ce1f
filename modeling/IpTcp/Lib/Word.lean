import Mathlib.Data.UInt

/-! Sequence numbers: 32-bit words that count from an initial one. A number is read
back as its distance from the initial word, which is exact below 2^32. -/

set_option autoImplicit false

namespace IpTcp.Lib.Word

variable {initial a b : UInt32} {n m : Nat}

theorem add_right_comm_one (a b : UInt32) : a + b + 1 = a + 1 + b := by grind

theorem toNat_offset (initial : UInt32) (small : n + 1 < 2 ^ 32) :
    (initial + 1 + UInt32.ofNat n - initial).toNat = n + 1 := by
  have cancel : initial + 1 + UInt32.ofNat n - initial = UInt32.ofNat (n + 1) := by
    rw [UInt32.ofNat_add]
    grind
  rw [cancel, UInt32.toNat_ofNat']
  omega

theorem toNat_ofNat (small : n < 2 ^ 32) : (UInt32.ofNat n).toNat = n := by
  rw [UInt32.toNat_ofNat']
  omega

theorem ofNat_inj (smallN : n < 2 ^ 32) (smallM : m < 2 ^ 32)
    (same : UInt32.ofNat n = UInt32.ofNat m) : n = m := by
  rw [← toNat_ofNat smallN, ← toNat_ofNat smallM, same]

theorem toNat_add (small : a.toNat + n < 2 ^ 32) : (a + UInt32.ofNat n).toNat = a.toNat + n := by
  rw [UInt32.toNat_add, UInt32.toNat_ofNat']
  omega

/-- Moving two numbers by the same amount keeps their order unless just one of them wraps. -/
theorem lt_add_iff_wrap (a b k : UInt32) : (a < b ↔ a + k < b + k) ↔
    (2 ^ 32 ≤ a.toNat + k.toNat ↔ 2 ^ 32 ≤ b.toNat + k.toNat) := by
  have smallA := a.toNat_lt
  have smallB := b.toNat_lt
  have smallK := k.toNat_lt
  rw [UInt32.lt_iff_toNat_lt, UInt32.lt_iff_toNat_lt, UInt32.toNat_add, UInt32.toNat_add]
  omega

end IpTcp.Lib.Word
