import Mathlib.Data.List.Basic

/-! Slices of an append-only stream. A segment carries the elements of the stream
from some offset on; what it carries stays true when the stream grows, and a
slice at the end of a prefix extends that prefix. -/

set_option autoImplicit false

namespace IpTcp.Lib

variable {A : Type} {stream more data : List A} {offset : Nat}

/-- `data` is what the stream holds from `offset` on, and lies wholly inside it. -/
def Slice (stream : List A) (offset : Nat) (data : List A) : Prop :=
  offset + data.length ≤ stream.length ∧ data <+: stream.drop offset

theorem Slice.length_le (slice : Slice stream offset data) :
    offset + data.length ≤ stream.length := slice.1

theorem Slice.grow (slice : Slice stream offset data) : Slice (stream ++ more) offset data := by
  obtain ⟨inside, found⟩ := slice
  refine ⟨by rw [List.length_append]; omega, ?_⟩
  rw [List.drop_append_of_le_length (by omega)]
  exact found.trans (List.prefix_append _ _)

theorem Slice.last : Slice (stream ++ data) stream.length data := by
  refine ⟨by simp, ?_⟩
  simp only [List.drop_left, List.prefix_refl]

theorem Slice.take_add (slice : Slice stream offset data) :
    stream.take (offset + data.length) = stream.take offset ++ data := by
  rw [List.take_add, List.prefix_iff_eq_take.mp slice.2, List.length_take]
  congr 2
  have := slice.1
  simp only [List.length_drop]
  omega

end IpTcp.Lib
