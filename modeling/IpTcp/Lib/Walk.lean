import Mathlib.Data.Nat.Find

/-! Walks of a given number of links in a directed graph, and the distance they give. -/

set_option autoImplicit false

namespace IpTcp.Lib

variable {Vertex : Type} {link : Vertex → Vertex → Prop}

inductive Walk (link : Vertex → Vertex → Prop) : Nat → Vertex → Vertex → Prop where
  | here (vertex : Vertex) : Walk link 0 vertex vertex
  | first {length : Nat} {start next final : Vertex} :
      link start next → Walk link length next final → Walk link (length + 1) start final

structure Distance (link : Vertex → Vertex → Prop) (length : Nat) (start final : Vertex) : Prop where
  walk : Walk link length start final
  least : ∀ other, Walk link other start final → length ≤ other

theorem Walk.eq_of_zero {start final : Vertex} (walk : Walk link 0 start final) : start = final := by
  cases walk
  rfl

theorem Walk.distance_le {length : Nat} {start final : Vertex} (walk : Walk link length start final) :
    ∃ distance ≤ length, Distance link distance start final := by
  classical
  have reachable : ∃ length, Walk link length start final := ⟨length, walk⟩
  exact ⟨Nat.find reachable, Nat.find_min' reachable walk, Nat.find_spec reachable,
    fun _ shorter => Nat.find_min' reachable shorter⟩

theorem Distance.self (vertex : Vertex) : Distance link 0 vertex vertex :=
  ⟨.here vertex, fun _ _ => Nat.zero_le _⟩

/-- Behind the first link of a shortest walk the distance is one less. -/
theorem Distance.behind {length : Nat} {start next final : Vertex}
    (distance : Distance link (length + 1) start final) (linked : link start next)
    (walk : Walk link length next final) : Distance link length next final := by
  refine ⟨walk, fun other shorter => ?_⟩
  have := distance.least (other + 1) (.first linked shorter)
  omega

theorem Distance.eq {first second : Nat} {start final : Vertex} (one : Distance link first start final)
    (other : Distance link second start final) : first = second :=
  Nat.le_antisymm (one.least _ other.walk) (other.least _ one.walk)

end IpTcp.Lib
