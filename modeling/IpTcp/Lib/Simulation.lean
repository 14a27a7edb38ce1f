import IpTcp.Lib.Run

/-! Forward simulation. A relation between the states of two machines that every step of the first
keeps, with a run of the second to match it, carries every run of the first over to the second. -/

set_option autoImplicit false

namespace IpTcp.Lib

variable {State Event Abstract Action : Type} {step : State → Event → Option State}
  {guard : State → Event → Prop} {abstractStep : Abstract → Action → Option Abstract}
  {abstractGuard : Abstract → Action → Prop}

/-- Every step is matched by a run, which may be empty. -/
def Simulates (step : State → Event → Option State) (guard : State → Event → Prop)
    (abstractStep : Abstract → Action → Option Abstract) (abstractGuard : Abstract → Action → Prop)
    (relation : State → Abstract → Prop) : Prop :=
  ∀ before event after abstract, relation before abstract → guard before event →
    step before event = some after →
    ∃ abstract', Run abstractStep abstractGuard abstract abstract' ∧ relation after abstract'

theorem Simulates.run {relation : State → Abstract → Prop}
    (simulates : Simulates step guard abstractStep abstractGuard relation) {start final : State}
    {abstract : Abstract} (run : Run step guard start final) (related : relation start abstract) :
    ∃ abstract', Run abstractStep abstractGuard abstract abstract' ∧ relation final abstract' := by
  induction run with
  | refl => exact ⟨abstract, Run.refl, related⟩
  | tail _ last ih =>
      obtain ⟨middle, reached, held⟩ := ih
      obtain ⟨event, meets, moves⟩ := last
      obtain ⟨abstract', onward, holds⟩ := simulates _ event _ middle held meets moves
      exact ⟨abstract', reached.trans onward, holds⟩

end IpTcp.Lib
