import Mathlib.Logic.Relation

/-! Runs of a machine given by a computable, partial step function: the reflexive
transitive closure of its steps, restricted to those that meet a guard in the
state before them. The one induction over runs is stated here and used by name. -/

set_option autoImplicit false

namespace IpTcp.Lib

variable {State Event : Type}

def Step (step : State → Event → Option State) (guard : State → Event → Prop)
    (before after : State) : Prop :=
  ∃ event, guard before event ∧ step before event = some after

def Run (step : State → Event → Option State) (guard : State → Event → Prop) :
    State → State → Prop :=
  Relation.ReflTransGen (Step step guard)

def anyEvent : State → Event → Prop := fun _ _ => True

variable {step : State → Event → Option State} {guard : State → Event → Prop}
  {start before after final : State}

theorem Run.refl : Run step guard start start := Relation.ReflTransGen.refl

theorem Run.tail (run : Run step guard start before) {event : Event} (meets : guard before event)
    (moves : step before event = some after) : Run step guard start after :=
  Relation.ReflTransGen.tail run ⟨event, meets, moves⟩

theorem Run.trans (first : Run step guard start before) (rest : Run step guard before after) :
    Run step guard start after :=
  Relation.ReflTransGen.trans first rest

/-- What every guarded step preserves, every guarded run preserves. -/
theorem Run.preserves (invariant : State → Prop)
    (preserved : ∀ before event after, invariant before → guard before event →
      step before event = some after → invariant after)
    (run : Run step guard start final) (initially : invariant start) : invariant final := by
  induction run with
  | refl => exact initially
  | tail _ last ih =>
      obtain ⟨event, meets, moves⟩ := last
      exact preserved _ event _ ih meets moves

theorem Run.weaken {weaker : State → Event → Prop}
    (implies : ∀ state event, guard state event → weaker state event)
    (run : Run step guard start final) : Run step weaker start final := by
  induction run with
  | refl => exact Run.refl
  | tail _ last ih =>
      obtain ⟨event, meets, moves⟩ := last
      exact ih.tail (implies _ _ meets) moves

/-- The states a run went through, the latest first, where the guard sees all of them. -/
inductive Trace (step : State → Event → Option State) (guard : List State → Event → Prop)
    (start : State) : List State → Prop where
  | start : Trace step guard start [start]
  | next {current after : State} {past : List State} {event : Event} :
      Trace step guard start (current :: past) → guard (current :: past) event →
      step current event = some after → Trace step guard start (after :: current :: past)

theorem Trace.preserves {guard : List State → Event → Prop} {invariant : List State → Prop}
    (preserved : ∀ current past event after, invariant (current :: past) →
      guard (current :: past) event → step current event = some after →
      invariant (after :: current :: past))
    {states : List State} (trace : Trace step guard start states) (initially : invariant [start]) :
    invariant states := by
  induction trace with
  | start => exact initially
  | next _ meets moves ih => exact preserved _ _ _ _ ih meets moves

instance (state : State) (event : Event) : Decidable (anyEvent state event) := .isTrue trivial

/-- The state a list of events leads to, where each of them meets the guard and can happen. -/
def exec (step : State → Event → Option State) (guard : State → Event → Prop)
    [∀ state event, Decidable (guard state event)] : State → List Event → Option State
  | state, [] => some state
  | state, event :: rest =>
      if guard state event then (step state event).bind fun next => exec step guard next rest
      else none

variable [∀ state event, Decidable (guard state event)] {events : List Event}

theorem Run.ofExec (reached : exec step guard start events = some final) :
    Run step guard start final := by
  induction events generalizing start with
  | nil =>
      cases reached
      exact Run.refl
  | cons event rest ih =>
      rw [exec] at reached
      split at reached
      · rename_i meets
        obtain ⟨next, moves, further⟩ := Option.bind_eq_some_iff.mp reached
        exact (Run.refl.tail meets moves).trans (ih further)
      · cases reached

theorem Run.ofSome (reaches : (exec step guard start events).isSome) :
    Run step guard start ((exec step guard start events).get reaches) :=
  Run.ofExec (Option.some_get reaches).symm

end IpTcp.Lib
