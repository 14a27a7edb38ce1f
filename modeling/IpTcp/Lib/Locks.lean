import Mathlib.Data.Fintype.Basic
import Mathlib.Logic.Function.Basic
import IpTcp.Lib.Run

/-! Threads that share locks. A thread is at a point of its code; the point says which locks the
thread holds there and which lock its next move takes. A lock that is held at a point and no longer
at the next one has been released between the two. A lock is not taken while it is held, and where
every thread takes its locks in the order of some rank, following those who wait leads to a thread
that can go on. -/

set_option autoImplicit false

namespace IpTcp.Lib

inductive Mode where
  | shared
  | exclusive
  deriving DecidableEq, Repr

/-- The code of a family of threads over shared data; a point may have several successors. -/
structure Code (Thread Lock Data : Type) (Point : Thread → Type) where
  holds : (thread : Thread) → Point thread → List (Lock × Mode)
  wants : (thread : Thread) → Point thread → Option (Lock × Mode)
  next : (thread : Thread) → Data → Point thread → List (Data × Point thread)
  gains : ∀ thread data point, ∀ after ∈ next thread data point,
    ∀ held ∈ holds thread after.2, held ∈ holds thread point ∨ wants thread point = some held

structure Threads {Thread : Type} (Data : Type) (Point : Thread → Type) where
  data : Data
  points : (thread : Thread) → Point thread

namespace Code

variable {Thread Lock Data : Type} {Point : Thread → Type}
  (code : Code Thread Lock Data Point)

section
variable (threads : Threads Data Point)

/-- Nobody holds the lock, or it is held and wanted for reading only. -/
def Compatible (wanted : Lock × Mode) : Prop :=
  ∀ other, ∀ held ∈ code.holds other (threads.points other),
    held.1 = wanted.1 → held.2 = .shared ∧ wanted.2 = .shared

instance [Fintype Thread] [DecidableEq Lock] (wanted : Lock × Mode) :
    Decidable (code.Compatible threads wanted) :=
  inferInstanceAs (Decidable (∀ other, ∀ held ∈ code.holds other (threads.points other),
    held.1 = wanted.1 → held.2 = .shared ∧ wanted.2 = .shared))

end

def step [Fintype Thread] [DecidableEq Thread] [DecidableEq Lock] (threads : Threads Data Point)
    (event : Thread × Nat) : Option (Threads Data Point) :=
  if ∀ wanted ∈ code.wants event.1 (threads.points event.1), code.Compatible threads wanted then
    (code.next event.1 threads.data (threads.points event.1))[event.2]?.map fun after =>
      ⟨after.1, Function.update threads.points event.1 after.2⟩
  else none

variable (threads : Threads Data Point)

def Exclusive : Prop :=
  ∀ one other lock mode, (lock, .exclusive) ∈ code.holds one (threads.points one) →
    (lock, mode) ∈ code.holds other (threads.points other) → one = other

def Busy (thread : Thread) : Prop :=
  code.holds thread (threads.points thread) ≠ [] ∨ code.wants thread (threads.points thread) ≠ none

/-- What keeps a thread from a lock: that another one holds it, and for a reader also that
another one waits to write. -/
def Blocks (wanted : Lock × Mode) (other : Thread) : Prop :=
  (∃ mode, (wanted.1, mode) ∈ code.holds other (threads.points other) ∧
    ¬ (mode = .shared ∧ wanted.2 = .shared)) ∨
  (wanted.2 = .shared ∧ code.wants other (threads.points other) = some (wanted.1, .exclusive))

def Waits (one other : Thread) : Prop :=
  ∃ wanted, code.wants one (threads.points one) = some wanted ∧ code.Blocks threads wanted other

def CanMove (thread : Thread) : Prop :=
  (∀ other, ¬ code.Waits threads thread other) ∧
    code.next thread threads.data (threads.points thread) ≠ []

/-- Following those who wait, one comes from the thread to one that can move, or to one that has
come to the end of its code with a lock. -/
def Leads (stuck : Thread → Prop) (thread : Thread) : Prop :=
  ∃ last, Relation.ReflTransGen (code.Waits threads) thread last ∧
    (code.CanMove threads last ∨ stuck last)

variable {code threads}

section
variable [Fintype Thread] [DecidableEq Thread] [DecidableEq Lock]

theorem step_moves {after : Threads Data Point} {thread : Thread} {choice : Nat}
    (moves : code.step threads (thread, choice) = some after) :
    (∀ wanted, code.wants thread (threads.points thread) = some wanted →
      code.Compatible threads wanted) ∧
    ∃ data point, (data, point) ∈ code.next thread threads.data (threads.points thread) ∧
      after = ⟨data, Function.update threads.points thread point⟩ := by
  unfold step at moves
  obtain ⟨compatible, happens⟩ := (Option.ite_none_right_eq_some).mp moves
  obtain ⟨⟨data, point⟩, chosen, same⟩ := Option.map_eq_some_iff.mp happens
  exact ⟨fun wanted wants => compatible wanted (Option.mem_def.mpr wants), data, point,
    List.mem_of_getElem? chosen, same.symm⟩

theorem Exclusive.step {after : Threads Data Point} {event : Thread × Nat}
    (exclusive : code.Exclusive threads) (moves : code.step threads event = some after) :
    code.Exclusive after := by
  obtain ⟨thread, choice⟩ := event
  obtain ⟨compatible, data, point, goes, rfl⟩ := step_moves moves
  intro one other lock mode holds holdsToo
  dsimp only at holds holdsToo
  by_cases moved : one = thread
  · subst moved
    by_cases same : other = one
    · exact same.symm
    rw [Function.update_self] at holds
    rw [Function.update_of_ne same] at holdsToo
    rcases code.gains _ _ _ _ goes _ holds with before | takes
    · exact exclusive _ _ _ _ before holdsToo
    · cases (compatible _ takes _ _ holdsToo rfl).2
  · rw [Function.update_of_ne moved] at holds
    by_cases same : other = thread
    · subst same
      rw [Function.update_self] at holdsToo
      rcases code.gains _ _ _ _ goes _ holdsToo with before | takes
      · exact exclusive _ _ _ _ holds before
      · cases (compatible _ takes _ _ holds rfl).1
    · rw [Function.update_of_ne same] at holdsToo
      exact exclusive _ _ _ _ holds holdsToo

end

theorem not_busy {thread : Thread} (holds : code.holds thread (threads.points thread) = [])
    (wants : code.wants thread (threads.points thread) = none) : ¬ code.Busy threads thread := by
  rintro (some | some)
  · exact some holds
  · exact some wants

theorem Waits.busy {one other : Thread} (waits : code.Waits threads one other) :
    code.Busy threads other := by
  obtain ⟨wanted, -, ⟨mode, holds, -⟩ | ⟨-, wants⟩⟩ := waits
  · exact .inl (List.ne_nil_of_mem holds)
  · exact .inr (by rw [wants]; exact Option.some_ne_none _)

section
variable {stuck : Thread → Prop}

theorem leads_of_free {thread : Thread}
    (ends : code.next thread threads.data (threads.points thread) = [] → stuck thread)
    (free : ∀ other, ¬ code.Waits threads thread other) : code.Leads threads stuck thread := by
  by_cases goes : code.next thread threads.data (threads.points thread) = []
  · exact ⟨thread, .refl, .inr (ends goes)⟩
  · exact ⟨thread, .refl, .inl ⟨free, goes⟩⟩

theorem Leads.head {one other : Thread} (waits : code.Waits threads one other)
    (leads : code.Leads threads stuck other) : code.Leads threads stuck one := by
  obtain ⟨last, chain, ends⟩ := leads
  exact ⟨last, .head waits chain, ends⟩

end

section
variable (code threads) (rank : Lock → Nat) (top : Nat)

/-- How far a thread has come: the rank of the lock it wants, with those who want to write ahead
of those who want to read, and last the threads that want nothing. -/
def progress (thread : Thread) : Nat :=
  match code.wants thread (threads.points thread) with
  | some wanted => 2 * rank wanted.1 + if wanted.2 = .exclusive then 1 else 0
  | none => 2 * top + 2

structure Ordered : Prop where
  bounded : ∀ lock, rank lock ≤ top
  rises : ∀ thread wanted, code.wants thread (threads.points thread) = some wanted →
    ∀ held ∈ code.holds thread (threads.points thread), rank held.1 < rank wanted.1

variable {code threads rank top}

theorem progress_le (ordered : code.Ordered threads rank top) (thread : Thread) :
    code.progress threads rank top thread ≤ 2 * top + 2 := by
  unfold progress
  split
  · rename_i wanted _
    have := ordered.bounded wanted.1
    split <;> omega
  · exact le_refl _

/-- A thread waits only for threads that have come further. -/
theorem Waits.progress_lt (ordered : code.Ordered threads rank top) {one other : Thread}
    (waits : code.Waits threads one other) :
    code.progress threads rank top one < code.progress threads rank top other := by
  obtain ⟨wanted, wants, blocks⟩ := waits
  have here : code.progress threads rank top one =
      2 * rank wanted.1 + if wanted.2 = .exclusive then 1 else 0 := by rw [progress, wants]
  have below := ordered.bounded wanted.1
  rw [here]
  rcases blocks with ⟨mode, holds, -⟩ | ⟨reads, writes⟩
  · cases wantsToo : code.wants other (threads.points other) with
    | some further =>
        have higher := ordered.rises other further wantsToo _ holds
        rw [progress, wantsToo]
        dsimp only at higher ⊢
        split <;> split <;> omega
    | none =>
        rw [progress, wantsToo]
        dsimp only
        split <;> omega
  · rw [progress, writes, reads]
    exact Nat.lt_succ_self _

/-- Locks taken in the order of a rank make no circle of threads that wait for each other. -/
theorem not_circular (ordered : code.Ordered threads rank top) (thread : Thread) :
    ¬ Relation.TransGen (code.Waits threads) thread thread := by
  intro circle
  have rises : ∀ {one other}, Relation.TransGen (code.Waits threads) one other →
      code.progress threads rank top one < code.progress threads rank top other := by
    intro one other chain
    induction chain with
    | single waits => exact waits.progress_lt ordered
    | tail _ waits ih => exact ih.trans (waits.progress_lt ordered)
  exact absurd (rises circle) (Nat.lt_irrefl _)

theorem leads_of_ordered (ordered : code.Ordered threads rank top) {stuck : Thread → Prop}
    (ends : ∀ thread, code.Busy threads thread →
      code.next thread threads.data (threads.points thread) = [] → stuck thread)
    {thread : Thread} (busy : code.Busy threads thread) : code.Leads threads stuck thread := by
  induction left : 2 * top + 2 - code.progress threads rank top thread
    using Nat.strong_induction_on generalizing thread with
  | _ n ih =>
      by_cases free : ∀ other, ¬ code.Waits threads thread other
      · exact leads_of_free (ends thread busy) free
      push Not at free
      obtain ⟨other, waits⟩ := free
      have further := waits.progress_lt ordered
      have bound := progress_le ordered other
      exact .head waits (ih _ (by omega) waits.busy rfl)

end

end Code

end IpTcp.Lib
