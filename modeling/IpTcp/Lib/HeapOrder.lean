import Mathlib.Logic.Equiv.Basic
import Mathlib.Order.WithBot
import IpTcp.Lib.Heap

/-! The order of a binary heap: no node is less than its parent. Sifting is followed on
the ranks by position, with everything past the end at the top, so that a swap of two
positions is a permutation of them. -/

set_option autoImplicit false

namespace IpTcp.Lib.Heap

section
variable {Rank : Type} [LinearOrder Rank] {ranks : Nat → Rank} {n i j : Nat}

def Ordered (n : Nat) (ranks : Nat → Rank) : Prop :=
  ∀ i, 0 < i → i < n → ranks ((i - 1) / 2) ≤ ranks i

theorem Ordered.root_le (ordered : Ordered n ranks) (i : Nat) (bound : i < n) : ranks 0 ≤ ranks i := by
  induction i using Nat.strongRecOn with
  | ind i ih =>
      rcases Nat.eq_zero_or_pos i with rfl | positive
      · exact le_refl _
      · exact (ih ((i - 1) / 2) (by omega) (by omega)).trans (ordered i positive bound)

/-- In order but for position `j`, which may be too small for its parent. -/
structure OrderedAbove (n : Nat) (ranks : Nat → Rank) (j : Nat) : Prop where
  elsewhere : ∀ i, 0 < i → i < n → i ≠ j → ranks ((i - 1) / 2) ≤ ranks i
  across : ∀ i, 0 < i → i < n → (i - 1) / 2 = j → 0 < j → ranks ((j - 1) / 2) ≤ ranks i

/-- In order but for position `i`, which may be too large for its children. -/
structure OrderedBelow (n : Nat) (ranks : Nat → Rank) (i : Nat) : Prop where
  elsewhere : ∀ c, 0 < c → c < n → (c - 1) / 2 ≠ i → ranks ((c - 1) / 2) ≤ ranks c
  across : ∀ c, 0 < c → c < n → (c - 1) / 2 = i → 0 < i → ranks ((i - 1) / 2) ≤ ranks c

/-- In order but for position `i`, which may be too small for its parent or too large for its
children. -/
structure OrderedAround (n : Nat) (ranks : Nat → Rank) (i : Nat) : Prop where
  elsewhere : ∀ c, 0 < c → c < n → c ≠ i → (c - 1) / 2 ≠ i → ranks ((c - 1) / 2) ≤ ranks c
  across : ∀ c, 0 < c → c < n → (c - 1) / 2 = i → 0 < i → ranks ((i - 1) / 2) ≤ ranks c

theorem OrderedBelow.around (below : OrderedBelow n ranks i) : OrderedAround n ranks i where
  elsewhere c positive bound _ notChild := below.elsewhere c positive bound notChild
  across := below.across

/-- Changing the rank at one position disturbs the order around that position only. -/
theorem Ordered.around {changed : Nat → Rank} (ordered : Ordered n ranks) (bound : i < n)
    (same : ∀ k, k ≠ i → changed k = ranks k) : OrderedAround n changed i where
  elsewhere c positive boundC other notChild := by
    rw [same c other, same _ notChild]
    exact ordered c positive boundC
  across c positive boundC child positiveI := by
    rw [same c (by omega), same _ (by omega)]
    have upper := ordered i positiveI bound
    have lower := ordered c positive boundC
    rw [child] at lower
    exact upper.trans lower

/-- A position that is not too large for its children can only be too small for its parent. -/
theorem OrderedAround.above (around : OrderedAround n ranks i)
    (small : ∀ c, 0 < c → c < n → (c - 1) / 2 = i → ranks i ≤ ranks c) : OrderedAbove n ranks i where
  elsewhere c positive bound other := by
    by_cases child : (c - 1) / 2 = i
    · rw [child]
      exact small c positive bound child
    · exact around.elsewhere c positive bound other child
  across := around.across

theorem OrderedAbove.done (above : OrderedAbove n ranks j)
    (settled : (j - 1) / 2 = j ∨ ranks ((j - 1) / 2) ≤ ranks j) : Ordered n ranks := by
  intro i positive bound
  by_cases here : i = j
  · subst here
    rcases settled with top | inOrder
    · omega
    · exact inOrder
  · exact above.elsewhere i positive bound here

theorem OrderedAbove.swap (above : OrderedAbove n ranks j) (positive : 0 < j)
    (less : ranks j < ranks ((j - 1) / 2)) :
    OrderedAbove n (ranks ∘ Equiv.swap ((j - 1) / 2) j) ((j - 1) / 2) := by
  generalize parent : (j - 1) / 2 = p at less ⊢
  have distinct : p ≠ j := by omega
  have atParent : (ranks ∘ Equiv.swap p j) p = ranks j := by simp
  have atChild : (ranks ∘ Equiv.swap p j) j = ranks p := by simp
  have other : ∀ m, m ≠ p → m ≠ j → (ranks ∘ Equiv.swap p j) m = ranks m := fun m notP notJ => by
    simp [Equiv.swap_apply_of_ne_of_ne notP notJ]
  constructor
  · intro i positiveI boundI notParent
    by_cases child : i = j
    · rw [child, parent, atParent, atChild]
      exact le_of_lt less
    rw [other i notParent child]
    -- A child of `j` now has the former parent above it.
    by_cases below : (i - 1) / 2 = j
    · rw [below, atChild, ← parent]
      exact above.across i positiveI boundI below positive
    -- The other child of the parent has something smaller above it than before.
    by_cases sibling : (i - 1) / 2 = p
    · rw [sibling, atParent]
      have kept := above.elsewhere i positiveI boundI child
      rw [sibling] at kept
      exact (le_of_lt less).trans kept
    · rw [other _ sibling below]
      exact above.elsewhere i positiveI boundI child
  · intro i positiveI boundI sibling positiveP
    rw [other ((p - 1) / 2) (by omega) (by omega)]
    have grand := above.elsewhere p positiveP (by omega) distinct
    by_cases child : i = j
    · rw [child, atChild]
      exact grand
    · rw [other i (by omega) child]
      have kept := above.elsewhere i positiveI boundI child
      rw [sibling] at kept
      exact grand.trans kept

theorem OrderedBelow.leaf (below : OrderedBelow n ranks i) (leaf : n ≤ 2 * i + 1) : Ordered n ranks :=
  fun c positive bound => below.elsewhere c positive bound (by omega)

def LeastChild (n : Nat) (ranks : Nat → Rank) (i j : Nat) : Prop :=
  (j - 1) / 2 = i ∧ 0 < j ∧ j < n ∧ ∀ c, 0 < c → c < n → (c - 1) / 2 = i → ranks j ≤ ranks c

theorem OrderedBelow.done (below : OrderedBelow n ranks i) (least : LeastChild n ranks i j)
    (settled : ranks i ≤ ranks j) : Ordered n ranks := by
  intro c positive bound
  by_cases here : (c - 1) / 2 = i
  · rw [here]
    exact settled.trans (least.2.2.2 c positive bound here)
  · exact below.elsewhere c positive bound here

theorem OrderedAround.swap (around : OrderedAround n ranks i) (least : LeastChild n ranks i j)
    (less : ranks j < ranks i) : OrderedBelow n (ranks ∘ Equiv.swap i j) j := by
  -- What is too large is now at the child, and nothing else is.
  obtain ⟨parent, positive, bound, least⟩ := least
  have atParent : (ranks ∘ Equiv.swap i j) i = ranks j := by simp
  have atChild : (ranks ∘ Equiv.swap i j) j = ranks i := by simp
  have other : ∀ m, m ≠ i → m ≠ j → (ranks ∘ Equiv.swap i j) m = ranks m := fun m notI notJ => by
    simp [Equiv.swap_apply_of_ne_of_ne notI notJ]
  constructor
  · intro c positiveC boundC notBelow
    by_cases child : c = j
    · rw [child, parent, atParent, atChild]
      exact le_of_lt less
    by_cases sibling : (c - 1) / 2 = i
    · rw [sibling, atParent, other c (by omega) child]
      exact least c positiveC boundC sibling
    rw [other _ sibling notBelow]
    by_cases top : c = i
    · rw [top, atParent]
      exact around.across j positive bound parent (by omega)
    · rw [other c top child]
      exact around.elsewhere c positiveC boundC top sibling
  · intro c positiveC boundC child _
    rw [parent, atParent, other c (by omega) (by omega)]
    have kept := around.elsewhere c positiveC boundC (by omega) (by omega)
    rw [child] at kept
    exact kept

end

variable {Collection Item Key Rank : Type}

/-- The rank at a position; past the end there is the top. -/
def rankAt (rank : Key → Rank) (keys : List Key) (i : Nat) : WithTop Rank :=
  match keys[i]? with
  | some key => (rank key : WithTop Rank)
  | none => ⊤

theorem rankAt_swap (rank : Key → Rank) {keys : List Key} {i j : Nat} {left right : Key}
    (atI : keys[i]? = some left) (atJ : keys[j]? = some right) :
    rankAt rank ((keys.set i right).set j left) = rankAt rank keys ∘ Equiv.swap i j := by
  obtain ⟨boundI, _⟩ := List.getElem?_eq_some_iff.mp atI
  obtain ⟨boundJ, _⟩ := List.getElem?_eq_some_iff.mp atJ
  funext m
  by_cases isJ : m = j
  · subst isJ
    have set : ((keys.set i right).set m left)[m]? = some left := by
      simp [boundJ]
    simp only [rankAt, set, Function.comp, Equiv.swap_apply_right, atI]
  by_cases isI : m = i
  · subst isI
    have set : ((keys.set m right).set j left)[m]? = some right := by
      rw [List.getElem?_set_ne (Ne.symm isJ), List.getElem?_set_self boundI]
    simp only [rankAt, set, Function.comp, Equiv.swap_apply_left, atJ]
  · have set : ((keys.set i right).set j left)[m]? = keys[m]? := by
      rw [List.getElem?_set_ne (Ne.symm isJ), List.getElem?_set_ne (Ne.symm isI)]
    simp only [rankAt, set, Function.comp, Equiv.swap_apply_of_ne_of_ne isI isJ]

theorem Lawful.rankAt_swap {interface : Interface Collection Item} {view : Collection → List Key}
    {key : Item → Key} (lawful : Lawful interface view key) (rank : Key → Rank) {items : Collection}
    {i j : Nat} (boundI : i < (view items).length) (boundJ : j < (view items).length) :
    rankAt rank (view (interface.swap items i j)) = rankAt rank (view items) ∘ Equiv.swap i j := by
  have atI := List.getElem?_eq_getElem boundI
  have atJ := List.getElem?_eq_getElem boundJ
  rw [lawful.swap_view items i j _ atI _ atJ]
  exact Heap.rankAt_swap rank atI atJ

variable [LinearOrder Rank]

def Ranked (interface : Interface Collection Item) (view : Collection → List Key) (rank : Key → Rank) :
    Prop :=
  ∀ items i j, i < (view items).length → j < (view items).length →
    (interface.less items i j = true ↔ rankAt rank (view items) i < rankAt rank (view items) j)

def IsHeap (view : Collection → List Key) (rank : Key → Rank) (items : Collection) : Prop :=
  Ordered (view items).length (rankAt rank (view items))

section
variable {interface : Interface Collection Item} {view : Collection → List Key} {key : Item → Key}
  {rank : Key → Rank} {items : Collection}

theorem IsHeap.root_le (heap : IsHeap view rank items) {root : Key} {others : List Key}
    (nonempty : view items = root :: others) (other : Key) (member : other ∈ view items) :
    rank root ≤ rank other := by
  obtain ⟨i, bound, same⟩ := List.mem_iff_getElem.mp member
  have least : rankAt rank (view items) 0 ≤ rankAt rank (view items) i := Ordered.root_le heap i bound
  have atRoot : (view items)[0]? = some root := by rw [nonempty]; rfl
  have here : (view items)[i]? = some other := same ▸ List.getElem?_eq_getElem bound
  simp only [rankAt, atRoot, here] at least
  exact WithTop.coe_le_coe.mp least

theorem Ranked.child_least (ranked : Ranked interface view rank) {n i : Nat} (hasChild : 2 * i + 1 < n)
    (bound : n ≤ (view items).length) :
    LeastChild n (rankAt rank (view items)) i (child interface n items i) := by
  unfold child
  dsimp only
  split
  · rename_i right
    have less := (ranked items _ _ (by omega) (by omega)).mp right.2
    refine ⟨by omega, by omega, by omega, fun c _ _ sibling => ?_⟩
    rcases (show c = 2 * i + 1 ∨ c = 2 * i + 1 + 1 by omega) with rfl | rfl
    · exact le_of_lt less
    · exact le_refl _
  · rename_i left
    refine ⟨by omega, by omega, by omega, fun c _ boundC sibling => ?_⟩
    rcases (show c = 2 * i + 1 ∨ c = 2 * i + 1 + 1 by omega) with rfl | rfl
    · exact le_refl _
    · refine le_of_not_gt fun less => left ⟨boundC, ?_⟩
      exact (ranked items _ _ (by omega) (by omega)).mpr less

variable (lawful : Lawful interface view key) (ranked : Ranked interface view rank)
include lawful ranked

/-- `up` mends an order that only its position disturbs. -/
theorem Lawful.up_ordered (fuel : Nat) (items : Collection) (j : Nat) (enough : j < fuel)
    (bound : j < (view items).length)
    (above : OrderedAbove (view items).length (rankAt rank (view items)) j) :
    IsHeap view rank (up interface fuel items j) := by
  induction fuel generalizing items j with
  | zero => omega
  | succ fuel ih =>
      have parentBound : (j - 1) / 2 < (view items).length := by omega
      have compare := ranked items j ((j - 1) / 2) bound parentBound
      simp only [up]
      split
      · rename_i stops
        refine above.done (stops.imp_right fun notLess => ?_)
        exact le_of_not_gt fun less => by simp [compare.mpr less] at notLess
      · rename_i goes
        simp only [not_or, Bool.not_eq_false] at goes
        have same := lawful.swap_length items parentBound bound
        have swapped := above.swap (by omega) (compare.mp goes.2)
        rw [← lawful.rankAt_swap rank parentBound bound, ← same] at swapped
        exact ih _ _ (by omega) (by omega) swapped

/-- `down` mends an order of the first `n` positions that only its position disturbs. -/
theorem Lawful.down_ordered (n fuel : Nat) (items : Collection) (i : Nat) (enough : n ≤ fuel + i)
    (bound : n ≤ (view items).length) (below : OrderedBelow n (rankAt rank (view items)) i) :
    Ordered n (rankAt rank (view (down interface n fuel items i).1)) := by
  induction fuel generalizing items i with
  | zero => exact below.leaf (by omega)
  | succ fuel ih =>
      simp only [down]
      split
      · rename_i leaf
        exact below.leaf leaf
      rename_i inner
      have least := ranked.child_least (Nat.lt_of_not_le inner) bound
      generalize child interface n items i = j at least ⊢
      have boundI : i < (view items).length := by omega
      have boundJ : j < (view items).length := by have := least.2.2.1; omega
      have compare := ranked items j i boundJ boundI
      split
      · rename_i notLess
        refine below.done least (le_of_not_gt fun less => ?_)
        simp [compare.mpr less] at notLess
      · rename_i goes
        rw [Bool.not_eq_false] at goes
        have same := lawful.swap_length items boundI boundJ
        have swapped := below.around.swap least (compare.mp goes)
        rw [← lawful.rankAt_swap rank boundI boundJ] at swapped
        -- The position grows with every turn, so the fuel does not run out.
        have further : i < j := by have := least.1; have := least.2.1; omega
        exact ih _ _ (by omega) (by omega) swapped

/-- `heap.Fix` mends an order that its position disturbs either way. -/
theorem Lawful.fix_heap (items : Collection) (i : Nat) (bound : i < (view items).length)
    (around : OrderedAround (view items).length (rankAt rank (view items)) i) :
    IsHeap view rank (fix interface items i) := by
  have count := lawful.len_view items
  obtain ⟨fuel, enough⟩ : ∃ fuel, (view items).length = fuel + 1 :=
    Nat.exists_eq_succ_of_ne_zero (by omega)
  simp only [fix, count]
  -- with nothing less below it, the item stays for `down`, and `up` takes over
  have stays : (∀ c, 0 < c → c < (view items).length → (c - 1) / 2 = i →
        rankAt rank (view items) i ≤ rankAt rank (view items) c) →
      IsHeap view rank (up interface (view items).length items i) := fun small =>
    lawful.up_ordered ranked _ items i bound bound (around.above small)
  by_cases leaf : (view items).length ≤ 2 * i + 1
  · have here : down interface (view items).length (view items).length items i = (items, i) := by
      rw [enough, down, if_pos (by omega)]
    rw [here, if_neg (Nat.lt_irrefl i)]
    exact stays fun c _ boundC child => absurd boundC (by omega)
  have least := @Ranked.child_least _ _ _ _ _ _ _ _ items ranked (view items).length i (by omega)
    (Nat.le_refl _)
  have turn : down interface (view items).length (view items).length items i =
      if interface.less items (child interface (view items).length items i) i = false then (items, i)
      else down interface (view items).length fuel
        (interface.swap items i (child interface (view items).length items i))
        (child interface (view items).length items i) := by
    nth_rewrite 2 [enough]
    rw [down, if_neg leaf]
  rw [turn]
  generalize child interface (view items).length items i = j at least ⊢
  have boundJ : j < (view items).length := least.2.2.1
  have compare := ranked items j i boundJ bound
  split
  · rename_i notLess
    rw [if_neg (Nat.lt_irrefl i)]
    refine stays fun c positive boundC child => ?_
    refine le_trans (le_of_not_gt fun less => ?_) (least.2.2.2 c positive boundC child)
    simp [compare.mpr less] at notLess
  · rename_i goes
    rw [Bool.not_eq_false] at goes
    have same := lawful.swap_length items bound boundJ
    have swapped := around.swap least (compare.mp goes)
    rw [← lawful.rankAt_swap rank bound boundJ] at swapped
    have further : i < j := by have := least.1; have := least.2.1; omega
    have ordered := lawful.down_ordered ranked _ fuel _ j (by omega) (by omega) swapped
    have length : (view (down interface (view items).length fuel (interface.swap items i j) j).1).length =
        (view items).length :=
      (lawful.down_perm _ fuel _ j boundJ (by omega)).1.length_eq.trans same
    have moved : i < (down interface (view items).length fuel (interface.swap items i j) j).2 := by
      rcases down_stops interface (view items).length fuel (interface.swap items i j) j with stays | moves
      · rw [stays]
        exact further
      · exact further.trans moves
    rw [if_pos moved, IsHeap, length]
    exact ordered

theorem Lawful.push_heap (heap : IsHeap view rank items) (item : Item) :
    IsHeap view rank (push interface items item) := by
  have pushed := lawful.push_view items item
  have length : (view (interface.push items item)).length = (view items).length + 1 := by
    rw [pushed, List.length_append, List.length_singleton]
  have count : interface.len (interface.push items item) = (view items).length + 1 := by
    rw [lawful.len_view, length]
  simp only [push, count, Nat.add_sub_cancel]
  refine lawful.up_ordered ranked _ _ _ (by omega) (by omega) ⟨?_, ?_⟩
  · intro i positive bound notLast
    have old : ∀ m, m < (view items).length →
        rankAt rank (view (interface.push items item)) m = rankAt rank (view items) m := by
      intro m small
      simp only [rankAt, pushed, List.getElem?_append_left small]
    rw [old _ (by omega), old _ (by omega)]
    exact heap i positive (by omega)
  · intro i positive bound child _
    omega

theorem Lawful.pop_heap (heap : IsHeap view rank items) {root : Key} {others : List Key}
    (nonempty : view items = root :: others) :
    ∃ item rest, pop interface items = some (item, rest) ∧ IsHeap view rank rest := by
  obtain ⟨item, rest, popped, _, perm, sifted⟩ := lawful.pop_sifted items root others nonempty
  have length : (view items).length = others.length + 1 := by rw [nonempty]; rfl
  have boundRoot : 0 < (view items).length := by omega
  have boundLast : others.length < (view items).length := by omega
  have same := lawful.swap_length items boundRoot boundLast
  -- only the root has been replaced among the positions that `down` looks at
  have below : OrderedBelow others.length
      (rankAt rank (view (interface.swap items 0 others.length))) 0 := by
    rw [lawful.rankAt_swap rank boundRoot boundLast]
    refine ⟨fun c positive bound notChild => ?_, fun c _ _ _ positive => absurd positive (by omega)⟩
    have kept : ∀ m, m ≠ 0 → m ≠ others.length →
        (rankAt rank (view items) ∘ Equiv.swap 0 others.length) m = rankAt rank (view items) m :=
      fun m notRoot notLast => by simp [Equiv.swap_apply_of_ne_of_ne notRoot notLast]
    rw [kept _ notChild (by omega), kept c (by omega) (by omega)]
    exact heap c positive (by omega)
  have ordered := lawful.down_ordered ranked others.length others.length _ 0 (by omega) (by omega) below
  refine ⟨item, rest, popped, fun i positive bound => ?_⟩
  have kept : ∀ m, m < (view rest).length →
      rankAt rank (view rest ++ [root]) m = rankAt rank (view rest) m := fun m small => by
    simp only [rankAt, List.getElem?_append_left small]
  rw [sifted] at ordered
  have inOrder := ordered i positive (perm.length_eq ▸ bound)
  rwa [kept _ (by omega), kept _ bound] at inOrder

end

end IpTcp.Lib.Heap
