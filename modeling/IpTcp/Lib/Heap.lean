import Mathlib.Data.List.Perm.Basic

/-! The binary heap of Go's `container/heap`, over anything that offers its
interface. The algorithms touch the collection only through that interface, so
what they do is stated over a view of the collection as a list. -/

set_option autoImplicit false

namespace IpTcp.Lib.Heap

/-- `heap.Interface`: `sort.Interface` with `Push` and `Pop` at the end of the
collection. Popping an empty collection is an index out of range in Go. -/
structure Interface (Collection Item : Type) where
  len : Collection → Nat
  less : Collection → Nat → Nat → Bool
  swap : Collection → Nat → Nat → Collection
  push : Collection → Item → Collection
  pop : Collection → Option (Item × Collection)

variable {Collection Item : Type} (interface : Interface Collection Item)

/-- `up(h, j)`; the parent of position zero is zero, which ends the loop. -/
def up : (fuel : Nat) → Collection → Nat → Collection
  | 0, items, _ => items
  | fuel + 1, items, j =>
      let i := (j - 1) / 2
      if i = j ∨ interface.less items j i = false then items
      else up fuel (interface.swap items i j) i

def child (n : Nat) (items : Collection) (i : Nat) : Nat :=
  let j1 := 2 * i + 1
  let j2 := j1 + 1
  if j2 < n ∧ interface.less items j2 j1 = true then j2 else j1

def down (n : Nat) : (fuel : Nat) → Collection → Nat → Collection × Nat
  | 0, items, i => (items, i)
  | fuel + 1, items, i =>
      if n ≤ 2 * i + 1 then (items, i)
      else
        let j := child interface n items i
        if interface.less items j i = false then (items, i)
        else down n fuel (interface.swap items i j) j

def push (items : Collection) (item : Item) : Collection :=
  let pushed := interface.push items item
  up interface (interface.len pushed) pushed (interface.len pushed - 1)

def pop (items : Collection) : Option (Item × Collection) :=
  let n := interface.len items - 1
  let swapped := interface.swap items 0 n
  interface.pop (down interface n n swapped 0).1

/-- `heap.Fix`: sifts the item at `i` down, or up if it does not move. -/
def fix (items : Collection) (i : Nat) : Collection :=
  let n := interface.len items
  let (sifted, stopped) := down interface n n items i
  if i < stopped then sifted else up interface n sifted i

/-- The collection seen as a list of keys: what `Swap`, `Push` and `Pop` do to it. -/
structure Lawful (interface : Interface Collection Item) {Key : Type}
    (view : Collection → List Key) (key : Item → Key) : Prop where
  len_view : ∀ items, interface.len items = (view items).length
  swap_view : ∀ items i j, ∀ left ∈ (view items)[i]?, ∀ right ∈ (view items)[j]?,
    view (interface.swap items i j) = ((view items).set i right).set j left
  push_view : ∀ items item, view (interface.push items item) = view items ++ [key item]
  pop_view : ∀ items front last, view items = front ++ [last] →
    ∃ item rest, interface.pop items = some (item, rest) ∧ key item = last ∧ view rest = front

variable {interface} {Key : Type} {view : Collection → List Key} {key : Item → Key}

theorem set_set_perm {keys : List Key} {i j : Nat} {left right : Key}
    (atI : keys[i]? = some left) (atJ : keys[j]? = some right) :
    ((keys.set i right).set j left).Perm keys := by
  obtain ⟨boundI, rfl⟩ := List.getElem?_eq_some_iff.mp atI
  obtain ⟨boundJ, rfl⟩ := List.getElem?_eq_some_iff.mp atJ
  exact List.set_set_perm boundI boundJ

theorem Lawful.swap_perm (lawful : Lawful interface view key) (items : Collection) {i j : Nat}
    (boundI : i < (view items).length) (boundJ : j < (view items).length) :
    (view (interface.swap items i j)).Perm (view items) := by
  have atI := List.getElem?_eq_getElem boundI
  have atJ := List.getElem?_eq_getElem boundJ
  rw [lawful.swap_view items i j _ atI _ atJ]
  exact set_set_perm atI atJ

theorem Lawful.swap_length (lawful : Lawful interface view key) (items : Collection) {i j : Nat}
    (boundI : i < (view items).length) (boundJ : j < (view items).length) :
    (view (interface.swap items i j)).length = (view items).length :=
  (lawful.swap_perm items boundI boundJ).length_eq

theorem Lawful.up_perm (lawful : Lawful interface view key) (fuel : Nat) (items : Collection)
    (j : Nat) (bound : j < (view items).length) :
    (view (up interface fuel items j)).Perm (view items) := by
  induction fuel generalizing items j with
  | zero => exact List.Perm.refl _
  | succ fuel ih =>
      simp only [up]
      split
      · exact List.Perm.refl _
      · have parentBound : (j - 1) / 2 < (view items).length := by omega
        have same := lawful.swap_length items parentBound bound
        exact (ih _ _ (by omega)).trans (lawful.swap_perm items parentBound bound)

theorem child_lt (interface : Interface Collection Item) (items : Collection) {n i : Nat}
    (hasChild : 2 * i + 1 < n) : child interface n items i < n := by
  simp only [child]
  split <;> omega

/-- `down` rearranges the first `n` positions and leaves the others alone. -/
theorem Lawful.down_perm (lawful : Lawful interface view key) (n fuel : Nat) (items : Collection)
    (i : Nat) (small : i < n) (bound : n ≤ (view items).length) :
    (view (down interface n fuel items i).1).Perm (view items) ∧
      ∀ m, n ≤ m → (view (down interface n fuel items i).1)[m]? = (view items)[m]? := by
  induction fuel generalizing items i with
  | zero => exact ⟨List.Perm.refl _, fun _ _ => rfl⟩
  | succ fuel ih =>
      simp only [down]
      split
      · exact ⟨List.Perm.refl _, fun _ _ => rfl⟩
      split
      · exact ⟨List.Perm.refl _, fun _ _ => rfl⟩
      · rename_i hasChild _
        have below := child_lt interface items (Nat.lt_of_not_le hasChild)
        generalize child interface n items i = j at below ⊢
        have boundI : i < (view items).length := by omega
        have boundJ : j < (view items).length := by omega
        have same := lawful.swap_length items boundI boundJ
        obtain ⟨perm, fixed⟩ := ih (interface.swap items i j) j below (by omega)
        refine ⟨perm.trans (lawful.swap_perm items boundI boundJ), fun m past => ?_⟩
        rw [fixed m past, lawful.swap_view items i j _ (List.getElem?_eq_getElem boundI) _
          (List.getElem?_eq_getElem boundJ), List.getElem?_set_ne (by omega),
          List.getElem?_set_ne (by omega)]

/-- `down` stops where it started, with nothing moved, or further down. -/
theorem down_stops (interface : Interface Collection Item) (n fuel : Nat) (items : Collection) (i : Nat) :
    down interface n fuel items i = (items, i) ∨ i < (down interface n fuel items i).2 := by
  induction fuel generalizing items i with
  | zero => exact Or.inl rfl
  | succ fuel ih =>
      simp only [down]
      split
      · exact Or.inl rfl
      split
      · exact Or.inl rfl
      · have further : i < child interface n items i := by
          simp only [child]
          split <;> omega
        generalize child interface n items i = j at further ⊢
        rcases ih (interface.swap items i j) j with stays | moves
        · rw [stays]
          exact Or.inr further
        · exact Or.inr (Nat.lt_trans further moves)

theorem Lawful.up_keeps (lawful : Lawful interface view key) (kept : Collection → Prop)
    (swaps : ∀ items i j, i < (view items).length → j < (view items).length → kept items →
      kept (interface.swap items i j))
    (fuel : Nat) (items : Collection) (j : Nat) (bound : j < (view items).length) (holds : kept items) :
    kept (up interface fuel items j) := by
  induction fuel generalizing items j with
  | zero => exact holds
  | succ fuel ih =>
      simp only [up]
      split
      · exact holds
      · have parentBound : (j - 1) / 2 < (view items).length := by omega
        have same := lawful.swap_length items parentBound bound
        exact ih _ _ (by omega) (swaps items _ _ parentBound bound holds)

theorem Lawful.down_keeps (lawful : Lawful interface view key) (kept : Collection → Prop)
    (swaps : ∀ items i j, i < (view items).length → j < (view items).length → kept items →
      kept (interface.swap items i j))
    (n fuel : Nat) (items : Collection) (i : Nat) (bound : n ≤ (view items).length)
    (holds : kept items) : kept (down interface n fuel items i).1 := by
  induction fuel generalizing items i with
  | zero => exact holds
  | succ fuel ih =>
      simp only [down]
      split
      · exact holds
      split
      · exact holds
      · rename_i hasChild _
        have below := child_lt interface items (Nat.lt_of_not_le hasChild)
        generalize child interface n items i = j at below ⊢
        have boundI : i < (view items).length := by omega
        have boundJ : j < (view items).length := by omega
        have same := lawful.swap_length items boundI boundJ
        exact ih _ _ (by omega) (swaps items i j boundI boundJ holds)

/-- `heap.Fix` rearranges the collection by swaps. -/
theorem Lawful.fix_keeps (lawful : Lawful interface view key) (kept : Collection → Prop)
    (swaps : ∀ items i j, i < (view items).length → j < (view items).length → kept items →
      kept (interface.swap items i j))
    (items : Collection) (i : Nat) (bound : i < (view items).length) (holds : kept items) :
    kept (fix interface items i) := by
  have count := lawful.len_view items
  have sifted := lawful.down_keeps kept swaps (interface.len items) (interface.len items) items i
    (by omega) holds
  have stops := down_stops interface (interface.len items) (interface.len items) items i
  simp only [fix]
  split
  · exact sifted
  · rename_i stays
    rw [stops.resolve_right stays]
    exact lawful.up_keeps kept swaps _ _ _ bound holds

theorem Lawful.fix_perm (lawful : Lawful interface view key) (items : Collection) (i : Nat)
    (bound : i < (view items).length) : (view (fix interface items i)).Perm (view items) :=
  lawful.fix_keeps (fun other => (view other).Perm (view items))
    (fun other _ _ boundI boundJ perm => (lawful.swap_perm other boundI boundJ).trans perm)
    items i bound (List.Perm.refl _)

theorem Lawful.push_perm (lawful : Lawful interface view key) (items : Collection) (item : Item) :
    (view (push interface items item)).Perm (key item :: view items) := by
  have pushed := lawful.push_view items item
  have bound : interface.len (interface.push items item) - 1 <
      (view (interface.push items item)).length := by
    rw [lawful.len_view, pushed, List.length_append, List.length_singleton]
    omega
  refine (lawful.up_perm _ _ _ bound).trans ?_
  rw [pushed]
  exact List.perm_append_comm

/-- Before `Pop` takes it from the end, `heap.Pop` has brought the root there. -/
theorem Lawful.sifted_last (lawful : Lawful interface view key) (items : Collection) (root : Key)
    (others : List Key) (nonempty : view items = root :: others) :
    ∃ front, view (down interface others.length others.length
        (interface.swap items 0 others.length) 0).1 = front ++ [root] ∧ front.Perm others := by
  have length : (view items).length = others.length + 1 := by rw [nonempty]; rfl
  have boundRoot : 0 < (view items).length := by omega
  have boundLast : others.length < (view items).length := by omega
  have same := lawful.swap_length items boundRoot boundLast
  -- after the swap the root stands last
  have last : (view (interface.swap items 0 others.length))[others.length]? = some root := by
    rw [lawful.swap_view items 0 _ root (by simp [nonempty]) _ (List.getElem?_eq_getElem boundLast)]
    rw [List.getElem?_set_self (by simpa using boundLast)]
  -- and `down` works strictly before it
  have settled : (view (down interface others.length others.length
        (interface.swap items 0 others.length) 0).1).Perm (view items) ∧
      (view (down interface others.length others.length
        (interface.swap items 0 others.length) 0).1)[others.length]? = some root := by
    rcases Nat.eq_zero_or_pos others.length with none | some
    · rw [none] at last ⊢
      exact ⟨lawful.swap_perm items boundRoot boundRoot, last⟩
    · obtain ⟨perm, fixed⟩ := lawful.down_perm others.length others.length
        (interface.swap items 0 others.length) 0 some (by omega)
      exact ⟨perm.trans (lawful.swap_perm items boundRoot boundLast),
        (fixed _ (Nat.le_refl _)).trans last⟩
  generalize view (down interface others.length others.length
    (interface.swap items 0 others.length) 0).1 = sifted at settled ⊢
  obtain ⟨perm, atLast⟩ := settled
  have total : sifted.length = others.length + 1 := perm.length_eq.trans length
  obtain ⟨front, final, split⟩ : ∃ front final, sifted = front ++ [final] :=
    ⟨_, _, (List.dropLast_append_getLast (by intro empty; simp [empty] at total)).symm⟩
  have frontLength : front.length = others.length := by
    rw [split, List.length_append, List.length_singleton] at total
    omega
  have isRoot : final = root := by
    rw [split, ← frontLength, List.getElem?_concat_length] at atLast
    exact Option.some.inj atLast
  subst isRoot
  refine ⟨front, split, ?_⟩
  rw [split, nonempty] at perm
  exact (List.perm_cons final).mp (List.perm_append_comm.trans perm)

theorem Lawful.pop_sifted (lawful : Lawful interface view key) (items : Collection) (root : Key)
    (others : List Key) (nonempty : view items = root :: others) :
    ∃ item rest, pop interface items = some (item, rest) ∧ key item = root ∧
      (view rest).Perm others ∧ view (down interface others.length others.length
        (interface.swap items 0 others.length) 0).1 = view rest ++ [root] := by
  have count : interface.len items - 1 = others.length := by
    rw [lawful.len_view, nonempty, List.length_cons, Nat.add_sub_cancel]
  obtain ⟨front, sifted, perm⟩ := lawful.sifted_last items root others nonempty
  obtain ⟨item, rest, popped, keyed, viewed⟩ := lawful.pop_view _ front root sifted
  refine ⟨item, rest, ?_, keyed, viewed ▸ perm, viewed ▸ sifted⟩
  simp only [pop, count]
  exact popped

structure Simulates {Abstract AbstractItem : Type} (interface : Interface Collection Item)
    (abstract : Interface Abstract AbstractItem) (item : Item → AbstractItem)
    (all : Collection → Abstract) : Prop where
  len : ∀ items, abstract.len (all items) = interface.len items
  less : ∀ items i j, abstract.less (all items) i j = interface.less items i j
  swap : ∀ items i j, abstract.swap (all items) i j = all (interface.swap items i j)
  push : ∀ items added, abstract.push (all items) (item added) = all (interface.push items added)
  pop : ∀ items, abstract.pop (all items) = (interface.pop items).map (Prod.map item all)

section
variable {Abstract AbstractItem : Type} {abstract : Interface Abstract AbstractItem}
  {item : Item → AbstractItem} {all : Collection → Abstract}

theorem Simulates.up (simulates : Simulates interface abstract item all) (fuel : Nat)
    (items : Collection) (j : Nat) : up abstract fuel (all items) j = all (up interface fuel items j) := by
  induction fuel generalizing items j with
  | zero => rfl
  | succ fuel ih =>
      simp only [Heap.up, simulates.less, simulates.swap, ih]
      split <;> rfl

theorem Simulates.down (simulates : Simulates interface abstract item all) (n fuel : Nat)
    (items : Collection) (i : Nat) :
    down abstract n fuel (all items) i = Prod.map all id (down interface n fuel items i) := by
  induction fuel generalizing items i with
  | zero => rfl
  | succ fuel ih =>
      have same : child abstract n (all items) i = child interface n items i := by
        simp only [child, simulates.less]
      simp only [Heap.down, same, simulates.less, simulates.swap]
      split
      · rfl
      split
      · rfl
      · exact ih _ _

theorem Simulates.heapPush (simulates : Simulates interface abstract item all) (items : Collection)
    (added : Item) :
    Heap.push abstract (all items) (item added) = all (Heap.push interface items added) := by
  simp only [Heap.push, simulates.push, simulates.len, simulates.up]

theorem Simulates.heapPop (simulates : Simulates interface abstract item all) (items : Collection) :
    Heap.pop abstract (all items) = (Heap.pop interface items).map (Prod.map item all) := by
  simp only [Heap.pop, simulates.len, simulates.swap, simulates.down, simulates.pop, Prod.map_fst]

end

/-- A renaming of the items that the interface does not notice. -/
structure Natural (interface : Interface Collection Item) (rename : Item → Item)
    (all : Collection → Collection) : Prop where
  len : ∀ items, interface.len (all items) = interface.len items
  less : ∀ items i j, interface.less (all items) i j = interface.less items i j
  swap : ∀ items i j, interface.swap (all items) i j = all (interface.swap items i j)
  push : ∀ items item, interface.push (all items) (rename item) = all (interface.push items item)
  pop : ∀ items, interface.pop (all items) = (interface.pop items).map (Prod.map rename all)

theorem Natural.simulates {rename : Item → Item} {all : Collection → Collection}
    (natural : Natural interface rename all) : Simulates interface interface rename all :=
  { natural with }

end IpTcp.Lib.Heap
